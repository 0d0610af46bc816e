import Mathlib.Data.List.Basic
import Mathlib.Tactic.Common

/-! # Reading the front of a stream

A scan looks at the items that have arrived so far. It answers a value and how
many items it took, that it needs more of them, or that no more would help. An
incremental scan may be asked again whenever more has arrived: once it has an
answer, the answer stays, and while it has none, one is still possible. A
spelling of a value is what a scan takes for it wherever it stands.
-/

namespace RtosMqtt

inductive Front (α : Type) where
  | whole (a : α) (used : ℕ)
  | short
  | bad
  deriving DecidableEq, Repr

/-- The answer as a result, when what was asked for has not come. -/
def Front.toExcept {α ε : Type} (short bad : ε) : Front α → Except ε (α × ℕ)
  | .whole a used => .ok (a, used)
  | .short => .error short
  | .bad => .error bad

abbrev Scan (β α : Type) : Type := List β → Front α

namespace Scan

variable {β α γ : Type}

def done (a : α) : Scan β α := fun _ => .whole a 0

def stop : Scan β α := fun _ => .bad

/-- The next item, when it is one of those that are expected. -/
def item (expected : β → Bool) : Scan β β
  | [] => .short
  | b :: _ => if expected b then .whole b 1 else .bad

/-- One scan, and then another of what the first one left. -/
def bind (p : Scan β α) (q : α → Scan β γ) : Scan β γ := fun items =>
  match p items with
  | .whole a n =>
    match q a (items.drop n) with
    | .whole c m => .whole c (n + m)
    | .short => .short
    | .bad => .bad
  | .short => .short
  | .bad => .bad

def only (keep : α → ℕ → Bool) (p : Scan β α) : Scan β α := fun items =>
  match p items with
  | .whole a n => if keep a n then .whole a n else .bad
  | .short => .short
  | .bad => .bad

section Bind

variable {p : Scan β α} {q : α → Scan β γ} {items : List β}

theorem bind_apply_of_whole {a : α} {n : ℕ} (hp : p items = .whole a n) :
    p.bind q items =
      match q a (items.drop n) with
      | .whole c m => .whole c (n + m)
      | .short => .short
      | .bad => .bad := by
  rw [bind, hp]

theorem bind_of_whole {a : α} {n m : ℕ} {c : γ} (hp : p items = .whole a n)
    (hq : q a (items.drop n) = .whole c m) : p.bind q items = .whole c (n + m) := by
  rw [bind_apply_of_whole hp, hq]

theorem bind_eq_whole {c : γ} {used : ℕ} :
    p.bind q items = .whole c used ↔
      ∃ a n m, p items = .whole a n ∧ q a (items.drop n) = .whole c m ∧ used = n + m := by
  constructor
  · intro h
    rw [bind] at h
    cases hp : p items with
    | whole a n =>
      rw [hp] at h
      dsimp only at h
      cases hq : q a (items.drop n) with
      | whole d m =>
        rw [hq] at h
        cases h
        exact ⟨a, n, m, rfl, hq, rfl⟩
      | short => rw [hq] at h; cases h
      | bad => rw [hq] at h; cases h
    | short => rw [hp] at h; cases h
    | bad => rw [hp] at h; cases h
  · rintro ⟨a, n, m, hp, hq, rfl⟩
    exact bind_of_whole hp hq

theorem bind_eq_short :
    p.bind q items = .short ↔
      p items = .short ∨ ∃ a n, p items = .whole a n ∧ q a (items.drop n) = .short := by
  rw [bind]
  cases hp : p items with
  | whole a n =>
    dsimp only
    cases hq : q a (items.drop n) with
    | whole => simp [hq]
    | short => simp [hq]
    | bad => simp [hq]
  | short => simp
  | bad => simp

theorem only_eq_whole {keep : α → ℕ → Bool} {a : α} {n : ℕ} :
    only keep p items = .whole a n ↔ p items = .whole a n ∧ keep a n = true := by
  rw [only]
  cases hp : p items with
  | whole b m =>
    dsimp only
    split_ifs with hkeep
    · constructor
      · intro h
        cases h
        exact ⟨rfl, hkeep⟩
      · exact fun h => h.1
    · constructor
      · exact fun h => nomatch h
      · rintro ⟨h, hkeep'⟩
        cases h
        exact absurd hkeep' hkeep
  | short => simp
  | bad => simp

theorem only_eq_short {keep : α → ℕ → Bool} :
    only keep p items = .short ↔ p items = .short := by
  rw [only]
  cases hp : p items with
  | whole b m => dsimp only; split_ifs <;> simp
  | short => simp
  | bad => simp

end Bind

/-- A value is read off the items it takes, and an answer outlasts whatever follows. -/
structure Steady (p : Scan β α) : Prop where
  within : ∀ {items a n}, p items = .whole a n → n ≤ items.length
  settled : ∀ {items} more, p items ≠ .short → p (items ++ more) = p items
  exact : ∀ {items a n}, p items = .whole a n → p (items.take n) = .whole a n

section Steady

variable {p : Scan β α} {q : α → Scan β γ}

theorem steady_done (a : α) : (done a : Scan β α).Steady where
  within := by
    rintro items b n h
    cases h
    exact Nat.zero_le _
  settled _ _ := rfl
  exact := by
    rintro items b n h
    cases h
    rfl

theorem steady_stop : (stop : Scan β α).Steady where
  within := nofun
  settled _ _ := rfl
  exact := nofun

theorem item_eq_whole {expected : β → Bool} {items : List β} {b : β} {n : ℕ} :
    item expected items = .whole b n ↔
      items.head? = some b ∧ expected b = true ∧ n = 1 := by
  cases items with
  | nil => simp [item]
  | cons c items =>
    rw [item]
    split_ifs with h
    · simp only [Front.whole.injEq, List.head?_cons, Option.some.injEq]
      constructor
      · rintro ⟨rfl, rfl⟩
        exact ⟨rfl, h, rfl⟩
      · rintro ⟨rfl, -, rfl⟩
        exact ⟨rfl, rfl⟩
    · simp only [List.head?_cons, Option.some.injEq, false_iff, not_and]
      rintro rfl h'
      exact absurd h' h

theorem steady_item (expected : β → Bool) : (item expected).Steady where
  within := by
    intro items b n h
    obtain ⟨hhead, -, rfl⟩ := item_eq_whole.mp h
    cases items with
    | nil => cases hhead
    | cons => simp
  settled := by
    intro items more h
    cases items with
    | nil => exact absurd rfl h
    | cons => rfl
  exact := by
    intro items b n h
    obtain ⟨hhead, hb, rfl⟩ := item_eq_whole.mp h
    cases items with
    | nil => cases hhead
    | cons c items => exact item_eq_whole.mpr ⟨hhead, hb, rfl⟩

theorem Steady.bind (hp : p.Steady) (hq : ∀ a, (q a).Steady) : (p.bind q).Steady where
  within := by
    intro items c used h
    obtain ⟨a, n, m, hpa, hqc, rfl⟩ := bind_eq_whole.mp h
    have hn := hp.within hpa
    have hm := (hq a).within hqc
    rw [List.length_drop] at hm
    omega
  settled := by
    intro items more h
    have hshort : p items ≠ .short := fun hs => h (bind_eq_short.mpr (.inl hs))
    rw [Scan.bind, Scan.bind, hp.settled more hshort]
    cases hpa : p items with
    | whole a n =>
      dsimp only
      have hrest : q a (items.drop n) ≠ .short := fun hs =>
        h (bind_eq_short.mpr (.inr ⟨a, n, hpa, hs⟩))
      rw [List.drop_append_of_le_length (hp.within hpa), (hq a).settled more hrest]
    | short => rfl
    | bad => rfl
  exact := by
    intro items c used h
    obtain ⟨a, n, m, hpa, hqc, rfl⟩ := bind_eq_whole.mp h
    have htaken : p (items.take (n + m)) = .whole a n := by
      rw [List.take_add, hp.settled _ (by rw [hp.exact hpa]; exact nofun)]
      exact hp.exact hpa
    refine bind_of_whole htaken ?_
    rw [List.drop_take, Nat.add_sub_cancel_left]
    exact (hq a).exact hqc

theorem Steady.only {keep : α → ℕ → Bool} (hp : p.Steady) : (p.only keep).Steady where
  within h := hp.within (only_eq_whole.mp h).1
  settled := by
    intro items more h
    have hshort : p items ≠ .short := fun hs => h (only_eq_short.mpr hs)
    rw [Scan.only, Scan.only, hp.settled more hshort]
  exact := by
    intro items a n h
    obtain ⟨hpa, hkeep⟩ := only_eq_whole.mp h
    exact only_eq_whole.mpr ⟨hp.exact hpa, hkeep⟩

end Steady

structure Incremental (p : Scan β α) : Prop extends Steady p where
  live : ∀ {items}, p items = .short → ∃ more a n, p (items ++ more) = .whole a n

section Incremental

variable {p : Scan β α} {q : α → Scan β γ}

theorem Incremental.eq_short_iff (hp : p.Incremental) {items : List β} :
    p items = .short ↔
      (∃ more a n, p (items ++ more) = .whole a n) ∧ ∀ a n, p items ≠ .whole a n := by
  constructor
  · intro h
    refine ⟨hp.live h, ?_⟩
    rintro a n ha
    rw [h] at ha
    cases ha
  · rintro ⟨⟨more, a, n, hmore⟩, hnot⟩
    by_contra h
    exact hnot a n ((hp.settled more h).symm.trans hmore)

theorem incremental_item {expected : β → Bool} {b : β} (hb : expected b = true) :
    (item expected).Incremental where
  toSteady := steady_item expected
  live := by
    intro items h
    cases items with
    | nil => exact ⟨[b], b, 1, item_eq_whole.mpr ⟨rfl, hb, rfl⟩⟩
    | cons c items =>
      rw [item] at h
      split_ifs at h

theorem incremental_done (a : α) : (done a : Scan β α).Incremental where
  toSteady := steady_done a
  live := nofun

/-- A second scan that can succeed at all. -/
theorem Incremental.bind (hp : p.Incremental) (hq : ∀ a, (q a).Incremental)
    (hsome : ∀ a, ∃ items c m, q a items = .whole c m) : (p.bind q).Incremental where
  toSteady := hp.toSteady.bind fun a => (hq a).toSteady
  live := by
    intro items h
    rcases bind_eq_short.mp h with h | ⟨a, n, hpa, h⟩
    · obtain ⟨more, a, n, hmore⟩ := hp.live h
      obtain ⟨rest, c, m, hrest⟩ := hsome a
      have hn : items.length ≤ n := by
        by_contra hlt
        have htake : p (items.take n) = .whole a n := by
          rw [← hp.exact hmore, List.take_append_of_le_length (by omega)]
        have hwhole := hp.settled (items.drop n) (by rw [htake]; exact nofun)
        rw [List.take_append_drop, htake, h] at hwhole
        cases hwhole
      have hexact := hp.exact hmore
      rw [List.take_append, List.take_of_length_le hn] at hexact
      have hlength := hp.within hexact
      refine ⟨more.take (n - items.length) ++ rest, c, n + m, ?_⟩
      rw [← List.append_assoc]
      have hfull := hp.within hmore
      have htaken : (items ++ more.take (n - items.length)).length = n := by
        rw [List.length_append, List.length_take]
        rw [List.length_append] at hfull
        omega
      refine bind_of_whole ((hp.settled rest (by rw [hexact]; exact nofun)).trans hexact) ?_
      rw [List.drop_left' htaken]
      exact hrest
    · obtain ⟨more, c, m, hmore⟩ := (hq a).live h
      refine ⟨more, c, n + m, bind_of_whole (a := a) ?_ ?_⟩
      · rw [hp.settled more (by rw [hpa]; exact nofun), hpa]
      · rw [List.drop_append_of_le_length (hp.within hpa)]
        exact hmore

end Incremental

def taking (n : ℕ) : Scan β (List β) := fun items =>
  if n ≤ items.length then .whole (items.take n) n else .short

/-- A scan that has to use up the next items, and sees no others. -/
def exactly (n : ℕ) (p : Scan β α) : Scan β α := fun items =>
  if n ≤ items.length then
    match p (items.take n) with
    | .whole a used => if used = n then .whole a n else .bad
    | .short => .bad
    | .bad => .bad
  else .short

def optional (wanted : Bool) (p : Scan β α) : Scan β (Option α) :=
  if wanted then p.bind fun a => done (some a) else done none

/-- Items that a scan takes for a value, whatever comes after them. -/
def Spells (p : Scan β α) (items : List β) (a : α) : Prop :=
  ∀ rest, p (items ++ rest) = .whole a items.length

section Spells

variable {p : Scan β α} {q : α → Scan β γ} {items more : List β} {a : α} {c : γ}

theorem spells_done (a : α) : Spells (done a : Scan β α) [] a := fun _ => rfl

theorem spells_item {expected : β → Bool} {b : β} (h : expected b = true) :
    Spells (item expected) [b] b := fun _ => if_pos h

theorem spells_taking (items : List β) : Spells (taking items.length) items items := by
  intro rest
  rw [taking, if_pos (by rw [List.length_append]; omega), List.take_left]

theorem Spells.bind (hp : Spells p items a) (hq : Spells (q a) more c) :
    Spells (p.bind q) (items ++ more) c := by
  intro rest
  have hfirst := hp (more ++ rest)
  rw [← List.append_assoc] at hfirst
  rw [List.length_append]
  apply bind_of_whole hfirst
  rw [List.append_assoc, List.drop_left]
  exact hq rest

theorem Spells.map (hp : Spells p items a) (f : α → γ) :
    Spells (p.bind fun a => done (f a)) items (f a) := by
  have hdone := hp.bind (q := fun a => done (f a)) (spells_done (f a))
  rwa [List.append_nil] at hdone

theorem Spells.only {keep : α → ℕ → Bool} (hp : Spells p items a)
    (h : keep a items.length = true) : Spells (only keep p) items a :=
  fun rest => only_eq_whole.mpr ⟨hp rest, h⟩

theorem Spells.exactly (hp : Spells p items a) : Spells (exactly items.length p) items a := by
  intro rest
  have hinside := hp []
  rw [List.append_nil] at hinside
  rw [Scan.exactly, if_pos (by rw [List.length_append]; omega), List.take_left, hinside]
  exact if_pos rfl

theorem spells_optional (wanted : Option α) {spelled : α → List β}
    (hp : ∀ a, wanted = some a → Spells p (spelled a) a) :
    Spells (optional wanted.isSome p) (wanted.elim [] spelled) wanted := by
  cases wanted with
  | none => exact spells_done none
  | some a => exact (hp a rfl).map some

end Spells

end Scan

end RtosMqtt
