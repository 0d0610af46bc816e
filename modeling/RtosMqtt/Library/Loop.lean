import RtosMqtt.Library.Program

/-! # Loops with a bound on their turns

A loop takes turns until one of them ends it, or until it has none left. What ended by
itself does not change when there are more turns, and what was cut short goes on from
where it stood.
-/

namespace RtosMqtt

namespace Prog

variable {σ ε κ β : Type}

/-- Each turn either goes on from a new place or ends the loop. -/
def loop (turn : κ → Prog σ ε (κ ⊕ β)) (out : ε) : ℕ → κ → Prog σ ε β
  | 0, _ => throw out
  | turns + 1, k => turn k >>= fun place => place.elim (loop turn out turns) Pure.pure

/-- What holds of a turn: one thing of where it goes on, another of how it ends. -/
def Turned (I : κ → σ → Prop) (Q : Except ε β → σ → Prop) : Except ε (κ ⊕ β) × σ → Prop
  | (.ok (.inl k), t) => I k t
  | (.ok (.inr b), t) => Q (.ok b) t
  | (.error e, t) => Q (.error e) t

section Loop

variable {turn : κ → Prog σ ε (κ ⊕ β)} {out : ε} {turns : ℕ} {k k' : κ} {b : β} {e : ε} {s t : σ}
  {I : κ → σ → Prop} {Q : Except ε β → σ → Prop}

theorem loop_of_next (h : turn k s = (.ok (.inl k'), t)) :
    loop turn out (turns + 1) k s = loop turn out turns k' t := by
  rw [loop, bind_of_ok h]
  rfl

theorem loop_of_done (h : turn k s = (.ok (.inr b), t)) :
    loop turn out (turns + 1) k s = (.ok b, t) := by
  rw [loop, bind_of_ok h]
  rfl

theorem loop_of_error (h : turn k s = (.error e, t)) :
    loop turn out (turns + 1) k s = (.error e, t) := by
  rw [loop, bind_of_error h]

theorem Turned.and {I' : κ → σ → Prop} {Q' : Except ε β → σ → Prop} {run : Except ε (κ ⊕ β) × σ}
    (h : Turned I Q run) (h' : Turned I' Q' run) :
    Turned (fun k s => I k s ∧ I' k s) (fun a s => Q a s ∧ Q' a s) run := by
  rcases run with ⟨e | k | b, t⟩ <;> exact ⟨h, h'⟩

theorem Turned.ite {c : Prop} [Decidable c] (hnext : I k t) (hdone : Q (.ok b) t) :
    Turned I Q (.ok (if c then .inr b else .inl k), t) := by
  split_ifs
  · exact hdone
  · exact hnext

theorem loop_cases (hturn : ∀ k s, I k s → Turned I Q (turn k s)) (h : I k s) (turns : ℕ) :
    (Q (loop turn out turns k s).1 (loop turn out turns k s).2 ∧
        ∀ more, loop turn out (turns + more) k s = loop turn out turns k s) ∨
      ∃ k' t, I k' t ∧ loop turn out turns k s = (.error out, t) ∧
        ∀ more, loop turn out (turns + more) k s = loop turn out more k' t := by
  induction turns generalizing k s with
  | zero => exact .inr ⟨k, s, h, rfl, fun more => by rw [Nat.zero_add]⟩
  | succ turns ih =>
    have hturned := hturn k s h
    rcases hrun : turn k s with ⟨e | place, t⟩
    · rw [hrun] at hturned
      refine .inl ⟨by rw [loop_of_error hrun]; exact hturned, fun more => ?_⟩
      rw [Nat.add_right_comm, loop_of_error hrun, loop_of_error hrun]
    · rw [hrun] at hturned
      cases place with
      | inl k' =>
        rcases ih hturned with ⟨hq, hmore⟩ | ⟨k'', u, hi, hcut, hmore⟩
        · refine .inl ⟨by rw [loop_of_next hrun]; exact hq, fun more => ?_⟩
          rw [Nat.add_right_comm, loop_of_next hrun, loop_of_next hrun, hmore]
        · refine .inr ⟨k'', u, hi, by rw [loop_of_next hrun, hcut], fun more => ?_⟩
          rw [Nat.add_right_comm, loop_of_next hrun, hmore]
      | inr b =>
        refine .inl ⟨by rw [loop_of_done hrun]; exact hturned, fun more => ?_⟩
        rw [Nat.add_right_comm, loop_of_done hrun, loop_of_done hrun]

theorem turned_loop (hturn : ∀ k s, I k s → Turned I Q (turn k s))
    (hout : ∀ k s, I k s → Q (.error out) s) (h : I k s) (turns : ℕ) :
    Q (loop turn out turns k s).1 (loop turn out turns k s).2 := by
  obtain ⟨hended, -⟩ | ⟨k', t, hi, hcut, -⟩ := loop_cases hturn h turns
  · exact hended
  · rw [hcut]
    exact hout k' t hi

theorem Moves.loop {R : σ → σ → Prop} [IsPreorder σ R] {I : κ → Prop}
    (hturn : ∀ k, I k → (turn k).Moves R)
    (hnext : ∀ k s k' t, I k → turn k s = (.ok (.inl k'), t) → I k') (h : I k) (turns : ℕ) :
    (Prog.loop turn out turns k).Moves R := by
  intro s
  refine turned_loop (I := fun k t => I k ∧ R s t) (Q := fun _ t => R s t) ?_ ?_
    ⟨h, refl_of R s⟩ turns
  · rintro k t ⟨hk, hst⟩
    have hmoved := trans_of R hst (hturn k hk t)
    rcases hrun : turn k t with ⟨e | k' | b, u⟩
    · rw [hrun] at hmoved
      exact hmoved
    · rw [hrun] at hmoved
      exact ⟨hnext k t k' u hk hrun, hmoved⟩
    · rw [hrun] at hmoved
      exact hmoved
  · rintro k t ⟨-, hst⟩
    exact hst

inductive Turns (turn : κ → Prog σ ε (κ ⊕ β)) : ℕ → κ → σ → κ → σ → Prop
  | none (k : κ) (s : σ) : Turns turn 0 k s k s
  | next {n : ℕ} {k k' k'' : κ} {s t u : σ} (hturn : turn k s = (.ok (.inl k'), t))
      (hrest : Turns turn n k' t k'' u) : Turns turn (n + 1) k s k'' u

/-- From some turn on, none of them is one of these. -/
def Calm (turn : κ → Prog σ ε (κ ⊕ β)) (Stalls : κ → σ → Prop) (k : κ) (s : σ) : Prop :=
  ∃ n, ∀ m, n ≤ m → ∀ k' t, Turns turn m k s k' t → ¬ Stalls k' t

theorem loop_of_turns {n : ℕ} (h : Turns turn n k s k' t) (more : ℕ) :
    loop turn out (n + more) k s = loop turn out more k' t := by
  induction h with
  | none => rw [Nat.zero_add]
  | next hturn _ ih => rw [Nat.add_right_comm, loop_of_next hturn, ih]

theorem Turns.trans {n m : ℕ} {k'' : κ} {u : σ} (h : Turns turn n k s k' t)
    (hmore : Turns turn m k' t k'' u) : Turns turn (n + m) k s k'' u := by
  induction h with
  | none =>
    rw [Nat.zero_add]
    exact hmore
  | next hturn _ ih =>
    rw [Nat.add_right_comm]
    exact .next hturn (ih hmore)

theorem Turns.not_finishes {n m : ℕ} (h : Turns turn n k s k' t) (hm : m ≤ n) :
    ¬ (loop turn out m k).Finishes s := by
  induction h generalizing m with
  | none =>
    obtain rfl := Nat.le_zero.mp hm
    rintro ⟨_, _, h⟩
    cases h
  | next hturn _ ih =>
    cases m with
    | zero =>
      rintro ⟨_, _, h⟩
      cases h
    | succ m =>
      rw [Finishes, loop_of_next hturn]
      exact ih (Nat.le_of_succ_le_succ hm)

theorem not_finishes_of_next {I : κ → σ → Prop}
    (hturn : ∀ k s, I k s → ∃ k' t, turn k s = (.ok (.inl k'), t) ∧ I k' t) (h : I k s)
    (turns : ℕ) : ¬ (loop turn out turns k).Finishes s := by
  induction turns generalizing k s with
  | zero =>
    rintro ⟨_, _, h⟩
    cases h
  | succ turns ih =>
    obtain ⟨k', t, hnext, hi⟩ := hturn k s h
    rw [Finishes, loop_of_next hnext]
    exact ih hi

/-- A turn ends the loop, or goes on to where the bound is kept. -/
def Bounded (turn : κ → Prog σ ε (κ ⊕ β)) (Stalls : κ → σ → Prop) (B : ℕ → κ → σ → Prop) : Prop :=
  ∀ {m k s}, B m k s → (∃ b t, turn k s = (.ok (.inr b), t)) ∨
    ∃ k' t m', turn k s = (.ok (.inl k'), t) ∧ B m' k' t ∧ (¬ Stalls k s → m' < m)

variable {Stalls : κ → σ → Prop} {B : ℕ → κ → σ → Prop}

theorem turns_or_finishes (hturn : Bounded turn Stalls B) {m : ℕ} (h : B m k s) (n : ℕ) :
    (∃ m' k' t, B m' k' t ∧ Turns turn n k s k' t) ∨ (loop turn out n k).Finishes s := by
  induction n generalizing m k s with
  | zero => exact .inl ⟨m, k, s, h, .none k s⟩
  | succ n ih =>
    obtain ⟨b, t, hdone⟩ | ⟨k', t, m', hnext, hb, -⟩ := hturn h
    · exact .inr ⟨b, t, loop_of_done hdone⟩
    · rw [Finishes, loop_of_next hnext]
      obtain ⟨m'', k'', u, hb', hturns⟩ | hfinishes := ih hb
      · exact .inl ⟨m'', k'', u, hb', .next hnext hturns⟩
      · exact .inr hfinishes

theorem finishes_of_bound (hturn : Bounded turn Stalls B) {m : ℕ} (h : B m k s)
    (hcalm : ∀ n k' t, Turns turn n k s k' t → ¬ Stalls k' t) :
    ∃ turns, (loop turn out turns k).Finishes s := by
  induction m using Nat.strongRecOn generalizing k s with
  | ind m ih =>
    obtain ⟨b, t, hdone⟩ | ⟨k', t, m', hnext, hb, hless⟩ := hturn h
    · exact ⟨1, b, t, loop_of_done hdone⟩
    · obtain ⟨turns, b, u, hrest⟩ := ih m' (hless (hcalm 0 k s (.none k s))) hb
        fun n k'' u hturns => hcalm (n + 1) k'' u (.next hnext hturns)
      exact ⟨turns + 1, b, u, (loop_of_next hnext).trans hrest⟩

/-- A loop comes to its end when each turn that goes on has less to do, or as much and less time to
lose before the next that has less. -/
theorem finishes_of_falling (I : κ → σ → Prop) (left idle : κ → σ → ℕ)
    (hturn : ∀ {k s}, I k s → Turned (fun k' t => I k' t ∧
      (left k' t < left k s ∨ left k' t = left k s ∧ idle k' t < idle k s))
      (fun answer _ => ∃ b, answer = .ok b) (turn k s)) (h : I k s) :
    ∃ turns, (loop turn out turns k).Finishes s := by
  induction hleft : left k s using Nat.strongRecOn generalizing k s with
  | ind m ihLeft =>
  induction hidle : idle k s using Nat.strongRecOn generalizing k s with
  | ind n ihIdle =>
    have hturned := hturn h
    rcases hrun : turn k s with ⟨e | k' | b, t⟩
    · rw [hrun] at hturned
      obtain ⟨b, hb⟩ := hturned
      cases hb
    · rw [hrun] at hturned
      obtain ⟨hi, hfalls⟩ := hturned
      have hrest : ∃ turns, (loop turn out turns k').Finishes t := by
        rcases hfalls with hless | ⟨hsame, hless⟩
        · exact ihLeft _ (hleft ▸ hless) hi rfl
        · exact ihIdle _ (hidle ▸ hless) hi (hsame.trans hleft) rfl
      obtain ⟨turns, b, u, hrest⟩ := hrest
      exact ⟨turns + 1, b, u, (loop_of_next hrun).trans hrest⟩
    · exact ⟨1, b, t, loop_of_done hrun⟩

variable (out) in
theorem finishes_iff_calm (hturn : Bounded turn Stalls B) {m : ℕ} (h : B m k s) :
    (∃ turns, (loop turn out turns k).Finishes s) ↔ Calm turn Stalls k s := by
  constructor
  · rintro ⟨turns, hfinishes⟩
    exact ⟨turns, fun n hn k' t hturns => absurd hfinishes (hturns.not_finishes hn)⟩
  · rintro ⟨n, hcalm⟩
    have hcases : _ ∨ (loop turn out n k).Finishes s := turns_or_finishes hturn h n
    obtain ⟨m', k', t, hb, hturns⟩ | hfinishes := hcases
    · obtain ⟨more, b, u, hrest⟩ := finishes_of_bound hturn hb fun j k'' u hmore =>
        hcalm (n + j) (Nat.le_add_right n j) k'' u (hturns.trans hmore)
      exact ⟨n + more, b, u, (loop_of_turns hturns more).trans hrest⟩
    · exact ⟨n, hfinishes⟩

end Loop

end Prog

end RtosMqtt
