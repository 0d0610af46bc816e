import RtosMqtt.Library.Levels
import RtosMqtt.Library.Program

/-! # Topic names and topic filters

A topic name is matched against a filter by two indices that walk the two strings together.
-/

namespace RtosMqtt

namespace Topic
open Levels

inductive TopicError
  | badParameter
  deriving DecidableEq, Repr

def separator : UInt8 := 0x2F

def singleLevel : UInt8 := 0x2B

def multiLevel : UInt8 := 0x23

def dollar : UInt8 := 0x24

/-- The two shapes in which a filter that goes on past the end of the topic still matches. -/
def matchEndWildcards (filter : List UInt8) (position : ℕ) : Bool :=
  let parent := 3 ≤ filter.length ∧ position = filter.length - 3 ∧
    filter[position + 1]? = some separator ∧ filter[position + 2]? = some multiLevel
  if position = filter.length - 2 ∧ filter[position]? = some separator then
    filter[position + 1]? = some singleLevel ∨ filter[position + 1]? = some multiLevel
  else parent

structure Step where
  stop : Bool
  matched : Bool
  nameIndex : ℕ
  filterIndex : ℕ

/-- Where the scan of a level ends, and whether it ends at a separator. -/
def scanLevel : List UInt8 → ℕ → ℕ × Bool
  | [], name => (name, false)
  | c :: rest, name => if c = separator then (name, true) else scanLevel rest (name + 1)

/-- A wildcard is one at the start of a filter or after a separator. -/
def ValidHere (filter : List UInt8) (filterIndex : ℕ) : Prop :=
  filterIndex = 0 ∨ filter[filterIndex - 1]? = some separator

instance (filter : List UInt8) (filterIndex : ℕ) : Decidable (ValidHere filter filterIndex) :=
  inferInstanceAs (Decidable (_ ∨ _))

def matchWildcards (topic filter : List UInt8) (nameIndex filterIndex : ℕ) : Step :=
  if filter[filterIndex]? = some singleLevel ∧ ValidHere filter filterIndex then
    let (name, nextLevelInTopic) := scanLevel (topic.drop nameIndex) nameIndex
    let nextLevelInFilter : Bool :=
      filterIndex < filter.length - 1 ∧ filter[filterIndex + 1]? = some separator
    if nextLevelInTopic ∧ ¬ nextLevelInFilter then
      { stop := true, matched := false, nameIndex := name, filterIndex }
    else if nextLevelInTopic then
      -- The name index is at its separator already, the filter index one before.
      { stop := false, matched := false, nameIndex := name, filterIndex := filterIndex + 1 }
    else { stop := false, matched := false, nameIndex := name - 1, filterIndex }
  else if filter[filterIndex]? = some multiLevel ∧ filterIndex = filter.length - 1 ∧
      ValidHere filter filterIndex then
    { stop := true, matched := true, nameIndex, filterIndex }
  else { stop := true, matched := false, nameIndex, filterIndex }

/-- One turn of the walk, before the indices move on. -/
def matchTurn (topic filter : List UInt8) (nameIndex filterIndex : ℕ) : Step :=
  if topic[nameIndex]? = filter[filterIndex]? then
    { stop := false
      matched := nameIndex = topic.length - 1 ∧ matchEndWildcards filter filterIndex
      nameIndex, filterIndex }
  else matchWildcards topic filter nameIndex filterIndex

def runOut (topic filter : List UInt8) (nameIndex filterIndex : ℕ) : Bool :=
  nameIndex = topic.length ∧ filterIndex = filter.length

/-- After a turn the walk ends, or goes on with both indices one further. -/
def Step.follow (topic filter : List UInt8) (step : Step) (next : ℕ → ℕ → Bool) : Bool :=
  if step.matched then true
  else if step.stop then runOut topic filter step.nameIndex step.filterIndex
  else next (step.nameIndex + 1) (step.filterIndex + 1)

/-- The walk from two indices on. Each turn moves the filter index, so that the length of the
filter is fuel enough. -/
def matchFrom (topic filter : List UInt8) : ℕ → ℕ → ℕ → Bool
  | 0, nameIndex, filterIndex => runOut topic filter nameIndex filterIndex
  | fuel + 1, nameIndex, filterIndex =>
    if nameIndex < topic.length ∧ filterIndex < filter.length then
      (matchTurn topic filter nameIndex filterIndex).follow topic filter
        (matchFrom topic filter fuel)
    else runOut topic filter nameIndex filterIndex

def matchFilter (topic filter : List UInt8) : Bool :=
  matchFrom topic filter filter.length 0 0

/-- What is left of a filter when it is more than the topic and still matches. -/
def Covering (f : List UInt8) : Prop :=
  (∃ c, f = [c, separator, multiLevel]) ∨ f = [separator, singleLevel] ∨
    f = [separator, multiLevel]

/-- The walk by what is left of the topic and of the filter, from a place at which a wildcard is
valid or not. -/
def Walks : Bool → List UInt8 → List UInt8 → Prop
  | _, t, [] => t = []
  | _, [], _ :: _ => False
  | valid, c :: t, d :: f =>
    if c = d then t = [] ∧ Covering (d :: f) ∨ Walks (d = separator) t f
    else if d = singleLevel ∧ valid then
      match f with
      | [] => afterLevel separator (c :: t) = none
      | e :: f => e = separator ∧ ∃ rest, afterLevel separator (c :: t) = some rest ∧ Walks true rest f
    else d = multiLevel ∧ f = [] ∧ valid

theorem scanLevel_none {t : List UInt8} (h : afterLevel separator t = none) (name : ℕ) :
    scanLevel t name = (name + t.length, false) := by
  induction t generalizing name with
  | nil => rfl
  | cons c t ih =>
    rw [afterLevel] at h
    split_ifs at h with hc
    rw [scanLevel, if_neg hc, ih h, List.length_cons]
    congr 1
    omega

theorem scanLevel_some {t rest : List UInt8} (h : afterLevel separator t = some rest) (name : ℕ) :
    ∃ k, scanLevel t name = (name + k, true) ∧ t.drop (k + 1) = rest ∧ k < t.length := by
  induction t generalizing name with
  | nil => simp [afterLevel] at h
  | cons c t ih =>
    rw [afterLevel] at h
    rw [scanLevel]
    split_ifs at h ⊢ with hc
    · exact ⟨0, rfl, Option.some.inj h, Nat.succ_pos _⟩
    · obtain ⟨k, hscan, hrest, hk⟩ := ih h (name + 1)
      refine ⟨k + 1, ?_, hrest, Nat.succ_lt_succ hk⟩
      rw [hscan]
      congr 1
      omega

theorem of_drop_eq_cons {α : Type*} {l t : List α} {i : ℕ} {a : α} (h : l.drop i = a :: t) :
    l[i]? = some a ∧ l.drop (i + 1) = t ∧ l.length = i + 1 + t.length := by
  have hlength := congrArg List.length h
  rw [List.length_drop, List.length_cons] at hlength
  refine ⟨?_, ?_, by omega⟩
  · rw [← Nat.add_zero i, ← List.getElem?_drop, h]
    rfl
  · rw [← List.drop_drop, h]
    rfl

theorem matchEndWildcards_iff {filter f : List UInt8} {i : ℕ} {d : UInt8}
    (h : filter.drop i = d :: f) : matchEndWildcards filter i = true ↔ Covering (d :: f) := by
  obtain ⟨hd, htail, hlength⟩ := of_drop_eq_cons h
  have hat (k : ℕ) : filter[i + 1 + k]? = f[k]? := by rw [← htail, List.getElem?_drop]
  rw [matchEndWildcards, hd, hat 0, show i + 2 = i + 1 + 1 from rfl, hat 1]
  rcases f with _ | ⟨e, _ | ⟨e', _ | ⟨e'', f⟩⟩⟩
  · simp [Covering]
  · rw [List.length_singleton] at hlength
    simp [Covering, hlength, and_or_left]
  · simp only [List.length_cons, List.length_nil] at hlength
    simp [Covering, hlength]
  · simp only [List.length_cons] at hlength
    have hparent : i ≠ filter.length - 3 := by omega
    have hlast : i ≠ filter.length - 2 := by omega
    simp [Covering, hparent, hlast]

@[simp] theorem walks_nil_left (valid : Bool) (f : List UInt8) : Walks valid [] f ↔ f = [] := by
  cases f <;> simp [Walks]

section Branches
variable {valid : Bool} {c d e : UInt8} {t f rest : List UInt8}

theorem walks_same : Walks valid (c :: t) (c :: f) ↔
    t = [] ∧ Covering (c :: f) ∨ Walks (c = separator) t f := by
  cases f <;> simp [Walks]

theorem walks_final (hc : c ≠ singleLevel) :
    Walks true (c :: t) [singleLevel] ↔ afterLevel separator (c :: t) = none := by
  simp [Walks, hc]

theorem walks_single (hc : c ≠ singleLevel) : Walks true (c :: t) (singleLevel :: e :: f) ↔
    e = separator ∧ ∃ rest, afterLevel separator (c :: t) = some rest ∧ Walks true rest f := by
  simp [Walks, hc]

theorem walks_other (hc : c ≠ d) (hd : ¬ (d = singleLevel ∧ valid = true)) :
    Walks valid (c :: t) (d :: f) ↔ d = multiLevel ∧ f = [] ∧ valid := by
  cases f <;> simp [Walks, hc, hd]

end Branches

theorem matchWildcards_of_next {topic filter : List UInt8} {name i : ℕ} {rest : List UInt8}
    (hhere : filter[i]? = some singleLevel) (hvalid : ValidHere filter i)
    (hnext : filter[i + 1]? = some separator)
    (hrest : afterLevel separator (topic.drop name) = some rest) :
    ∃ k, matchWildcards topic filter name i =
      { stop := false, matched := false, nameIndex := name + k, filterIndex := i + 1 } ∧
      topic.drop (name + k + 1) = rest ∧ name + k < topic.length := by
  obtain ⟨k, hscan, hdrop, hk⟩ := scanLevel_some hrest name
  rw [List.length_drop] at hk
  rw [List.drop_drop] at hdrop
  have hlt : i < filter.length - 1 := by
    have := (List.getElem?_eq_some_iff.mp hnext).1
    omega
  refine ⟨k, ?_, hdrop, by omega⟩
  rw [matchWildcards, if_pos ⟨hhere, hvalid⟩, hscan]
  simp [hlt, hnext]

theorem matchWildcards_of_last {topic filter : List UInt8} {name i : ℕ}
    (hhere : filter[i]? = some singleLevel) (hvalid : ValidHere filter i)
    (hrest : afterLevel separator (topic.drop name) = none) (hname : name ≤ topic.length) :
    matchWildcards topic filter name i =
      { stop := false, matched := false, nameIndex := topic.length - 1, filterIndex := i } := by
  rw [matchWildcards, if_pos ⟨hhere, hvalid⟩, scanLevel_none hrest, List.length_drop,
    Nat.add_sub_cancel' hname]
  rfl

theorem matchWildcards_of_over {topic filter : List UInt8} {name i : ℕ} {rest : List UInt8}
    (hhere : filter[i]? = some singleLevel) (hvalid : ValidHere filter i)
    (hnext : filter[i + 1]? ≠ some separator)
    (hrest : afterLevel separator (topic.drop name) = some rest) :
    ∃ n, matchWildcards topic filter name i =
      { stop := true, matched := false, nameIndex := n, filterIndex := i } := by
  obtain ⟨k, hscan, -, -⟩ := scanLevel_some hrest name
  refine ⟨name + k, ?_⟩
  rw [matchWildcards, if_pos ⟨hhere, hvalid⟩, hscan]
  simp [hnext]

theorem matchWildcards_of_not {topic filter : List UInt8} {name i : ℕ}
    (h : ¬ (filter[i]? = some singleLevel ∧ ValidHere filter i)) :
    matchWildcards topic filter name i =
      { stop := true
        matched := filter[i]? = some multiLevel ∧ i = filter.length - 1 ∧ ValidHere filter i
        nameIndex := name
        filterIndex := i } := by
  rw [matchWildcards, if_neg h]
  split_ifs with hmulti
  · rw [decide_eq_true hmulti]
  · rw [decide_eq_false hmulti]

section Turns
variable {topic filter t f : List UInt8} {c d : UInt8} {name i : ℕ} {next : ℕ → ℕ → Bool}

/-- From both indices on, the walk decides on what is left. -/
def Decides (topic filter : List UInt8) (go : ℕ → ℕ → Bool) (name i : ℕ) : Prop :=
  go name i = true ↔ Walks (ValidHere filter i) (topic.drop name) (filter.drop i)

theorem follow_of_same (ht : topic.drop name = c :: t) (hf : filter.drop i = c :: f)
    (hnext : Decides topic filter next (name + 1) (i + 1)) :
    (matchTurn topic filter name i).follow topic filter next = true ↔
      Walks (ValidHere filter i) (c :: t) (c :: f) := by
  obtain ⟨hc, hrest, hsize⟩ := of_drop_eq_cons ht
  obtain ⟨hd, hdrop, -⟩ := of_drop_eq_cons hf
  have hlast : name = topic.length - 1 ↔ t = [] := by
    rw [← List.length_eq_zero_iff]
    omega
  have hhere : ValidHere filter (i + 1) ↔ c = separator := by simp [ValidHere, hd]
  rw [Decides, hrest, hdrop, decide_eq_decide.mpr hhere] at hnext
  rw [walks_same, ← hnext, ← hlast, ← matchEndWildcards_iff hf, matchTurn, hc, hd, if_pos rfl,
    Step.follow]
  by_cases hmatched : name = topic.length - 1 ∧ matchEndWildcards filter i = true
  · simp [hmatched]
  · simp [hmatched]

theorem follow_of_single (ht : topic.drop name = c :: t) (hf : filter.drop i = singleLevel :: f)
    (hc : c ≠ singleLevel) (hvalid : ValidHere filter i)
    (hnext : ∀ n j, i < j → n ≤ topic.length → j ≤ filter.length → Decides topic filter next n j) :
    (matchWildcards topic filter name i).follow topic filter next = true ↔
      Walks true (c :: t) (singleLevel :: f) := by
  obtain ⟨-, -, hsize⟩ := of_drop_eq_cons ht
  obtain ⟨hd, hdrop, hlength⟩ := of_drop_eq_cons hf
  cases hlevel : afterLevel separator (topic.drop name) with
  | none =>
    have hgo := hnext topic.length (i + 1) (by omega) (by omega) (by omega)
    rw [Decides, List.drop_length, walks_nil_left, hdrop] at hgo
    rw [matchWildcards_of_last hd hvalid hlevel (by omega), Step.follow]
    simp only [Bool.false_eq_true, if_false]
    rw [Nat.sub_add_cancel (by omega), hgo]
    rw [ht] at hlevel
    cases f <;> simp [walks_final hc, walks_single hc, hlevel]
  | some rest =>
    cases f with
    | nil =>
      have hend : filter[i + 1]? ≠ some separator := by
        rw [List.getElem?_eq_none (show filter.length ≤ i + 1 from Nat.le_of_eq hlength)]
        exact Option.some_ne_none _ ∘ Eq.symm
      obtain ⟨n, hstep⟩ := matchWildcards_of_over hd hvalid hend hlevel
      rw [ht] at hlevel
      rw [hstep, walks_final hc, hlevel, Step.follow]
      simp [runOut, hlength]
    | cons e f =>
      obtain ⟨he, hdrop', hlength'⟩ := of_drop_eq_cons hdrop
      by_cases hsep : e = separator
      · subst hsep
        obtain ⟨k, hstep, hrest, hk⟩ := matchWildcards_of_next hd hvalid he hlevel
        have hgo := hnext (name + k + 1) (i + 1 + 1) (by omega) (by omega) (by omega)
        have hhere : ValidHere filter (i + 1 + 1) := .inr he
        rw [Decides, hrest, hdrop', decide_eq_true hhere] at hgo
        rw [ht] at hlevel
        rw [hstep, walks_single hc, hlevel, Step.follow]
        simpa using hgo
      · obtain ⟨n, hstep⟩ := matchWildcards_of_over hd hvalid (by simpa [he] using hsep) hlevel
        have hrun : i ≠ filter.length := by omega
        rw [hstep, walks_single hc, Step.follow]
        simp [runOut, hrun, hsep]

theorem follow_of_other (hf : filter.drop i = d :: f) (hc : c ≠ d)
    (hd : ¬ (d = singleLevel ∧ ValidHere filter i)) :
    (matchWildcards topic filter name i).follow topic filter next = true ↔
      Walks (ValidHere filter i) (c :: t) (d :: f) := by
  obtain ⟨hget, -, hlength⟩ := of_drop_eq_cons hf
  have hlast : i = filter.length - 1 ↔ f = [] := by
    rw [← List.length_eq_zero_iff]
    omega
  have hrun : runOut topic filter name i = false := by
    rw [runOut, decide_eq_false]
    omega
  rw [walks_other hc (by simpa using hd), ← hlast, matchWildcards_of_not (by simpa [hget] using hd),
    Step.follow, hget, hrun]
  simp

end Turns

/-- The walk of the two indices is the walk on what is left. -/
theorem matchFrom_iff {topic filter : List UInt8} {fuel name i : ℕ}
    (hfuel : filter.length ≤ fuel + i) (hname : name ≤ topic.length) (hi : i ≤ filter.length) :
    Decides topic filter (matchFrom topic filter fuel) name i := by
  induction fuel generalizing name i with
  | zero =>
    rw [Decides, List.drop_eq_nil_of_le (by omega : filter.length ≤ i)]
    simp only [matchFrom, runOut, Walks, List.drop_eq_nil_iff, decide_eq_true_eq]
    omega
  | succ fuel ih =>
    rw [Decides, matchFrom]
    cases hf : filter.drop i with
    | nil =>
      rw [List.drop_eq_nil_iff] at hf
      rw [if_neg (by omega)]
      simp only [runOut, Walks, List.drop_eq_nil_iff, decide_eq_true_eq]
      omega
    | cons d f =>
      obtain ⟨hd, -, hlength⟩ := of_drop_eq_cons hf
      cases ht : topic.drop name with
      | nil =>
        rw [List.drop_eq_nil_iff] at ht
        rw [if_neg (by omega)]
        simp only [runOut, Walks, decide_eq_true_eq, iff_false]
        omega
      | cons c t =>
        obtain ⟨hc, -, hsize⟩ := of_drop_eq_cons ht
        rw [if_pos ⟨by omega, by omega⟩]
        by_cases hsame : c = d
        · subst hsame
          exact follow_of_same ht hf (ih (by omega) (by omega) (by omega))
        · rw [matchTurn, hc, hd, if_neg (by simpa using hsame : ¬ some c = some d)]
          by_cases hplus : d = singleLevel ∧ ValidHere filter i
          · obtain ⟨rfl, hvalid⟩ := hplus
            rw [decide_eq_true hvalid]
            exact follow_of_single ht hf hsame hvalid fun n j hj hn hle =>
              ih (by omega) hn hle
          · exact follow_of_other hf hsame hplus

theorem matchFilter_iff (topic filter : List UInt8) :
    matchFilter topic filter = true ↔ Walks true topic filter := by
  have h := @matchFrom_iff topic filter filter.length 0 0 (Nat.le_refl _) (Nat.zero_le _)
    (Nat.zero_le _)
  have hstart : ValidHere filter 0 := .inl rfl
  rwa [Decides, decide_eq_true hstart, List.drop_zero, List.drop_zero] at h

/-- The length of a topic is counted in two bytes. -/
def lengthLimit : ℕ := 65535

end Topic

open Topic in
def Topic.matches (topic filter : List UInt8) : Except TopicError Bool := do
  refuseIf (topic = [] ∨ filter = []) .badParameter
  refuseIf (lengthLimit < topic.length ∨ lengthLimit < filter.length) .badParameter
  if topic.length = filter.length ∧ topic = filter then
    return true
  let filterStartsWithWildcard :=
    filter.head? = some singleLevel ∨ filter.head? = some multiLevel
  if topic.head? = some dollar ∧ filterStartsWithWildcard then
    return false
  return matchFilter topic filter

/-- A topic name or a filter, as long as its length can be written. -/
def Topic.Sized (s : List UInt8) : Prop := 1 ≤ s.length ∧ s.length ≤ lengthLimit

instance (s : List UInt8) : Decidable (Topic.Sized s) := inferInstanceAs (Decidable (_ ∧ _))

/-- A topic that starts with `$` is hidden from a filter that starts with a wildcard. -/
def Topic.Hidden (topic filter : List UInt8) : Prop :=
  topic.head? = some dollar ∧ (filter.head? = some singleLevel ∨ filter.head? = some multiLevel)

instance (topic filter : List UInt8) : Decidable (Topic.Hidden topic filter) :=
  inferInstanceAs (Decidable (_ ∧ _))

open Topic in
theorem Topic.matches_eq_true_iff {topic filter : List UInt8} :
    Topic.matches topic filter = .ok true ↔ Sized topic ∧ Sized filter ∧
      (topic = filter ∨ ¬ Hidden topic filter ∧ Walks true topic filter) := by
  rw [Topic.matches, refuseIf_bind_eq_ok, refuseIf_bind_eq_ok]
  have hempty : ¬ (topic = [] ∨ filter = []) ↔ 1 ≤ topic.length ∧ 1 ≤ filter.length := by
    simp [Nat.one_le_iff_ne_zero]
  have hlong : ¬ (lengthLimit < topic.length ∨ lengthLimit < filter.length) ↔
      topic.length ≤ lengthLimit ∧ filter.length ≤ lengthLimit := by
    rw [not_or, Nat.not_lt, Nat.not_lt]
  rw [hempty, hlong, ← and_assoc, and_and_and_comm, and_assoc]
  refine and_congr_right fun _ => and_congr_right fun _ => ?_
  by_cases hsame : topic = filter
  · rw [if_pos ⟨congrArg List.length hsame, hsame⟩]
    exact iff_of_true rfl (.inl hsame)
  · rw [if_neg fun h => hsame h.2, or_iff_right hsame, ← matchFilter_iff]
    change (if Hidden topic filter then _ else _) = _ ↔ _
    by_cases hhidden : Hidden topic filter
    · simp [hhidden, pure, Except.pure]
    · simp [hhidden, pure, Except.pure]

end RtosMqtt
