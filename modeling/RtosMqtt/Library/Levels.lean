import Mathlib.Data.List.Basic

/-! # Words in levels

A separator cuts a word into levels. A pattern is a list of levels too, in which one level
stands for any single level and another one, at its end, for all that is left.
-/

namespace RtosMqtt.Levels

section Words
variable {α : Type*} [DecidableEq α] {sep : α}

def afterLevel (sep : α) : List α → Option (List α)
  | [] => none
  | a :: w => if a = sep then some w else afterLevel sep w

theorem splitOn_sep_cons (w : List α) : (sep :: w).splitOn sep = [] :: w.splitOn sep := by
  rw [List.splitOn_cons_eq_if_modifyHead, if_pos (beq_self_eq_true sep)]

theorem splitOn_cons_of_ne {a : α} {w : List α} {l : List α} {L : List (List α)} (ha : a ≠ sep)
    (hw : w.splitOn sep = l :: L) : (a :: w).splitOn sep = (a :: l) :: L := by
  rw [List.splitOn_cons_eq_if_modifyHead, if_neg (by simpa using ha), hw]
  rfl

theorem exists_splitOn_eq_cons (w : List α) : ∃ l L, w.splitOn sep = l :: L :=
  List.exists_cons_of_ne_nil (List.splitOn_ne_nil sep w)

theorem splitOn_of_afterLevel_none {w : List α} (h : afterLevel sep w = none) :
    w.splitOn sep = [w] := by
  induction w with
  | nil => rfl
  | cons a w ih =>
    rw [afterLevel] at h
    split_ifs at h with ha
    exact splitOn_cons_of_ne ha (ih h)

theorem splitOn_of_afterLevel_some {w rest : List α} (h : afterLevel sep w = some rest) :
    ∃ l, w.splitOn sep = l :: rest.splitOn sep := by
  induction w with
  | nil => simp [afterLevel] at h
  | cons a w ih =>
    rw [afterLevel] at h
    split_ifs at h with ha
    · obtain rfl := Option.some.inj h
      exact ⟨[], by rw [ha, splitOn_sep_cons]⟩
    · obtain ⟨l, hl⟩ := ih h
      exact ⟨a :: l, splitOn_cons_of_ne ha hl⟩

theorem afterLevel_eq_none {w : List α} (h : sep ∉ w) : afterLevel sep w = none := by
  induction w with
  | nil => rfl
  | cons a w ih =>
    rw [List.mem_cons, not_or] at h
    rw [afterLevel, if_neg (Ne.symm h.1), ih h.2]

theorem afterLevel_append {l : List α} (h : sep ∉ l) (w : List α) :
    afterLevel sep (l ++ sep :: w) = some w := by
  induction l with
  | nil => exact if_pos rfl
  | cons a l ih =>
    rw [List.mem_cons, not_or] at h
    rw [List.cons_append, afterLevel, if_neg (Ne.symm h.1), ih h.2]

theorem of_mem_splitOn {w l : List α} (h : l ∈ w.splitOn sep) {a : α} (ha : a ∈ l) :
    a ∈ w ∧ a ≠ sep := by
  induction w generalizing l with
  | nil =>
    obtain rfl : l = [] := List.mem_singleton.mp h
    exact absurd ha List.not_mem_nil
  | cons b w ih =>
    have htail {l : List α} (h : l ∈ w.splitOn sep) (ha : a ∈ l) : a ∈ b :: w ∧ a ≠ sep :=
      (ih h ha).imp_left (List.mem_cons_of_mem b)
    by_cases hb : b = sep
    · rw [hb, splitOn_sep_cons, List.mem_cons] at h
      obtain rfl | h := h
      · exact absurd ha List.not_mem_nil
      · exact hb ▸ htail h ha
    · obtain ⟨head, tail, hw⟩ := @exists_splitOn_eq_cons _ _ sep w
      rw [splitOn_cons_of_ne hb hw, List.mem_cons] at h
      obtain rfl | h := h
      · obtain rfl | ha := List.mem_cons.mp ha
        · exact ⟨List.mem_cons_self, hb⟩
        · exact htail (hw ▸ List.mem_cons_self) ha
      · exact htail (hw ▸ List.mem_cons_of_mem _ h) ha

end Words

section Patterns
variable {β : Type*} {any rest : β} {T F : List β} {l : β}

/-- Level by level: `any` stands for one level, a final `rest` for any number of them, none
included, and every other level for itself. -/
inductive Matches (any rest : β) : List β → List β → Prop
  | done : Matches any rest [] []
  | rest (T : List β) : Matches any rest T [rest]
  | any (l : β) {T F : List β} : Matches any rest T F → Matches any rest (l :: T) (any :: F)
  | literal (l : β) {T F : List β} : Matches any rest T F → Matches any rest (l :: T) (l :: F)

theorem Matches.of_nil (h : Matches any rest [] F) : F = [] ∨ F = [rest] := by
  cases h with
  | done => exact .inl rfl
  | rest => exact .inr rfl

theorem Matches.refl (any rest : β) (T : List β) : Matches any rest T T := by
  induction T with
  | nil => exact .done
  | cons l T ih => exact .literal l ih

theorem Matches.ne_nil (h : Matches any rest (l :: T) F) : F ≠ [] := by
  cases h <;> exact List.cons_ne_nil _ _

end Patterns

end RtosMqtt.Levels
