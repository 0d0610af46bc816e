import Mathlib.Data.List.Induction
import RtosMqtt.Wire.Topic

/-! # What a topic filter matches

The walk over bytes against the relation over levels: it finds no match that the relation does
not have, and the matches it misses lie at the end of the topic, behind a `+`.
-/

namespace RtosMqtt

open Levels Topic

def levels (s : List UInt8) : List (List UInt8) := s.splitOn separator

/-- Level by level, a filter describes a topic. -/
abbrev LevelsMatch : List (List UInt8) → List (List UInt8) → Prop :=
  Levels.Matches [singleLevel] [multiLevel]

/-- The relation between topics and filters that the protocol defines. -/
def Describes (filter topic : List UInt8) : Prop :=
  ¬ Hidden topic filter ∧ LevelsMatch (levels topic) (levels filter)

@[simp] theorem levels_nil : levels [] = [[]] := rfl

@[simp] theorem levels_separator (s : List UInt8) : levels (separator :: s) = [] :: levels s :=
  splitOn_sep_cons s

theorem levels_cons {c : UInt8} {s l : List UInt8} {L : List (List UInt8)} (hc : c ≠ separator)
    (hs : levels s = l :: L) : levels (c :: s) = (c :: l) :: L := splitOn_cons_of_ne hc hs

/-- What is left of topic and filter agrees: from the start of a level on, or with the same
bytes up to the end of the level. -/
def Agrees : Bool → List UInt8 → List UInt8 → Prop
  | true, t, f => LevelsMatch (levels t) (levels f)
  | false, t, f => ∃ l T F, levels t = l :: T ∧ levels f = l :: F ∧ LevelsMatch T F

variable {valid : Bool} {c d e : UInt8} {t f : List UInt8}

theorem Agrees.of_false (h : Agrees false t f) : Agrees valid t f := by
  cases valid with
  | false => exact h
  | true =>
    obtain ⟨l, T, F, ht, hf, hmatch⟩ := h
    rw [Agrees, ht, hf]
    exact .literal l hmatch

theorem agrees_same (h : Agrees (c = separator) t f) : Agrees false (c :: t) (c :: f) := by
  by_cases hc : c = separator
  · rw [decide_eq_true hc, Agrees] at h
    exact ⟨[], levels t, levels f, by rw [hc, levels_separator], by rw [hc, levels_separator], h⟩
  · rw [decide_eq_false hc] at h
    obtain ⟨l, T, F, ht, hf, hmatch⟩ := h
    exact ⟨c :: l, T, F, levels_cons hc ht, levels_cons hc hf, hmatch⟩

theorem agrees_covering (h : Covering (c :: f)) : Agrees false [c] (c :: f) := by
  obtain ⟨c', h⟩ | h | h := h
  · obtain ⟨-, rfl⟩ := List.cons.inj h
    apply agrees_same
    apply Agrees.of_false
    exact ⟨[], [], [[multiLevel]], rfl, rfl, .rest []⟩
  · obtain ⟨rfl, rfl⟩ := List.cons.inj h
    exact ⟨[], [[]], [[singleLevel]], rfl, rfl, .any [] .done⟩
  · obtain ⟨rfl, rfl⟩ := List.cons.inj h
    exact ⟨[], [[]], [[multiLevel]], rfl, rfl, .rest [[]]⟩

theorem agrees_nil : Agrees valid [] [] := Agrees.of_false ⟨[], [], [], rfl, rfl, .done⟩

/-- The walk finds only what agrees. -/
theorem walks_sound (h : Walks valid t f) : Agrees valid t f := by
  induction f using List.twoStepInduction generalizing valid t with
  | nil =>
    obtain rfl : t = [] := h
    exact agrees_nil
  | singleton d =>
    rcases t with _ | ⟨c, t⟩
    · exact h.elim
    by_cases hsame : c = d
    · subst hsame
      apply Agrees.of_false
      obtain ⟨rfl, hcovering⟩ | hwalks := walks_same.mp h
      · exact agrees_covering hcovering
      · obtain rfl : t = [] := hwalks
        exact agrees_same agrees_nil
    by_cases hplus : d = singleLevel ∧ valid = true
    · obtain ⟨rfl, rfl⟩ := hplus
      have hlevel := splitOn_of_afterLevel_none ((walks_final hsame).mp h)
      change LevelsMatch (levels _) [[singleLevel]]
      rw [levels, hlevel]
      exact .any _ .done
    · obtain ⟨rfl, -, rfl⟩ := (walks_other hsame hplus).mp h
      exact .rest _
  | cons_cons d e f ihskip ihstep =>
    rcases t with _ | ⟨c, t⟩
    · exact h.elim
    by_cases hsame : c = d
    · subst hsame
      apply Agrees.of_false
      obtain ⟨rfl, hcovering⟩ | hwalks := walks_same.mp h
      · exact agrees_covering hcovering
      · exact agrees_same (ihstep e hwalks)
    by_cases hplus : d = singleLevel ∧ valid = true
    · obtain ⟨rfl, rfl⟩ := hplus
      obtain ⟨rfl, rest, hrest, hwalks⟩ := (walks_single hsame).mp h
      obtain ⟨l, hlevel⟩ := splitOn_of_afterLevel_some hrest
      have hplus : levels (singleLevel :: separator :: f) = [singleLevel] :: levels f :=
        levels_cons (by decide) (levels_separator f)
      rw [Agrees, hplus, levels, hlevel]
      exact .any l (ihskip hwalks)
    · obtain ⟨-, hf, -⟩ := (walks_other hsame hplus).mp h
      exact absurd hf (List.cons_ne_nil e f)

/-- Whatever is found to match is described by the filter. -/
theorem matches_sound {topic filter : List UInt8} (h : Topic.matches topic filter = .ok true) :
    Describes filter topic := by
  obtain ⟨-, -, rfl | ⟨hhidden, hwalks⟩⟩ := matches_eq_true_iff.mp h
  · refine ⟨?_, Matches.refl _ _ _⟩
    rintro ⟨hdollar, hwildcard⟩
    rw [hdollar] at hwildcard
    revert hwildcard
    decide
  · exact ⟨hhidden, walks_sound hwalks⟩

/-- `a/b` matches `a/+`. -/
theorem matches_sound_of_single :
    Describes [0x61, separator, singleLevel] [0x61, separator, 0x62] :=
  @matches_sound [0x61, separator, 0x62] [0x61, separator, singleLevel] rfl

/-- The levels of topics have no separator and no wildcard in them. -/
def Plain (l : List UInt8) : Prop := separator ∉ l ∧ singleLevel ∉ l ∧ multiLevel ∉ l

def joined (L : List (List UInt8)) : List UInt8 := [separator].intercalate L

theorem joined_cons {l : List UInt8} {L : List (List UInt8)} (hL : L ≠ []) :
    joined (l :: L) = l ++ separator :: joined L := by
  rw [joined, List.intercalate_cons_of_ne_nil hL, List.append_assoc]
  rfl

theorem joined_levels (s : List UInt8) : joined (levels s) = s := List.intercalate_splitOn separator

theorem joined_eq_nil {L : List (List UInt8)} (hL : L ≠ []) : joined L = [] ↔ L = [[]] := by
  rcases L with _ | ⟨l, _ | ⟨l', L⟩⟩
  · exact absurd rfl hL
  · simp [joined]
  · simp [joined_cons (List.cons_ne_nil l' L)]

/-- A described topic that the walk does not find: the `+` in front of the parent form of a `#`
stands for its last level, or a `+` for the last but one and the last one is blank. -/
def Missed : List (List UInt8) → List (List UInt8) → Prop
  | _ :: T, m :: F =>
    m = [singleLevel] ∧ (T = [] ∧ F = [[multiLevel]] ∨ T = [[]] ∧ F ≠ [[]]) ∨ Missed T F
  | _, _ => False

theorem walks_level (l t f : List UInt8) :
    Walks valid (l ++ separator :: t) (l ++ separator :: f) ↔
      t = [] ∧ Covering (separator :: f) ∨ Walks true t f := by
  induction l generalizing valid with
  | nil => exact walks_same
  | cons c l ih => simp [walks_same, ih]

theorem walks_self (l : List UInt8) : Walks valid l l := by
  induction l generalizing valid with
  | nil => exact rfl
  | cons c l ih => exact walks_same.mpr (.inr ih)

theorem walks_parent {l : List UInt8} (hl : l ≠ []) :
    Walks valid l (l ++ [separator, multiLevel]) := by
  induction l generalizing valid with
  | nil => exact absurd rfl hl
  | cons c l ih =>
    rw [List.cons_append, walks_same]
    by_cases h : l = []
    · exact .inl ⟨h, .inl ⟨c, by rw [h]; rfl⟩⟩
    · exact .inr (ih h)

theorem walks_any {l t f : List UInt8} (hl : Plain l) :
    Walks true (l ++ separator :: t) (singleLevel :: separator :: f) ↔ Walks true t f := by
  have hlevel := afterLevel_append hl.1 t
  obtain ⟨c, w, hw⟩ : ∃ c w, l ++ separator :: t = c :: w :=
    List.exists_cons_of_ne_nil (List.append_ne_nil_of_right_ne_nil l (List.cons_ne_nil _ _))
  have hc : c ≠ singleLevel := by
    cases l with
    | nil =>
      obtain ⟨rfl, -⟩ := List.cons.inj hw
      decide
    | cons c' l =>
      obtain ⟨rfl, -⟩ := List.cons.inj hw
      exact fun h => hl.2.1 (h ▸ List.mem_cons_self)
  rw [hw] at hlevel
  rw [hw, walks_single hc, hlevel]
  simp

theorem matches_blank {F : List (List UInt8)} (h : LevelsMatch [[]] F) :
    F = [[multiLevel]] ∨ ∃ m, (m = [singleLevel] ∨ m = []) ∧ (F = [m] ∨ F = [m, [multiLevel]]) := by
  cases h with
  | rest => exact .inl rfl
  | any _ h => exact .inr ⟨_, .inl rfl, h.of_nil.imp (congrArg _) (congrArg _)⟩
  | literal _ h => exact .inr ⟨_, .inr rfl, h.of_nil.imp (congrArg _) (congrArg _)⟩

theorem walks_blank {F : List (List UInt8)} (h : LevelsMatch [[]] F) :
    Covering (separator :: joined F) ∨ Walks true [] (joined F) ↔ ¬ Missed [[]] F := by
  rw [walks_nil_left]
  obtain rfl | ⟨m, rfl | rfl, rfl | rfl⟩ := matches_blank h
  all_goals simp [Covering, joined, Missed, multiLevel, singleLevel, separator]

theorem multiLevel_notMem_joined {T : List (List UInt8)} (h : ∀ l ∈ T, Plain l) :
    multiLevel ∉ joined T := by
  induction T with
  | nil => exact List.not_mem_nil
  | cons l T ih =>
    have hl := (h l List.mem_cons_self).2.2
    by_cases hT : T = []
    · subst hT
      simpa [joined] using hl
    · rw [joined_cons hT, List.mem_append, List.mem_cons, not_or, not_or]
      exact ⟨hl, by decide, ih fun l hl => h l (List.mem_cons_of_mem _ hl)⟩

@[simp] theorem not_missed_nil (T : List (List UInt8)) : ¬ Missed T [] := by
  cases T <;> exact not_false

theorem walks_final_any {l : List UInt8} (hl : Plain l) (hne : l ≠ [])
    {F : List (List UInt8)} (h : LevelsMatch [] F) :
    Walks true l (joined ([singleLevel] :: F)) ↔ F = [] := by
  obtain ⟨c, t, rfl⟩ := List.exists_cons_of_ne_nil hne
  have hc : c ≠ singleLevel := fun hc => hl.2.1 (hc ▸ List.mem_cons_self)
  have hlevel := afterLevel_eq_none hl.1
  obtain rfl | rfl := h.of_nil
  · rw [joined, List.intercalate_singleton, walks_final hc]
    exact iff_of_true hlevel rfl
  · change Walks true (c :: t) [singleLevel, separator, multiLevel] ↔ _
    rw [walks_single hc, hlevel]
    simp

/-- The walk finds what the levels have in common, but for the end of the topic. -/
theorem walks_iff {T F : List (List UInt8)} (h : LevelsMatch T F) (hplain : ∀ l ∈ T, Plain l)
    (hT : T ≠ []) (hjoined : joined T ≠ []) : Walks true (joined T) (joined F) ↔ ¬ Missed T F := by
  induction h with
  | done => exact absurd rfl hT
  | rest T =>
    obtain ⟨c, t, hc⟩ := List.exists_cons_of_ne_nil hjoined
    have hne : c ≠ multiLevel := by
      rintro rfl
      exact multiLevel_notMem_joined hplain (hc ▸ List.mem_cons_self)
    rw [hc, joined, List.intercalate_singleton, walks_other hne (by decide)]
    refine iff_of_true ⟨rfl, rfl, rfl⟩ ?_
    cases T <;> simp [Missed, multiLevel, singleLevel]
  | @any l T F h ih =>
    have hl := hplain l List.mem_cons_self
    by_cases hlast : T = []
    · subst hlast
      rw [joined, List.intercalate_singleton] at hjoined ⊢
      rw [walks_final_any hl hjoined h]
      obtain rfl | rfl := h.of_nil <;> simp [Missed]
    · obtain ⟨l', T', rfl⟩ := List.exists_cons_of_ne_nil hlast
      rw [joined_cons hlast, joined_cons h.ne_nil]
      refine (walks_any hl).trans ?_
      by_cases hblank : joined (l' :: T') = []
      · rw [hblank, walks_nil_left, joined_eq_nil h.ne_nil]
        obtain ⟨rfl, rfl⟩ := List.cons.inj ((joined_eq_nil hlast).mp hblank)
        have hfinal : F = [[]] → ¬ Missed [[]] F := by
          rintro rfl
          simp [Missed, singleLevel]
        simpa [Missed] using hfinal
      · rw [ih (fun l hl => hplain l (List.mem_cons_of_mem _ hl)) hlast hblank]
        rw [joined_eq_nil hlast] at hblank
        simp [Missed, hblank]
  | @literal l T F h ih =>
    have hl := hplain l List.mem_cons_self
    have hne : l ≠ [singleLevel] := fun h => hl.2.1 (h ▸ List.mem_singleton_self _)
    by_cases hlast : T = []
    · subst hlast
      rw [joined, List.intercalate_singleton] at hjoined ⊢
      refine iff_of_true ?_ (by simp [Missed, hne])
      obtain rfl | rfl := h.of_nil
      · rw [joined, List.intercalate_singleton]
        exact walks_self l
      · rw [joined_cons (List.cons_ne_nil _ _)]
        exact walks_parent hjoined
    · obtain ⟨l', T', rfl⟩ := List.exists_cons_of_ne_nil hlast
      rw [joined_cons hlast, joined_cons h.ne_nil, walks_level]
      by_cases hblank : joined (l' :: T') = []
      · rw [hblank, and_iff_right rfl]
        obtain ⟨rfl, rfl⟩ := List.cons.inj ((joined_eq_nil hlast).mp hblank)
        rw [walks_blank h]
        simp [Missed, hne]
      · rw [ih (fun l hl => hplain l (List.mem_cons_of_mem _ hl)) hlast hblank]
        simp [Missed, hblank, hne]

/-- The documented divergence: a blank last level of the topic for a last `+` of the filter, with
another `+` before it. -/
def Divergence (T F : List (List UInt8)) : Prop :=
  T.getLast? = some [] ∧ F.getLast? = some [singleLevel] ∧ [singleLevel] ∈ F.dropLast

/-- A filter ends in `#`, and one of its `+` stands for the last level of the topic, or for the
level before a blank last one. -/
def HashBehindPlus : List (List UInt8) → List (List UInt8) → Prop
  | _ :: T, m :: F =>
    m = [singleLevel] ∧ F.getLast? = some [multiLevel] ∧ (T = [] ∨ T = [[]]) ∨ HashBehindPlus T F
  | _, _ => False

instance (T F : List (List UInt8)) : Decidable (Divergence T F) :=
  inferInstanceAs (Decidable (_ ∧ _))

instance HashBehindPlus.decidable : ∀ T F, Decidable (HashBehindPlus T F)
  | _ :: T, _ :: F =>
    have := HashBehindPlus.decidable T F
    inferInstanceAs (Decidable (_ ∨ _))
  | [], _ => isFalse id
  | _ :: _, [] => isFalse id

theorem HashBehindPlus.getLast? {T F : List (List UInt8)} (h : HashBehindPlus T F) :
    F.getLast? = some [multiLevel] := by
  induction F generalizing T with
  | nil => cases T <;> exact h.elim
  | cons m F ih =>
    cases T with
    | nil => exact h.elim
    | cons l T =>
      have hF : F.getLast? = some [multiLevel] := h.elim (fun h => h.2.1) ih
      rw [List.getLast?_cons, hF]
      rfl

theorem Divergence.cons {T F : List (List UInt8)} (h : Divergence T F) (l m : List UInt8) :
    Divergence (l :: T) (m :: F) := by
  have hF : F ≠ [] := by
    rintro rfl
    exact absurd h.2.2 List.not_mem_nil
  refine ⟨by rw [List.getLast?_cons, h.1]; rfl, by rw [List.getLast?_cons, h.2.1]; rfl, ?_⟩
  rw [List.dropLast_cons_of_ne_nil hF]
  exact List.mem_cons_of_mem m h.2.2

theorem missed_cons_iff {l m : List UInt8} {T F : List (List UInt8)} (h : LevelsMatch T F)
    (ih : Missed T F ∧ ¬ Divergence T F ↔ HashBehindPlus T F) :
    Missed (l :: T) (m :: F) ∧ ¬ Divergence (l :: T) (m :: F) ↔
      HashBehindPlus (l :: T) (m :: F) := by
  constructor
  · rintro ⟨⟨rfl, ⟨rfl, rfl⟩ | ⟨rfl, hF⟩⟩ | hmissed, hdivergence⟩
    · exact .inl ⟨rfl, rfl, .inl rfl⟩
    · refine .inl ⟨rfl, ?_, .inr rfl⟩
      obtain rfl | ⟨m, rfl | rfl, rfl | rfl⟩ := matches_blank h
      · rfl
      · exact absurd ⟨rfl, rfl, List.mem_cons_self⟩ hdivergence
      · rfl
      · exact absurd rfl hF
      · rfl
    · exact .inr (ih.mp ⟨hmissed, fun hd => hdivergence (hd.cons l m)⟩)
  · intro hhash
    refine ⟨?_, fun hd => ?_⟩
    · obtain ⟨rfl, hlast, rfl | rfl⟩ | hrest := hhash
      · obtain rfl | rfl := h.of_nil
        · exact absurd hlast (by decide)
        · exact .inl ⟨rfl, .inl ⟨rfl, rfl⟩⟩
      · refine .inl ⟨rfl, .inr ⟨rfl, ?_⟩⟩
        rintro rfl
        exact absurd hlast (by decide)
      · exact .inr (ih.mpr hrest).1
    · have hlast := hhash.getLast?.symm.trans hd.2.1
      exact absurd hlast (by decide)

theorem missed_iff {T F : List (List UInt8)} (h : LevelsMatch T F) :
    Missed T F ∧ ¬ Divergence T F ↔ HashBehindPlus T F := by
  induction h with
  | done => exact iff_of_false (fun h => h.1) id
  | rest T =>
    cases T with
    | nil => exact iff_of_false (fun h => h.1) id
    | cons l T => cases T <;> simp [Missed, HashBehindPlus, multiLevel, singleLevel]
  | any l h ih => exact missed_cons_iff h ih
  | literal l h ih => exact missed_cons_iff h ih

def IsName (topic : List UInt8) : Prop := singleLevel ∉ topic ∧ multiLevel ∉ topic

instance (topic : List UInt8) : Decidable (IsName topic) := inferInstanceAs (Decidable (_ ∧ _))

/-- A `+` is a whole level, and a `#` the whole last level. -/
def WellFormed (filter : List UInt8) : Prop :=
  (∀ l ∈ levels filter, singleLevel ∈ l → l = [singleLevel]) ∧
    (∀ l ∈ levels filter, multiLevel ∈ l → l = [multiLevel]) ∧
      ∀ l ∈ (levels filter).dropLast, multiLevel ∉ l

theorem plain_of_isName {topic : List UInt8} (h : IsName topic) : ∀ l ∈ levels topic, Plain l :=
  fun _ hl => ⟨fun hm => (of_mem_splitOn hl hm).2 rfl, fun hm => h.1 (of_mem_splitOn hl hm).1,
    fun hm => h.2 (of_mem_splitOn hl hm).1⟩

theorem matches_iff_not_missed {topic filter : List UInt8} (hname : IsName topic)
    (htopic : Sized topic) (hfilter : Sized filter) (h : Describes filter topic) :
    Topic.matches topic filter = .ok true ↔ ¬ Missed (levels topic) (levels filter) := by
  have hne : joined (levels topic) ≠ [] := by
    rw [joined_levels]
    exact List.ne_nil_of_length_pos htopic.1
  have hwalks := walks_iff h.2 (plain_of_isName hname) (List.splitOn_ne_nil _ _) hne
  rw [joined_levels, joined_levels] at hwalks
  rw [matches_eq_true_iff, ← hwalks]
  constructor
  · rintro ⟨-, -, rfl | ⟨-, hwalk⟩⟩
    · exact walks_self _
    · exact hwalk
  · intro hwalk
    exact ⟨htopic, hfilter, .inr ⟨h.1, hwalk⟩⟩

/-- A described topic is found, but for the documented divergence, exactly when the filter does
not end in a `#` behind a `+` for the end of the topic. -/
theorem matches_complete_iff {topic filter : List UInt8} (hname : IsName topic)
    (htopic : Sized topic) (hfilter : Sized filter) (h : Describes filter topic) :
    (¬ Divergence (levels topic) (levels filter) → Topic.matches topic filter = .ok true) ↔
      ¬ HashBehindPlus (levels topic) (levels filter) := by
  rw [matches_iff_not_missed hname htopic hfilter h, ← missed_iff h.2]
  tauto

/-- `a` matches `a/#`. -/
theorem matches_complete_of_parent :
    Topic.matches [0x61] [0x61, separator, multiLevel] = .ok true :=
  (matches_complete_iff (by decide) (by decide) (by decide)
    ⟨by decide, .literal [0x61] (.rest [])⟩).mpr (by decide) (by decide)

/-- `a` does not match `+/#`. -/
theorem parent_of_plus_missed :
    ¬ ∀ topic filter : List UInt8, IsName topic → WellFormed filter → Sized topic → Sized filter →
      Describes filter topic → ¬ Divergence (levels topic) (levels filter) →
        Topic.matches topic filter = .ok true := by
  intro h
  have hwell : WellFormed [singleLevel, separator, multiLevel] :=
    ⟨by decide, by decide, by decide⟩
  have hmatch := h [0x61] [singleLevel, separator, multiLevel] (by decide) hwell (by decide)
    (by decide) ⟨by decide, .any [0x61] (.rest [])⟩ (by decide)
  exact absurd hmatch (by decide)

end RtosMqtt
