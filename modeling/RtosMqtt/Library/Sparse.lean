import Mathlib.Data.List.DropRight
import Mathlib.Data.List.Nodup

/-! # Arrays with vacant slots

A fixed array in which some slots are vacant stands for the list of its live
elements, in index order. Writing one slot changes that list in one place, and
the trailing run of vacant slots is where an element can be appended.
-/

namespace RtosMqtt.Sparse

variable {α κ : Type*} (vacant : α → Bool)

def live (l : List α) : List α := l.filter fun a => !vacant a

def front (l : List α) : List α := l.rdropWhile vacant

def Clean (blank : α) (l : List α) : Prop := ∀ a ∈ l, vacant a → a = blank

variable {vacant}

@[simp] theorem live_nil : live vacant [] = [] := rfl

@[simp] theorem live_append (l m : List α) : live vacant (l ++ m) = live vacant l ++ live vacant m :=
  List.filter_append _ _

theorem live_cons (a : α) (l : List α) :
    live vacant (a :: l) = (if vacant a then [] else [a]) ++ live vacant l := by
  cases h : vacant a <;> simp [live, h]

@[simp] theorem mem_live {a : α} {l : List α} : a ∈ live vacant l ↔ a ∈ l ∧ vacant a = false := by
  simp [live]

theorem length_live_le (l : List α) : (live vacant l).length ≤ l.length :=
  List.length_filter_le _ _

theorem live_eq_nil {l : List α} (h : ∀ a ∈ l, vacant a = true) : live vacant l = [] := by
  simpa [live, List.filter_eq_nil_iff] using h

theorem live_eq_self {l : List α} (h : ∀ a ∈ l, vacant a = false) : live vacant l = l := by
  simpa [live, List.filter_eq_self] using h

theorem live_length_eq_iff {l : List α} :
    (live vacant l).length = l.length ↔ ∀ a ∈ l, vacant a = false := by
  simp [live, List.length_filter_eq_length_iff]

theorem split_at {l : List α} {i : ℕ} {a : α} (h : l[i]? = some a) :
    l = l.take i ++ a :: l.drop (i + 1) := by
  obtain ⟨hi, rfl⟩ := List.getElem?_eq_some_iff.mp h
  rw [← List.drop_eq_getElem_cons hi, List.take_append_drop]

theorem set_split {l : List α} {i : ℕ} (h : i < l.length) (a : α) :
    l.set i a = l.take i ++ a :: l.drop (i + 1) := List.set_eq_take_append_cons_drop.trans (if_pos h)

/-- The move of one compaction turn: an element takes the first hole, and its own slot
becomes the last one. -/
theorem set_set_slide (packed holes rest : List α) (hole a b : α) :
    ((packed ++ hole :: holes ++ a :: rest).set packed.length a).set
        (packed.length + (holes.length + 1)) b =
      packed ++ [a] ++ (holes ++ [b]) ++ rest := by
  simp

theorem live_set_blank {l : List α} {i : ℕ} {a b : α} (h : l[i]? = some a)
    (hb : vacant b = true) :
    live vacant (l.set i b) = live vacant (l.take i) ++ live vacant (l.drop (i + 1)) := by
  obtain ⟨hi, -⟩ := List.getElem?_eq_some_iff.mp h
  rw [set_split hi, live_append, live_cons, if_pos hb, List.nil_append]

theorem live_split {l : List α} {i : ℕ} {a : α} (h : l[i]? = some a) (ha : vacant a = false) :
    live vacant l = live vacant (l.take i) ++ a :: live vacant (l.drop (i + 1)) := by
  conv_lhs => rw [split_at h]
  rw [live_append, live_cons, ha]
  rfl

theorem live_set_live {l : List α} {i : ℕ} {b : α} (h : i < l.length) (hb : vacant b = false) :
    live vacant (l.set i b) = live vacant (l.take i) ++ b :: live vacant (l.drop (i + 1)) := by
  rw [set_split h, live_append, live_cons, hb]
  rfl

theorem front_append_vacant (vacant : α → Bool) (l : List α) :
    ∃ tail, l = front vacant l ++ tail ∧ ∀ a ∈ tail, vacant a = true :=
  ⟨_, List.rdropWhile_append_rtakeWhile.symm, fun _ h => List.mem_rtakeWhile_imp h⟩

theorem length_front_le (l : List α) : (front vacant l).length ≤ l.length :=
  (List.rdropWhile_prefix vacant l).length_le

theorem live_front (l : List α) : live vacant (front vacant l) = live vacant l := by
  obtain ⟨tail, h, hv⟩ := front_append_vacant vacant l
  conv_rhs => rw [h]
  rw [live_append, live_eq_nil hv, List.append_nil]

theorem live_set_front {l : List α} {a : α} (h : (front vacant l).length < l.length)
    (ha : vacant a = false) :
    live vacant (l.set (front vacant l).length a) = live vacant l ++ [a] := by
  obtain ⟨tail, hl, hv⟩ := front_append_vacant vacant l
  rw [live_set_live h ha, ← live_front l]
  have htake : l.take (front vacant l).length = front vacant l := by
    conv_lhs => rw [hl, List.take_left' (by rw [← hl])]
  have hdrop : live vacant (l.drop ((front vacant l).length + 1)) = [] := by
    refine live_eq_nil fun b hb => hv b ?_
    have htail : l.drop (front vacant l).length = tail := by
      conv_lhs => rw [hl, List.drop_left' (by rw [← hl])]
    rw [← List.drop_drop, htail] at hb
    exact List.mem_of_mem_drop hb
  rw [htake, hdrop]

theorem front_eq_self_iff {l : List α} :
    (front vacant l).length = l.length ↔ ∀ a ∈ l.getLast?, vacant a = false := by
  constructor
  · intro h a ha
    have he : front vacant l = l := (List.rdropWhile_prefix vacant l).eq_of_length h
    rw [front, List.rdropWhile_eq_self_iff] at he
    obtain ⟨hne, rfl⟩ := List.mem_getLast?_eq_getLast ha
    simpa using he hne
  · intro h
    refine congrArg List.length (List.rdropWhile_eq_self_iff.mpr fun hne => ?_)
    simpa using h _ (List.getLast?_eq_some_getLast hne)

theorem front_packed {l : List α} {n : ℕ} (hl : ∀ a ∈ l.take n, vacant a = false)
    (hr : ∀ a ∈ l.drop n, vacant a = true) : front vacant l = l.take n := by
  unfold front
  conv_lhs => rw [← List.take_append_drop n l]
  generalize l.drop n = r at hr
  induction r using List.reverseRecOn with
  | nil =>
    rw [List.append_nil, List.rdropWhile_eq_self_iff]
    exact fun hne => by simpa using hl _ (List.getLast_mem hne)
  | append_singleton r a ih =>
    rw [← List.append_assoc, List.rdropWhile_concat_pos _ _ _ (hr a (by simp))]
    exact ih fun b hb => hr b (by simp [hb])

theorem Clean.set {blank : α} {l : List α} (h : Clean vacant blank l) {i : ℕ} {a : α}
    (ha : vacant a = true → a = blank) : Clean vacant blank (l.set i a) := by
  intro b hb hv
  rcases List.mem_or_eq_of_mem_set hb with hb | rfl
  · exact h b hb hv
  · exact ha hv

theorem Clean.of_mem {blank : α} {l m : List α} (h : Clean vacant blank l)
    (hm : ∀ a ∈ m, a ∈ l) : Clean vacant blank m := fun a ha => h a (hm a ha)

section Keys

variable [DecidableEq κ] {key : α → κ}

theorem live_set_blank_of_nodup {l : List α} {i : ℕ} {a b : α} (h : l[i]? = some a)
    (ha : vacant a = false) (hb : vacant b = true) (hn : ((live vacant l).map key).Nodup) :
    live vacant (l.set i b) = (live vacant l).filter fun c => key c ≠ key a := by
  rw [live_set_blank h hb]
  rw [live_split h ha] at hn ⊢
  simp only [List.map_append, List.map_cons, List.nodup_append, List.nodup_cons] at hn
  obtain ⟨-, ⟨hr, -⟩, hd⟩ := hn
  have hleft : (live vacant (l.take i)).filter (fun c => key c ≠ key a) = live vacant (l.take i) :=
    List.filter_eq_self.mpr fun c hc => by
      simpa using hd _ (List.mem_map_of_mem hc) _ (by simp)
  have hright : (live vacant (l.drop (i + 1))).filter (fun c => key c ≠ key a) =
      live vacant (l.drop (i + 1)) :=
    List.filter_eq_self.mpr fun c hc => by
      simpa using fun he : key c = key a => hr (he ▸ List.mem_map_of_mem hc)
  rw [List.filter_append, List.filter_cons_of_neg (by simp), hleft, hright]

theorem live_set_live_of_nodup {l : List α} {i : ℕ} {a b : α} (h : l[i]? = some a)
    (ha : vacant a = false) (hb : vacant b = false) (hn : ((live vacant l).map key).Nodup) :
    live vacant (l.set i b) = (live vacant l).map fun c => if key c = key a then b else c := by
  obtain ⟨hi, -⟩ := List.getElem?_eq_some_iff.mp h
  rw [live_set_live hi hb]
  rw [live_split h ha] at hn ⊢
  simp only [List.map_append, List.map_cons, List.nodup_append, List.nodup_cons] at hn
  obtain ⟨-, ⟨hr, -⟩, hd⟩ := hn
  have hleft : (live vacant (l.take i)).map (fun c => if key c = key a then b else c) =
      live vacant (l.take i) := by
    refine (List.map_congr_left fun c hc => ?_).trans (List.map_id _)
    exact if_neg (hd _ (List.mem_map_of_mem hc) _ (by simp))
  have hright : (live vacant (l.drop (i + 1))).map (fun c => if key c = key a then b else c) =
      live vacant (l.drop (i + 1)) := by
    refine (List.map_congr_left fun c hc => ?_).trans (List.map_id _)
    exact if_neg fun he : key c = key a => hr (he ▸ List.mem_map_of_mem hc)
  rw [List.map_append, List.map_cons, if_pos rfl, hleft, hright]

end Keys

end RtosMqtt.Sparse
