import Mathlib.Data.List.Nodup
import Mathlib.Data.List.Pairwise

/-! # Bounded ordered lists of distinct keys

A roster keeps its entries in order of arrival, no two with one key and no more
than its capacity. An entry is enrolled at the end, amended where it stands,
dismissed, or promoted to the end.
-/

namespace RtosMqtt

variable {α κ : Type*} [DecidableEq κ]

namespace Roster

section Lists

variable (key : α → κ)

def lookup (k : κ) (l : List α) : Option α := l.find? fun a => key a = k

/-- The list without the entry of a key. -/
def remove (k : κ) (l : List α) : List α := l.filter fun a => key a ≠ k

/-- The list with the entry of the same key replaced. -/
def amend (b : α) (l : List α) : List α := l.map fun a => if key a = key b then b else a

variable {key}

theorem lookup_cons {k : κ} {a : α} {l : List α} :
    lookup key k (a :: l) = if key a = k then some a else lookup key k l := by
  by_cases h : key a = k <;> simp [lookup, h]

theorem lookup_eq_none {k : κ} {l : List α} : lookup key k l = none ↔ k ∉ l.map key := by
  simp [lookup, List.find?_eq_none]

theorem mem_of_lookup {k : κ} {l : List α} {a : α} (h : lookup key k l = some a) :
    a ∈ l ∧ key a = k :=
  ⟨List.mem_of_find?_eq_some h, by simpa using List.find?_some h⟩

theorem lookup_of_mem {l : List α} {a : α} (hn : (l.map key).Nodup) (ha : a ∈ l) :
    lookup key (key a) l = some a := by
  induction l with
  | nil => cases ha
  | cons b l ih =>
    rw [List.map_cons, List.nodup_cons] at hn
    rcases List.mem_cons.mp ha with rfl | ha
    · simp [lookup]
    · have hne : key b ≠ key a := fun he => hn.1 (he ▸ List.mem_map_of_mem ha)
      simpa [lookup, hne] using ih hn.2 ha

theorem lookup_append_singleton {k : κ} {l : List α} {a : α} (h : key a ∉ l.map key) :
    lookup key k (l ++ [a]) = if key a = k then some a else lookup key k l := by
  by_cases hk : key a = k
  · subst hk
    have hnone := lookup_eq_none.mpr h
    rw [lookup] at hnone
    simp [lookup, hnone]
  · simp [lookup, hk]

theorem lookup_remove {k k' : κ} {l : List α} :
    lookup key k' (remove key k l) = if k' = k then none else lookup key k' l := by
  by_cases hk : k' = k
  · subst hk
    simp [remove, lookup_eq_none]
  · rw [if_neg hk, lookup, lookup, remove, List.find?_filter]
    congr 1
    funext a
    by_cases ha : key a = k' <;> simp [ha, hk]

@[simp] theorem map_key_amend {b : α} {l : List α} : (amend key b l).map key = l.map key := by
  rw [amend, List.map_map]
  refine List.map_congr_left fun a _ => ?_
  by_cases h : key a = key b <;> simp [h]

@[simp] theorem length_amend {b : α} {l : List α} : (amend key b l).length = l.length := by
  simp [amend]

theorem amend_self {l : List α} {a : α} (hn : (l.map key).Nodup) (ha : a ∈ l) :
    amend key a l = l := by
  rw [amend]
  conv_rhs => rw [← List.map_id l]
  refine List.map_congr_left fun b hb => ?_
  split_ifs with hk
  · exact (List.inj_on_of_nodup_map hn hb ha hk).symm
  · rfl

theorem lookup_amend {k : κ} {b : α} {l : List α} :
    lookup key k (amend key b l) =
      if k = key b then (lookup key k l).map fun _ => b else lookup key k l := by
  induction l with
  | nil => simp [lookup, amend]
  | cons a l ih =>
    have hcons : amend key b (a :: l) = (if key a = key b then b else a) :: amend key b l := rfl
    rw [hcons, lookup_cons, lookup_cons, ih]
    by_cases ha : key a = key b
    · by_cases hk : k = key b
      · simp [ha, hk]
      · simp [ha, hk, Ne.symm hk]
    · by_cases hk : k = key b
      · simp [ha, hk]
      · simp [ha, hk]

theorem mem_remove {k : κ} {a : α} {l : List α} : a ∈ remove key k l ↔ a ∈ l ∧ key a ≠ k := by
  simp [remove]

theorem map_key_remove {k : κ} {l : List α} :
    (remove key k l).map key = (l.map key).filter (· ≠ k) := by
  rw [remove, List.filter_map]; rfl

theorem nodup_remove {k : κ} {l : List α} (h : (l.map key).Nodup) :
    ((remove key k l).map key).Nodup := by
  rw [map_key_remove]
  exact h.filter _

theorem not_mem_remove {k : κ} {l : List α} : k ∉ (remove key k l).map key := by
  simp [map_key_remove]

omit [DecidableEq κ] in
theorem nodup_append_singleton {l : List α} {a : α} (h : (l.map key).Nodup)
    (ha : key a ∉ l.map key) : ((l ++ [a]).map key).Nodup := by
  rw [List.map_append, List.nodup_append]
  exact ⟨h, by simp, by
    simpa using fun b hb (he : key b = key a) => ha (he ▸ List.mem_map_of_mem hb)⟩

theorem length_remove {k : κ} {l : List α} (hn : (l.map key).Nodup) (hk : k ∈ l.map key) :
    (remove key k l).length + 1 = l.length := by
  have hmap : (l.map key).length = l.length := List.length_map key
  rw [← List.length_map key, map_key_remove, ← hmap]
  generalize l.map key = ks at hn hk
  have he : ks.filter (· ≠ k) = ks.erase k := by
    rw [hn.erase_eq_filter]; congr 1; funext a; simp [bne, Bool.beq_eq_decide_eq]
  rw [he, List.length_erase_of_mem hk]
  exact Nat.succ_pred_eq_of_pos (List.length_pos_of_mem hk)

end Lists

end Roster

structure Roster (key : α → κ) where
  entries : List α
  capacity : ℕ
  distinct : (entries.map key).Nodup
  bounded : entries.length ≤ capacity

namespace Roster

variable {key : α → κ}

inductive Refusal where
  | present | full
  deriving DecidableEq, Repr

def enrol (r : Roster key) (a : α) : Except Refusal (Roster key) :=
  if h : key a ∈ r.entries.map key then .error .present
  else if hroom : r.entries.length < r.capacity then
    .ok ⟨r.entries ++ [a], r.capacity, nodup_append_singleton r.distinct h, by
      rw [List.length_append]; exact hroom⟩
  else .error .full

def dismiss (r : Roster key) (k : κ) : Roster key :=
  ⟨remove key k r.entries, r.capacity, nodup_remove r.distinct,
    Nat.le_trans (List.length_filter_le _ _) r.bounded⟩

/-- Replace the entry of the same key where it stands. -/
def revise (r : Roster key) (b : α) : Roster key :=
  ⟨amend key b r.entries, r.capacity, by rw [map_key_amend]; exact r.distinct, by
    rw [length_amend]; exact r.bounded⟩

/-- Replace the entry of the same key, if there is one, and move it to the end. -/
def promote (r : Roster key) (b : α) : Roster key :=
  if h : key b ∈ r.entries.map key then
    ⟨remove key (key b) r.entries ++ [b], r.capacity,
      nodup_append_singleton (nodup_remove r.distinct) not_mem_remove, by
        rw [List.length_append, List.length_singleton, length_remove r.distinct h]
        exact r.bounded⟩
  else r

@[simp] theorem entries_dismiss (r : Roster key) (k : κ) :
    (r.dismiss k).entries = remove key k r.entries := rfl

@[simp] theorem entries_revise (r : Roster key) (b : α) :
    (r.revise b).entries = amend key b r.entries := rfl

theorem entries_promote {r : Roster key} {b : α} (h : key b ∈ r.entries.map key) :
    (r.promote b).entries = remove key (key b) r.entries ++ [b] := by
  rw [promote, dif_pos h]

@[simp] theorem capacity_dismiss (r : Roster key) (k : κ) :
    (r.dismiss k).capacity = r.capacity := rfl

@[simp] theorem capacity_revise (r : Roster key) (b : α) :
    (r.revise b).capacity = r.capacity := rfl

@[simp] theorem capacity_promote (r : Roster key) (b : α) :
    (r.promote b).capacity = r.capacity := by
  unfold promote; split <;> rfl

end Roster

end RtosMqtt
