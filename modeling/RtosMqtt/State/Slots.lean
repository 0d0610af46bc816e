import RtosMqtt.Library.Sparse
import RtosMqtt.State.Records

/-! # What the array operations do to the messages in flight

The occupied slots of an array, in index order, are the messages in flight.
Compaction keeps that list, insertion appends to it, and writing a slot
removes or changes one of its elements.
-/

namespace RtosMqtt

open Sparse

def inFlight (records : List Record) : List Record := live Record.isEmpty records

def inFlightIds (records : List Record) : List UInt16 := (inFlight records).map Record.packetId

def FreeSlotsDefault (records : List Record) : Prop := Clean Record.isEmpty Record.default records

@[simp] theorem isEmpty_default : Record.default.isEmpty = true := rfl

theorem isEmpty_iff {r : Record} : r.isEmpty = true ↔ r.packetId = packetIdInvalid := by
  simp [Record.isEmpty]

theorem isEmpty_eq_false_iff {r : Record} : r.isEmpty = false ↔ r.packetId ≠ packetIdInvalid := by
  rw [ne_eq, ← isEmpty_iff, Bool.not_eq_true]

theorem mem_inFlight {r : Record} {records : List Record} :
    r ∈ inFlight records ↔ r ∈ records ∧ r.packetId ≠ packetIdInvalid := by
  rw [inFlight, mem_live, isEmpty_eq_false_iff]

theorem packetIdInvalid_not_mem (records : List Record) :
    packetIdInvalid ∉ inFlightIds records := by
  intro h
  obtain ⟨r, hr, he⟩ := List.mem_map.mp h
  exact (mem_inFlight.mp hr).2 he

theorem inFlight_cleared (records : List Record) :
    inFlight (records.map fun _ => Record.default) = [] :=
  live_eq_nil fun r hr => by
    obtain ⟨-, -, rfl⟩ := List.mem_map.mp hr
    rfl

/-- The compaction loop before slot `k`: the messages below `k` are packed at the
front, the holes they left follow, and the rest is untouched. -/
structure Compacting (records : List Record) (k : ℕ) (s : List Record × Option ℕ)
    (holes : List Record) : Prop where
  shape : s.1 = inFlight (records.take k) ++ holes ++ records.drop k
  first : s.2 = if holes = [] then none else some (inFlight (records.take k)).length
  vacant : ∀ r ∈ holes, r.isEmpty = true
  origin : ∀ r ∈ holes, r = Record.default ∨ r ∈ records
  count : (inFlight (records.take k)).length + holes.length = k

theorem compacting_zero (records : List Record) : Compacting records 0 (records, none) [] :=
  ⟨rfl, rfl, by simp, by simp, rfl⟩

theorem inFlight_take_succ {records : List Record} {k : ℕ} (hk : k < records.length) :
    inFlight (records.take (k + 1)) =
      inFlight (records.take k) ++ if records[k].isEmpty then [] else [records[k]] := by
  rw [List.take_succ_eq_append_getElem hk, inFlight, live_append, live_cons, live_nil,
    List.append_nil]
  rfl

theorem inFlightIds_take_succ {records : List Record} {k : ℕ} (hk : k < records.length) :
    inFlightIds (records.take (k + 1)) = inFlightIds (records.take k) ++
      if records[k].isEmpty then [] else [records[k].packetId] := by
  rw [inFlightIds, inFlight_take_succ hk, List.map_append, inFlightIds]
  split <;> rfl

theorem Compacting.step {records holes : List Record} {k : ℕ} {s : List Record × Option ℕ}
    (h : Compacting records k s holes) (hk : k < records.length) :
    ∃ holes', Compacting records (k + 1) (compactStep s k) holes' := by
  obtain ⟨array, empty⟩ := s
  obtain ⟨hshape, hfirst, hvacant, horigin, hcount⟩ := h
  simp only at hshape hfirst
  have hdrop : records.drop k = records[k] :: records.drop (k + 1) :=
    List.drop_eq_getElem_cons hk
  have hget : array[k]? = some records[k] := by
    rw [hshape, List.getElem?_append_right (by simp [hcount]), hdrop]
    simp [hcount]
  have htake := inFlight_take_succ hk
  cases he : records[k].isEmpty with
  | true =>
    have hstep : compactStep (array, empty) k = (array, some (empty.getD k)) := by
      cases empty <;> simp [compactStep, hget, he]
    rw [he, if_pos rfl, List.append_nil] at htake
    refine ⟨holes ++ [records[k]], ?_, ?_, ?_, ?_, ?_⟩
    · rw [hstep, htake, hshape, hdrop]; simp
    · rw [hstep, htake, hfirst]
      by_cases hh : holes = []
      · subst hh; simpa using hcount.symm
      · simp [hh]
    · simpa [or_imp, forall_and, he] using hvacant
    · intro r hr
      rcases List.mem_append.mp hr with hr | hr
      · exact horigin r hr
      · exact Or.inr (List.mem_singleton.mp hr ▸ List.getElem_mem hk)
    · rw [htake, List.length_append, List.length_singleton]; omega
  | false =>
    rw [he, if_neg (by simp)] at htake
    cases holes with
    | nil =>
      have hstep : compactStep (array, empty) k = (array, none) := by
        simp [compactStep, hget, he, hfirst]
      refine ⟨[], ?_, ?_, by simp, by simp, ?_⟩
      · rw [hstep, htake, hshape, hdrop]; simp
      · rw [hstep]; rfl
      · rw [htake, List.length_append, List.length_singleton]; simpa using hcount
    | cons hole holes =>
      set packed := inFlight (records.take k) with hpacked
      have hempty : empty = some packed.length := by simpa using hfirst
      have hstep : compactStep (array, empty) k =
          ((array.set packed.length records[k]).set k Record.default,
            some (packed.length + 1)) := by
        simp [compactStep, hget, he, hempty]
      have hset : (array.set packed.length records[k]).set k Record.default =
          (packed ++ [records[k]]) ++ (holes ++ [Record.default]) ++ records.drop (k + 1) := by
        have hk' : k = packed.length + (holes.length + 1) := by simpa using hcount.symm
        rw [hshape, hdrop, ← set_set_slide packed holes (records.drop (k + 1)) hole records[k], ← hk']
      refine ⟨holes ++ [Record.default], ?_, ?_, ?_, ?_, ?_⟩
      · rw [hstep, hset, htake]
      · rw [hstep, htake]; simp
      · intro r hr
        rcases List.mem_append.mp hr with hr | hr
        · exact hvacant r (List.mem_cons_of_mem _ hr)
        · rw [List.mem_singleton.mp hr]; rfl
      · intro r hr
        rcases List.mem_append.mp hr with hr | hr
        · exact horigin r (List.mem_cons_of_mem _ hr)
        · exact Or.inl (List.mem_singleton.mp hr)
      · rw [htake]; simp at hcount ⊢; omega

theorem compacting_range (records : List Record) {k : ℕ} (hk : k ≤ records.length) :
    ∃ holes, Compacting records k ((List.range k).foldl compactStep (records, none)) holes := by
  induction k with
  | zero => exact ⟨[], compacting_zero records⟩
  | succ k ih =>
    obtain ⟨holes, h⟩ := ih (by omega)
    rw [List.range_succ, List.foldl_append]
    exact h.step (by omega)

theorem compact_eq (records : List Record) :
    ∃ holes, compact records = inFlight records ++ holes ∧
      (inFlight records).length + holes.length = records.length ∧
      (∀ r ∈ holes, r.isEmpty = true) ∧ ∀ r ∈ holes, r = Record.default ∨ r ∈ records := by
  obtain ⟨holes, h⟩ := compacting_range records le_rfl
  obtain ⟨hshape, -, hvacant, horigin, hcount⟩ := h
  rw [List.take_length] at hshape hcount
  exact ⟨holes, by rw [compact, hshape]; simp, hcount, hvacant, horigin⟩

@[simp] theorem length_compact (records : List Record) :
    (compact records).length = records.length := by
  obtain ⟨holes, h, hc, -⟩ := compact_eq records
  rw [h, List.length_append, hc]

@[simp] theorem inFlight_compact (records : List Record) :
    inFlight (compact records) = inFlight records := by
  obtain ⟨holes, h, -, hv, -⟩ := compact_eq records
  rw [h, inFlight, live_append, live_eq_nil hv, List.append_nil]
  exact live_eq_self fun r hr => (mem_live.mp hr).2

theorem FreeSlotsDefault.compact {records : List Record} (h : FreeSlotsDefault records) :
    FreeSlotsDefault (compact records) := by
  obtain ⟨holes, hc, -, hv, ho⟩ := compact_eq records
  intro r hr he
  rw [hc] at hr
  rcases List.mem_append.mp hr with hr | hr
  · rw [(mem_live.mp hr).2] at he; cases he
  · rcases ho r hr with rfl | hr
    · rfl
    · exact h r hr he

theorem length_front_compact (records : List Record) :
    (front Record.isEmpty (compact records)).length = (inFlight records).length := by
  obtain ⟨holes, h, -, hv, -⟩ := compact_eq records
  have hl : ∀ r ∈ (compact records).take (inFlight records).length, r.isEmpty = false := by
    rw [h, List.take_left]; exact fun r hr => (mem_live.mp hr).2
  rw [front_packed hl (by rw [h, List.drop_left]; exact hv), h, List.take_left]

theorem scanForSlot_true (records : List Record) (packetId : UInt16) (index available : ℕ) :
    scanForSlot records packetId index available true =
      if packetId ∈ inFlightIds (records.take index) then .error .stateCollision
      else .ok available := by
  induction index with
  | zero => simp [scanForSlot, inFlightIds, inFlight, live]
  | succ index ih =>
    rw [scanForSlot]
    by_cases hi : index < records.length
    · rw [List.getElem?_eq_getElem hi, inFlightIds_take_succ hi]
      simp only [Bool.not_true, Bool.false_eq_true, if_false]
      cases he : records[index].isEmpty with
      | true => simp [ih]
      | false =>
        by_cases hp : records[index].packetId = packetId
        · simp [hp]
        · simp [ih, hp, Ne.symm hp]
    · rw [List.getElem?_eq_none (by omega)]
      simp only [ih]
      rw [List.take_of_length_le (by omega), List.take_of_length_le (by omega)]

theorem scanForSlot_false (records : List Record) (packetId : UInt16) (index : ℕ)
    (hi : index ≤ records.length) :
    scanForSlot records packetId index index false =
      if packetId ∈ inFlightIds (records.take index) then .error .stateCollision
      else .ok (front Record.isEmpty (records.take index)).length := by
  induction index with
  | zero => simp [scanForSlot, inFlightIds, inFlight, live, front]
  | succ index ih =>
    have hlt : index < records.length := hi
    have hfront : front Record.isEmpty (records.take (index + 1)) =
        if records[index].isEmpty then front Record.isEmpty (records.take index)
        else records.take (index + 1) := by
      rw [List.take_succ_eq_append_getElem hlt, front, List.rdropWhile_concat]
      rfl
    rw [scanForSlot, List.getElem?_eq_getElem hlt, hfront, inFlightIds_take_succ hlt]
    simp only [Bool.not_false, if_true]
    cases he : records[index].isEmpty with
    | true => simp [ih (by omega)]
    | false =>
      by_cases hp : records[index].packetId = packetId
      · simp [hp]
      · have hlen : (records.take (index + 1)).length = index + 1 := by simp; omega
        simp [hp, Ne.symm hp, scanForSlot_true, hlen]

/-- The array an insertion searches: compacted when its last slot was taken. -/
def settled (records : List Record) : List Record :=
  if records.getLast?.any (fun r => !r.isEmpty) then compact records else records

@[simp] theorem length_settled (records : List Record) :
    (settled records).length = records.length := by
  unfold settled; split <;> simp

@[simp] theorem inFlight_settled (records : List Record) :
    inFlight (settled records) = inFlight records := by
  unfold settled; split <;> simp

theorem FreeSlotsDefault.settled {records : List Record} (h : FreeSlotsDefault records) :
    FreeSlotsDefault (settled records) := by
  unfold RtosMqtt.settled; split
  · exact h.compact
  · exact h

theorem front_settled_lt_iff (records : List Record) :
    (front Record.isEmpty (settled records)).length < records.length ↔
      (inFlight records).length < records.length := by
  unfold settled
  split
  · rw [length_front_compact]
  · rename_i hlast
    have hle : (live Record.isEmpty records).length ≤ records.length := length_live_le records
    have hf : (front Record.isEmpty records).length ≤ records.length := length_front_le records
    rcases List.eq_nil_or_concat records with rfl | ⟨init, last, rfl⟩
    · simp
    · have hempty : last.isEmpty = true := by simpa using hlast
      refine iff_of_true (lt_of_le_of_ne hf fun h => ?_) (lt_of_le_of_ne hle fun h => ?_)
      · have := front_eq_self_iff.mp h last (by simp)
        simp [hempty] at this
      · have := live_length_eq_iff.mp h last (by simp)
        simp [hempty] at this

/-- What an insertion does, in terms of the messages in flight. -/
inductive Added (records : List Record) (new : Record) :
    Except StateError Unit × List Record → Prop
  | collision (h : new.packetId ∈ inFlightIds records) :
      Added records new (.error .stateCollision, settled records)
  | full (h : new.packetId ∉ inFlightIds records)
      (hfull : (inFlight records).length = records.length) :
      Added records new (.error .noMemory, settled records)
  | appended (array : List Record) (h : new.packetId ∉ inFlightIds records)
      (hroom : (inFlight records).length < records.length)
      (hlive : inFlight array = inFlight records ++ [new])
      (hlen : array.length = records.length)
      (hfree : FreeSlotsDefault records → FreeSlotsDefault array) :
      Added records new (.ok (), array)

theorem addRecord_settled (records : List Record) (packetId : UInt16) (qos : QoS)
    (state : PublishState) : addRecord records packetId qos state =
      match scanForSlot (settled records) packetId records.length records.length false with
      | .error e => (.error e, settled records)
      | .ok available =>
        if available < (settled records).length then
          (.ok (), (settled records).set available { packetId, qos, state })
        else (.error .noMemory, settled records) := rfl

theorem addRecord_spec (records : List Record) {packetId : UInt16} (qos : QoS)
    (state : PublishState) (hid : packetId ≠ packetIdInvalid) :
    Added records { packetId, qos, state } (addRecord records packetId qos state) := by
  have hscan := scanForSlot_false (settled records) packetId records.length (by simp)
  rw [List.take_of_length_le (by simp)] at hscan
  rw [inFlightIds, inFlight_settled, ← inFlightIds] at hscan
  rw [addRecord_settled]
  by_cases hmem : packetId ∈ inFlightIds records
  · rw [hscan, if_pos hmem]
    exact .collision hmem
  · rw [hscan, if_neg hmem]
    by_cases hroom : (inFlight records).length < records.length
    · have hfront := (front_settled_lt_iff records).mpr hroom
      rw [← length_settled records] at hfront
      dsimp only
      rw [if_pos hfront]
      have hvacant : Record.isEmpty { packetId, qos, state } = false :=
        isEmpty_eq_false_iff.mpr hid
      refine .appended _ hmem hroom ?_ (by simp) fun hfree => ?_
      · rw [inFlight, live_set_front hfront hvacant]
        exact congrArg (· ++ _) (inFlight_settled records)
      · exact hfree.settled.set (by rw [hvacant]; simp)
    · have hfront := mt (front_settled_lt_iff records).mp hroom
      rw [← length_settled records] at hfront
      dsimp only
      rw [if_neg hfront]
      exact .full hmem (le_antisymm (length_live_le _) (not_lt.mp hroom))

end RtosMqtt
