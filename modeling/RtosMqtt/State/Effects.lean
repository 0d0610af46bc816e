import RtosMqtt.Library.Roster
import RtosMqtt.State.Slots

/-! # What the state machine does to one array

Each operation on an array either refuses it or changes the messages in flight
in one way: it appends one, removes one, changes the state of one where it
stands, or moves one to the end.
-/

namespace RtosMqtt

open Sparse Roster

theorem findInRecord_eq_none {records : List Record} {packetId : UInt16}
    (hid : packetId ≠ packetIdInvalid) :
    findInRecord records packetId = none ↔ packetId ∉ inFlightIds records := by
  have hfind : findInRecord records packetId = none ↔
      records.findIdx? (fun r => r.packetId = packetId) = none := by
    unfold findInRecord
    cases h : records.findIdx? (fun r => r.packetId = packetId) with
    | none => simp
    | some i =>
      obtain ⟨hi, -⟩ := List.findIdx?_eq_some_iff_getElem.mp h
      simp [List.getElem?_eq_getElem hi]
  rw [hfind, List.findIdx?_eq_none_iff]
  constructor
  · intro h hmem
    obtain ⟨r, hr, rfl⟩ := List.mem_map.mp hmem
    simpa using h r (mem_inFlight.mp hr).1
  · intro h r hr
    simp only [decide_eq_false_iff_not]
    rintro rfl
    exact h (List.mem_map_of_mem (mem_inFlight.mpr ⟨hr, hid⟩))

theorem findInRecord_some {records : List Record} {packetId : UInt16} {index : ℕ} {qos : QoS}
    {state : PublishState} (h : findInRecord records packetId = some (index, qos, state)) :
    records[index]? = some { packetId, qos, state } := by
  unfold findInRecord at h
  cases hi : records.findIdx? (fun r => r.packetId = packetId) with
  | none => simp [hi] at h
  | some i =>
    obtain ⟨hlt, hp, -⟩ := List.findIdx?_eq_some_iff_getElem.mp hi
    simp only [hi, List.getElem?_eq_getElem hlt, Option.map_some, Option.some.injEq,
      Prod.mk.injEq] at h
    obtain ⟨rfl, rfl, rfl⟩ := h
    rw [List.getElem?_eq_getElem hlt, ← of_decide_eq_true hp]

theorem mem_inFlight_of_getElem? {records : List Record} {i : ℕ} {x : Record}
    (h : records[i]? = some x) (hid : x.packetId ≠ packetIdInvalid) : x ∈ inFlight records :=
  mem_inFlight.mpr ⟨List.mem_of_getElem? h, hid⟩

section Write

variable {records : List Record} {i : ℕ} {x : Record}

@[simp] theorem length_updateRecord (new : PublishState) (delete : Bool) :
    (updateRecord records i new delete).length = records.length := by
  unfold updateRecord; split <;> simp

theorem inFlight_updateRecord_delete (h : records[i]? = some x)
    (hid : x.packetId ≠ packetIdInvalid) (hn : (inFlightIds records).Nodup)
    (new : PublishState) :
    inFlight (updateRecord records i new true) =
      Roster.remove Record.packetId x.packetId (inFlight records) := by
  simp only [updateRecord, h, if_true]
  exact live_set_blank_of_nodup h (isEmpty_eq_false_iff.mpr hid) isEmpty_default hn

theorem inFlight_updateRecord_state (h : records[i]? = some x)
    (hid : x.packetId ≠ packetIdInvalid) (hn : (inFlightIds records).Nodup)
    (new : PublishState) :
    inFlight (updateRecord records i new false) =
      amend Record.packetId { x with state := new } (inFlight records) := by
  simp only [updateRecord, h, Bool.false_eq_true, if_false]
  exact live_set_live_of_nodup (a := x) h (isEmpty_eq_false_iff.mpr hid)
    (isEmpty_eq_false_iff.mpr hid) hn

theorem FreeSlotsDefault.updateRecord (hf : FreeSlotsDefault records) (h : records[i]? = some x)
    (hid : x.packetId ≠ packetIdInvalid) (new : PublishState) (delete : Bool) :
    FreeSlotsDefault (updateRecord records i new delete) := by
  simp only [RtosMqtt.updateRecord, h]
  refine Clean.set hf fun he => ?_
  cases delete with
  | true => rfl
  | false => exact absurd (isEmpty_iff.mp he) hid

end Write

/-- What an acknowledgement does to the array it belongs to. -/
inductive AckEffect (records : List Record) (packetId : UInt16) (ack : AckType) (op : Operation) :
    Except StateError PublishState × List Record → Prop
  | unknown (h : packetId ∉ inFlightIds records) :
      AckEffect records packetId ack op (.error .badResponse, records)
  | illegal (x : Record) (hx : x ∈ inFlight records) (hid : x.packetId = packetId)
      (hv : validateTransitionAck x.state (calculateStateAck ack op x.qos) = false) :
      AckEffect records packetId ack op (.error .illegalState, records)
  | repeated (x : Record) (hx : x ∈ inFlight records) (hid : x.packetId = packetId)
      (hv : validateTransitionAck x.state x.state = true)
      (hnew : calculateStateAck ack op x.qos = x.state) :
      AckEffect records packetId ack op (.ok x.state, records)
  | finished (x : Record) (array : List Record) (hx : x ∈ inFlight records)
      (hid : x.packetId = packetId) (hv : validateTransitionAck x.state .publishDone = true)
      (hnew : calculateStateAck ack op x.qos = .publishDone)
      (hlive : inFlight array = Roster.remove Record.packetId packetId (inFlight records))
      (hlen : array.length = records.length)
      (hfree : FreeSlotsDefault records → FreeSlotsDefault array) :
      AckEffect records packetId ack op (.ok .publishDone, array)
  | released (x : Record) (array : List Record) (hx : x ∈ inFlight records)
      (hid : x.packetId = packetId) (hv : validateTransitionAck x.state .pubRelSend = true)
      (hnew : calculateStateAck ack op x.qos = .pubRelSend)
      (hlive : inFlight array = Roster.remove Record.packetId packetId (inFlight records) ++
        [{ packetId, qos := .exactlyOnce, state := .pubRelSend }])
      (hlen : array.length = records.length)
      (hfree : FreeSlotsDefault records → FreeSlotsDefault array) :
      AckEffect records packetId ack op (.ok .pubRelSend, array)
  | moved (x : Record) (new : PublishState) (array : List Record) (hx : x ∈ inFlight records)
      (hid : x.packetId = packetId) (hv : validateTransitionAck x.state new = true)
      (hnew : calculateStateAck ack op x.qos = new)
      (hdone : new ≠ .publishDone) (hrel : new ≠ .pubRelSend)
      (hlive : inFlight array = amend Record.packetId { x with state := new } (inFlight records))
      (hlen : array.length = records.length)
      (hfree : FreeSlotsDefault records → FreeSlotsDefault array) :
      AckEffect records packetId ack op (.ok new, array)

theorem addRecord_after_delete {records : List Record} {i : ℕ} {x : Record}
    (h : records[i]? = some x) (hid : x.packetId ≠ packetIdInvalid)
    (hn : (inFlightIds records).Nodup) (new : PublishState) (qos : QoS) (state : PublishState) :
    ∃ array, addRecord (updateRecord records i new true) x.packetId qos state = (.ok (), array) ∧
      inFlight array = Roster.remove Record.packetId x.packetId (inFlight records) ++
        [{ packetId := x.packetId, qos, state }] ∧
      array.length = records.length ∧
      (FreeSlotsDefault records → FreeSlotsDefault array) := by
  have hlive := inFlight_updateRecord_delete h hid hn new
  have hmem : x.packetId ∈ inFlightIds records :=
    List.mem_map_of_mem (mem_inFlight_of_getElem? h hid)
  have hlt : (inFlight (updateRecord records i new true)).length <
      (updateRecord records i new true).length := by
    have hone := length_remove hn hmem
    have hle : (live Record.isEmpty records).length ≤ records.length := length_live_le records
    rw [hlive, length_updateRecord]
    exact lt_of_lt_of_le (Nat.lt_of_succ_le hone.le) hle
  have hnot : x.packetId ∉ inFlightIds (updateRecord records i new true) := by
    rw [inFlightIds, hlive]; exact not_mem_remove
  have hspec := addRecord_spec (updateRecord records i new true) qos state hid
  generalize addRecord (updateRecord records i new true) x.packetId qos state = result at hspec ⊢
  cases hspec with
  | collision hc => exact absurd hc hnot
  | full _ hf => exact absurd hf hlt.ne
  | appended array _ _ ha hlen hfree =>
    exact ⟨array, rfl, by rw [ha, hlive], by rw [hlen, length_updateRecord],
      fun hf => hfree (hf.updateRecord h hid _ _)⟩

theorem ackArray_spec {records : List Record} {packetId : UInt16} (ack : AckType) (op : Operation)
    (hid : packetId ≠ packetIdInvalid) (hn : (inFlightIds records).Nodup) :
    AckEffect records packetId ack op (ackArray records packetId ack op) := by
  unfold ackArray
  cases hf : findInRecord records packetId with
  | none => exact .unknown ((findInRecord_eq_none hid).mp hf)
  | some found =>
    obtain ⟨index, qos, current⟩ := found
    have hget := findInRecord_some hf
    have hmem := mem_inFlight_of_getElem? hget hid
    dsimp only
    cases hv : validateTransitionAck current (calculateStateAck ack op qos) with
    | false => exact .illegal _ hmem rfl hv
    | true =>
      simp only [Bool.not_true, Bool.false_eq_true, if_false]
      by_cases hsame : current = calculateStateAck ack op qos
      · rw [if_neg (not_not.mpr hsame), ← hsame]
        rw [← hsame] at hv
        exact .repeated _ hmem rfl hv hsame.symm
      rw [if_pos hsame]
      by_cases hrel : calculateStateAck ack op qos = .pubRelSend
      · obtain ⟨array, hadd, hlive, hlen, hfree⟩ :=
          addRecord_after_delete hget hid hn .pubRelSend .exactlyOnce .pubRelSend
        rw [if_pos hrel, hrel]
        simp only [beq_self_eq_true, Bool.or_true, hadd]
        rw [hrel] at hv
        exact .released _ array hmem rfl hv hrel hlive hlen hfree
      rw [if_neg hrel]
      by_cases hdone : calculateStateAck ack op qos = .publishDone
      · rw [hdone] at hv ⊢
        exact .finished _ _ hmem rfl hv hdone (inFlight_updateRecord_delete hget hid hn _)
          (length_updateRecord _ _) fun hfree => hfree.updateRecord hget hid _ _
      · have hkeep : (calculateStateAck ack op qos == .publishDone ||
            calculateStateAck ack op qos == .pubRelSend) = false := by simp [hdone, hrel]
        rw [hkeep]
        exact .moved _ _ _ hmem rfl hv rfl hdone hrel
          (inFlight_updateRecord_state hget hid hn _) (length_updateRecord _ _)
          fun hfree => hfree.updateRecord hget hid _ _

end RtosMqtt
