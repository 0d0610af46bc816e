import RtosMqtt.Library.Machine
import RtosMqtt.State.Operations

/-! # Runs of the record operations

Any sequence of calls, accepted or refused, may be made on the records. They
stay well formed throughout, whatever identifiers and acknowledgements the
calls carry.
-/

namespace RtosMqtt

open Sparse

theorem except_map_unit (result : Except StateError Unit) : (result.map fun _ => ()) = result := by
  cases result <;> rfl

inductive Call where
  | reserve (packetId : UInt16) (qos : QoS)
  | updatePublish (packetId : UInt16) (op : Operation) (qos : QoS)
  | updateAck (packetId : UInt16) (ack : AckType) (op : Operation)
  | remove (packetId : UInt16)
  deriving DecidableEq, Repr

namespace PublishRecords

/-- Make one call; the position an update reports is dropped. -/
def call (r : PublishRecords) : Call → Except StateError Unit × PublishRecords
  | .reserve packetId qos => r.reserve packetId qos
  | .updatePublish packetId op qos =>
    let (result, r) := r.updatePublish packetId op qos
    (result.map fun _ => (), r)
  | .updateAck packetId ack op =>
    let (result, r) := r.updateAck packetId ack op
    (result.map fun _ => (), r)
  | .remove packetId => r.remove packetId

def machine : Machine Call PublishRecords (Except StateError Unit) where
  step c r := r.call c

def after (r : PublishRecords) (calls : List Call) : PublishRecords := (machine.run calls r).2

theorem WellFormed.call {r : PublishRecords} (h : r.WellFormed) (c : Call) :
    (r.call c).2.WellFormed := by
  cases c with
  | reserve packetId qos => exact h.reserve packetId qos
  | updatePublish packetId op qos => exact h.updatePublish packetId op qos
  | updateAck packetId ack op => exact h.updateAck packetId ack op
  | remove packetId => exact h.remove packetId

theorem WellFormed.after {r : PublishRecords} (h : r.WellFormed) (calls : List Call) :
    (r.after calls).WellFormed :=
  Machine.run_invariant (m := machine) (fun c _ h => h.call c) h calls

end PublishRecords

@[simp] theorem length_addRecord (records : List Record) (packetId : UInt16) (qos : QoS)
    (state : PublishState) : (addRecord records packetId qos state).2.length = records.length := by
  simp only [addRecord]
  split
  · split_ifs <;> simp
  · split_ifs <;> simp

@[simp] theorem length_ackArray (records : List Record) (packetId : UInt16) (ack : AckType)
    (op : Operation) : (ackArray records packetId ack op).2.length = records.length := by
  unfold ackArray
  cases findInRecord records packetId with
  | none => rfl
  | some found =>
    obtain ⟨index, qos, current⟩ := found
    dsimp only
    generalize hdeleted : updateRecord records index _ _ = deleted
    have hlength : deleted.length = records.length := by
      rw [← hdeleted, length_updateRecord]
    split_ifs
    · rfl
    · have hadded := length_addRecord deleted packetId .exactlyOnce .pubRelSend
      generalize addRecord deleted packetId .exactlyOnce .pubRelSend = added at hadded ⊢
      rcases added with ⟨e | _, added⟩
      · exact hadded.trans hlength
      · exact hadded.trans hlength
    · exact hlength
    · rfl

theorem PublishRecords.length_call (r : PublishRecords) (c : Call) :
    (r.call c).2.outgoing.length = r.outgoing.length ∧
      (r.call c).2.incoming.length = r.incoming.length := by
  cases c with
  | reserve packetId qos =>
    simp only [call, reserve]
    split_ifs <;> simp
  | updatePublish packetId op qos =>
    cases op with
    | send =>
      simp only [call, updatePublish]
      cases findInRecord r.outgoing packetId with
      | none => split_ifs <;> exact ⟨rfl, rfl⟩
      | some found =>
        obtain ⟨index, foundQos, current⟩ := found
        dsimp only
        split_ifs <;> simp
    | receive =>
      have hadded := length_addRecord r.incoming packetId qos (calculateStatePublish .receive qos)
      simp only [call, updatePublish]
      generalize addRecord r.incoming packetId qos (calculateStatePublish .receive qos) = added
        at hadded ⊢
      rcases added with ⟨e | _, added⟩ <;> dsimp only <;> split_ifs
      all_goals first | exact ⟨rfl, rfl⟩ | exact ⟨rfl, hadded⟩
  | updateAck packetId ack op =>
    simp only [call, updateAck]
    split_ifs <;> simp
  | remove packetId =>
    simp only [call, remove]
    split_ifs
    · exact ⟨rfl, rfl⟩
    · cases findInRecord r.outgoing packetId with
      | none => exact ⟨rfl, rfl⟩
      | some found =>
        obtain ⟨index, qos, current⟩ := found
        dsimp only
        split_ifs <;> simp

def DistinctSlots (records : List Record) : Prop :=
  ∀ (i j : ℕ) (x y : Record), records[i]? = some x → records[j]? = some y →
    x.packetId ≠ packetIdInvalid → x.packetId = y.packetId → i = j

theorem distinctSlots_of_nodup {records : List Record} (h : (inFlightIds records).Nodup) :
    DistinctSlots records := by
  intro i j x y hx hy hid heq
  have key : ∀ {i j : ℕ} {x y : Record}, i < j → records[i]? = some x → records[j]? = some y →
      x.packetId ≠ packetIdInvalid → x.packetId ≠ y.packetId := by
    intro i j x y hij hx hy hid heq
    have hsplit := live_split hy (isEmpty_eq_false_iff.mpr (heq ▸ hid))
    have hmem : x ∈ live Record.isEmpty (records.take j) :=
      mem_live.mpr ⟨List.mem_of_getElem? (i := i) (by rw [List.getElem?_take_of_lt hij, hx]),
        isEmpty_eq_false_iff.mpr hid⟩
    rw [inFlightIds, inFlight, hsplit, List.map_append, List.nodup_append] at h
    exact h.2.2 _ (List.mem_map_of_mem hmem) y.packetId (by simp) heq
  rcases Nat.lt_trichotomy i j with hij | hij | hij
  · exact absurd heq (key hij hx hy hid)
  · exact hij
  · exact absurd heq.symm (key hij hy hx (heq ▸ hid))

namespace PublishRecords

/-- After any sequence of calls on freshly made records, identifiers are distinct,
occupied slots hold legal positions, and free slots are the default record. -/
theorem records_wellFormed (outgoing incoming : List Record) (calls : List Call) :
    let r := (new outgoing incoming).after calls
    (DistinctSlots r.outgoing ∧ DistinctSlots r.incoming) ∧
      (∀ x ∈ r.outgoing, x.packetId ≠ packetIdInvalid → OutgoingLegal x.qos x.state) ∧
      (∀ x ∈ r.incoming, x.packetId ≠ packetIdInvalid → IncomingLegal x.qos x.state) ∧
      (∀ x, x ∈ r.outgoing ∨ x ∈ r.incoming → x.packetId = packetIdInvalid →
        x = Record.default) := by
  intro r
  have h : r.WellFormed := (wellFormed_new outgoing incoming).after calls
  refine ⟨⟨distinctSlots_of_nodup h.outgoing.distinct, distinctSlots_of_nodup h.incoming.distinct⟩,
    ?_, ?_, ?_⟩
  · exact fun x hx hid => h.outgoing.legal x (mem_inFlight.mpr ⟨hx, hid⟩)
  · exact fun x hx hid => h.incoming.legal x (mem_inFlight.mpr ⟨hx, hid⟩)
  · rintro x (hx | hx) hid
    · exact h.outgoing.free x hx (isEmpty_iff.mpr hid)
    · exact h.incoming.free x hx (isEmpty_iff.mpr hid)

end PublishRecords

end RtosMqtt
