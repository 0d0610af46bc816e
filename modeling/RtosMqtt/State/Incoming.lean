import RtosMqtt.State.Calls

/-! # One message in the incoming array

The record of a received QoS 2 message stays in the incoming array, whatever the
array looks like elsewhere, until a PUBCOMP for it is recorded as sent.
-/

namespace RtosMqtt

open Sparse

def entries (records : List Record) (packetId : UInt16) : List Record :=
  records.filter fun r => r.packetId = packetId

theorem entries_inFlight (records : List Record) {packetId : UInt16}
    (hid : packetId ≠ packetIdInvalid) : entries (inFlight records) packetId =
      entries records packetId := by
  rw [entries, inFlight, live, List.filter_filter]
  refine List.filter_congr fun r _ => ?_
  by_cases h : r.packetId = packetId
  · simp [h, isEmpty_eq_false_iff.mpr (h ▸ hid)]
  · simp [h]

theorem entries_eq_nil_iff {records : List Record} {packetId : UInt16}
    (hid : packetId ≠ packetIdInvalid) :
    entries records packetId = [] ↔ packetId ∉ inFlightIds records := by
  rw [← entries_inFlight records hid, entries, List.filter_eq_nil_iff, inFlightIds, List.mem_map]
  simp

/-- The array holds one record of an identifier, and its message is at QoS 2. -/
def Retains (records : List Record) (packetId : UInt16) : Prop :=
  ∃ state, entries records packetId = [{ packetId, qos := .exactlyOnce, state }]

theorem Retains.mem_inFlightIds {records : List Record} {packetId : UInt16}
    (hid : packetId ≠ packetIdInvalid) (h : Retains records packetId) :
    packetId ∈ inFlightIds records := by
  obtain ⟨state, h⟩ := h
  by_contra hnot
  rw [(entries_eq_nil_iff hid).mpr hnot] at h
  exact absurd h (by simp)

section Write

variable {records : List Record} {packetId : UInt16} {i : ℕ} {x y : Record}

theorem entries_set (packetId : UInt16) (h : records[i]? = some x) (y : Record) :
    entries (records.set i y) packetId = entries (records.take i) packetId ++
      entries [y] packetId ++ entries (records.drop (i + 1)) packetId := by
  obtain ⟨hi, -⟩ := List.getElem?_eq_some_iff.mp h
  rw [set_split hi, entries, List.filter_append, ← List.singleton_append, List.filter_append,
    ← List.append_assoc]
  rfl

theorem entries_split (h : records[i]? = some x) :
    entries records packetId = entries (records.take i) packetId ++ entries [x] packetId ++
      entries (records.drop (i + 1)) packetId := by
  have hset := entries_set packetId h x
  obtain ⟨hi, rfl⟩ := List.getElem?_eq_some_iff.mp h
  rwa [List.set_getElem_self] at hset

theorem entries_set_other (h : records[i]? = some x) (hx : x.packetId ≠ packetId)
    (hy : y.packetId ≠ packetId) : entries (records.set i y) packetId = entries records packetId := by
  rw [entries_set packetId h, entries_split h]
  simp [entries, hx, hy]

theorem entries_set_only {r : Record} (y : Record) (h : records[i]? = some x) (hx : x.packetId = packetId)
    (hone : entries records packetId = [r]) :
    x = r ∧ entries (records.set i y) packetId = entries [y] packetId := by
  rw [entries_split h] at hone
  have hself : entries [x] packetId = [x] := by simp [entries, hx]
  rw [hself, List.append_assoc, List.singleton_append, List.append_eq_singleton_iff] at hone
  rcases hone with ⟨hbefore, hrest⟩ | ⟨-, hrest⟩
  · obtain ⟨rfl, hafter⟩ := List.cons_eq_cons.mp hrest
    exact ⟨rfl, by rw [entries_set packetId h, hbefore, hafter]; simp⟩
  · exact absurd hrest (by simp)

end Write

theorem Retains.added {records : List Record} {packetId : UInt16} {new : Record}
    {result : Except StateError Unit × List Record} (hid : packetId ≠ packetIdInvalid)
    (h : Retains records packetId) (hadd : Added records new result) : Retains result.2 packetId := by
  have hmem := h.mem_inFlightIds hid
  obtain ⟨state, h⟩ := h
  refine ⟨state, ?_⟩
  cases hadd with
  | collision _ => rw [← entries_inFlight _ hid, inFlight_settled, entries_inFlight _ hid, h]
  | full _ _ => rw [← entries_inFlight _ hid, inFlight_settled, entries_inFlight _ hid, h]
  | appended array hnot _ hlive _ _ =>
    have hother : new.packetId ≠ packetId := by rintro rfl; exact hnot hmem
    rw [← entries_inFlight _ hid, hlive, entries, List.filter_append, ← entries,
      entries_inFlight _ hid, h]
    simp [hother]

theorem retains_of_added {records array : List Record} {packetId : UInt16} {state : PublishState}
    (hid : packetId ≠ packetIdInvalid)
    (hadd : Added records { packetId, qos := .exactlyOnce, state } (.ok (), array)) :
    packetId ∉ inFlightIds records ∧ Retains array packetId := by
  cases hadd with
  | appended _ hnot _ hlive _ _ =>
    refine ⟨hnot, state, ?_⟩
    rw [← entries_inFlight _ hid, hlive, entries, List.filter_append, ← entries,
      entries_inFlight _ hid, (entries_eq_nil_iff hid).mpr hnot]
    simp

/-- What an acknowledgement leaves of a held message: all of it, or nothing after a PUBCOMP. -/
theorem Retains.ackArray {records : List Record} {packetId other : UInt16} {ack : AckType}
    {op : Operation} (hid : packetId ≠ packetIdInvalid)
    (hin : isPublishOutgoing ack op = false) (h : Retains records packetId) :
    Retains (ackArray records other ack op).2 packetId ∨
      other = packetId ∧ ack = .pubComp ∧ op = .send ∧
        (RtosMqtt.ackArray records other ack op).1 = .ok .publishDone ∧
        packetId ∉ inFlightIds (RtosMqtt.ackArray records other ack op).2 := by
  obtain ⟨state, h⟩ := h
  unfold RtosMqtt.ackArray
  cases hf : findInRecord records other with
  | none => exact .inl ⟨state, h⟩
  | some found =>
    obtain ⟨index, qos, current⟩ := found
    have hget := findInRecord_some hf
    dsimp only
    cases hv : validateTransitionAck current (calculateStateAck ack op qos) with
    | false => exact .inl ⟨state, h⟩
    | true =>
      by_cases hsame : current = calculateStateAck ack op qos
      · rw [if_neg (by simp), if_neg (not_not.mpr hsame)]
        exact .inl ⟨state, h⟩
      have hrel : calculateStateAck ack op qos ≠ .pubRelSend := by
        intro hrel
        obtain ⟨rfl, rfl, -⟩ := calculateStateAck_eq_pubRelSend hrel
        exact absurd hin (by simp [isPublishOutgoing])
      rw [if_neg (by simp), if_pos hsame, if_neg hrel]
      simp only [updateRecord, hget, beq_eq_false_iff_ne.mpr hrel, Bool.or_false]
      by_cases heq : other = packetId
      · subst heq
        obtain ⟨hx, hset⟩ := entries_set_only (if calculateStateAck ack op qos == .publishDone
          then Record.default else ⟨other, qos, calculateStateAck ack op qos⟩) hget rfl h
        obtain ⟨rfl, rfl⟩ : qos = .exactlyOnce ∧ current = state := by
          simpa using hx
        by_cases hdone : calculateStateAck ack op .exactlyOnce = .publishDone
        · refine .inr ⟨rfl, ?_, ?_, congrArg _ hdone, ?_⟩
          · cases ack <;> cases op <;> simp_all [calculateStateAck, ackTarget]
          · cases ack <;> cases op <;>
              simp_all [calculateStateAck, ackTarget, isPublishOutgoing]
          · rw [← entries_eq_nil_iff hid, hset, hdone]
            simpa [entries, Record.default] using Ne.symm hid
        · refine .inl ⟨calculateStateAck ack op .exactlyOnce, ?_⟩
          rw [hset, if_neg (by simpa using hdone)]
          simp [entries]
      · refine .inl ⟨state, ?_⟩
        rw [entries_set_other hget heq ?_, h]
        split_ifs
        · exact Ne.symm hid
        · exact heq

namespace PublishRecords

theorem Retains.updatePublish {r : PublishRecords} {packetId : UInt16}
    (hid : packetId ≠ packetIdInvalid) (h : Retains r.incoming packetId) (other : UInt16)
    (op : Operation) (qos : QoS) : Retains (r.updatePublish other op qos).2.incoming packetId := by
  unfold PublishRecords.updatePublish
  split_ifs with hq hother
  · exact h
  · exact h
  cases op with
  | send =>
    dsimp only
    split
    · exact h
    · split_ifs <;> exact h
  | receive =>
    dsimp only
    split_ifs
    · exact h
    · have hadd := h.added hid (addRecord_spec r.incoming qos (calculateStatePublish .receive qos)
        hother)
      split <;> rename_i heq <;> rw [heq] at hadd <;> exact hadd

theorem updatePublish_received {r : PublishRecords} {packetId : UInt16}
    (hid : packetId ≠ packetIdInvalid) : r.updatePublish packetId .receive .exactlyOnce =
      match addRecord r.incoming packetId .exactlyOnce .pubRecSend with
      | (.error e, incoming) => (.error e, { r with incoming })
      | (.ok (), incoming) => (.ok .pubRecSend, { r with incoming }) := by
  rw [updatePublish, if_neg (by simp), if_neg hid]
  rfl

theorem retains_of_received {r : PublishRecords} {packetId : UInt16} {state : PublishState}
    (h : (r.updatePublish packetId .receive .exactlyOnce).1 = .ok state) :
    packetId ≠ packetIdInvalid ∧ packetId ∉ inFlightIds r.incoming ∧
      Retains (r.updatePublish packetId .receive .exactlyOnce).2.incoming packetId := by
  by_cases hid : packetId = packetIdInvalid
  · rw [updatePublish, if_neg (by simp), if_pos hid] at h
    exact absurd h (by simp)
  have hadd := addRecord_spec r.incoming .exactlyOnce .pubRecSend hid
  rw [updatePublish_received hid] at h ⊢
  generalize addRecord r.incoming packetId .exactlyOnce .pubRecSend = result at h hadd ⊢
  obtain ⟨e | _, incoming⟩ := result
  · cases h
  · exact ⟨hid, retains_of_added hid hadd⟩

theorem Retains.updateAck {r : PublishRecords} {packetId : UInt16}
    (hid : packetId ≠ packetIdInvalid) (h : Retains r.incoming packetId) (other : UInt16)
    (ack : AckType) (op : Operation) :
    Retains (r.updateAck other ack op).2.incoming packetId ∨
      other = packetId ∧ ack = .pubComp ∧ op = .send ∧
        (r.updateAck other ack op).1 = .ok .publishDone ∧
        packetId ∉ inFlightIds (r.updateAck other ack op).2.incoming := by
  unfold PublishRecords.updateAck
  split_ifs with hother hout
  · exact .inl h
  · exact .inl h
  · exact h.ackArray hid (Bool.not_eq_true _ ▸ hout)

end PublishRecords

end RtosMqtt
