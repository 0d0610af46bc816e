import RtosMqtt.State.Effects

/-! # The operations on both arrays

One inversion lemma for each operation says everything it can do. The record
invariant is derived from these lemmas: identifiers are distinct, positions are
legal for their array and quality of service, and free slots are blank.
-/

namespace RtosMqtt

open Sparse Roster

/-- The invariant of one array, given the positions legal in it. -/
structure ArrayInvariant (legal : QoS → PublishState → Prop) (records : List Record) : Prop where
  distinct : (inFlightIds records).Nodup
  legal : ∀ x ∈ inFlight records, legal x.qos x.state
  free : FreeSlotsDefault records

theorem arrayInvariant_added {legal : QoS → PublishState → Prop} {records : List Record}
    {new : Record} {result : Except StateError Unit × List Record}
    (h : ArrayInvariant legal records) (hadd : Added records new result)
    (hlegal : legal new.qos new.state) : ArrayInvariant legal result.2 := by
  cases hadd with
  | collision _ =>
    exact ⟨by rw [inFlightIds, inFlight_settled]; exact h.distinct,
      by rw [inFlight_settled]; exact h.legal, h.free.settled⟩
  | full _ _ =>
    exact ⟨by rw [inFlightIds, inFlight_settled]; exact h.distinct,
      by rw [inFlight_settled]; exact h.legal, h.free.settled⟩
  | appended array hnot _ hlive _ hfree =>
    refine ⟨?_, ?_, hfree h.free⟩
    · rw [inFlightIds, hlive]; exact nodup_append_singleton h.distinct hnot
    · rw [hlive]
      simpa [or_imp, forall_and, hlegal] using h.legal

theorem mem_amend {b x : Record} {l : List Record} (h : x ∈ amend Record.packetId b l) :
    x = b ∨ x ∈ l := by
  obtain ⟨a, ha, rfl⟩ := List.mem_map.mp h
  split
  · exact Or.inl rfl
  · exact Or.inr ha

theorem ArrayInvariant.amended {legal : QoS → PublishState → Prop} {records array : List Record}
    {b : Record} (h : ArrayInvariant legal records)
    (hlive : inFlight array = amend Record.packetId b (inFlight records))
    (hlegal : legal b.qos b.state) (hfree : FreeSlotsDefault array) :
    ArrayInvariant legal array := by
  refine ⟨?_, ?_, hfree⟩
  · rw [inFlightIds, hlive, map_key_amend]; exact h.distinct
  · intro x hx
    rw [hlive] at hx
    rcases mem_amend hx with rfl | hx
    · exact hlegal
    · exact h.legal x hx

theorem ArrayInvariant.removed {legal : QoS → PublishState → Prop} {records array : List Record}
    {packetId : UInt16} (h : ArrayInvariant legal records)
    (hlive : inFlight array = Roster.remove Record.packetId packetId (inFlight records))
    (hfree : FreeSlotsDefault array) : ArrayInvariant legal array := by
  refine ⟨?_, ?_, hfree⟩
  · rw [inFlightIds, hlive]; exact nodup_remove h.distinct
  · intro x hx
    rw [hlive] at hx
    exact h.legal x (List.mem_of_mem_filter hx)

/-- A legal acknowledgement ends the handshake or keeps the position legal, and only a
QoS 2 message ever owes a PUBREL. -/
theorem outgoingLegal_ack {qos : QoS} {state : PublishState} {ack : AckType} {op : Operation}
    (h : OutgoingLegal qos state)
    (hv : validateTransitionAck state (calculateStateAck ack op qos) = true)
    (hdone : calculateStateAck ack op qos ≠ .publishDone) :
    OutgoingLegal qos (calculateStateAck ack op qos) := by
  rcases h with ⟨rfl, rfl | rfl⟩ | ⟨rfl, rfl | rfl | rfl | rfl⟩ <;> cases ack <;> cases op <;>
    simp_all [calculateStateAck, ackTarget, validateTransitionAck, OutgoingLegal]

theorem incomingLegal_ack {qos : QoS} {state : PublishState} {ack : AckType} {op : Operation}
    (h : IncomingLegal qos state)
    (hv : validateTransitionAck state (calculateStateAck ack op qos) = true)
    (hdone : calculateStateAck ack op qos ≠ .publishDone) :
    IncomingLegal qos (calculateStateAck ack op qos) := by
  rcases h with ⟨rfl, rfl⟩ | ⟨rfl, rfl | rfl | rfl⟩ <;> cases ack <;> cases op <;>
    simp_all [calculateStateAck, ackTarget, validateTransitionAck, IncomingLegal]

theorem calculateStateAck_eq_pubRelSend {ack : AckType} {op : Operation} {qos : QoS}
    (h : calculateStateAck ack op qos = .pubRelSend) :
    ack = .pubRec ∧ op = .receive ∧ qos = .exactlyOnce := by
  cases ack <;> cases op <;> cases qos <;> simp_all [calculateStateAck, ackTarget]

theorem ArrayInvariant.acked {legal : QoS → PublishState → Prop} {records : List Record}
    {packetId : UInt16} {ack : AckType} {op : Operation}
    {result : Except StateError PublishState × List Record}
    (h : ArrayInvariant legal records) (heff : AckEffect records packetId ack op result)
    (hclosed : ∀ {qos state}, legal qos state →
      validateTransitionAck state (calculateStateAck ack op qos) = true →
      calculateStateAck ack op qos ≠ .publishDone → legal qos (calculateStateAck ack op qos)) :
    ArrayInvariant legal result.2 := by
  cases heff with
  | unknown _ => exact h
  | illegal _ _ _ _ => exact h
  | repeated _ _ _ _ _ => exact h
  | finished x array _ _ _ _ hlive _ hfree => exact h.removed hlive (hfree h.free)
  | released x array hx hid hv hnew hlive _ hfree =>
    obtain ⟨-, -, hq⟩ := calculateStateAck_eq_pubRelSend hnew
    have hlegal := hclosed (h.legal x hx) (hnew ▸ hv) (by rw [hnew]; simp)
    rw [hnew, hq] at hlegal
    refine ⟨?_, ?_, hfree h.free⟩
    · rw [inFlightIds, hlive]
      exact nodup_append_singleton (nodup_remove h.distinct) not_mem_remove
    · intro y hy
      rw [hlive] at hy
      rcases List.mem_append.mp hy with hy | hy
      · exact h.legal y (List.mem_of_mem_filter hy)
      · rw [List.mem_singleton.mp hy]; exact hlegal
  | moved x new array hx _ hv hnew hdone _ hlive _ hfree =>
    subst hnew
    exact h.amended hlive (hclosed (h.legal x hx) hv hdone) (hfree h.free)

theorem arrayInvariant_cleared (legal : QoS → PublishState → Prop) (records : List Record) :
    ArrayInvariant legal (records.map fun _ => Record.default) := by
  have hnil := inFlight_cleared records
  refine ⟨by rw [inFlightIds, hnil]; exact List.nodup_nil, by rw [hnil]; simp, fun r hr _ => ?_⟩
  obtain ⟨-, -, rfl⟩ := List.mem_map.mp hr
  rfl

theorem ArrayInvariant.take {legal : QoS → PublishState → Prop} {records : List Record}
    (h : ArrayInvariant legal records) (n : ℕ) : ArrayInvariant legal (records.take n) := by
  have hsub : (inFlight (records.take n)).Sublist (inFlight records) :=
    (List.take_sublist n records).filter _
  exact ⟨h.distinct.sublist (hsub.map _), fun x hx => h.legal x (hsub.subset hx),
    Clean.of_mem h.free fun _ => List.mem_of_mem_take⟩

namespace PublishRecords

structure WellFormed (r : PublishRecords) : Prop where
  outgoing : ArrayInvariant OutgoingLegal r.outgoing
  incoming : ArrayInvariant IncomingLegal r.incoming

inductive ReserveEffect (r : PublishRecords) (packetId : UInt16) (qos : QoS) :
    Except StateError Unit × PublishRecords → Prop
  | unrecorded (hq : qos = .atMostOnce) : ReserveEffect r packetId qos (.ok (), r)
  | zero (hq : qos ≠ .atMostOnce) (hid : packetId = packetIdInvalid) :
      ReserveEffect r packetId qos (.error .badParameter, r)
  | recorded (hq : qos ≠ .atMostOnce) (hid : packetId ≠ packetIdInvalid)
      (result : Except StateError Unit × List Record)
      (h : Added r.outgoing { packetId, qos, state := .publishSend } result) :
      ReserveEffect r packetId qos (result.1, { r with outgoing := result.2 })

theorem reserve_spec (r : PublishRecords) (packetId : UInt16) (qos : QoS) :
    ReserveEffect r packetId qos (r.reserve packetId qos) := by
  unfold reserve
  split_ifs with hq hid
  · exact .unrecorded hq
  · exact .zero hq hid
  · exact .recorded hq hid _ (addRecord_spec _ _ _ hid)

inductive PublishEffect (r : PublishRecords) (packetId : UInt16) (qos : QoS) :
    Operation → Except StateError PublishState × PublishRecords → Prop
  | unrecorded (op) (hq : qos = .atMostOnce) :
      PublishEffect r packetId qos op (.ok .publishDone, r)
  | zero (op) (hq : qos ≠ .atMostOnce) (hid : packetId = packetIdInvalid) :
      PublishEffect r packetId qos op (.error .badParameter, r)
  | unknown (hq : qos ≠ .atMostOnce) (hid : packetId ≠ packetIdInvalid)
      (h : packetId ∉ inFlightIds r.outgoing) :
      PublishEffect r packetId qos .send (.error .badParameter, r)
  | mismatch (hq : qos ≠ .atMostOnce) (x : Record) (hx : x ∈ inFlight r.outgoing)
      (hid : x.packetId = packetId) (h : x.qos ≠ qos) :
      PublishEffect r packetId qos .send (.error .badParameter, r)
  | illegal (hq : qos ≠ .atMostOnce) (x : Record) (hx : x ∈ inFlight r.outgoing)
      (hid : x.packetId = packetId) (hxq : x.qos = qos)
      (hv : validateTransitionPublish x.state (calculateStatePublish .send qos) .send qos = false) :
      PublishEffect r packetId qos .send (.error .illegalState, r)
  | repeated (hq : qos ≠ .atMostOnce) (x : Record) (hx : x ∈ inFlight r.outgoing)
      (hid : x.packetId = packetId) (hxq : x.qos = qos)
      (hnew : x.state = calculateStatePublish .send qos) :
      PublishEffect r packetId qos .send (.ok (calculateStatePublish .send qos), r)
  | sent (hq : qos ≠ .atMostOnce) (x : Record) (array : List Record)
      (hx : x ∈ inFlight r.outgoing)
      (hid : x.packetId = packetId) (hxq : x.qos = qos)
      (hv : validateTransitionPublish x.state (calculateStatePublish .send qos) .send qos = true)
      (hlive : inFlight array = amend Record.packetId
        { x with state := calculateStatePublish .send qos } (inFlight r.outgoing))
      (hlen : array.length = r.outgoing.length)
      (hfree : FreeSlotsDefault r.outgoing → FreeSlotsDefault array) :
      PublishEffect r packetId qos .send
        (.ok (calculateStatePublish .send qos), { r with outgoing := array })
  | received (hq : qos ≠ .atMostOnce) (hid : packetId ≠ packetIdInvalid)
      (result : Except StateError Unit × List Record)
      (h : Added r.incoming { packetId, qos, state := calculateStatePublish .receive qos } result) :
      PublishEffect r packetId qos .receive
        (result.1.map fun _ => calculateStatePublish .receive qos,
          { r with incoming := result.2 })

theorem updatePublish_spec {r : PublishRecords} (hn : (inFlightIds r.outgoing).Nodup)
    (packetId : UInt16) (op : Operation) (qos : QoS) :
    PublishEffect r packetId qos op (r.updatePublish packetId op qos) := by
  unfold updatePublish
  split_ifs with hq hid
  · exact .unrecorded op hq
  · exact .zero op hq hid
  cases op with
  | send =>
    dsimp only
    cases hf : findInRecord r.outgoing packetId with
    | none => exact .unknown hq hid ((findInRecord_eq_none hid).mp hf)
    | some found =>
      obtain ⟨index, foundQos, current⟩ := found
      have hget := findInRecord_some hf
      have hmem := mem_inFlight_of_getElem? hget hid
      dsimp only
      by_cases hxq : foundQos = qos
      · subst hxq
        rw [if_neg (not_not.mpr rfl)]
        cases hv : validateTransitionPublish current (calculateStatePublish .send foundQos) .send
            foundQos with
        | false => exact .illegal hq _ hmem rfl rfl hv
        | true =>
          simp only [Bool.not_true, Bool.false_eq_true, if_false]
          split_ifs with hsame
          · exact .sent hq _ _ hmem rfl rfl hv (inFlight_updateRecord_state hget hid hn _)
              (length_updateRecord _ _) fun hfree => hfree.updateRecord hget hid _ _
          · exact .repeated hq _ hmem rfl rfl (not_not.mp hsame)
      · rw [if_pos hxq]
        exact .mismatch hq _ hmem rfl hxq
  | receive =>
    have hv : validateTransitionPublish .null (calculateStatePublish .receive qos) .receive qos =
        true := by
      cases qos with
      | atMostOnce => exact absurd rfl hq
      | atLeastOnce => rfl
      | exactlyOnce => rfl
    simp only [hv, Bool.not_true, Bool.false_eq_true, if_false]
    have hadd := addRecord_spec r.incoming qos (calculateStatePublish .receive qos) hid
    generalize addRecord r.incoming packetId qos (calculateStatePublish .receive qos) = result
      at hadd ⊢
    obtain ⟨_ | _, array⟩ := result
    · exact .received hq hid _ hadd
    · exact .received hq hid _ hadd

inductive UpdateAckEffect (r : PublishRecords) (packetId : UInt16) (ack : AckType)
    (op : Operation) : Except StateError PublishState × PublishRecords → Prop
  | zero (hid : packetId = packetIdInvalid) :
      UpdateAckEffect r packetId ack op (.error .badParameter, r)
  | outgoing (hid : packetId ≠ packetIdInvalid) (hout : isPublishOutgoing ack op = true)
      (result : Except StateError PublishState × List Record)
      (h : AckEffect r.outgoing packetId ack op result) :
      UpdateAckEffect r packetId ack op (result.1, { r with outgoing := result.2 })
  | incoming (hid : packetId ≠ packetIdInvalid) (hout : isPublishOutgoing ack op = false)
      (result : Except StateError PublishState × List Record)
      (h : AckEffect r.incoming packetId ack op result) :
      UpdateAckEffect r packetId ack op (result.1, { r with incoming := result.2 })

theorem updateAck_spec {r : PublishRecords} (h : r.WellFormed) (packetId : UInt16)
    (ack : AckType) (op : Operation) :
    UpdateAckEffect r packetId ack op (r.updateAck packetId ack op) := by
  unfold updateAck
  split_ifs with hid hout
  · exact .zero hid
  · exact .outgoing hid hout _ (ackArray_spec ack op hid h.outgoing.distinct)
  · exact .incoming hid (Bool.not_eq_true _ ▸ hout) _
      (ackArray_spec ack op hid h.incoming.distinct)

inductive RemoveEffect (r : PublishRecords) (packetId : UInt16) :
    Except StateError Unit × PublishRecords → Prop
  | refused (h : packetId ∉ inFlightIds r.outgoing) :
      RemoveEffect r packetId (.error .badParameter, r)
  | removed (x : Record) (array : List Record) (hx : x ∈ inFlight r.outgoing)
      (hid : x.packetId = packetId)
      (hlive : inFlight array = Roster.remove Record.packetId packetId (inFlight r.outgoing))
      (hlen : array.length = r.outgoing.length)
      (hfree : FreeSlotsDefault r.outgoing → FreeSlotsDefault array) :
      RemoveEffect r packetId (.ok (), { r with outgoing := array })

theorem remove_spec {r : PublishRecords} (h : r.WellFormed) (packetId : UInt16) :
    RemoveEffect r packetId (r.remove packetId) := by
  unfold remove
  split_ifs with hid
  · exact .refused (hid ▸ packetIdInvalid_not_mem _)
  cases hf : findInRecord r.outgoing packetId with
  | none => exact .refused ((findInRecord_eq_none hid).mp hf)
  | some found =>
    obtain ⟨index, qos, current⟩ := found
    have hget := findInRecord_some hf
    have hmem := mem_inFlight_of_getElem? hget hid
    have hlegal := h.outgoing.legal _ hmem
    dsimp only
    split_ifs with hnull hq
    · simp [OutgoingLegal, hnull] at hlegal
    · simp [OutgoingLegal, hq] at hlegal
    · exact .removed _ _ hmem rfl
        (inFlight_updateRecord_delete hget hid h.outgoing.distinct _) (length_updateRecord _ _)
        fun hfree => hfree.updateRecord hget hid _ _

theorem WellFormed.reserve {r : PublishRecords} (h : r.WellFormed) (packetId : UInt16)
    (qos : QoS) : (r.reserve packetId qos).2.WellFormed := by
  have heff := reserve_spec r packetId qos
  generalize r.reserve packetId qos = result at heff
  cases heff with
  | unrecorded _ => exact h
  | zero _ _ => exact h
  | recorded hq hid _ hadd =>
    refine ⟨arrayInvariant_added h.outgoing hadd ?_, h.incoming⟩
    cases qos <;> simp_all [OutgoingLegal]

theorem WellFormed.updatePublish {r : PublishRecords} (h : r.WellFormed) (packetId : UInt16)
    (op : Operation) (qos : QoS) : (r.updatePublish packetId op qos).2.WellFormed := by
  have heff := updatePublish_spec h.outgoing.distinct packetId op qos
  generalize r.updatePublish packetId op qos = result at heff
  cases heff with
  | unrecorded _ => exact h
  | zero _ _ => exact h
  | unknown _ _ _ => exact h
  | mismatch _ _ _ _ _ => exact h
  | illegal _ _ _ _ _ _ => exact h
  | repeated _ _ _ _ _ _ => exact h
  | sent hq x array _ _ hxq _ hlive _ hfree =>
    refine ⟨h.outgoing.amended hlive ?_ (hfree h.outgoing.free), h.incoming⟩
    cases qos <;> simp_all [OutgoingLegal, calculateStatePublish]
  | received hq _ _ hadd =>
    refine ⟨h.outgoing, arrayInvariant_added h.incoming hadd ?_⟩
    cases qos <;> simp_all [IncomingLegal, calculateStatePublish]

theorem WellFormed.updateAck {r : PublishRecords} (h : r.WellFormed) (packetId : UInt16)
    (ack : AckType) (op : Operation) : (r.updateAck packetId ack op).2.WellFormed := by
  have heff := updateAck_spec h packetId ack op
  generalize r.updateAck packetId ack op = result at heff
  cases heff with
  | zero _ => exact h
  | outgoing _ _ _ heff => exact ⟨h.outgoing.acked heff outgoingLegal_ack, h.incoming⟩
  | incoming _ _ _ heff => exact ⟨h.outgoing, h.incoming.acked heff incomingLegal_ack⟩

theorem WellFormed.remove {r : PublishRecords} (h : r.WellFormed) (packetId : UInt16) :
    (r.remove packetId).2.WellFormed := by
  have heff := remove_spec h packetId
  generalize r.remove packetId = result at heff
  cases heff with
  | refused _ => exact h
  | removed _ _ _ _ hlive _ hfree =>
    exact ⟨h.outgoing.removed hlive (hfree h.outgoing.free), h.incoming⟩

theorem wellFormed_new (outgoing incoming : List Record) : (new outgoing incoming).WellFormed :=
  ⟨arrayInvariant_cleared _ _, arrayInvariant_cleared _ _⟩

theorem WellFormed.cap {r : PublishRecords} (h : r.WellFormed) (outgoing incoming : ℕ) :
    (r.cap outgoing incoming).WellFormed := by
  constructor
  · unfold PublishRecords.cap
    dsimp only
    split
    · exact h.outgoing.take _
    · exact h.outgoing
  · unfold PublishRecords.cap
    dsimp only
    split
    · exact h.incoming.take _
    · exact h.incoming

theorem WellFormed.clearOutgoing {r : PublishRecords} (h : r.WellFormed) :
    r.clearOutgoing.WellFormed := ⟨arrayInvariant_cleared _ _, h.incoming⟩

theorem WellFormed.clearIncoming {r : PublishRecords} (h : r.WellFormed) :
    r.clearIncoming.WellFormed := ⟨h.outgoing, arrayInvariant_cleared _ _⟩

end PublishRecords

end RtosMqtt
