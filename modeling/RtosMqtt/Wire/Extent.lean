import RtosMqtt.Wire.Acknowledged

/-! # Where a packet ends

A packet that was received may be followed by more bytes: the next packet, or what is left of
an earlier one. The deserializers stop at the remaining length. The two getters for the codes of
a SUBACK and an UNSUBACK stop where the bytes do.
-/

namespace RtosMqtt

/-- Past the identifier and the section, the rest are codes. -/
def statusCodes (packet : PacketInfo) (expected : UInt8) : Except ParseError (List UInt8) := do
  refuseIf (packet.packetType ≠ expected) .badParameter
  refuseIf (packet.remainingLength < 4 ∨ remainingLengthInvalid ≤ packet.remainingLength)
    .badParameter
  match slice? packet.remainingData 2 packet.remainingData.length with
  | none => .error .badParameter
  | some afterId =>
    let value ← decodeVariableLength afterId
    orBadResponse (slice? afterId (variableLengthEncodedSize value + value) afterId.length)

def subackStatusCodes (packet : PacketInfo) : Except ParseError (List UInt8) :=
  statusCodes packet Packet.suback

def unsubackStatusCodes (packet : PacketInfo) : Except ParseError (List UInt8) :=
  statusCodes packet Packet.unsuback

/-- The bytes are those of the packet, and their number is one that a header carries. -/
def WellFitting (packet : PacketInfo) : Prop :=
  packet.remainingData.length = packet.remainingLength ∧
    packet.remainingLength < remainingLengthInvalid

theorem statusCodes_of_body {packet : PacketInfo} {ack : AckInfo} {packetId : UInt16}
    {tail : List UInt8} (hfour : 4 ≤ packet.remainingLength)
    (hvalid : packet.remainingLength < remainingLengthInvalid)
    (hbody : SubAckBody packetId (packet.remainingData.take packet.remainingLength) ack)
    (htail : packet.remainingData.drop packet.remainingLength = tail) :
    statusCodes packet packet.packetType = .ok (ack.reasonCodes ++ tail) := by
  have hdata : packet.remainingData = toBeBytes16 packetId ++
      (sized ack.properties ++ (ack.reasonCodes ++ tail)) := by
    rw [← List.take_append_drop packet.remainingLength packet.remainingData, hbody.body, htail,
      List.append_assoc, List.append_assoc]
  obtain ⟨hdecode, -⟩ := section_eq_ok.mpr
    ⟨hbody.short, rfl, List.prefix_append (sized ack.properties) (ack.reasonCodes ++ tail)⟩
  have hafter : slice? packet.remainingData 2 packet.remainingData.length =
      some (sized ack.properties ++ (ack.reasonCodes ++ tail)) := by
    rw [hdata, slice?, if_pos ⟨by rw [List.length_append]; exact Nat.le_add_right 2 _,
      Nat.le_refl _⟩, List.take_length]
    rfl
  have hsize := length_sized hbody.short
  rw [statusCodes, refuseIf, if_neg (not_not_intro rfl)]
  change (refuseIf _ _ >>= _) = _
  rw [refuseIf, if_neg (not_or.mpr ⟨Nat.not_lt.mpr hfour, Nat.not_le.mpr hvalid⟩), hafter]
  change (decodeVariableLength _ >>= _) = _
  rw [hdecode]
  change orBadResponse _ = _
  rw [← hsize, slice?, if_pos ⟨by rw [List.length_append]; omega, Nat.le_refl _⟩,
    List.take_length, List.drop_left]
  rfl

theorem deserializeSubUnsubAck_of_deserializeAck {packet : PacketInfo} {limits : Limits}
    {ack : AckInfo} (hkind : packet.packetType = Packet.suback ∨
      packet.packetType = Packet.unsuback) (h : deserializeAck packet limits = .ok ack) :
    deserializeSubUnsubAck packet = .ok ack := by
  have hother : ¬ isPublishAck packet.packetType = true := by
    rcases hkind with hkind | hkind <;> rw [hkind] <;> decide
  rw [deserializeAck, refuseIf_bind_eq_ok, refuseIf_bind_eq_ok, refuseIf_bind_eq_ok,
    if_neg hother, if_pos hkind] at h
  exact h.2.2.2

theorem statusCodes_iff {packet : PacketInfo} {limits : Limits} {ack : AckInfo}
    (hkind : packet.packetType = Packet.suback ∨ packet.packetType = Packet.unsuback)
    (h : deserializeAck packet limits = .ok ack) :
    statusCodes packet packet.packetType = .ok ack.reasonCodes ↔ WellFitting packet := by
  obtain ⟨hfour, hinside, packetId, -, hbody⟩ :=
    subAckBody_of_deserialize (deserializeSubUnsubAck_of_deserializeAck hkind h)
  by_cases hvalid : packet.remainingLength < remainingLengthInvalid
  · rw [statusCodes_of_body hfour hvalid hbody rfl, Except.ok.injEq, List.append_right_eq_self,
      List.drop_eq_nil_iff, WellFitting]
    exact ⟨fun hle => ⟨Nat.le_antisymm hle hinside, hvalid⟩, fun hfits => Nat.le_of_eq hfits.1⟩
  · refine iff_of_false (fun hcodes => ?_) fun hfits => hvalid hfits.2
    rw [statusCodes, refuseIf_bind_eq_ok, refuseIf_bind_eq_ok] at hcodes
    exact hcodes.2.1 (.inr (Nat.not_lt.mp hvalid))

/-- The getters for status codes, and the packets on which they are right. -/
theorem status_codes_agree_iff {packet : PacketInfo} {limits : Limits} {ack : AckInfo}
    (h : deserializeAck packet limits = .ok ack) :
    (packet.packetType = Packet.suback →
      (subackStatusCodes packet = .ok ack.reasonCodes ↔ WellFitting packet)) ∧
    (packet.packetType = Packet.unsuback →
      (unsubackStatusCodes packet = .ok ack.reasonCodes ↔ WellFitting packet)) := by
  constructor
  · intro htype
    rw [subackStatusCodes, ← htype]
    exact statusCodes_iff (.inl htype) h
  · intro htype
    rw [unsubackStatusCodes, ← htype]
    exact statusCodes_iff (.inr htype) h

theorem status_codes_agree_of_one :
    subackStatusCodes ⟨Packet.suback, 4, [0, 1, 0, 2]⟩ = .ok [2] ↔
      WellFitting ⟨Packet.suback, 4, [0, 1, 0, 2]⟩ :=
  (@status_codes_agree_iff ⟨Packet.suback, 4, [0, 1, 0, 2]⟩ ⟨6, true⟩ ⟨some 1, [2], []⟩ rfl).1 rfl

/-- A PINGRESP behind a SUBACK is read as two more codes. -/
theorem status_codes_of_pingresp :
    deserializeAck ⟨Packet.suback, 4, [0, 1, 0, 2, 0xD0, 0]⟩ ⟨6, true⟩ = .ok ⟨some 1, [2], []⟩ ∧
      subackStatusCodes ⟨Packet.suback, 4, [0, 1, 0, 2, 0xD0, 0]⟩ = .ok [2, 0xD0, 0] := by
  decide +kernel

def PacketInfo.trimmed (packet : PacketInfo) : PacketInfo :=
  { packet with remainingData := packet.remainingData.take packet.remainingLength }

/-- A reader that looks at the packet and at nothing after it. -/
structure Confined {α : Type} (read : PacketInfo → Except ParseError α)
    (slices : α → List (List UInt8)) : Prop where
  alike : ∀ packet packet' : PacketInfo, packet'.packetType = packet.packetType →
    packet'.remainingLength = packet.remainingLength →
    packet.remainingLength ≤ packet.remainingData.length →
    packet.remainingLength ≤ packet'.remainingData.length →
    packet'.remainingData.take packet.remainingLength =
      packet.remainingData.take packet.remainingLength → read packet' = read packet
  inside : ∀ packet a, read packet = .ok a → ∀ bytes ∈ slices a,
    bytes <:+: packet.remainingData.take packet.remainingLength
  short : ∀ packet, packet.remainingData.length < packet.remainingLength →
    ∃ e, read packet = .error e

theorem confined_of_trimmed {α : Type} {read : PacketInfo → Except ParseError α}
    {slices : α → List (List UInt8)}
    (htrimmed : ∀ packet, packet.remainingLength ≤ packet.remainingData.length →
      read packet.trimmed = read packet)
    (hok : ∀ packet a, read packet = .ok a →
      packet.remainingLength ≤ packet.remainingData.length ∧
        ∀ bytes ∈ slices a, bytes <:+: packet.remainingData.take packet.remainingLength) :
    Confined read slices where
  alike packet packet' htype hlength hlong hlong' hsame := by
    have htrim : packet'.trimmed = packet.trimmed := by
      rw [PacketInfo.trimmed, PacketInfo.trimmed, hlength, hsame, htype]
    rw [← htrimmed packet hlong, ← htrimmed packet' (by rwa [hlength]), htrim]
  inside packet a h := (hok packet a h).2
  short packet hshort := by
    cases hread : read packet with
    | error e => exact ⟨e, rfl⟩
    | ok a => exact absurd (hok packet a hread).1 (Nat.not_le.mpr hshort)

section Trimmed

variable {n start length : ℕ} {data : List UInt8}

theorem bounded_take (hstop : start + length ≤ n) (hlong : n ≤ data.length) :
    bounded (data.take n) start length = bounded data start length := by
  have hwithin : start + length ≤ data.length := Nat.le_trans hstop hlong
  rw [bounded, bounded, slice?, slice?, List.length_take_of_le hlong,
    if_pos ⟨Nat.le_add_right _ _, hstop⟩, if_pos ⟨Nat.le_add_right _ _, hwithin⟩, List.take_take,
    Nat.min_eq_left hstop]

theorem readPacketId_take (htwo : 2 ≤ n) (hlong : n ≤ data.length) :
    readPacketId (data.take n) = readPacketId data := by
  rw [readPacketId, readPacketId, bounded_take htwo hlong]

end Trimmed

section Acks

variable {packet : PacketInfo}

theorem deserializePubAcks_trimmed (requestProblemInfo : Bool)
    (hlong : packet.remainingLength ≤ packet.remainingData.length) :
    deserializePubAcks packet.trimmed requestProblemInfo =
      deserializePubAcks packet requestProblemInfo := by
  obtain ⟨type, n, data⟩ := packet
  rw [PacketInfo.trimmed, deserializePubAcks, deserializePubAcks]
  dsimp only at hlong ⊢
  apply refuseIf_bind_congr
  intro htwo
  rw [readPacketId_take (Nat.not_lt.mp htwo) hlong]
  apply except_bind_congr
  intro packetId _
  have hcode : (if n > 2 then bounded (data.take n) 2 1 else .ok []) =
      if n > 2 then bounded data 2 1 else .ok [] := by
    split_ifs with hmore
    · exact bounded_take hmore hlong
    · rfl
  rw [hcode]
  apply except_bind_congr
  intro codes _
  split_ifs with hthree
  · rfl
  · rw [bounded_take (by omega) hlong]

theorem deserializeSubUnsubAck_trimmed
    (hlong : packet.remainingLength ≤ packet.remainingData.length) :
    deserializeSubUnsubAck packet.trimmed = deserializeSubUnsubAck packet := by
  obtain ⟨type, n, data⟩ := packet
  rw [PacketInfo.trimmed, deserializeSubUnsubAck, deserializeSubUnsubAck]
  dsimp only at hlong ⊢
  apply refuseIf_bind_congr
  intro hfour
  rw [readPacketId_take (by omega) hlong, bounded_take (by omega) hlong]

theorem deserializeAck_trimmed (limits : Limits)
    (hlong : packet.remainingLength ≤ packet.remainingData.length) :
    deserializeAck packet.trimmed limits = deserializeAck packet limits := by
  have hpub := deserializePubAcks_trimmed limits.requestProblemInfo hlong
  have hsub := deserializeSubUnsubAck_trimmed hlong
  rw [deserializeAck, deserializeAck, hpub, hsub]
  rfl

/-- The parts of an acknowledgement that are slices of the packet. -/
def AckInfo.slices (ack : AckInfo) : List (List UInt8) := [ack.reasonCodes, ack.properties]

theorem pubAckBody_slices {packetId : UInt16} {body : List UInt8} {ack : AckInfo}
    (h : PubAckBody packetId body ack) : ∀ bytes ∈ ack.slices, bytes <:+: body := by
  rw [AckInfo.slices, List.forall_mem_cons, List.forall_mem_singleton]
  cases h with
  | bare => exact ⟨List.nil_infix, List.nil_infix⟩
  | reasoned code => exact ⟨(List.suffix_append _ _).isInfix, List.nil_infix⟩
  | @sectioned code properties _ _ =>
    constructor
    · exact ⟨toBeBytes16 packetId, sized properties, List.append_assoc _ _ _⟩
    · exact ((List.suffix_append _ _).trans ((List.suffix_cons code _).trans
        (List.suffix_append _ _))).isInfix

theorem subAckBody_slices {packetId : UInt16} {body : List UInt8} {ack : AckInfo}
    (h : SubAckBody packetId body ack) : ∀ bytes ∈ ack.slices, bytes <:+: body := by
  rw [AckInfo.slices, List.forall_mem_cons, List.forall_mem_singleton, h.body, sized]
  constructor
  · exact ((List.suffix_append _ _).trans (List.suffix_append _ _)).isInfix
  · refine ⟨toBeBytes16 packetId ++ encodedLength ack.properties.length, ack.reasonCodes, ?_⟩
    simp only [List.append_assoc]

theorem confined_deserializeAck (limits : Limits) :
    Confined (fun packet => deserializeAck packet limits) AckInfo.slices := by
  apply confined_of_trimmed
  · exact fun packet hlong => deserializeAck_trimmed limits hlong
  intro packet ack h
  by_cases hkind : isPublishAck packet.packetType = true
  · obtain ⟨-, hread, -⟩ := (deserializeAck_eq_ok_of_publish hkind).mp h
    obtain ⟨hinside, -, packetId, -, hbody⟩ := deserializePubAcks_eq_ok.mp hread
    exact ⟨hinside, pubAckBody_slices hbody⟩
  by_cases hsub : packet.packetType = Packet.suback ∨ packet.packetType = Packet.unsuback
  · obtain ⟨-, hinside, packetId, -, hbody⟩ :=
      subAckBody_of_deserialize (deserializeSubUnsubAck_of_deserializeAck hsub h)
    exact ⟨hinside, subAckBody_slices hbody⟩
  rw [deserializeAck, refuseIf_bind_eq_ok, refuseIf_bind_eq_ok, refuseIf_bind_eq_ok, if_neg hkind,
    if_neg hsub] at h
  obtain ⟨-, -, -, h⟩ := h
  split_ifs at h
  rw [refuseIf_bind_eq_ok] at h
  obtain ⟨hzero, h⟩ := h
  cases h
  refine ⟨by omega, fun bytes hbytes => ?_⟩
  rw [AckInfo.slices, List.mem_cons, List.mem_singleton, or_self] at hbytes
  rw [hbytes]
  exact List.nil_infix

end Acks

section Connack

variable {packet : PacketInfo}

theorem deserializeConnack_trimmed (client : ClientSettings)
    (hlong : packet.remainingLength ≤ packet.remainingData.length) :
    deserializeConnack packet.trimmed client = deserializeConnack packet client := by
  obtain ⟨type, n, data⟩ := packet
  rw [PacketInfo.trimmed, deserializeConnack, deserializeConnack]
  dsimp only at hlong ⊢
  apply refuseIf_bind_congr
  intro _
  apply refuseIf_bind_congr
  intro _
  apply refuseIf_bind_congr
  intro _
  apply refuseIf_bind_congr
  intro hminimum
  rw [connackMinimumSize, Nat.not_lt] at hminimum
  rw [List.head?_take, if_neg (by omega), List.getElem?_take_of_lt (by omega),
    bounded_take (by omega) hlong]

def ConnAck.slices (connack : ConnAck) : List (List UInt8) := [connack.properties]

theorem confined_deserializeConnack (client : ClientSettings) :
    Confined (fun packet => deserializeConnack packet client) ConnAck.slices := by
  apply confined_of_trimmed
  · exact fun packet hlong => deserializeConnack_trimmed client hlong
  intro packet connack h
  obtain ⟨ps, hacknowledges, hconnack⟩ := acknowledges_of_deserializeConnack h
  refine ⟨hacknowledges.inside, ?_⟩
  rw [ConnAck.slices, List.forall_mem_singleton, hconnack, hacknowledges.body, sized]
  exact ((List.suffix_append _ _).trans (List.suffix_append _ _)).isInfix

end Connack

section Publish

variable {packet : PacketInfo}

theorem readPublishId_trimmed {qos : QoS} {afterTopic : ℕ}
    (hroom : afterTopic + packetIdCost qos ≤ packet.remainingLength)
    (hlong : packet.remainingLength ≤ packet.remainingData.length) :
    readPublishId packet.trimmed qos afterTopic = readPublishId packet qos afterTopic := by
  rw [readPublishId, readPublishId, PacketInfo.trimmed]
  rw [packetIdCost] at hroom
  split_ifs at hroom ⊢
  · rfl
  · rw [bounded_take hroom hlong]

theorem readPublishProperties_trimmed {qos : QoS} {topicNameLength topicAliasMax : UInt16}
    (hlong : packet.remainingLength ≤ packet.remainingData.length) :
    readPublishProperties packet.trimmed (topicNameLength.toNat + 2 + packetIdCost qos) qos
        topicNameLength topicAliasMax =
      readPublishProperties packet (topicNameLength.toNat + 2 + packetIdCost qos) qos
        topicNameLength topicAliasMax := by
  have htopic := topicNameLength.toNat_lt
  have htopicCost : satAdd topicNameLength.toNat 2 = topicNameLength.toNat + 2 :=
    satAdd_of_le (by rw [u32Max]; omega)
  obtain ⟨type, n, data⟩ := packet
  rw [PacketInfo.trimmed, readPublishProperties, readPublishProperties]
  dsimp only at hlong ⊢
  rw [htopicCost]
  apply refuseIf_bind_congr
  intro _
  apply refuseIf_bind_congr
  intro _
  rw [bounded_take (by omega) hlong]

theorem deserializePublish_trimmed (maxPacketSize : ℕ) (topicAliasMax : UInt16)
    (hlong : packet.remainingLength ≤ packet.remainingData.length) :
    deserializePublish packet.trimmed maxPacketSize topicAliasMax =
      deserializePublish packet maxPacketSize topicAliasMax := by
  have hdata : packet.trimmed.remainingData =
    packet.remainingData.take packet.remainingLength := rfl
  rw [deserializePublish, deserializePublish, hdata]
  apply refuseIf_bind_congr
  intro _
  apply refuseIf_bind_congr
  intro _
  apply refuseIf_bind_congr
  intro _
  apply except_bind_congr
  rintro ⟨qos, dup, retain⟩ _
  apply except_bind_congr
  intro _ hfloor
  rw [checkRemainingLength_eq_ok (by decide)] at hfloor
  change 4 + packetIdCost qos ≤ packet.remainingLength at hfloor
  rw [bounded_take (by omega) hlong]
  apply except_bind_congr
  intro lengthBytes _
  apply except_bind_congr
  intro topicNameLength _
  apply except_bind_congr
  intro _ htopicFits
  have htopic := topicNameLength.toNat_lt
  have hthree : satAdd topicNameLength.toNat 3 = topicNameLength.toNat + 3 :=
    satAdd_of_le (by rw [u32Max]; omega)
  rw [hthree, checkRemainingLength_eq_ok (by rw [u32Max]; omega)] at htopicFits
  change topicNameLength.toNat + 3 + packetIdCost qos ≤ packet.remainingLength at htopicFits
  rw [bounded_take (by omega) hlong]
  apply except_bind_congr
  intro topicName _
  dsimp only
  rw [readPublishId_trimmed (by omega) hlong, readPublishProperties_trimmed hlong]
  apply except_bind_congr
  intro packetId _
  apply except_bind_congr
  rintro ⟨properties, propertyLength⟩ hproperties
  obtain ⟨-, rfl, hmax, hsection, -⟩ := (readPublishProperties_eq_ok (by omega)).mp hproperties
  have hfits := hsection.length_le
  rw [length_sized hmax, List.length_take, List.length_drop] at hfits
  dsimp only
  rw [consumed_eq _ _ hmax]
  change bounded (packet.remainingData.take packet.remainingLength) _
    (packet.remainingLength - _) >>= _ = _
  rw [bounded_take (by omega) hlong]

def PublishInfo.slices (publish : PublishInfo) : List (List UInt8) :=
  [publish.topicName, publish.properties, publish.payload]

theorem confined_deserializePublish (maxPacketSize : ℕ) (topicAliasMax : UInt16) :
    Confined (fun packet => deserializePublish packet maxPacketSize topicAliasMax)
      PublishInfo.slices := by
  apply confined_of_trimmed
  · exact fun packet hlong => deserializePublish_trimmed maxPacketSize topicAliasMax hlong
  intro packet publish h
  have hpublishes := publishes_of_deserializePublish h
  refine ⟨hpublishes.inside, ?_⟩
  rw [PublishInfo.slices, List.forall_mem_cons, List.forall_mem_cons, List.forall_mem_singleton,
    hpublishes.body, publishBody, prefixed, sized]
  refine ⟨⟨toBeBytes16 publish.topicName.length.toUInt16, idBytes publish.packetId ++
    (encodedLength publish.properties.length ++ publish.properties ++ publish.payload), rfl⟩,
    ⟨toBeBytes16 publish.topicName.length.toUInt16 ++ publish.topicName ++
      idBytes publish.packetId ++ encodedLength publish.properties.length, publish.payload, ?_⟩, ?_⟩
  · simp only [List.append_assoc]
  · exact ((List.suffix_append _ _).trans ((List.suffix_append _ _).trans
      (List.suffix_append _ _))).isInfix

end Publish

section Disconnect

variable {packet : PacketInfo}

theorem deserializeDisconnect_trimmed (maxPacketSize : ℕ)
    (hlong : packet.remainingLength ≤ packet.remainingData.length) :
    deserializeDisconnect packet.trimmed maxPacketSize =
      deserializeDisconnect packet maxPacketSize := by
  obtain ⟨type, n, data⟩ := packet
  rw [PacketInfo.trimmed, deserializeDisconnect, deserializeDisconnect]
  dsimp only at hlong ⊢
  apply refuseIf_bind_congr
  intro _
  apply refuseIf_bind_congr
  intro _
  apply refuseIf_bind_congr
  intro _
  split_ifs with hzero hone
  · rfl
  · rw [List.head?_take, if_neg hzero]
  · rw [List.head?_take, if_neg hzero, bounded_take (by omega) hlong]

def Disconnect.slices (disconnect : Disconnect) : List (List UInt8) := [disconnect.properties]

theorem confined_deserializeDisconnect (maxPacketSize : ℕ) :
    Confined (fun packet => deserializeDisconnect packet maxPacketSize) Disconnect.slices := by
  apply confined_of_trimmed
  · exact fun packet hlong => deserializeDisconnect_trimmed maxPacketSize hlong
  intro packet disconnect h
  obtain ⟨type, n, data⟩ := packet
  rw [deserializeDisconnect, refuseIf_bind_eq_ok, refuseIf_bind_eq_ok, refuseIf_bind_eq_ok] at h
  obtain ⟨-, -, -, h⟩ := h
  dsimp only at h ⊢
  by_cases hzero : n = 0
  · rw [if_pos hzero] at h
    cases h
    rw [hzero]
    exact ⟨Nat.zero_le _, List.forall_mem_singleton.mpr List.nil_infix⟩
  rw [if_neg hzero, except_bind_eq_ok] at h
  obtain ⟨reasonCode, hreason, h⟩ := h
  rw [refuseIf_bind_eq_ok] at h
  obtain ⟨-, h⟩ := h
  by_cases hone : n = 1
  · rw [if_pos hone] at h
    cases h
    refine ⟨?_, List.forall_mem_singleton.mpr List.nil_infix⟩
    have hsome := List.isSome_head?.mp (Option.isSome_of_eq_some (orBadResponse_eq_ok.mp hreason))
    rw [hone]
    exact List.length_pos_of_ne_nil hsome
  rw [if_neg hone, except_bind_eq_ok] at h
  obtain ⟨afterReason, hafter, h⟩ := h
  rw [except_bind_eq_ok] at h
  obtain ⟨propertyLength, hlength, h⟩ := h
  rw [refuseIf_bind_eq_ok, except_bind_eq_ok] at h
  obtain ⟨-, properties, hproperties, h⟩ := h
  rw [except_bind_eq_ok] at h
  obtain ⟨_, -, h⟩ := h
  cases h
  obtain ⟨hinside, rfl⟩ := bounded_eq_ok.mp hafter
  obtain ⟨-, -, hsection⟩ := section_eq_ok.mp ⟨hlength, hproperties⟩
  refine ⟨by omega, List.forall_mem_singleton.mpr ?_⟩
  have hparts : n = 1 + (n - 1) := by omega
  have hrest : (data.drop 1).take (n - 1) <:+ data.take n := by
    conv_rhs => rw [hparts, List.take_add]
    exact List.suffix_append _ _
  exact (List.suffix_append (encodedLength properties.length) properties).isInfix.trans
    (hsection.isInfix.trans hrest.isInfix)

end Disconnect

/-- The four deserializers read the packet and nothing after it. -/
theorem deserializers_confined :
    (∀ limits, Confined (fun packet => deserializeAck packet limits) AckInfo.slices) ∧
    (∀ client, Confined (fun packet => deserializeConnack packet client) ConnAck.slices) ∧
    (∀ maxPacketSize topicAliasMax,
      Confined (fun packet => deserializePublish packet maxPacketSize topicAliasMax)
        PublishInfo.slices) ∧
    ∀ maxPacketSize,
      Confined (fun packet => deserializeDisconnect packet maxPacketSize) Disconnect.slices :=
  ⟨confined_deserializeAck, confined_deserializeConnack, confined_deserializePublish,
    confined_deserializeDisconnect⟩

end RtosMqtt
