import RtosMqtt.Wire.Grammar
import RtosMqtt.Wire.Serializers
import RtosMqtt.Wire.Validated

/-! # Acknowledgements, written and read

An acknowledgement of a publish is a packet identifier and nothing more, a reason code after
it, or a section after that. Which of these it is, its writer decides by what there is to say
and its reader by the remaining length.
-/

namespace RtosMqtt

open PropertyReader (Covers Takes TakesAll covers_of_eq_ok userProperty_eq_ok)

/-- The three shapes of a body, and what is read from each. -/
inductive PubAckBody (packetId : UInt16) : List UInt8 → AckInfo → Prop
  | bare : PubAckBody packetId (toBeBytes16 packetId)
      { packetId := some packetId, reasonCodes := [], properties := [] }
  | reasoned (code : UInt8) : PubAckBody packetId (toBeBytes16 packetId ++ [code])
      { packetId := some packetId, reasonCodes := [code], properties := [] }
  | sectioned (code : UInt8) {properties : List UInt8}
      (hshort : properties.length ≤ maxRemainingLength)
      (hwalk : walkAckProperties properties properties.length = .ok ()) :
      PubAckBody packetId (toBeBytes16 packetId ++ code :: sized properties)
        { packetId := some packetId, reasonCodes := [code], properties }

theorem readPacketId_eq_ok {data : List UInt8} {packetId : UInt16} :
    readPacketId data = .ok packetId ↔ packetId ≠ 0 ∧ data.take 2 = toBeBytes16 packetId := by
  rw [readPacketId, except_bind_eq_ok]
  constructor
  · rintro ⟨bytes, hbytes, h⟩
    rw [except_bind_eq_ok] at h
    obtain ⟨id, hid, h⟩ := h
    rw [refuseIf_bind_eq_ok] at h
    obtain ⟨hzero, h⟩ := h
    cases h
    rw [orBadResponse_fromBeBytes16] at hid
    exact ⟨hzero, ((bounded_toBeBytes16 hid).mp hbytes).trans hid⟩
  · rintro ⟨hzero, hbytes⟩
    refine ⟨toBeBytes16 packetId, (bounded_toBeBytes16 rfl).mpr hbytes, ?_⟩
    rw [except_bind_eq_ok]
    refine ⟨packetId, orBadResponse_fromBeBytes16.mpr rfl, ?_⟩
    rw [refuseIf_bind_eq_ok]
    exact ⟨hzero, rfl⟩

/-- A section that ends a body fills it. -/
theorem decodePubAckProperties_eq_ok {body properties : List UInt8} :
    decodePubAckProperties body = .ok properties ↔
      properties.length ≤ maxRemainingLength ∧ body = sized properties ∧
        walkAckProperties properties properties.length = .ok () := by
  rw [decodePubAckProperties, except_bind_eq_ok]
  have hsum {n : ℕ} (hn : n ≤ maxRemainingLength) :
      satAdd n (variableLengthEncodedSize n) = n + variableLengthEncodedSize n := by
    have hsize := variableLengthEncodedSize_le n
    rw [maxRemainingLength] at hn
    exact satAdd_of_le (by rw [u32Max]; omega)
  constructor
  · rintro ⟨n, hn, h⟩
    rw [refuseIf_bind_eq_ok, refuseIf_bind_eq_ok, except_bind_eq_ok] at h
    obtain ⟨-, hlength, bytes, hbytes, h⟩ := h
    rw [except_bind_eq_ok] at h
    obtain ⟨_, hwalk, h⟩ := h
    cases h
    obtain ⟨hmax, -⟩ := PropertyReader.decodeVariableLength_eq_ok.mp hn
    rw [hsum hmax, not_ne_iff] at hlength
    obtain ⟨-, rfl, hsized⟩ := sized_eq_ok.mp ⟨hn, hlength, hbytes⟩
    exact ⟨hmax, hsized, hwalk⟩
  · rintro ⟨hmax, rfl, hwalk⟩
    obtain ⟨hn, hlength, hbytes⟩ := sized_eq_ok.mpr ⟨hmax, rfl, rfl⟩
    have hsize := variableLengthEncodedSize_le properties.length
    refine ⟨properties.length, hn, ?_⟩
    rw [refuseIf_bind_eq_ok, refuseIf_bind_eq_ok, except_bind_eq_ok, hsum hmax]
    refine ⟨?_, not_ne_iff.mpr hlength, properties, hbytes, ?_⟩
    · rw [maxRemainingLength] at hmax
      rw [u32Max]
      omega
    rw [except_bind_eq_ok]
    exact ⟨(), hwalk, rfl⟩

theorem bounded_code {data codes : List UInt8} (h : bounded data 2 1 = .ok codes) :
    ∃ code, codes = [code] ∧ (data.drop 2).take 1 = [code] := by
  obtain ⟨hinside, rfl⟩ := bounded_eq_ok.mp h
  have hone : ((data.drop 2).take 1).length = 1 := by
    rw [List.length_take, List.length_drop]
    omega
  obtain ⟨code, hcode⟩ := List.length_eq_one_iff.mp hone
  exact ⟨code, hcode, hcode⟩

theorem pubAckBody_of_deserialize {packet : PacketInfo} {requestProblemInfo : Bool} {ack : AckInfo}
    (h : deserializePubAcks packet requestProblemInfo = .ok ack) :
    packet.remainingLength ≤ packet.remainingData.length ∧
      (3 < packet.remainingLength → requestProblemInfo = true) ∧
      ∃ packetId, packetId ≠ 0 ∧
        PubAckBody packetId (packet.remainingData.take packet.remainingLength) ack := by
  obtain ⟨type, n, data⟩ := packet
  rw [deserializePubAcks, refuseIf_bind_eq_ok, except_bind_eq_ok] at h
  obtain ⟨htwo, packetId, hid, h⟩ := h
  rw [except_bind_eq_ok] at h
  obtain ⟨codes, hcodes, h⟩ := h
  dsimp only at htwo hid hcodes h ⊢
  obtain ⟨hzero, hid⟩ := readPacketId_eq_ok.mp hid
  have hpair : 2 ≤ data.length := by
    have hlength := congrArg List.length hid
    rw [List.length_take] at hlength
    change min 2 data.length = 2 at hlength
    omega
  obtain rfl | hmore := Nat.eq_or_lt_of_le (Nat.not_lt.mp htwo)
  · rw [if_neg (Nat.lt_irrefl 2)] at hcodes
    rw [if_pos (by omega)] at h
    cases hcodes
    cases h
    refine ⟨hpair, fun h => absurd h (by omega), packetId, hzero, ?_⟩
    rw [hid]
    exact .bare
  rw [if_pos hmore] at hcodes
  obtain ⟨code, rfl, hcode⟩ := bounded_code hcodes
  obtain rfl | hlong := Nat.eq_or_lt_of_le hmore
  · rw [if_pos (Nat.le_refl 3)] at h
    cases h
    refine ⟨(bounded_eq_ok.mp hcodes).1, fun h => absurd h (Nat.lt_irrefl 3), packetId, hzero, ?_⟩
    rw [Nat.succ_eq_add_one, List.take_add, hid, hcode]
    exact .reasoned code
  rw [if_neg (Nat.not_le.mpr hlong), refuseIf_bind_eq_ok, except_bind_eq_ok] at h
  obtain ⟨hasked, body, hbody, h⟩ := h
  rw [except_bind_eq_ok] at h
  obtain ⟨properties, hproperties, h⟩ := h
  cases h
  obtain ⟨hinside, rfl⟩ := bounded_eq_ok.mp hbody
  obtain ⟨hshort, hsized, hwalk⟩ := decodePubAckProperties_eq_ok.mp hproperties
  refine ⟨by omega, fun _ => by simpa using hasked, packetId, hzero, ?_⟩
  have hparts : n = 2 + (1 + (n - 3)) := by omega
  rw [hparts, List.take_add, List.take_add, List.drop_drop, hid, hcode, hsized]
  exact .sectioned code hshort hwalk

theorem deserialize_of_pubAckBody {packet : PacketInfo} {requestProblemInfo : Bool} {ack : AckInfo}
    {packetId : UInt16} (hinside : packet.remainingLength ≤ packet.remainingData.length)
    (hasked : 3 < packet.remainingLength → requestProblemInfo = true) (hzero : packetId ≠ 0)
    (hbody : PubAckBody packetId (packet.remainingData.take packet.remainingLength) ack) :
    deserializePubAcks packet requestProblemInfo = .ok ack := by
  obtain ⟨type, n, data⟩ := packet
  dsimp only at hinside hasked hbody
  have hn : n = (data.take n).length := (List.length_take_of_le hinside).symm
  obtain ⟨body, tail, rfl, hcut⟩ : ∃ body tail, data = body ++ tail ∧ data.take n = body :=
    ⟨_, _, (List.take_append_drop n data).symm, rfl⟩
  rw [hcut] at hn hbody
  clear hcut hinside
  subst hn
  rw [deserializePubAcks, refuseIf_bind_eq_ok, except_bind_eq_ok]
  cases hbody with
  | bare =>
    refine ⟨Nat.lt_irrefl 2, packetId, readPacketId_eq_ok.mpr ⟨hzero, rfl⟩, ?_⟩
    rw [except_bind_eq_ok]
    exact ⟨[], rfl, rfl⟩
  | reasoned code =>
    refine ⟨by simp [toBeBytes16], packetId, readPacketId_eq_ok.mpr ⟨hzero, rfl⟩, ?_⟩
    rw [except_bind_eq_ok]
    refine ⟨[code], bounded_eq_ok.mpr ⟨?_, rfl⟩, rfl⟩
    simp [toBeBytes16]
  | @sectioned code properties hshort hwalk =>
    have htwo : (toBeBytes16 packetId).length = 2 := rfl
    have hsize := length_sized hshort
    have hpos := variableLengthEncodedSize_pos properties.length
    have hlong : (toBeBytes16 packetId ++ code :: sized properties).length =
        3 + (sized properties).length := by
      rw [List.length_append, List.length_cons, htwo]
      omega
    rw [hlong] at hasked
    dsimp only
    rw [hlong]
    refine ⟨by omega, packetId, readPacketId_eq_ok.mpr ⟨hzero, rfl⟩, ?_⟩
    rw [except_bind_eq_ok, if_pos (by omega)]
    refine ⟨[code], ?_, ?_⟩
    · refine bounded_eq_ok.mpr ⟨?_, rfl⟩
      rw [List.length_append, hlong]
      omega
    rw [if_neg (by omega), refuseIf_bind_eq_ok, except_bind_eq_ok]
    refine ⟨?_, sized properties, ?_, ?_⟩
    · rw [hasked (by omega)]
      exact Bool.false_ne_true
    · refine bounded_eq_ok.mpr ⟨?_, ?_⟩
      · rw [List.length_append, hlong]
        omega
      · change sized properties = (sized properties ++ tail).take (3 + (sized properties).length - 3)
        rw [Nat.add_sub_cancel_left, List.take_left]
    rw [except_bind_eq_ok]
    exact ⟨properties, decodePubAckProperties_eq_ok.mpr ⟨hshort, rfl, hwalk⟩, rfl⟩

theorem deserializePubAcks_eq_ok {packet : PacketInfo} {requestProblemInfo : Bool} {ack : AckInfo} :
    deserializePubAcks packet requestProblemInfo = .ok ack ↔
      packet.remainingLength ≤ packet.remainingData.length ∧
        (3 < packet.remainingLength → requestProblemInfo = true) ∧
        ∃ packetId, packetId ≠ 0 ∧
          PubAckBody packetId (packet.remainingData.take packet.remainingLength) ack := by
  constructor
  · exact pubAckBody_of_deserialize
  · rintro ⟨hinside, hasked, packetId, hzero, hbody⟩
    exact deserialize_of_pubAckBody hinside hasked hzero hbody

theorem wholePacketSize_pos (n : ℕ) : 0 < wholePacketSize n := by
  rw [wholePacketSize, satAdd, u32Max]
  omega

/-- What the client's own reader takes as an acknowledgement of a publish. -/
theorem deserializeAck_eq_ok_of_publish {packet : PacketInfo} {limits : Limits} {ack : AckInfo}
    (hkind : isPublishAck packet.packetType = true) :
    deserializeAck packet limits = .ok ack ↔
      wholePacketSize packet.remainingLength ≤ limits.maxPacketSize ∧
        deserializePubAcks packet limits.requestProblemInfo = .ok ack ∧
        checkAckReasonCode ack = .ok () := by
  have hconnack : packet.packetType ≠ Packet.connack := by
    intro h
    rw [h] at hkind
    exact absurd hkind (by decide)
  have hpos := wholePacketSize_pos packet.remainingLength
  rw [deserializeAck, refuseIf_bind_eq_ok, refuseIf_bind_eq_ok, refuseIf_bind_eq_ok, if_pos hkind,
    except_bind_eq_ok]
  constructor
  · rintro ⟨-, -, hwithin, other, hread, h⟩
    rw [except_bind_eq_ok] at h
    obtain ⟨_, hcheck, h⟩ := h
    cases h
    refine ⟨Nat.not_lt.mp hwithin, hread, ?_⟩
    split_ifs at hcheck with hlong
    · exact hcheck
    · obtain ⟨hinside, -, packetId, -, hbody⟩ := deserializePubAcks_eq_ok.mp hread
      have hlength := List.length_take_of_le hinside
      generalize packet.remainingData.take packet.remainingLength = body at hbody hlength
      cases hbody with
      | bare => rfl
      | reasoned code =>
        rw [List.length_append] at hlength
        exact absurd (hlength ▸ Nat.lt_succ_self 2) hlong
      | sectioned code _ _ =>
        rw [List.length_append, List.length_cons] at hlength
        change 2 + _ = _ at hlength
        omega
  · rintro ⟨hwithin, hread, hcheck⟩
    refine ⟨hconnack, by omega, by omega, ack, hread, ?_⟩
    rw [except_bind_eq_ok]
    refine ⟨(), ?_, rfl⟩
    split_ifs
    · exact hcheck
    · rfl

theorem section_eq_ok {bytes properties : List UInt8} {n : ℕ} :
    (decodeVariableLength bytes = .ok n ∧
      bounded bytes (variableLengthEncodedSize n) n = .ok properties) ↔
        n ≤ maxRemainingLength ∧ properties.length = n ∧ sized properties <+: bytes := by
  constructor
  · rintro ⟨hdecode, hbounded⟩
    obtain ⟨hle, rest, rfl⟩ := PropertyReader.decodeVariableLength_eq_ok.mp hdecode
    obtain ⟨hinside, hproperties⟩ := bounded_eq_ok.mp hbounded
    rw [List.length_append, length_encodedLength hle] at hinside
    rw [← length_encodedLength hle, List.drop_left] at hproperties
    have hlength : properties.length = n := by
      rw [hproperties, List.length_take]
      omega
    refine ⟨hle, hlength, ?_⟩
    rw [sized, hlength, List.prefix_append_right_inj, hproperties]
    exact List.take_prefix _ _
  · rintro ⟨hle, rfl, more, rfl⟩
    rw [sized, List.append_assoc]
    exact ⟨PropertyReader.decodeVariableLength_eq_ok.mpr ⟨hle, List.prefix_append _ _⟩,
      bounded_next (length_encodedLength hle) rfl⟩

/-- The body of a SUBACK or an UNSUBACK: codes follow the section. -/
structure SubAckBody (packetId : UInt16) (body : List UInt8) (ack : AckInfo) : Prop where
  identified : ack.packetId = some packetId
  body : body = toBeBytes16 packetId ++ (sized ack.properties ++ ack.reasonCodes)
  short : ack.properties.length ≤ maxRemainingLength
  walk : walkAckProperties ack.properties ack.properties.length = .ok ()
  codes : ack.reasonCodes.all subackStatusAllowed = true

theorem subAckBody_of_deserialize {packet : PacketInfo} {ack : AckInfo}
    (h : deserializeSubUnsubAck packet = .ok ack) :
    4 ≤ packet.remainingLength ∧ packet.remainingLength ≤ packet.remainingData.length ∧
      ∃ packetId, packetId ≠ 0 ∧
        SubAckBody packetId (packet.remainingData.take packet.remainingLength) ack := by
  obtain ⟨type, n, data⟩ := packet
  rw [deserializeSubUnsubAck, refuseIf_bind_eq_ok, except_bind_eq_ok] at h
  obtain ⟨hfour, packetId, hid, h⟩ := h
  rw [except_bind_eq_ok] at h
  obtain ⟨afterId, hafter, h⟩ := h
  rw [except_bind_eq_ok] at h
  obtain ⟨⟨properties, propertyBytes⟩, hproperties, h⟩ := h
  dsimp only at hfour hid hafter h ⊢
  rw [except_bind_eq_ok] at h
  obtain ⟨codes, hcodes, h⟩ := h
  rw [except_bind_eq_ok] at h
  obtain ⟨_, hstatus, h⟩ := h
  cases h
  rw [deserializeSubUnsubAckProperties, except_bind_eq_ok] at hproperties
  obtain ⟨k, hk, hproperties⟩ := hproperties
  rw [refuseIf_bind_eq_ok, refuseIf_bind_eq_ok, except_bind_eq_ok] at hproperties
  obtain ⟨-, -, bytes, hbytes, hproperties⟩ := hproperties
  rw [except_bind_eq_ok] at hproperties
  obtain ⟨_, hwalk, hproperties⟩ := hproperties
  cases hproperties
  obtain ⟨hzero, hid⟩ := readPacketId_eq_ok.mp hid
  obtain ⟨hinside, rfl⟩ := bounded_eq_ok.mp hafter
  obtain ⟨hshort, rfl, codes', hcodes'⟩ := section_eq_ok.mp ⟨hk, hbytes⟩
  have hsize : variableLengthEncodedSize properties.length + properties.length =
      (sized properties).length := (length_sized hshort).symm
  rw [hsize, orBadResponse_eq_ok, slice?, ← hcodes'] at hcodes
  rw [if_pos ⟨by rw [List.length_append]; omega, Nat.le_refl _⟩, List.take_length,
    List.drop_left, Option.some.injEq] at hcodes
  subst hcodes
  refine ⟨Nat.not_lt.mp hfour, by omega, packetId, hzero, rfl, ?_, hshort, hwalk, ?_⟩
  · have hparts : n = 2 + (n - 2) := by omega
    rw [hparts, List.take_add, hid, hcodes']
  · by_contra hbad
    rw [readSubackStatus, refuseIf, if_pos (by simpa using hbad)] at hstatus
    cases hstatus

theorem covers_ackProperty : Covers Eq ackProperty outgoingAckProperty := by
  apply covers_of_eq_ok
  intro found id r next r' h
  rw [ackProperty] at h
  rw [outgoingAckProperty]
  split_ifs at h ⊢
  · exact h
  · exact h
  · cases h

theorem covers_outgoingAckProperty : Covers Eq outgoingAckProperty ackProperty := by
  apply covers_of_eq_ok
  intro found id r next r' h
  rw [outgoingAckProperty] at h
  rw [ackProperty]
  split_ifs at h ⊢
  · exact h
  · exact h
  · cases h

theorem validatePublishAckProperties_eq_ok {properties : List UInt8} :
    validatePublishAckProperties properties = .ok () ↔
      properties.length ≤ maxRemainingLength ∧
        walkAckProperties properties properties.length = .ok () := by
  rw [validatePublishAckProperties, walkAckProperties, except_bind_eq_ok, except_bind_eq_ok]
  constructor
  · rintro ⟨last, hwalk, -⟩
    rw [validateWalk, refuseIf_bind_eq_ok, refuseIf_bind_eq_ok] at hwalk
    obtain ⟨-, hshort, hwalk⟩ := hwalk
    obtain ⟨last', hwalk', -⟩ := covers_outgoingAckProperty.walk rfl hwalk
    refine ⟨?_, last', hwalk', rfl⟩
    rw [remainingLengthInvalid] at hshort
    rw [maxRemainingLength]
    omega
  · rintro ⟨hshort, last, hwalk, -⟩
    obtain ⟨last', hwalk', -⟩ := covers_ackProperty.walk rfl hwalk
    refine ⟨last', ?_, rfl⟩
    rw [maxRemainingLength] at hshort
    rw [validateWalk, refuseIf_bind_eq_ok, refuseIf_bind_eq_ok, u32Max, remainingLengthInvalid]
    exact ⟨by omega, by omega, hwalk'⟩

/-- A buffer is read as one acknowledgement: the header first, and what is after it. -/
def ReadsAsAck (limits : Limits) (buffer : List UInt8) (available : ℕ) (packetType : UInt8)
    (ack : AckInfo) : Prop :=
  ∃ header, processIncomingPacketTypeAndLength buffer available = .ok header ∧
    header.packetType = packetType ∧ header.headerLength + header.remainingLength = available ∧
    deserializeAck ⟨header.packetType, header.remainingLength, buffer.drop header.headerLength⟩
      limits = .ok ack

theorem incomingPacketValid_of_publishAck {packetType : UInt8}
    (h : isPublishAck packetType = true) : incomingPacketValid packetType = true := by
  have hall : ∀ t ∈ [Packet.puback, Packet.pubrec, Packet.pubrel, Packet.pubcomp],
      incomingPacketValid t = true := by decide +kernel
  exact hall packetType (decide_eq_true_iff.mp h)

/-- A body behind its header, whatever follows it. -/
theorem readsAsAck_of_body (rest : List UInt8) {packetType : UInt8} {packetId : UInt16}
    {body : List UInt8} {ack : AckInfo} {limits : Limits} (hkind : isPublishAck packetType = true)
    (hzero : packetId ≠ 0) (hbody : PubAckBody packetId body ack)
    (hshort : body.length ≤ maxRemainingLength) (hcheck : checkAckReasonCode ack = .ok ())
    (hasked : limits.requestProblemInfo = true)
    (hwithin : packetLength body.length ≤ limits.maxPacketSize) :
    ReadsAsAck limits (packetType :: encodedLength body.length ++ body ++ rest)
      (packetLength body.length) packetType ack := by
  have hwidth := length_encodedLength hshort
  have hhead : (packetType :: encodedLength body.length).length =
      variableLengthEncodedSize body.length + 1 := by rw [List.length_cons, hwidth]
  refine ⟨⟨packetType, body.length, variableLengthEncodedSize body.length + 1⟩, ?_, rfl, ?_, ?_⟩
  · rw [processIncomingPacketTypeAndLength_eq_ok]
    refine ⟨⟨incomingPacketValid_of_publishAck hkind, hshort, hhead.symm⟩, ?_⟩
    have htotal : packetLength body.length =
        (packetType :: encodedLength body.length ++ body).length := by
      rw [List.length_append, hhead, packetLength]
      omega
    rw [htotal, List.take_left]
    exact List.prefix_append _ _
  · dsimp only
    rw [packetLength]
    omega
  · rw [deserializeAck_eq_ok_of_publish hkind]
    dsimp only
    rw [wholePacketSize_eq_packetLength hshort, List.append_assoc, List.drop_left' hhead]
    refine ⟨hwithin, deserializePubAcks_eq_ok.mpr ⟨?_, fun _ => hasked, packetId, hzero, ?_⟩, hcheck⟩
    · dsimp only
      rw [List.length_append]
      omega
    · dsimp only
      rwa [List.take_left]

theorem validateAckReasonCode_of_allowed {packetType code : UInt8}
    (h : ackReasonCodeAllowed packetType code = true) : validateAckReasonCode code = .ok () := by
  have hnine : ∀ c ∈ [(0x00 : UInt8), 0x10, 0x80, 0x83, 0x87, 0x90, 0x91, 0x97, 0x99],
      validateAckReasonCode c = .ok () := by decide +kernel
  have htwo : ∀ c ∈ [(0x00 : UInt8), 0x92], validateAckReasonCode c = .ok () := by decide +kernel
  rw [ackReasonCodeAllowed] at h
  split_ifs at h
  · exact hnine code (decide_eq_true_iff.mp h)
  · exact htwo code (decide_eq_true_iff.mp h)

theorem isPublishAck_of_allowed {packetType code : UInt8}
    (h : ackReasonCodeAllowed packetType code = true) : isPublishAck packetType = true := by
  rw [ackReasonCodeAllowed] at h
  split_ifs at h with hnine htwo
  · rcases hnine with rfl | rfl <;> rfl
  · rcases htwo with rfl | rfl <;> rfl

def ackOf (packetId : UInt16) (reasonCode : Option UInt8) (properties : List UInt8) : AckInfo where
  packetId := some packetId
  reasonCodes := reasonCode.toList
  properties := properties

section RoundTrip

variable {packetType : UInt8} {packetId : UInt16} {reasonCode : Option UInt8}
  {properties destination : List UInt8}

theorem length_sectioned {code : UInt8} (h : properties.length ≤ maxRemainingLength) :
    (toBeBytes16 packetId ++ code :: sized properties).length = ackLength properties.length := by
  rw [List.length_append, List.length_cons, length_sized h, ackLength]
  change 2 + _ = _
  omega

/-- What is written can be read back. -/
theorem readsAsAck_serializeAck {written : ℕ} {out : List UInt8} {limits : Limits}
    (h : serializeAck packetType packetId reasonCode properties destination = (.ok written, out))
    (hsection : validatePublishAckProperties properties = .ok ())
    (hasked : limits.requestProblemInfo = true) (hwithin : written ≤ limits.maxPacketSize) :
    ReadsAsAck limits out written packetType (ackOf packetId reasonCode properties) := by
  have hchecked : AckChecked packetType packetId reasonCode properties destination := by
    by_contra hbad
    obtain ⟨e, he⟩ := serializeAck_refused hbad
    rw [he] at h
    cases h
  cases reasonCode with
  | none =>
    rw [serializeAck_bare_checked hchecked] at h
    cases h
    obtain rfl := hchecked.reasoned rfl
    have hbare := readsAsAck_of_body (destination.drop 4) hchecked.allowed
      hchecked.identified .bare (Nat.le_of_ble_eq_true rfl) rfl hasked hwithin
    rwa [ackPacket, List.append_nil]
  | some code =>
    have hroom : ackLength properties.length ≤ maxRemainingLength ∧
        packetLength (ackLength properties.length) ≤ destination.length := by
      by_contra hbad
      rw [serializeAck_spoiled hchecked hbad] at h
      cases h
    obtain ⟨hlength, hroom⟩ := hroom
    have hpacket := length_reasonAckPacket packetType packetId code hlength
    rw [serializeAck_written hchecked.identified hchecked.allowed hlength
      (by rwa [hpacket]), hpacket] at h
    cases h
    obtain ⟨hshort, hwalk⟩ := validatePublishAckProperties_eq_ok.mp hsection
    have hbody := @length_sectioned packetId properties code hshort
    have hread := readsAsAck_of_body
      (destination.drop (packetLength (ackLength properties.length)))
      (isPublishAck_of_allowed hchecked.allowed) hchecked.identified
      (.sectioned code hshort hwalk) (by rwa [hbody]) (validateAckReasonCode_of_allowed
        hchecked.allowed) hasked (by rwa [hbody])
    rw [hbody] at hread
    rw [reasonAckPacket_eq hshort, List.append_assoc (toBeBytes16 packetId), List.singleton_append]
    exact hread

/-- The serializer takes whatever was read, in a shape that may be another. -/
theorem serializeAck_of_read {packet : PacketInfo} {limits : Limits} {ack : AckInfo}
    (hkind : isPublishAck packet.packetType = true) (h : deserializeAck packet limits = .ok ack)
    (hlength : packet.remainingLength ≤ maxRemainingLength)
    (hcodes : ∀ code ∈ ack.reasonCodes, ackReasonCodeAllowed packet.packetType code = true) :
    ∃ packetId size, ack = ackOf packetId ack.reasonCodes.head? ack.properties ∧
      validatePublishAckProperties ack.properties = .ok () ∧
      ∀ destination : List UInt8, size ≤ destination.length →
        ∃ out, serializeAck packet.packetType packetId ack.reasonCodes.head? ack.properties
          destination = (.ok size, out) := by
  obtain ⟨-, hread, -⟩ := (deserializeAck_eq_ok_of_publish hkind).mp h
  obtain ⟨hinside, -, packetId, hzero, hbody⟩ := deserializePubAcks_eq_ok.mp hread
  have hcut := List.length_take_of_le hinside
  generalize packet.remainingData.take packet.remainingLength = body at hbody hcut
  have hempty : validatePublishAckProperties [] = .ok () := by decide
  have hwritten (code : UInt8) (properties : List UInt8)
      (hallowed : ackReasonCodeAllowed packet.packetType code = true)
      (hle : ackLength properties.length ≤ maxRemainingLength) (destination : List UInt8)
      (hroom : packetLength (ackLength properties.length) ≤ destination.length) :
      ∃ out, serializeAck packet.packetType packetId (some code) properties destination =
        (.ok (packetLength (ackLength properties.length)), out) := by
    have hpacket := length_reasonAckPacket packet.packetType packetId code hle
    rw [← hpacket] at hroom ⊢
    exact ⟨_, serializeAck_written hzero hallowed hle hroom⟩
  cases hbody with
  | bare =>
    refine ⟨packetId, publishAckPacketSize, rfl, hempty, fun destination hroom => ?_⟩
    exact ⟨_, serializeAck_bare_checked ⟨hroom, hzero, fun _ => rfl, hkind, Nat.zero_le _⟩⟩
  | reasoned code =>
    have hallowed := hcodes code List.mem_cons_self
    exact ⟨packetId, packetLength (ackLength 0), rfl, hempty,
      hwritten code [] hallowed (by decide)⟩
  | @sectioned code properties hshort hwalk =>
    have hallowed := hcodes code List.mem_cons_self
    refine ⟨packetId, packetLength (ackLength properties.length), rfl,
      validatePublishAckProperties_eq_ok.mpr ⟨hshort, hwalk⟩, hwritten code properties hallowed ?_⟩
    rw [← length_sectioned hshort, hcut]
    exact hlength

end RoundTrip

/-- The codec of an acknowledgement of a publish, both ways around. -/
theorem ack_codec :
    (∀ packetType packetId reasonCode properties destination written out limits,
      serializeAck packetType packetId reasonCode properties destination = (.ok written, out) →
        validatePublishAckProperties properties = .ok () → limits.requestProblemInfo = true →
          written ≤ limits.maxPacketSize →
            ReadsAsAck limits out written packetType (ackOf packetId reasonCode properties)) ∧
    ∀ packet limits ack, isPublishAck packet.packetType = true →
      packet.remainingLength ≤ maxRemainingLength → deserializeAck packet limits = .ok ack →
        (∀ code ∈ ack.reasonCodes, ackReasonCodeAllowed packet.packetType code = true) →
          ∃ packetId size, ack.packetId = some packetId ∧
            ∀ destination : List UInt8, size ≤ destination.length →
              ∃ out, serializeAck packet.packetType packetId ack.reasonCodes.head? ack.properties
                  destination = (.ok size, out) ∧
                ∀ limits', limits'.requestProblemInfo = true → size ≤ limits'.maxPacketSize →
                  ReadsAsAck limits' out size packet.packetType ack := by
  constructor
  · intro packetType packetId reasonCode properties destination written out limits h hsection hasked
      hwithin
    exact readsAsAck_serializeAck h hsection hasked hwithin
  · intro packet limits ack hkind hlength h hcodes
    obtain ⟨packetId, size, hack, hsection, hwritten⟩ := serializeAck_of_read hkind h hlength hcodes
    refine ⟨packetId, size, by rw [hack]; rfl, fun destination hroom => ?_⟩
    obtain ⟨out, hout⟩ := hwritten destination hroom
    refine ⟨out, hout, fun limits' hasked hwithin => ?_⟩
    rw [hack]
    exact readsAsAck_serializeAck hout hsection hasked hwithin

/-- A PUBREC with a reason code and a user property. -/
theorem pubrec_codec :
    let properties := [PropertyId.userProperty, 0, 1, 97, 0, 1, 98]
    let packet := [Packet.pubrec, 11, 0, 7, 0x10, 7] ++ properties
    ReadsAsAck ⟨13, true⟩ packet 13 Packet.pubrec (ackOf 7 (some 0x10) properties) ∧
      ∃ size out, serializeAck Packet.pubrec 7 (some 0x10) properties (List.replicate size 0) =
          (.ok size, out) ∧
        ReadsAsAck ⟨size, true⟩ out size Packet.pubrec (ackOf 7 (some 0x10) properties) := by
  intro properties packet
  obtain ⟨hreads, hback⟩ := ack_codec
  have hwritten : serializeAck Packet.pubrec 7 (some 0x10) properties (List.replicate 13 0) =
      (.ok 13, packet) := by decide +kernel
  have hread : deserializeAck ⟨Packet.pubrec, 11, packet.drop 2⟩ ⟨13, true⟩ =
      .ok (ackOf 7 (some 0x10) properties) := by decide +kernel
  obtain ⟨packetId, size, hid, hagain⟩ :=
    hback _ _ _ rfl (by decide) hread (by decide +kernel)
  obtain rfl := Option.some.inj hid
  obtain ⟨out, hout, hsame⟩ := hagain (List.replicate size 0) (Nat.le_of_eq
    List.length_replicate.symm)
  exact ⟨hreads _ _ _ _ _ _ _ ⟨13, true⟩ hwritten (by decide +kernel) rfl (Nat.le_refl _), size, out,
    hout, hsame ⟨size, true⟩ rfl (Nat.le_refl _)⟩

/-- A user property with a key as long as keys can be. -/
def userPair (length : ℕ) (h : length ≤ 65535) : Property :=
  Property.user (List.replicate 65535 0) (List.replicate length 0)
    ⟨Nat.le_of_eq List.length_replicate, by rwa [List.length_replicate]⟩

theorem length_userPair {length : ℕ} (h : length ≤ 65535) :
    (userPair length h).encoded.length = 65540 + length := by
  rw [Property.encoded, List.length_cons, userPair, Property.user, PropertyValue.encoded,
    List.length_append, length_prefixed, length_prefixed, List.length_replicate, List.length_replicate]
  omega

theorem takesAll_userPairs {ps : List Property} (h : ∀ p ∈ ps, ∃ n hn, p = userPair n hn)
    (found : Bool) : TakesAll ackProperty found ps found := by
  induction ps with
  | nil => exact .nil found
  | cons p ps ih =>
    obtain ⟨n, hn, rfl⟩ := h p List.mem_cons_self
    refine .cons (fun {r r'} hreads => ?_) (ih fun p hp => h p (List.mem_cons_of_mem _ hp))
    exact Prog.bind_of_ok
      (userProperty_eq_ok.mpr ⟨(userPair n hn).fits, hreads⟩)

def longProperties : List Property :=
  List.replicate 2047 (userPair 65532 (by omega)) ++ [userPair 65525 (by omega)]

theorem length_longSection : (encodedSection longProperties).length = 268435449 := by
  rw [longProperties, encodedSection_append, List.length_append, encodedSection_cons,
    encodedSection_nil, List.append_nil, length_userPair, encodedSection, List.length_flatMap,
    List.map_replicate, List.sum_replicate_nat, length_userPair]

/-- A PUBACK, one byte longer than a packet can be. -/
def longAck : PacketInfo where
  packetType := Packet.puback
  remainingLength := 268435456
  remainingData := toBeBytes16 1 ++ 0 :: sized (encodedSection longProperties)

/-- Lengths that no header carries are read, and not written. -/
theorem longAck_one_way :
    deserializeAck longAck ⟨u32Max, true⟩ =
        .ok (ackOf 1 (some 0) (encodedSection longProperties)) ∧
      isPublishAck longAck.packetType = true ∧
      ackReasonCodeAllowed longAck.packetType 0 = true ∧
      ∀ destination, ¬ ∃ written out, serializeAck longAck.packetType 1 (some 0)
        (encodedSection longProperties) destination = (.ok written, out) := by
  have hsection := length_longSection
  have hshort : (encodedSection longProperties).length ≤ maxRemainingLength := by
    rw [hsection, maxRemainingLength]
    omega
  have hsize : ackLength (encodedSection longProperties).length = 268435456 := by
    rw [hsection]
    rfl
  have hlength : longAck.remainingData.length = 268435456 :=
    (length_sectioned hshort).trans hsize
  refine ⟨?_, rfl, rfl, ?_⟩
  · rw [deserializeAck_eq_ok_of_publish rfl]
    refine ⟨by decide, deserializePubAcks_eq_ok.mpr ⟨Nat.le_of_eq hlength.symm, fun _ => rfl, 1,
      by decide, ?_⟩, rfl⟩
    rw [← show longAck.remainingData.length = longAck.remainingLength from hlength,
      List.take_length]
    have hpairs : ∀ p ∈ longProperties, ∃ n hn, p = userPair n hn := by
      intro p hp
      rw [longProperties, List.mem_append, List.mem_replicate, List.mem_singleton] at hp
      rcases hp with ⟨-, rfl⟩ | rfl
      · exact ⟨_, _, rfl⟩
      · exact ⟨_, _, rfl⟩
    have hwalk := (takesAll_userPairs hpairs false).walk
    exact .sectioned 0 hshort (by rw [walkAckProperties, hwalk]; rfl)
  · rintro destination ⟨written, out, h⟩
    by_cases hchecked : AckChecked longAck.packetType 1 (some 0) (encodedSection longProperties)
        destination
    · rw [serializeAck_spoiled hchecked fun hroom => ?_] at h
      · cases h
      · rw [hsize, maxRemainingLength] at hroom
        omega
    · obtain ⟨e, he⟩ := serializeAck_refused hchecked
      rw [he] at h
      cases h

section Asked

variable {packet : PacketInfo} {maxPacketSize : ℕ} {ack : AckInfo}

structure EmptySection (packet : PacketInfo) (maxPacketSize : ℕ) : Prop where
  length : packet.remainingLength = 4
  within : 6 ≤ maxPacketSize
  body : ∃ packetId code, packetId ≠ 0 ∧ validateAckReasonCode code = .ok () ∧
    packet.remainingData.take 4 = toBeBytes16 packetId ++ [code, 0]

theorem deserializeAck_unasked (hkind : isPublishAck packet.packetType = true) :
    deserializeAck packet ⟨maxPacketSize, false⟩ = .ok ack ↔
      deserializeAck packet ⟨maxPacketSize, true⟩ = .ok ack ∧ packet.remainingLength ≤ 3 := by
  rw [deserializeAck_eq_ok_of_publish hkind, deserializeAck_eq_ok_of_publish hkind,
    deserializePubAcks_eq_ok, deserializePubAcks_eq_ok]
  constructor
  · rintro ⟨hwithin, ⟨hinside, hasked, hbody⟩, hcheck⟩
    refine ⟨⟨hwithin, ⟨hinside, fun _ => rfl, hbody⟩, hcheck⟩, ?_⟩
    by_contra hlong
    exact absurd (hasked (Nat.not_le.mp hlong)) Bool.false_ne_true
  · rintro ⟨⟨hwithin, ⟨hinside, -, hbody⟩, hcheck⟩, hshort⟩
    exact ⟨hwithin, ⟨hinside, fun hlong => absurd hshort (Nat.not_le.mpr hlong), hbody⟩, hcheck⟩

theorem emptySection_or (hkind : isPublishAck packet.packetType = true)
    (h : deserializeAck packet ⟨maxPacketSize, true⟩ = .ok ack) :
    ack.properties = [] ↔ packet.remainingLength ≤ 3 ∨ EmptySection packet maxPacketSize := by
  obtain ⟨hwithin, hread, hcheck⟩ := (deserializeAck_eq_ok_of_publish hkind).mp h
  obtain ⟨hinside, -, packetId, hzero, hbody⟩ := deserializePubAcks_eq_ok.mp hread
  have hcut := List.length_take_of_le hinside
  generalize htaken : packet.remainingData.take packet.remainingLength = body at hbody hcut
  cases hbody with
  | bare => exact ⟨fun _ => .inl (hcut ▸ Nat.le_succ 2), fun _ => rfl⟩
  | reasoned code => exact ⟨fun _ => .inl (Nat.le_of_eq hcut.symm), fun _ => rfl⟩
  | @sectioned code properties hshort _ =>
    have hsize := @length_sectioned packetId properties code hshort
    have hpos := variableLengthEncodedSize_pos properties.length
    rw [hcut, ackLength] at hsize
    constructor
    · rintro hnil
      obtain rfl : properties = [] := hnil
      have hfour : packet.remainingLength = 4 := hsize
      have hempty : sized [] = [0] := by decide
      rw [hfour] at hwithin htaken
      exact .inr ⟨hfour, hwithin, packetId, code, hzero, hcheck, htaken.trans (by rw [hempty])⟩
    · rintro (hle | hempty)
      · omega
      · have hfour := hempty.length
        change properties = []
        exact List.eq_nil_of_length_eq_zero (by omega)

/-- The flag gates properties, and one way of having none. -/
theorem asked_gates_properties_iff (hkind : isPublishAck packet.packetType = true) :
    (∀ ack, deserializeAck packet ⟨maxPacketSize, false⟩ = .ok ack ↔
      deserializeAck packet ⟨maxPacketSize, true⟩ = .ok ack ∧ ack.properties = []) ↔
        ¬ EmptySection packet maxPacketSize := by
  constructor
  · rintro h hempty
    obtain ⟨packetId, code, hzero, hcheck, hbody⟩ := hempty.body
    have hfour := hempty.length
    have hread : deserializeAck packet ⟨maxPacketSize, true⟩ =
        .ok (ackOf packetId (some code) []) := by
      rw [deserializeAck_eq_ok_of_publish hkind, hfour]
      refine ⟨hempty.within, deserializePubAcks_eq_ok.mpr ⟨?_, fun _ => rfl, packetId, hzero, ?_⟩,
        hcheck⟩
      · have hlength := congrArg List.length hbody
        rw [List.length_take, List.length_append] at hlength
        change min 4 packet.remainingData.length = 4 at hlength
        omega
      · have hshape := @PubAckBody.sectioned packetId code [] (Nat.zero_le _) rfl
        have hnone : sized [] = [0] := by decide
        rwa [hfour, hbody, ← hnone]
    have hle := (deserializeAck_unasked hkind).mp ((h _).mpr ⟨hread, rfl⟩)
    omega
  · intro hempty ack
    rw [deserializeAck_unasked hkind]
    refine and_congr_right fun hread => ?_
    rw [emptySection_or hkind hread, or_iff_left hempty]

theorem asked_gates_properties_of_reason :
    isPublishAck Packet.puback = true ∧
      ∀ ack, deserializeAck ⟨Packet.puback, 3, [0, 1, 0x10]⟩ ⟨5, false⟩ = .ok ack ↔
        deserializeAck ⟨Packet.puback, 3, [0, 1, 0x10]⟩ ⟨5, true⟩ = .ok ack ∧ ack.properties = [] :=
  ⟨rfl, (asked_gates_properties_iff rfl).mpr fun h => absurd h.length (by decide)⟩

/-- The client's own six bytes are refused by a client that asked for no problems. -/
theorem six_bytes_refused :
    serializeAck Packet.puback 1 (some 0) [] (List.replicate 6 0) =
        (.ok 6, [Packet.puback, 4, 0, 1, 0, 0]) ∧
      deserializeAck ⟨Packet.puback, 4, [0, 1, 0, 0]⟩ ⟨6, true⟩ = .ok (ackOf 1 (some 0) []) ∧
      deserializeAck ⟨Packet.puback, 4, [0, 1, 0, 0]⟩ ⟨6, false⟩ = .error .badResponse := by
  decide +kernel

end Asked

end RtosMqtt
