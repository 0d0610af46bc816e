import RtosMqtt.Wire.Accepted
import RtosMqtt.Wire.Connect

/-! # A PUBLISH, there and back

A PUBLISH that the client writes and one that it reads have one layout: the
topic, the identifier above QoS 0, the properties and the payload, which has no
length of its own. What is written reads back, and what is accepted is written
again byte for byte.
-/

namespace RtosMqtt

open Writing

/-- The checks of the two strict serializers. -/
def validateStrict (publish : OutgoingPublish) (packetId : UInt16) (remainingLength : ℕ) :
    Except EncodeError Unit := do
  refuseIf (publish.topicName = []) .badParameter
  refuseIf (u16Max < publish.topicName.length) .badParameter
  refuseIf (publish.qos ≠ .atMostOnce ∧ packetId = 0) .badParameter
  refuseIf (publish.dup ∧ publish.qos = .atMostOnce) .badParameter
  refuseIf (remainingLengthInvalid ≤ remainingLength) .badParameter

def putPublishId (qos : QoS) (packetId : UInt16) (start : ℕ) : Serializing ℕ :=
  if qos ≠ .atMostOnce then do
    writeAt .noMemory start (toBeBytes16 packetId)
    pure (start + 2)
  else pure start

def putPublishSection (properties : List UInt8) (start : ℕ) : Serializing ℕ := do
  Prog.refuse (u32Max < properties.length) .badParameter
  putSection start properties properties.length

def putPayload (payload : List UInt8) (start : ℕ) : Serializing ℕ :=
  if payload ≠ [] then do
    writeAt .noMemory start payload
    pure (start + payload.length)
  else pure start

/-- The payload goes in only when it is asked for. -/
def serializeCommon (publish : OutgoingPublish) (packetId : UInt16) (remainingLength : ℕ)
    (withPayload : Bool) : Serializing ℕ := do
  writeAt .noMemory 0 [publishFlags publish]
  let encoded ← encodeAt .noMemory 1 remainingLength
  Prog.refuse (encoded = 0) .noMemory
  let start ← putString publish.topicName (1 + encoded)
  let start ← putPublishId publish.qos packetId start
  let start ← putPublishSection publish.properties start
  if withPayload then putPayload publish.payload start else pure start

def serializePublish (publish : OutgoingPublish) (packetId : UInt16) (remainingLength : ℕ) :
    Serializing ℕ := do
  Prog.lift (validateStrict publish packetId remainingLength)
  Prog.refuse (maxRemainingLength < publish.properties.length) .badParameter
  let destination ← Prog.get
  Prog.refuse (destination.length < wholePacketSize remainingLength) .noMemory
  serializeCommon publish packetId remainingLength true

/-- The size of the header is computed from the remaining length, not from what was written. -/
def serializePublishHeader (publish : OutgoingPublish) (packetId : UInt16)
    (remainingLength : ℕ) : Serializing ℕ := do
  Prog.lift (validateStrict publish packetId remainingLength)
  Prog.refuse (u32Max < publish.payload.length) .badParameter
  Prog.refuse (remainingLength < publish.payload.length) .badParameter
  let destination ← Prog.get
  Prog.refuse (destination.length < wholePacketSize remainingLength - publish.payload.length)
    .noMemory
  let _ ← serializeCommon publish packetId remainingLength false
  pure (wholePacketSize remainingLength - publish.payload.length)

def idBytes (packetId : Option UInt16) : List UInt8 := packetId.elim [] toBeBytes16

def publishBody (topicName : List UInt8) (packetId : Option UInt16)
    (properties payload : List UInt8) : List UInt8 :=
  prefixed topicName ++ (idBytes packetId ++ (sized properties ++ payload))

/-- A PUBLISH has an identifier above QoS 0, and it is not zero. -/
def IdFits (qos : QoS) (packetId : Option UInt16) : Prop :=
  if qos = .atMostOnce then packetId = none else ∃ n, n ≠ 0 ∧ packetId = some n

theorem length_idBytes {qos : QoS} {packetId : Option UInt16} (h : IdFits qos packetId) :
    (idBytes packetId).length = packetIdCost qos := by
  rw [IdFits] at h
  rw [packetIdCost]
  split_ifs at h ⊢ with hqos
  · rw [h]
    rfl
  · obtain ⟨n, -, rfl⟩ := h
    rfl

theorem length_publishBody {qos : QoS} {topicName properties payload : List UInt8}
    {packetId : Option UInt16} (h : IdFits qos packetId)
    (hproperties : properties.length ≤ maxRemainingLength) :
    (publishBody topicName packetId properties payload).length =
      topicName.length + 2 + packetIdCost qos + variableLengthEncodedSize properties.length +
        properties.length + payload.length := by
  rw [publishBody, List.length_append, List.length_append, List.length_append, length_prefixed,
    length_sized hproperties, length_idBytes h]
  omega

/-- An incoming PUBLISH as one that could be sent. -/
def PublishInfo.outgoing (publish : PublishInfo) : OutgoingPublish where
  qos := publish.qos
  dup := publish.dup
  retain := publish.retain
  topicName := publish.topicName
  payload := publish.payload
  properties := publish.properties

structure Publishes (packet : PacketInfo) (maxPacketSize : ℕ) (topicAliasMax : UInt16)
    (publish : PublishInfo) : Prop where
  flags : packet.packetType = publishFlags publish.outgoing
  allowed : packet.remainingLength ≤ maxRemainingLength
  within : 1 + variableLengthEncodedSize packet.remainingLength + packet.remainingLength ≤
    maxPacketSize
  floor : 4 + packetIdCost publish.qos ≤ packet.remainingLength
  inside : packet.remainingLength ≤ packet.remainingData.length
  body : packet.remainingData.take packet.remainingLength =
    publishBody publish.topicName publish.packetId publish.properties publish.payload
  topic : publish.topicName.length ≤ u16Max
  id : IdFits publish.qos publish.packetId
  walk : walkPublishProperties publish.properties publish.properties.length topicAliasMax = .ok ()

theorem wholePacketSize_of_le {n : ℕ} (h : n + 5 ≤ u32Max) :
    wholePacketSize n = 1 + variableLengthEncodedSize n + n := by
  have hsize := variableLengthEncodedSize_le n
  have hinner : satAdd n (variableLengthEncodedSize n) = n + variableLengthEncodedSize n :=
    satAdd_of_le (by omega)
  rw [wholePacketSize, hinner, satAdd_of_le (by omega)]
  omega

theorem wholePacketSize_eq {n : ℕ} (h : n ≤ maxRemainingLength) :
    wholePacketSize n = 1 + variableLengthEncodedSize n + n := by
  rw [maxRemainingLength] at h
  exact wholePacketSize_of_le (by rw [u32Max]; omega)

theorem processPublishFlags_eq_ok {packetType : UInt8} {publish : OutgoingPublish}
    (h : packetType &&& 0xF0 = Packet.publish) :
    processPublishFlags (packetType &&& 0x0F) = .ok (publish.qos, publish.dup, publish.retain) ↔
      packetType = publishFlags publish := by
  obtain ⟨qos, dup, retain, topicName, payload, properties⟩ := publish
  have hall : ∀ t : Fin 256, UInt8.ofFin t &&& 0xF0 = Packet.publish →
      ∀ qos ∈ [QoS.atMostOnce, .atLeastOnce, .exactlyOnce], ∀ dup retain : Bool,
        (processPublishFlags (UInt8.ofFin t &&& 0x0F) = .ok (qos, dup, retain) ↔
          UInt8.ofFin t = publishFlags ⟨qos, dup, retain, [], [], []⟩) := by
    decide +kernel
  exact hall packetType.toFin h qos (by cases qos <;> decide) dup retain

theorem publishFlags_and (publish : OutgoingPublish) :
    publishFlags publish &&& 0xF0 = Packet.publish := by
  obtain ⟨qos, dup, retain, topicName, payload, properties⟩ := publish
  have hall : ∀ qos ∈ [QoS.atMostOnce, .atLeastOnce, .exactlyOnce], ∀ dup retain : Bool,
      publishFlags ⟨qos, dup, retain, [], [], []⟩ &&& 0xF0 = Packet.publish := by
    decide
  exact hall qos (by cases qos <;> decide) dup retain

theorem packetIdCost_le (qos : QoS) : packetIdCost qos ≤ 2 := by
  unfold packetIdCost
  split_ifs <;> omega

theorem checkRemainingLength_eq_ok {remainingLength minimum : ℕ} {qos : QoS}
    (h : minimum + 2 ≤ u32Max) :
    checkRemainingLength remainingLength qos minimum = .ok () ↔
      minimum + packetIdCost qos ≤ remainingLength := by
  have hcost := packetIdCost_le qos
  rw [checkRemainingLength, refuseIf_eq_ok, satAdd_of_le (by omega), Nat.not_lt]

theorem orBadResponse_fromBeBytes16 {bytes : List UInt8} {n : UInt16} :
    orBadResponse (fromBeBytes16 bytes) = .ok n ↔ bytes = toBeBytes16 n := by
  rw [← fromBeBytes16_eq_some]
  cases fromBeBytes16 bytes with
  | none => exact ⟨nofun, nofun⟩
  | some m =>
    rw [orBadResponse, Except.ok.injEq, Option.some.injEq]

theorem bounded_next {before bytes rest : List UInt8} {start length : ℕ}
    (hstart : before.length = start) (hlength : bytes.length = length) :
    bounded (before ++ (bytes ++ rest)) start length = .ok bytes := by
  subst hstart hlength
  refine bounded_eq_ok.mpr ⟨?_, ?_⟩
  · rw [List.length_append, List.length_append]
    omega
  · rw [List.drop_left, List.take_left]

theorem bounded_toBeBytes16 {data bytes : List UInt8} {start : ℕ} {n : UInt16}
    (h : bytes = toBeBytes16 n) :
    bounded data start 2 = .ok bytes ↔ (data.drop start).take 2 = bytes := by
  rw [bounded_eq_ok]
  constructor
  · exact fun hbytes => hbytes.2.symm
  · intro hbytes
    have htwo : bytes.length = 2 := by rw [h]; rfl
    rw [← hbytes, List.length_take, List.length_drop] at htwo
    exact ⟨by omega, hbytes.symm⟩

theorem readPublishId_eq_ok {packet : PacketInfo} {qos : QoS} {start : ℕ}
    {packetId : Option UInt16} :
    readPublishId packet qos start = .ok packetId ↔
      IdFits qos packetId ∧
        (packet.remainingData.drop start).take (packetIdCost qos) = idBytes packetId := by
  rw [readPublishId, IdFits, packetIdCost]
  split_ifs with hqos
  · constructor
    · intro h
      cases h
      exact ⟨rfl, rfl⟩
    · rintro ⟨rfl, -⟩
      rfl
  · constructor
    · intro h
      rw [except_bind_eq_ok] at h
      obtain ⟨bytes, hbytes, h⟩ := h
      rw [except_bind_eq_ok] at h
      obtain ⟨n, hn, h⟩ := h
      rw [refuseIf_bind_eq_ok] at h
      obtain ⟨hzero, h⟩ := h
      cases h
      rw [orBadResponse_fromBeBytes16] at hn
      exact ⟨⟨n, hzero, rfl⟩, ((bounded_toBeBytes16 hn).mp hbytes).trans hn⟩
    · rintro ⟨⟨n, hzero, rfl⟩, hbytes⟩
      rw [except_bind_eq_ok]
      refine ⟨toBeBytes16 n, (bounded_toBeBytes16 rfl).mpr hbytes, ?_⟩
      rw [except_bind_eq_ok]
      refine ⟨n, orBadResponse_fromBeBytes16.mpr rfl, ?_⟩
      rw [refuseIf_bind_eq_ok]
      exact ⟨hzero, rfl⟩

/-- The section, when the packet is long enough for what is in front of it. -/
theorem readPublishProperties_eq_ok {packet : PacketInfo} {qos : QoS}
    {topicNameLength topicAliasMax : UInt16} {properties : List UInt8} {propertyLength : ℕ}
    (hlong : topicNameLength.toNat + 2 + packetIdCost qos ≤ packet.remainingLength) :
    readPublishProperties packet (topicNameLength.toNat + 2 + packetIdCost qos) qos
        topicNameLength topicAliasMax = .ok (properties, propertyLength) ↔
      packet.remainingLength ≤ packet.remainingData.length ∧
        propertyLength = properties.length ∧ properties.length ≤ maxRemainingLength ∧
        sized properties <+: (packet.remainingData.drop
          (topicNameLength.toNat + 2 + packetIdCost qos)).take
            (packet.remainingLength - (topicNameLength.toNat + 2 + packetIdCost qos)) ∧
        walkPublishProperties properties properties.length topicAliasMax = .ok () := by
  have htopic := topicNameLength.toNat_lt
  have hcost := packetIdCost_le qos
  have htopicCost : satAdd topicNameLength.toNat 2 = topicNameLength.toNat + 2 :=
    satAdd_of_le (by rw [u32Max]; omega)
  have hleft : packet.remainingLength - (topicNameLength.toNat + 2) - packetIdCost qos =
      packet.remainingLength - (topicNameLength.toNat + 2 + packetIdCost qos) := by omega
  rw [readPublishProperties]
  dsimp only
  rw [htopicCost, refuseIf_bind_eq_ok, refuseIf_bind_eq_ok, hleft, except_bind_eq_ok]
  generalize hstart : topicNameLength.toNat + 2 + packetIdCost qos = start at hlong
  constructor
  · rintro ⟨-, -, sectionBytes, hsection, h⟩
    rw [except_bind_eq_ok] at h
    obtain ⟨n, hn, h⟩ := h
    rw [except_bind_eq_ok] at h
    obtain ⟨_, -, h⟩ := h
    rw [except_bind_eq_ok] at h
    obtain ⟨bytes, hbytes, h⟩ := h
    rw [except_bind_eq_ok] at h
    obtain ⟨_, hwalk, h⟩ := h
    cases h
    obtain ⟨hinside, rfl⟩ := bounded_eq_ok.mp hsection
    obtain ⟨hmax, rest, hrest⟩ := PropertyReader.decodeVariableLength_eq_ok.mp hn
    obtain ⟨hfits, htaken⟩ := bounded_eq_ok.mp hbytes
    have hsame : properties.length = propertyLength := by
      rw [htaken, List.length_take, List.length_drop]
      omega
    subst hsame
    refine ⟨by omega, rfl, hmax, ?_, hwalk⟩
    rw [← hrest, List.drop_left' (length_encodedLength hmax)] at htaken
    rw [← hrest, sized, List.prefix_append_right_inj, htaken]
    exact List.take_prefix _ _
  · rintro ⟨hinside, rfl, hmax, ⟨rest, hrest⟩, hwalk⟩
    have hfits := congrArg List.length hrest
    rw [List.length_append, length_sized hmax, List.length_take, List.length_drop] at hfits
    refine ⟨by omega, by omega, _, bounded_eq_ok.mpr ⟨by omega, rfl⟩, ?_⟩
    rw [← hrest, except_bind_eq_ok]
    refine ⟨properties.length, PropertyReader.decodeVariableLength_eq_ok.mpr ⟨hmax, ?_⟩, ?_⟩
    · rw [sized, List.append_assoc]
      exact List.prefix_append _ _
    have hsize := variableLengthEncodedSize_le properties.length
    have hsmall : properties.length ≤ 268435455 := hmax
    have hinner : satAdd (topicNameLength.toNat + 2) properties.length =
        topicNameLength.toNat + 2 + properties.length := satAdd_of_le (by rw [u32Max]; omega)
    have htotal : satAdd (topicNameLength.toNat + 2 + properties.length)
        (variableLengthEncodedSize properties.length) = topicNameLength.toNat + 2 +
          properties.length + variableLengthEncodedSize properties.length :=
      satAdd_of_le (by rw [u32Max]; omega)
    rw [hinner, htotal, except_bind_eq_ok]
    refine ⟨(), (checkRemainingLength_eq_ok (by rw [u32Max]; omega)).mpr (by omega), ?_⟩
    rw [except_bind_eq_ok]
    refine ⟨properties, ?_, ?_⟩
    · rw [sized, List.append_assoc]
      exact bounded_next (length_encodedLength hmax) rfl
    rw [except_bind_eq_ok]
    exact ⟨(), hwalk, rfl⟩

theorem consumed_eq (topicNameLength : UInt16) (qos : QoS) {propertyLength : ℕ}
    (h : propertyLength ≤ maxRemainingLength) :
    satAdd (satAdd (satAdd (satAdd topicNameLength.toNat 2) propertyLength)
        (variableLengthEncodedSize propertyLength)) (packetIdCost qos) =
      topicNameLength.toNat + 2 + propertyLength + variableLengthEncodedSize propertyLength +
        packetIdCost qos := by
  have htopic := topicNameLength.toNat_lt
  have hcost := packetIdCost_le qos
  have hsize := variableLengthEncodedSize_le propertyLength
  have hsum {a b : ℕ} (hab : a + b ≤ 4294967295) : satAdd a b = a + b := satAdd_of_le hab
  rw [maxRemainingLength] at h
  simp (disch := omega) only [hsum]

theorem publishes_of_deserializePublish {packet : PacketInfo} {maxPacketSize : ℕ}
    {topicAliasMax : UInt16} {publish : PublishInfo}
    (h : deserializePublish packet maxPacketSize topicAliasMax = .ok publish) :
    Publishes packet maxPacketSize topicAliasMax publish := by
  rw [deserializePublish, refuseIf_bind_eq_ok, refuseIf_bind_eq_ok, refuseIf_bind_eq_ok,
    except_bind_eq_ok] at h
  obtain ⟨htype, hvalid, hwithin, ⟨qos, dup, retain⟩, hflags, h⟩ := h
  dsimp only at h
  rw [except_bind_eq_ok] at h
  obtain ⟨_, hfloor, h⟩ := h
  rw [except_bind_eq_ok] at h
  obtain ⟨lengthBytes, hlengthBytes, h⟩ := h
  rw [except_bind_eq_ok] at h
  obtain ⟨topicNameLength, htopicLength, h⟩ := h
  rw [except_bind_eq_ok] at h
  obtain ⟨_, hshort, h⟩ := h
  rw [except_bind_eq_ok] at h
  obtain ⟨topicName, htopicName, h⟩ := h
  rw [except_bind_eq_ok] at h
  obtain ⟨packetId, hid, h⟩ := h
  rw [except_bind_eq_ok] at h
  obtain ⟨⟨properties, propertyLength⟩, hproperties, h⟩ := h
  dsimp only at h
  rw [except_bind_eq_ok] at h
  obtain ⟨payload, hpayload, h⟩ := h
  cases h
  have htopic := topicNameLength.toNat_lt
  have hmax : packet.remainingLength ≤ maxRemainingLength := by
    rw [maxRemainingLength]
    rw [remainingLengthInvalid] at hvalid
    omega
  rw [checkRemainingLength_eq_ok (by decide)] at hfloor
  have hfour : satAdd topicNameLength.toNat 3 = topicNameLength.toNat + 3 :=
    satAdd_of_le (by rw [u32Max]; omega)
  rw [hfour, checkRemainingLength_eq_ok (by rw [u32Max]; omega)] at hshort
  obtain ⟨hinside, rfl, hpropertiesMax, hsection, hwalk⟩ :=
    (readPublishProperties_eq_ok (by omega)).mp hproperties
  obtain ⟨hidFits, hidBytes⟩ := readPublishId_eq_ok.mp hid
  rw [consumed_eq _ _ hpropertiesMax] at hpayload
  obtain ⟨-, hpayload⟩ := bounded_eq_ok.mp hpayload
  obtain ⟨htopicInside, htopicName⟩ := bounded_eq_ok.mp htopicName
  have htopicSize : topicName.length = topicNameLength.toNat := by
    rw [htopicName, List.length_take, List.length_drop]
    omega
  rw [orBadResponse_fromBeBytes16] at htopicLength
  have hprefix := (bounded_toBeBytes16 htopicLength).mp hlengthBytes
  refine ⟨(processPublishFlags_eq_ok (not_not.mp htype)).mp hflags, hmax, ?_, hfloor, hinside, ?_,
    ?_, hidFits, hwalk⟩
  · rw [wholePacketSize_eq hmax] at hwithin
    omega
  · have hsectionSize := length_sized hpropertiesMax
    have hsectionFits := hsection.length_le
    rw [List.length_take, List.length_drop] at hsectionFits
    have hparts : packet.remainingLength = 2 + (topicNameLength.toNat + (packetIdCost qos +
        ((sized properties).length + (packet.remainingLength -
          (topicNameLength.toNat + 2 + properties.length +
            variableLengthEncodedSize properties.length + packetIdCost qos))))) := by omega
    have hprefixed : prefixed topicName = toBeBytes16 topicNameLength ++ topicName := by
      rw [prefixed, htopicSize, Nat.toUInt16_eq, UInt16.ofNat_toNat]
    have htaken : (packet.remainingData.drop (topicNameLength.toNat + 2 + packetIdCost qos)).take
        (sized properties).length = sized properties := by
      have htake := List.prefix_iff_eq_take.mp hsection
      rw [List.take_take, Nat.min_eq_left (by omega)] at htake
      exact htake.symm
    rw [hparts, List.take_add, List.take_add, List.take_add, List.take_add, List.drop_drop,
      List.drop_drop, List.drop_drop, publishBody, hprefixed, ← htopicLength, ← hprefix,
      List.append_assoc, ← htopicName, Nat.add_comm 2, hidBytes, htaken, hsectionSize,
      ← Nat.add_assoc, ← hpayload, List.drop_zero]
  · rw [u16Max]
    dsimp only
    omega

theorem Publishes.properties_le {packet : PacketInfo} {maxPacketSize : ℕ} {topicAliasMax : UInt16}
    {publish : PublishInfo} (h : Publishes packet maxPacketSize topicAliasMax publish) :
    publish.properties.length ≤ maxRemainingLength := by
  have hbody := congrArg List.length h.body
  rw [List.length_take, Nat.min_eq_left h.inside, publishBody, List.length_append,
    List.length_append, List.length_append, sized, List.length_append] at hbody
  have hmax := h.allowed
  omega

theorem Publishes.remainingLength_eq {packet : PacketInfo} {maxPacketSize : ℕ}
    {topicAliasMax : UInt16} {publish : PublishInfo}
    (h : Publishes packet maxPacketSize topicAliasMax publish) :
    packet.remainingLength = publish.topicName.length + 2 + packetIdCost publish.qos +
      variableLengthEncodedSize publish.properties.length + publish.properties.length +
        publish.payload.length := by
  have hbody := congrArg List.length h.body
  rwa [List.length_take, Nat.min_eq_left h.inside, length_publishBody h.id h.properties_le] at hbody

theorem deserializePublish_of_publishes {packet : PacketInfo} {maxPacketSize : ℕ}
    {topicAliasMax : UInt16} {publish : PublishInfo}
    (h : Publishes packet maxPacketSize topicAliasMax publish) :
    deserializePublish packet maxPacketSize topicAliasMax = .ok publish := by
  have hsum := h.remainingLength_eq
  have hpropertiesMax := h.properties_le
  have hsizePos := variableLengthEncodedSize_pos publish.properties.length
  have htopic : publish.topicName.length ≤ 65535 := h.topic
  have hmax := h.allowed
  rw [maxRemainingLength] at hmax
  have htopicSize : publish.topicName.length.toUInt16.toNat = publish.topicName.length :=
    PropertyReader.toNat_length_toUInt16 h.topic
  obtain ⟨tail, hdata⟩ : ∃ tail, packet.remainingData =
      toBeBytes16 publish.topicName.length.toUInt16 ++ (publish.topicName ++
        (idBytes publish.packetId ++ (sized publish.properties ++ (publish.payload ++ tail)))) := by
    have hcut := List.take_append_drop packet.remainingLength packet.remainingData
    rw [h.body, publishBody, prefixed] at hcut
    simp only [List.append_assoc] at hcut
    exact ⟨_, hcut.symm⟩
  have htwo : (toBeBytes16 publish.topicName.length.toUInt16).length = 2 := rfl
  rw [deserializePublish, h.flags, publishFlags_and, refuseIf_bind_eq_ok, refuseIf_bind_eq_ok,
    refuseIf_bind_eq_ok, except_bind_eq_ok]
  refine ⟨not_not.mpr rfl, by rw [remainingLengthInvalid]; omega, ?_,
    ⟨publish.qos, publish.dup, publish.retain⟩,
    (processPublishFlags_eq_ok (publishFlags_and _)).mpr rfl, ?_⟩
  · rw [wholePacketSize_eq h.allowed]
    exact Nat.not_lt.mpr h.within
  dsimp only
  rw [except_bind_eq_ok]
  refine ⟨(), (checkRemainingLength_eq_ok (by decide)).mpr h.floor, ?_⟩
  rw [except_bind_eq_ok]
  refine ⟨toBeBytes16 publish.topicName.length.toUInt16, ?_, ?_⟩
  · rw [hdata]
    exact (bounded_toBeBytes16 rfl).mpr rfl
  rw [except_bind_eq_ok]
  refine ⟨publish.topicName.length.toUInt16, orBadResponse_fromBeBytes16.mpr rfl, ?_⟩
  have hthree : satAdd publish.topicName.length 3 = publish.topicName.length + 3 :=
    satAdd_of_le (by rw [u32Max]; omega)
  rw [htopicSize, hthree, except_bind_eq_ok]
  refine ⟨(), (checkRemainingLength_eq_ok (by rw [u32Max]; omega)).mpr (by omega), ?_⟩
  rw [except_bind_eq_ok]
  refine ⟨publish.topicName, ?_, ?_⟩
  · rw [hdata]
    exact bounded_next htwo rfl
  have hafterTopic : (toBeBytes16 publish.topicName.length.toUInt16 ++ publish.topicName).length =
      publish.topicName.length + 2 := by
    rw [List.length_append, htwo, Nat.add_comm]
  rw [except_bind_eq_ok]
  refine ⟨publish.packetId, readPublishId_eq_ok.mpr ⟨h.id, ?_⟩, ?_⟩
  · rw [hdata, ← List.append_assoc, List.drop_left' hafterTopic,
      List.take_left' (length_idBytes h.id)]
  have hafterId : (toBeBytes16 publish.topicName.length.toUInt16 ++ publish.topicName ++
      idBytes publish.packetId).length =
        publish.topicName.length + 2 + packetIdCost publish.qos := by
    rw [List.length_append, hafterTopic, length_idBytes h.id]
  have hrest : packet.remainingData.drop
      (publish.topicName.length + 2 + packetIdCost publish.qos) =
        sized publish.properties ++ (publish.payload ++ tail) := by
    rw [hdata, ← List.append_assoc, ← List.append_assoc, List.drop_left' hafterId]
  have hread : readPublishProperties packet
      (publish.topicName.length.toUInt16.toNat + 2 + packetIdCost publish.qos) publish.qos
      publish.topicName.length.toUInt16 topicAliasMax =
        .ok (publish.properties, publish.properties.length) := by
    rw [readPublishProperties_eq_ok (by omega), htopicSize, hrest]
    refine ⟨h.inside, rfl, hpropertiesMax, ?_, h.walk⟩
    have hsized := length_sized hpropertiesMax
    rw [List.take_append, List.take_of_length_le (by omega)]
    exact List.prefix_append _ _
  rw [htopicSize] at hread
  rw [except_bind_eq_ok]
  refine ⟨_, hread, ?_⟩
  have hconsumed := consumed_eq publish.topicName.length.toUInt16 publish.qos hpropertiesMax
  rw [htopicSize] at hconsumed
  dsimp only
  rw [hconsumed, except_bind_eq_ok]
  refine ⟨publish.payload, ?_, rfl⟩
  have hbefore : (toBeBytes16 publish.topicName.length.toUInt16 ++ publish.topicName ++
      idBytes publish.packetId ++ sized publish.properties).length =
        publish.topicName.length + 2 + packetIdCost publish.qos +
          variableLengthEncodedSize publish.properties.length + publish.properties.length := by
    rw [List.length_append, hafterId, length_sized hpropertiesMax]
    exact (Nat.add_assoc _ _ _).symm
  rw [hdata, ← List.append_assoc, ← List.append_assoc, ← List.append_assoc]
  exact bounded_next hbefore (by omega)

theorem deserializePublish_eq_ok {packet : PacketInfo} {maxPacketSize : ℕ}
    {topicAliasMax : UInt16} {publish : PublishInfo} :
    deserializePublish packet maxPacketSize topicAliasMax = .ok publish ↔
      Publishes packet maxPacketSize topicAliasMax publish :=
  ⟨publishes_of_deserializePublish, deserializePublish_of_publishes⟩

def publishLength (publish : OutgoingPublish) : ℕ :=
  publish.topicName.length + 2 + packetIdCost publish.qos +
    variableLengthEncodedSize publish.properties.length + publish.properties.length +
      publish.payload.length

structure OutgoingPublish.Fits (publish : OutgoingPublish) : Prop where
  topic : publish.topicName.length ≤ u16Max
  length : publishLength publish ≤ maxRemainingLength

theorem OutgoingPublish.Fits.properties_le {publish : OutgoingPublish} (h : publish.Fits) :
    publish.properties.length ≤ maxRemainingLength := by
  have hlength := h.length
  rw [publishLength] at hlength
  omega

theorem publishPacketSize_eq_ok_iff {publish : OutgoingPublish} {maxPacketSize : ℕ}
    {size : PacketSize} :
    publishPacketSize publish maxPacketSize = .ok size ↔
      publish.Fits ∧ wholePacketSize (publishLength publish) ≤ maxPacketSize ∧
        size = ⟨publishLength publish, wholePacketSize (publishLength publish)⟩ := by
  have hsize := variableLengthEncodedSize_le publish.properties.length
  have hcost := packetIdCost_le publish.qos
  have hsum {a b : ℕ} (hab : a + b ≤ 4294967295) : satAdd a b = a + b := satAdd_of_le hab
  simp only [publishPacketSize, refuseIf_bind_eq_ok, pure, Except.pure, Except.ok.injEq]
  simp only [Nat.not_lt, Nat.not_le, u16Max, u32Max, maxRemainingLength, remainingLengthInvalid]
  constructor
  · rintro ⟨-, hproperties, htopic, -, hpayload, hbudget, hrest, hwithin, rfl⟩
    simp (disch := omega) only [hsum] at hbudget hrest hwithin ⊢
    have hlength : publish.topicName.length + 2 + packetIdCost publish.qos +
        variableLengthEncodedSize publish.properties.length + publish.properties.length +
          publish.payload.length = publishLength publish := rfl
    rw [hlength] at hwithin ⊢
    refine ⟨⟨htopic, ?_⟩, hwithin, rfl⟩
    rw [← hlength, maxRemainingLength]
    omega
  · rintro ⟨⟨htopic, hlength⟩, hwithin, rfl⟩
    rw [u16Max] at htopic
    rw [publishLength, maxRemainingLength] at hlength
    simp (disch := omega) only [hsum]
    exact ⟨by omega, by omega, htopic, by omega, by omega, by omega, by omega, hwithin, rfl⟩

def sentId (qos : QoS) (packetId : UInt16) : Option UInt16 :=
  if qos = .atMostOnce then none else some packetId

theorem appends_putPublishId (qos : QoS) (packetId : UInt16) :
    Appends (putPublishId qos packetId) (idBytes (sentId qos packetId)) := by
  intro before rest hroom
  rw [putPublishId]
  rw [sentId] at hroom ⊢
  by_cases hqos : qos = .atMostOnce
  · rw [if_pos hqos] at hroom ⊢
    rw [if_neg (not_not.mpr hqos)]
    exact appends_pure before rest hroom
  · rw [if_neg hqos] at hroom ⊢
    rw [if_pos hqos]
    exact appends_writeAt (toBeBytes16 packetId) before rest hroom

theorem appends_putPublishSection {properties : List UInt8}
    (h : properties.length ≤ maxRemainingLength) :
    Appends (putPublishSection properties) (sized properties) := by
  intro before rest hroom
  rw [maxRemainingLength] at h
  rw [putPublishSection, Prog.refuse_bind_of_not (by rw [u32Max]; omega)]
  exact appends_putSection h before rest hroom

theorem appends_putPayload (payload : List UInt8) : Appends (putPayload payload) payload := by
  intro before rest hroom
  rw [putPayload]
  split_ifs with hnil
  · exact appends_writeAt payload before rest hroom
  · obtain rfl := not_not.mp hnil
    exact appends_pure before rest hroom

def publishPacket (publish : OutgoingPublish) (packetId : UInt16) : List UInt8 :=
  [publishFlags publish] ++ (encodedLength (publishLength publish) ++
    publishBody publish.topicName (sentId publish.qos packetId) publish.properties publish.payload)

structure OutgoingPublish.Strict (publish : OutgoingPublish) (packetId : UInt16) : Prop where
  named : publish.topicName ≠ []
  identified : publish.qos ≠ .atMostOnce → packetId ≠ 0
  fresh : publish.qos = .atMostOnce → publish.dup = false

theorem idFits_sentId {publish : OutgoingPublish} {packetId : UInt16}
    (h : publish.Strict packetId) : IdFits publish.qos (sentId publish.qos packetId) := by
  rw [IdFits, sentId]
  split_ifs with hqos
  · rfl
  · exact ⟨packetId, h.identified hqos, rfl⟩

theorem validateStrict_eq_ok {publish : OutgoingPublish} {packetId : UInt16}
    (h : publish.Strict packetId) (hfits : publish.Fits) :
    validateStrict publish packetId (publishLength publish) = .ok () := by
  have hlength := hfits.length
  rw [maxRemainingLength] at hlength
  rw [validateStrict, refuseIf_bind_eq_ok, refuseIf_bind_eq_ok, refuseIf_bind_eq_ok,
    refuseIf_bind_eq_ok, refuseIf_eq_ok, remainingLengthInvalid]
  refine ⟨h.named, Nat.not_lt.mpr hfits.topic, fun hid => h.identified hid.1 hid.2, ?_, by omega⟩
  rintro ⟨hdup, hqos⟩
  rw [h.fresh hqos] at hdup
  cases hdup

theorem length_publishPacket {publish : OutgoingPublish} {packetId : UInt16}
    (h : publish.Strict packetId) (hfits : publish.Fits) :
    (publishPacket publish packetId).length = wholePacketSize (publishLength publish) := by
  rw [publishPacket, List.length_append, List.length_append, length_encodedLength hfits.length,
    length_publishBody (idFits_sentId h) hfits.properties_le, wholePacketSize_eq hfits.length,
    List.length_singleton, ← publishLength, Nat.add_assoc]

def publishFront (publish : OutgoingPublish) (packetId : UInt16) : List UInt8 :=
  [publishFlags publish] ++ encodedLength (publishLength publish) ++
    (prefixed publish.topicName ++ (idBytes (sentId publish.qos packetId) ++
      sized publish.properties))

theorem publishPacket_eq_front (publish : OutgoingPublish) (packetId : UInt16) :
    publishPacket publish packetId = publishFront publish packetId ++ publish.payload := by
  simp only [publishPacket, publishFront, publishBody, List.append_assoc]

/-- With room for it the packet is laid down, with its payload or up to it. -/
theorem serializeCommon_eq {publish : OutgoingPublish} (packetId : UInt16) (hfits : publish.Fits)
    (withPayload : Bool) (destination : List UInt8)
    (hroom : (publishFront publish packetId ++
      if withPayload then publish.payload else []).length ≤ destination.length) :
    serializeCommon publish packetId (publishLength publish) withPayload destination =
      (.ok (publishFront publish packetId ++ if withPayload then publish.payload else []).length,
        publishFront publish packetId ++ (if withPayload then publish.payload else []) ++
          destination.drop (publishFront publish packetId ++
            if withPayload then publish.payload else []).length) := by
  have hpos := variableLengthEncodedSize_pos (publishLength publish)
  have hstart : ([publishFlags publish] ++ encodedLength (publishLength publish)).length =
      1 + variableLengthEncodedSize (publishLength publish) := by
    rw [List.length_append, length_encodedLength hfits.length, List.length_singleton]
  have hwhole : 1 + variableLengthEncodedSize (publishLength publish) ≤ destination.length := by
    rw [publishFront, List.length_append, List.length_append, hstart] at hroom
    omega
  have hput := writeAt_append EncodeError.noMemory [] destination [publishFlags publish]
    (by rw [List.length_singleton]; omega)
  have hlength := encodeAt_append EncodeError.noMemory [publishFlags publish]
    (destination.drop 1) hfits.length (by rw [List.length_drop]; omega)
  rw [List.length_nil, List.nil_append, List.nil_append, List.length_singleton] at hput
  rw [List.length_singleton, List.drop_drop] at hlength
  have hend : Appends (fun start =>
      if withPayload then putPayload publish.payload start else pure start)
      (if withPayload then publish.payload else []) := by
    cases withPayload with
    | false => exact appends_pure
    | true => exact appends_putPayload _
  have happends : Appends (fun start => do
      let start ← putString publish.topicName start
      let start ← putPublishId publish.qos packetId start
      let start ← putPublishSection publish.properties start
      if withPayload then putPayload publish.payload start else pure start)
      (prefixed publish.topicName ++ (idBytes (sentId publish.qos packetId) ++
        (sized publish.properties ++ if withPayload then publish.payload else []))) :=
    (appends_putString hfits.topic).bind ((appends_putPublishId _ _).bind
      ((appends_putPublishSection hfits.properties_le).bind hend))
  have hpacket : publishFront publish packetId ++ (if withPayload then publish.payload else []) =
      [publishFlags publish] ++ encodedLength (publishLength publish) ++
        (prefixed publish.topicName ++ (idBytes (sentId publish.qos packetId) ++
          (sized publish.properties ++ if withPayload then publish.payload else []))) := by
    simp only [publishFront, List.append_assoc]
  rw [hpacket] at hroom ⊢
  have hbody := happends.behind ([publishFlags publish] ++ encodedLength (publishLength publish))
    destination hroom
  rw [hstart] at hbody
  rw [serializeCommon, Prog.bind_of_ok hput, Prog.bind_of_ok hlength,
    Prog.refuse_bind_of_not (by omega)]
  exact hbody

theorem serializePublish_eq {publish : OutgoingPublish} {packetId : UInt16}
    (h : publish.Strict packetId) (hfits : publish.Fits) {destination : List UInt8}
    (hroom : wholePacketSize (publishLength publish) ≤ destination.length) :
    serializePublish publish packetId (publishLength publish) destination =
      (.ok (wholePacketSize (publishLength publish)),
        publishPacket publish packetId ++
          destination.drop (wholePacketSize (publishLength publish))) := by
  have hwhole := length_publishPacket h hfits
  rw [← hwhole] at hroom ⊢
  have hcommon := serializeCommon_eq packetId hfits true destination
    (by rw [if_pos rfl, ← publishPacket_eq_front]; exact hroom)
  rw [if_pos rfl, ← publishPacket_eq_front] at hcommon
  rw [serializePublish, validateStrict_eq_ok h hfits, Prog.lift_ok_bind,
    Prog.refuse_bind_of_not (Nat.not_lt.mpr hfits.properties_le), Prog.get_bind_apply,
    Prog.refuse_bind_of_not (by rw [← hwhole]; exact Nat.not_lt.mpr hroom), hcommon]

theorem serializePublishHeader_eq_ok {publish : OutgoingPublish} {packetId : UInt16} {written : ℕ}
    {destination out : List UInt8} (h : publish.Strict packetId) (hfits : publish.Fits)
    (hok : serializePublishHeader publish packetId (publishLength publish) destination =
      (.ok written, out)) :
    written = (publishFront publish packetId).length ∧
      publishFront publish packetId <+: out := by
  rw [serializePublishHeader, validateStrict_eq_ok h hfits, Prog.lift_ok_bind,
    Prog.refuse_bind_eq_ok, Prog.refuse_bind_eq_ok, Prog.get_bind_apply,
    Prog.refuse_bind_eq_ok] at hok
  obtain ⟨-, -, hroom, hok⟩ := hok
  have hsize : wholePacketSize (publishLength publish) - publish.payload.length =
      (publishFront publish packetId).length := by
    rw [← length_publishPacket h hfits, publishPacket_eq_front, List.length_append]
    omega
  rw [hsize] at hroom hok
  have hcommon := serializeCommon_eq packetId hfits false destination
    (by rw [if_neg Bool.false_ne_true, List.append_nil]; exact Nat.not_lt.mp hroom)
  rw [if_neg Bool.false_ne_true, List.append_nil] at hcommon
  rw [Prog.bind_of_ok hcommon] at hok
  obtain ⟨hwritten, rfl⟩ := Prod.mk.inj hok
  exact ⟨(Except.ok.inj hwritten).symm, List.prefix_append _ _⟩

theorem strict_of_serializePublish {publish : OutgoingPublish} {packetId : UInt16} {n written : ℕ}
    {destination out : List UInt8}
    (h : serializePublish publish packetId n destination = (.ok written, out)) :
    publish.Strict packetId ∧ wholePacketSize n ≤ destination.length := by
  rw [serializePublish, Prog.lift_bind_eq_ok] at h
  obtain ⟨_, hstrict, h⟩ := h
  rw [Prog.refuse_bind_eq_ok, Prog.get_bind_apply, Prog.refuse_bind_eq_ok] at h
  obtain ⟨-, hroom, -⟩ := h
  rw [validateStrict, refuseIf_bind_eq_ok, refuseIf_bind_eq_ok, refuseIf_bind_eq_ok,
    refuseIf_bind_eq_ok] at hstrict
  obtain ⟨hnamed, -, hid, hdup, -⟩ := hstrict
  refine ⟨⟨hnamed, fun hqos hzero => hid ⟨hqos, hzero⟩, fun hqos => ?_⟩, Nat.not_lt.mp hroom⟩
  exact Bool.eq_false_iff.mpr fun h => hdup ⟨h, hqos⟩

theorem incomingPacketValid_publishFlags (publish : OutgoingPublish) :
    incomingPacketValid (publishFlags publish) = true := by
  obtain ⟨qos, dup, retain, topicName, payload, properties⟩ := publish
  have hall : ∀ qos ∈ [QoS.atMostOnce, .atLeastOnce, .exactlyOnce], ∀ dup retain : Bool,
      incomingPacketValid (publishFlags ⟨qos, dup, retain, [], [], []⟩) = true := by
    decide
  exact hall qos (by cases qos <;> decide) dup retain

def publishHeader (publish : OutgoingPublish) : PacketHeader where
  packetType := publishFlags publish
  remainingLength := publishLength publish
  headerLength := variableLengthEncodedSize (publishLength publish) + 1

theorem wellFormed_publishHeader {publish : OutgoingPublish} (h : publish.Fits) :
    (publishHeader publish).WellFormed where
  accepted := incomingPacketValid_publishFlags publish
  inRange := h.length
  width := by
    rw [PacketHeader.encoded, List.length_cons]
    exact congrArg (· + 1) (length_encodedLength h.length).symm

theorem publishPacket_eq (publish : OutgoingPublish) (packetId : UInt16) :
    publishPacket publish packetId = (publishHeader publish).encoded ++
      publishBody publish.topicName (sentId publish.qos packetId) publish.properties
        publish.payload := rfl

/-- What was sent, as a broker would send it. -/
def OutgoingPublish.incoming (publish : OutgoingPublish) (packetId : UInt16) : PublishInfo where
  qos := publish.qos
  dup := publish.dup
  retain := publish.retain
  packetId := sentId publish.qos packetId
  topicName := publish.topicName
  properties := publish.properties
  payload := publish.payload

/-- A packet that was written reads back. -/
theorem publishes_incoming {publish : OutgoingPublish} {packetId : UInt16} {limit : ℕ}
    {topicAliasMax : UInt16} (h : publish.Strict packetId) (hfits : publish.Fits)
    (hlimit : wholePacketSize (publishLength publish) ≤ limit)
    (hwalk : walkPublishProperties publish.properties publish.properties.length topicAliasMax =
      .ok ()) (rest : List UInt8) :
    Publishes
      { packetType := publishFlags publish
        remainingLength := publishLength publish
        remainingData := publishBody publish.topicName (sentId publish.qos packetId)
          publish.properties publish.payload ++ rest }
      limit topicAliasMax (publish.incoming packetId) := by
  have hbody : (publishBody publish.topicName (sentId publish.qos packetId) publish.properties
      publish.payload).length = publishLength publish :=
    length_publishBody (idFits_sentId h) hfits.properties_le
  have htopic := List.length_pos_iff.mpr h.named
  have hpos := variableLengthEncodedSize_pos publish.properties.length
  constructor
  · rfl
  · exact hfits.length
  · rw [wholePacketSize_eq hfits.length] at hlimit
    exact hlimit
  · change 4 + packetIdCost publish.qos ≤ publishLength publish
    rw [publishLength]
    omega
  · dsimp only
    rw [List.length_append]
    omega
  · exact List.take_left' hbody
  · exact hfits.topic
  · exact idFits_sentId h
  · exact hwalk

theorem Publishes.strict {packet : PacketInfo} {limit : ℕ} {topicAliasMax : UInt16}
    {publish : PublishInfo} (h : Publishes packet limit topicAliasMax publish)
    (hnamed : publish.topicName ≠ []) (hdup : publish.qos = .atMostOnce → publish.dup = false) :
    publish.outgoing.Strict (publish.packetId.getD 0) ∧
      sentId publish.qos (publish.packetId.getD 0) = publish.packetId := by
  have hid := h.id
  rw [IdFits] at hid
  rw [sentId]
  split_ifs at hid ⊢ with hqos
  · exact ⟨⟨hnamed, fun h => absurd hqos h, hdup⟩, hid.symm⟩
  · obtain ⟨n, hn, hsome⟩ := hid
    rw [hsome]
    exact ⟨⟨hnamed, fun _ => hn, hdup⟩, rfl⟩

theorem Publishes.fits {packet : PacketInfo} {limit : ℕ} {topicAliasMax : UInt16}
    {publish : PublishInfo} (h : Publishes packet limit topicAliasMax publish) :
    publish.outgoing.Fits ∧ publishLength publish.outgoing = packet.remainingLength := by
  have hlength : publishLength publish.outgoing = packet.remainingLength :=
    h.remainingLength_eq.symm
  exact ⟨⟨h.topic, hlength ▸ h.allowed⟩, hlength⟩

/-- The codec of a PUBLISH: what is accepted, what is written, and both ways around. -/
theorem publish_codec (topicAliasMax : UInt16) :
    (∀ packet maxPacketSize publish,
      deserializePublish packet maxPacketSize topicAliasMax = .ok publish ↔
        Publishes packet maxPacketSize topicAliasMax publish) ∧
    (∀ packet maxPacketSize publish,
      deserializePublish packet maxPacketSize topicAliasMax = .ok publish →
        wholePacketSize packet.remainingLength =
            1 + variableLengthEncodedSize packet.remainingLength + packet.remainingLength ∧
          publish.topicName.length.toUInt16.toNat = publish.topicName.length ∧
          satAdd (satAdd publish.topicName.length 3) (packetIdCost publish.qos) =
            publish.topicName.length + 3 + packetIdCost publish.qos ∧
          satAdd (satAdd (satAdd (satAdd publish.topicName.length 2) publish.properties.length)
              (variableLengthEncodedSize publish.properties.length)) (packetIdCost publish.qos) =
            publish.topicName.length + 2 + publish.properties.length +
              variableLengthEncodedSize publish.properties.length + packetIdCost publish.qos ∧
          publish.topicName.length + 2 + publish.properties.length +
              variableLengthEncodedSize publish.properties.length + packetIdCost publish.qos +
                publish.payload.length = packet.remainingLength) ∧
    (∀ publish maxPacketSize size packetId destination,
      publishPacketSize publish maxPacketSize = .ok size → publish.Strict packetId →
        size.packetSize ≤ destination.length →
          serializePublish publish packetId size.remainingLength destination =
            (.ok size.packetSize,
              publishPacket publish packetId ++ destination.drop size.packetSize)) ∧
    (∀ publish maxPacketSize size packetId destination written out limit,
      publishPacketSize publish maxPacketSize = .ok size →
        serializePublish publish packetId size.remainingLength destination = (.ok written, out) →
          walkPublishProperties publish.properties publish.properties.length topicAliasMax = .ok () →
            size.packetSize ≤ limit →
              written = size.packetSize ∧
                ∃ header, processIncomingPacketTypeAndLength out written = .ok header ∧
                  header.headerLength + header.remainingLength = written ∧
                  deserializePublish
                      ⟨header.packetType, header.remainingLength, out.drop header.headerLength⟩
                      limit topicAliasMax = .ok (publish.incoming packetId)) ∧
    ∀ buffer available header maxPacketSize publish,
      processIncomingPacketTypeAndLength buffer available = .ok header →
        deserializePublish
            ⟨header.packetType, header.remainingLength, buffer.drop header.headerLength⟩
            maxPacketSize topicAliasMax = .ok publish →
          publish.topicName ≠ [] → (publish.qos = .atMostOnce → publish.dup = false) →
            ∃ size, publishPacketSize publish.outgoing maxPacketSize = .ok size ∧
              size.remainingLength = header.remainingLength ∧
              size.packetSize = header.headerLength + header.remainingLength ∧
              ∀ destination : List UInt8, size.packetSize ≤ destination.length →
                serializePublish publish.outgoing (publish.packetId.getD 0) size.remainingLength
                    destination =
                  (.ok size.packetSize,
                    buffer.take (header.headerLength + header.remainingLength) ++
                      destination.drop size.packetSize) := by
  refine ⟨fun packet maxPacketSize publish => deserializePublish_eq_ok, ?_, ?_, ?_, ?_⟩
  · intro packet maxPacketSize publish h
    have hpublishes := publishes_of_deserializePublish h
    have htopic : publish.topicName.length ≤ 65535 := hpublishes.topic
    have hcost := packetIdCost_le publish.qos
    have hsize : publish.topicName.length.toUInt16.toNat = publish.topicName.length :=
      PropertyReader.toNat_length_toUInt16 htopic
    have hconsumed := consumed_eq publish.topicName.length.toUInt16 publish.qos
      hpublishes.properties_le
    rw [hsize] at hconsumed
    have hthree : satAdd publish.topicName.length 3 = publish.topicName.length + 3 :=
      satAdd_of_le (by rw [u32Max]; omega)
    refine ⟨wholePacketSize_eq hpublishes.allowed, hsize, ?_, hconsumed, ?_⟩
    · rw [hthree]
      exact satAdd_of_le (by rw [u32Max]; omega)
    · have hsum := hpublishes.remainingLength_eq
      omega
  · intro publish maxPacketSize size packetId destination hsize hstrict hroom
    obtain ⟨hfits, -, rfl⟩ := publishPacketSize_eq_ok_iff.mp hsize
    exact serializePublish_eq hstrict hfits hroom
  · intro publish maxPacketSize size packetId destination written out limit hsize hwritten hwalk
      hlimit
    obtain ⟨hfits, -, rfl⟩ := publishPacketSize_eq_ok_iff.mp hsize
    obtain ⟨hstrict, hroom⟩ := strict_of_serializePublish hwritten
    rw [serializePublish_eq hstrict hfits hroom] at hwritten
    obtain ⟨hok, rfl⟩ := Prod.mk.inj hwritten
    obtain rfl := Except.ok.inj hok
    have hwf := wellFormed_publishHeader hfits
    have hlength := length_publishPacket hstrict hfits
    refine ⟨rfl, publishHeader publish, ?_, ?_, ?_⟩
    · rw [processIncomingPacketTypeAndLength_eq_ok, List.take_left' hlength, publishPacket_eq]
      exact ⟨hwf, List.prefix_append _ _⟩
    · rw [wholePacketSize_eq hfits.length]
      change variableLengthEncodedSize (publishLength publish) + 1 + publishLength publish = _
      omega
    · rw [publishPacket_eq, List.append_assoc, List.drop_left' hwf.width.symm]
      exact deserializePublish_of_publishes (publishes_incoming hstrict hfits hlimit hwalk _)
  · intro buffer available header maxPacketSize publish hheader hpublish hnamed hdup
    obtain ⟨hwf, hprefix⟩ := processIncomingPacketTypeAndLength_eq_ok.mp hheader
    have hpublishes := publishes_of_deserializePublish hpublish
    obtain ⟨hstrict, hid⟩ := hpublishes.strict hnamed hdup
    obtain ⟨hfits, hlength⟩ := hpublishes.fits
    have hwhole := wholePacketSize_eq hfits.length
    have hwithin := hpublishes.within
    have hwidth := hwf.width
    rw [PacketHeader.encoded, List.length_cons, length_encodedLength hwf.inRange] at hwidth
    dsimp only at hlength hwithin
    have hpacket : buffer.take (header.headerLength + header.remainingLength) =
        publishPacket publish.outgoing (publish.packetId.getD 0) := by
      obtain ⟨rest, hrest⟩ := hprefix.trans (List.take_prefix _ _)
      have hbody := hpublishes.body
      have hflags := hpublishes.flags
      dsimp only at hbody hflags
      rw [← hid] at hbody
      rw [List.take_add, hbody, ← hrest, List.take_left' hwf.width.symm, PacketHeader.encoded,
        hflags, ← hlength, publishPacket_eq, PacketHeader.encoded]
      rfl
    refine ⟨⟨publishLength publish.outgoing, wholePacketSize (publishLength publish.outgoing)⟩,
      publishPacketSize_eq_ok_iff.mpr ⟨hfits, by rw [hwhole, hlength]; exact hwithin, rfl⟩, hlength,
      ?_, ?_⟩
    · dsimp only
      rw [hwhole, hlength]
      omega
    · intro destination hroom
      rw [hpacket]
      exact serializePublish_eq hstrict hfits hroom

/-- A message at QoS 1 with a payload format and a topic alias. -/
def greeting : OutgoingPublish where
  qos := .atLeastOnce
  dup := false
  retain := true
  topicName := [97]
  payload := [1, 2]
  properties := [PropertyId.payloadFormat, 1, PropertyId.topicAlias, 0, 3]

/-- A PUBLISH that is written reads back, and is written again byte for byte. -/
theorem greeting_codec :
    let written := publishPacket greeting 7 ++ [0, 0]
    Publishes ⟨0x33, 13, written.drop 2⟩ 100 3 (greeting.incoming 7) ∧
      serializePublish greeting 7 13 (List.replicate 17 0) = (.ok 15, written) ∧
      (∃ header, processIncomingPacketTypeAndLength written 15 = .ok header ∧
        header.headerLength + header.remainingLength = 15 ∧
        deserializePublish
            ⟨header.packetType, header.remainingLength, written.drop header.headerLength⟩ 100 3 =
          .ok (greeting.incoming 7)) ∧
      wholePacketSize 13 = 15 ∧
      ∃ size, publishPacketSize (greeting.incoming 7).outgoing 100 = .ok size ∧
        size.packetSize = 15 ∧
        serializePublish (greeting.incoming 7).outgoing 7 size.remainingLength
            (List.replicate 15 0) = (.ok 15, publishPacket greeting 7) := by
  obtain ⟨haccepts, hexact, hwrites, hreads, hback⟩ := publish_codec 3
  have hsize : publishPacketSize greeting 100 = .ok ⟨13, 15⟩ := by decide
  have hwritten := hwrites greeting 100 ⟨13, 15⟩ 7 (List.replicate 17 0) hsize
    ⟨by decide, by decide, by decide⟩ (by decide)
  obtain ⟨-, header, hheader, htotal, hread⟩ :=
    hreads greeting 100 ⟨13, 15⟩ 7 _ 15 _ 100 hsize hwritten (by decide) (by decide)
  have hpacket : deserializePublish ⟨0x33, 13, (publishPacket greeting 7 ++ [0, 0]).drop 2⟩ 100 3 =
      .ok (greeting.incoming 7) := by decide
  obtain ⟨size, hagain, -, htotal', hcopies⟩ :=
    hback _ 15 header 100 _ hheader hread (by decide) (by decide)
  rw [htotal] at htotal' hcopies
  have hcopy := hcopies (List.replicate 15 0) (Nat.le_of_eq (by rw [htotal', List.length_replicate]))
  rw [htotal'] at hcopy
  refine ⟨(haccepts _ _ _).mp hpacket, hwritten, ⟨header, hheader, htotal, hread⟩,
    (hexact _ _ _ hpacket).1, size, hagain, htotal', hcopy⟩

end RtosMqtt
