import RtosMqtt.Library.Framing
import RtosMqtt.Wire.Connect
import RtosMqtt.Wire.Publication

/-! # Whole packets

What a client writes is a packet: a type that a client sends, the length of the
rest, and the rest. The length is minimal, so no packet is a first part of another.
-/

namespace RtosMqtt

def ofClient (packetType : UInt8) : Bool :=
  packetType &&& 0xF0 == Packet.publish || isPublishAck packetType ||
    packetType ∈ [Packet.connect, Packet.subscribe, Packet.unsubscribe, Packet.pingreq,
      Packet.disconnect]

/-- A whole packet of a client; a PINGREQ has nothing after its length. -/
def IsPacket (packet : List UInt8) : Prop :=
  ∃ packetType body, ofClient packetType = true ∧ (packetType = Packet.pingreq → body = []) ∧
    body.length ≤ maxRemainingLength ∧ packet = packetType :: encodedLength body.length ++ body

theorem prefixFree_isPacket : PrefixFree IsPacket := by
  rintro _ _ ⟨packetType, body, -, -, hbody, rfl⟩ ⟨packetType', body', -, -, hbody', rfl⟩ h
  rw [List.cons_append, List.cons_append, List.cons_prefix_cons] at h
  obtain ⟨rfl, more, hmore⟩ := h
  have hscan := lengthScan_append hbody (body ++ more)
  rw [← List.append_assoc, hmore, lengthScan_append hbody'] at hscan
  have hlength : body'.length = body.length := by injection hscan
  rw [hlength, List.append_assoc, List.append_cancel_left_eq] at hmore
  have hnone : more = [] := by
    have htotal := congrArg List.length hmore
    rw [List.length_append] at htotal
    exact List.eq_nil_of_length_eq_zero (by omega)
  rw [hnone, List.append_nil] at hmore
  rw [hmore]

theorem isPacket_pingreq : IsPacket pingreqPacket :=
  ⟨Packet.pingreq, [], by decide, fun _ => rfl, by decide, by decide⟩

theorem isPacket_of {packetType : UInt8} {n : ℕ} {body : List UInt8}
    (htype : ofClient packetType = true) (hping : packetType ≠ Packet.pingreq)
    (hbody : body.length = n) (hn : n ≤ maxRemainingLength) :
    IsPacket (packetType :: encodedLength n ++ body) :=
  ⟨packetType, body, htype, fun h => absurd h hping, by rwa [hbody], by rw [hbody]⟩

theorem isPacket_ackPacket {packetType : UInt8} (packetId : UInt16) {rest : List UInt8}
    (hkind : isPublishAck packetType = true) (hrest : 2 + rest.length ≤ maxRemainingLength) :
    IsPacket (ackPacket packetType packetId rest) := by
  rw [ackPacket, List.append_assoc]
  apply isPacket_of _ _ _ hrest
  · simp [ofClient, hkind]
  · rintro rfl
    cases hkind
  · exact List.length_append

theorem isPacket_disconnect {reasonCode : Option UInt8} {properties : List UInt8}
    {maxPacketSize : ℕ} {size : PacketSize}
    (h : disconnectPacketSize reasonCode properties.length maxPacketSize = .ok size) :
    IsPacket (disconnectHead reasonCode size.remainingLength ++ encodedLength properties.length ++
      properties) := by
  obtain ⟨hproperties, hsize, hremaining, -⟩ := disconnectPacketSize_eq_ok h
  rw [disconnectHead, List.append_assoc, List.append_assoc]
  apply isPacket_of (by decide) (by decide) _ hsize
  rw [List.length_append, List.length_append, length_encodedLength hproperties, hremaining,
    Nat.add_assoc]
  cases reasonCode <;> rfl

/-- The header of a PUBLISH, with the length of its topic. -/
def publishHead (flags : UInt8) (n : ℕ) (topicName : List UInt8) : List UInt8 :=
  flags :: encodedLength n ++ toBeBytes16 (min topicName.length u16Max).toUInt16

theorem length_publishHead (flags : UInt8) {n : ℕ} (hn : n ≤ maxRemainingLength)
    (topicName : List UInt8) :
    (publishHead flags n topicName).length = 1 + variableLengthEncodedSize n + 2 := by
  rw [publishHead, List.length_append, List.length_cons, length_encodedLength hn, Nat.add_comm 1]
  rfl

theorem serializePublishHeaderWithoutTopic_eq (publish : OutgoingPublish) {n : ℕ}
    (hn : n ≤ maxRemainingLength) (destination : List UInt8)
    (hroom : (publishHead (publishFlags publish) n publish.topicName).length ≤
      destination.length) :
    serializePublishHeaderWithoutTopic publish n destination =
      (.ok (publishHead (publishFlags publish) n publish.topicName).length,
        publishHead (publishFlags publish) n publish.topicName ++
          destination.drop (publishHead (publishFlags publish) n publish.topicName).length) := by
  rw [length_publishHead _ hn] at hroom ⊢
  have hpos := variableLengthEncodedSize_pos n
  have hflags := writeAt_append EncodeError.noMemory [] destination [publishFlags publish]
    (by rw [List.length_singleton]; omega)
  have hlength := encodeAt_append EncodeError.noMemory [publishFlags publish]
    (destination.drop 1) hn (by rw [List.length_drop]; omega)
  have hstart : ([publishFlags publish] ++ encodedLength n).length =
      1 + variableLengthEncodedSize n := by
    rw [List.length_append, length_encodedLength hn, List.length_singleton]
  have htopic := writeAt_append EncodeError.noMemory ([publishFlags publish] ++ encodedLength n)
    (destination.drop (1 + variableLengthEncodedSize n))
    (toBeBytes16 (min publish.topicName.length u16Max).toUInt16) (by simp [toBeBytes16]; omega)
  have hmin : (if publish.topicName.length ≤ u16Max then publish.topicName.length else u16Max) =
      min publish.topicName.length u16Max := by
    split_ifs <;> omega
  rw [List.length_nil, List.nil_append, List.nil_append, List.length_singleton] at hflags
  rw [List.length_singleton, List.drop_drop] at hlength
  rw [hstart, List.drop_drop] at htopic
  rw [serializePublishHeaderWithoutTopic, Prog.refuse_bind_of_not
    (by rw [maxRemainingLength] at hn; rw [remainingLengthInvalid]; omega), Prog.get_bind_apply,
    Prog.refuse_bind_of_not (Nat.not_lt.mpr hroom), Prog.bind_of_ok hflags,
    Prog.bind_of_ok hlength, Prog.refuse_bind_of_not (by omega)]
  rw [hmin, Prog.bind_of_ok htopic]
  rfl

theorem prefix_of_serializePublishHeaderWithoutTopic {publish : OutgoingPublish} {n written : ℕ}
    {destination out : List UInt8} (hn : n ≤ maxRemainingLength)
    (h : serializePublishHeaderWithoutTopic publish n destination = (.ok written, out)) :
    written = (publishHead (publishFlags publish) n publish.topicName).length ∧
      publishHead (publishFlags publish) n publish.topicName <+: out := by
  have hroom : (publishHead (publishFlags publish) n publish.topicName).length ≤
      destination.length := by
    rw [serializePublishHeaderWithoutTopic, Prog.refuse_bind_eq_ok, Prog.get_bind_apply,
      Prog.refuse_bind_eq_ok] at h
    rw [length_publishHead _ hn]
    exact Nat.not_lt.mp h.2.1
  rw [serializePublishHeaderWithoutTopic_eq publish hn destination hroom] at h
  obtain ⟨hwritten, rfl⟩ := Prod.mk.inj h
  exact ⟨(Except.ok.inj hwritten).symm, List.prefix_append _ _⟩

theorem serializePublishHeaderWithoutTopic_seven (publish : OutgoingPublish) {n : ℕ}
    (hn : n ≤ maxRemainingLength) :
    serializePublishHeaderWithoutTopic publish n (List.replicate 7 0) =
      (.ok (publishHead (publishFlags publish) n publish.topicName).length,
        publishHead (publishFlags publish) n publish.topicName ++ (List.replicate 7 0).drop
          (publishHead (publishFlags publish) n publish.topicName).length) := by
  apply serializePublishHeaderWithoutTopic_eq publish hn
  have hsize := variableLengthEncodedSize_le n
  rw [length_publishHead _ hn, List.length_replicate]
  omega

theorem publishFlags_nibble (publish : OutgoingPublish) :
    publishFlags publish &&& 0xF0 = Packet.publish := by
  obtain ⟨qos, dup, retain, topicName, payload, properties⟩ := publish
  have hall : ∀ qos ∈ [QoS.atMostOnce, .atLeastOnce, .exactlyOnce], ∀ dup retain : Bool,
      publishFlags ⟨qos, dup, retain, [], [], []⟩ &&& 0xF0 = Packet.publish := by
    decide
  exact hall qos (by cases qos <;> decide) dup retain

theorem isPacket_publish {publish : OutgoingPublish} {maxPacketSize : ℕ} {size : PacketSize}
    {flags : UInt8} (packetId : UInt16) (hflags : flags &&& 0xF0 = Packet.publish)
    (h : publishPacketSize publish maxPacketSize = .ok size) :
    IsPacket (publishHead flags size.remainingLength publish.topicName ++ publish.topicName ++
      idBytes (sentId publish.qos packetId) ++ encodedLength publish.properties.length ++
        publish.properties ++ publish.payload) := by
  obtain ⟨hfits, -, rfl⟩ := publishPacketSize_eq_ok_iff.mp h
  have htwo : (toBeBytes16 (min publish.topicName.length u16Max).toUInt16).length = 2 := rfl
  have hid : (idBytes (sentId publish.qos packetId)).length = packetIdCost publish.qos := by
    rw [sentId, packetIdCost]
    split_ifs <;> rfl
  rw [publishHead]
  simp only [List.append_assoc (flags :: _)]
  apply isPacket_of _ _ _ hfits.length
  · simp [ofClient, hflags]
  · rintro rfl
    cases hflags
  · simp only [List.length_append, htwo, hid, length_encodedLength hfits.properties_le,
      publishLength]
    omega

/-- The header of a SUBSCRIBE or an UNSUBSCRIBE, with its identifier. -/
def listHead (packetType : UInt8) (n : ℕ) (packetId : UInt16) : List UInt8 :=
  packetType :: encodedLength n ++ toBeBytes16 packetId

theorem length_listHead (packetType : UInt8) {n : ℕ} (packetId : UInt16)
    (hn : n ≤ maxRemainingLength) :
    (listHead packetType n packetId).length = 1 + variableLengthEncodedSize n + 2 := by
  rw [listHead, List.length_append, List.length_cons, length_encodedLength hn, Nat.add_comm 1]
  rfl

theorem serializeIdHeader_eq (packetType : UInt8) {n : ℕ} (packetId : UInt16)
    (hn : n ≤ maxRemainingLength) (destination : List UInt8)
    (hroom : (listHead packetType n packetId).length ≤ destination.length) :
    serializeIdHeader destination packetType n packetId =
      ((listHead packetType n packetId).length,
        listHead packetType n packetId ++
          destination.drop (listHead packetType n packetId).length) := by
  rw [length_listHead packetType packetId hn] at hroom ⊢
  have hhead := Writing.header_eq packetType hn hroom (by omega)
  have hstart : (packetType :: encodedLength n).length = 1 + variableLengthEncodedSize n := by
    rw [List.length_cons, length_encodedLength hn, Nat.add_comm]
  have hid := writeAt_append () (packetType :: encodedLength n)
    (destination.drop (1 + variableLengthEncodedSize n)) (toBeBytes16 packetId)
    (by simp [toBeBytes16]; omega)
  rw [hstart, List.drop_drop] at hid
  unfold serializeIdHeader
  dsimp only
  rw [Writing.written, Prog.bind_of_ok hhead, Writing.putU16, Prog.bind_of_ok hid]
  rfl

theorem serializeIdHeader_spec (packetType : UInt8) {n : ℕ} (packetId : UInt16)
    (hn : n ≤ maxRemainingLength) :
    (serializeIdHeader (List.replicate 7 0) packetType n packetId).1 =
        (listHead packetType n packetId).length ∧
      (serializeIdHeader (List.replicate 7 0) packetType n packetId).2.take
        (listHead packetType n packetId).length = listHead packetType n packetId := by
  have hsize := variableLengthEncodedSize_le n
  rw [serializeIdHeader_eq packetType packetId hn _
    (by rw [length_listHead packetType packetId hn, List.length_replicate]; omega)]
  exact ⟨rfl, List.take_left' rfl⟩

theorem isPacket_list {which : SubscriptionType} {lengths : List ℕ} {properties : List UInt8}
    {maxPacketSize : ℕ} {size : PacketSize} {packetType : UInt8} {packetId : UInt16}
    {topics : List UInt8} (htype : packetType ∈ [Packet.subscribe, Packet.unsubscribe])
    (h : listPacketSize which lengths properties.length maxPacketSize = .ok size)
    (htopics : topics.length = filtersSize which lengths) :
    IsPacket (listHead packetType size.remainingLength packetId ++
      encodedLength properties.length ++ properties ++ topics) := by
  obtain ⟨hproperties, hsize, hremaining, -⟩ := listPacketSize_eq_ok h
  have htwo : (toBeBytes16 packetId).length = 2 := rfl
  rw [listHead]
  simp only [List.append_assoc (packetType :: _)]
  apply isPacket_of _ _ _ hsize
  · simp only [List.mem_cons, List.not_mem_nil, or_false] at htype
    rcases htype with rfl | rfl <;> decide
  · simp only [List.mem_cons, List.not_mem_nil, or_false] at htype
    rcases htype with rfl | rfl <;> decide
  · simp only [List.length_append, htwo, length_encodedLength hproperties, htopics]
    omega

theorem isPacket_connect {connect : Connect} {size : PacketSize}
    (h : connectPacketSize connect = .ok size) : IsPacket (connectPacket connect) := by
  obtain ⟨-, hbody, hsize, -⟩ := connectPacketSize_eq_ok h
  rw [connectPacket]
  exact isPacket_of (by decide) (by decide) rfl (by rwa [hbody])

end RtosMqtt
