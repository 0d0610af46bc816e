import RtosMqtt.Wire.Publish
import RtosMqtt.Wire.Connack
import RtosMqtt.Wire.Validate
import RtosMqtt.Wire.Disconnect
import RtosMqtt.Wire.Visits

/-! # What the parsers accept, a cursor can read

Each parser and each validator walks its section by a table of its own. All the
tables give an identifier the width that the cursor gives it.
-/

namespace RtosMqtt

open PropertyReader (Typed Keeps keeps_pure keeps_refuse typed_throw typed_u8 typed_u16 typed_u32
  typed_utf8 typed_userProperty typed_variableLength)

theorem typed_publishProperty (found : PublishWalk) (id : UInt8) :
    Typed id (publishProperty found id) := by
  unfold publishProperty
  dsimp only
  split_ifs with h₁ h₂ h₃ h₄ h₅ h₆
  · exact (typed_u8 (by rw [h₁]; rfl) _).bind fun _ => (keeps_refuse _ _).bind fun _ => keeps_pure _
  · exact (typed_u16 (by rw [h₂]; rfl) _).bind fun _ => (keeps_refuse _ _).bind fun _ => keeps_pure _
  · exact (typed_utf8 (by rcases h₃ with h | h | h <;> rw [h] <;> rfl) _).bind fun _ => keeps_pure _
  · exact (typed_u32 (by rw [h₄]; rfl) _).bind fun _ => keeps_pure _
  · exact (typed_variableLength (by rw [h₅]; rfl)).bind fun _ => keeps_pure _
  · exact (typed_userProperty (by rw [h₆]; rfl)).bind fun _ => keeps_pure _
  · exact typed_throw _

theorem typed_ackProperty (seen : Bool) (id : UInt8) : Typed id (ackProperty seen id) := by
  unfold ackProperty
  split_ifs with h₁ h₂
  · exact (typed_utf8 (by rw [h₁]; rfl) _).bind fun _ => keeps_pure _
  · exact (typed_userProperty (by rw [h₂]; rfl)).bind fun _ => keeps_pure _
  · exact typed_throw _

theorem typed_incomingDisconnectProperty (seen : List UInt8) (id : UInt8) :
    Typed id (incomingDisconnectProperty seen id) := by
  unfold incomingDisconnectProperty
  split_ifs with h₁ h₂
  · exact (typed_utf8 (by rcases h₁ with h | h <;> rw [h] <;> rfl) _).bind fun _ => keeps_pure _
  · exact (typed_userProperty (by rw [h₂]; rfl)).bind fun _ => keeps_pure _
  · exact typed_throw _

theorem typed_outgoingDisconnectProperty (connectSessionExpiry : ℕ) (found : Unit) (id : UInt8) :
    Typed id (outgoingDisconnectProperty connectSessionExpiry found id) := by
  unfold outgoingDisconnectProperty
  split_ifs with h₁ h₂ h₃
  · exact (typed_u32 (by rw [h₁]; rfl) _).bind fun _ => keeps_refuse _ _
  · exact (typed_utf8 (by rw [h₂]; rfl) _).bind fun _ => keeps_pure _
  · exact (typed_userProperty (by rw [h₃]; rfl)).bind fun _ => keeps_pure _
  · exact typed_throw _

theorem ConnAckWalk.typed_boolean {id : UInt8} (hid : widthOf id = some .byte) (used : Bool) :
    Typed id (ConnAckWalk.boolean used) :=
  (typed_u8 hid _).bind fun _ => (keeps_refuse _ _).bind fun _ => keeps_pure _

theorem ConnAckWalk.typed_property (requestResponseInfo : Bool) (found : ConnAckWalk) (id : UInt8) :
    Typed id (found.property requestResponseInfo id) := by
  apply Typed.ite fun h => (typed_u32 (by rw [h]; rfl) _).bind fun _ => keeps_pure _
  apply Typed.ite fun h => (typed_u16 (by rw [h]; rfl) _).bind fun _ =>
    (keeps_refuse _ _).bind fun _ => keeps_pure _
  apply Typed.ite fun h => (typed_boolean (by rw [h]; rfl) _).bind fun _ => keeps_pure _
  apply Typed.ite fun h => (typed_boolean (by rw [h]; rfl) _).bind fun _ => keeps_pure _
  apply Typed.ite fun h => (typed_u32 (by rw [h]; rfl) _).bind fun _ =>
    (keeps_refuse _ _).bind fun _ => keeps_pure _
  apply Typed.ite fun h => (typed_utf8 (by rw [h]; rfl) _).bind fun _ => keeps_pure _
  apply Typed.ite fun h => (typed_u16 (by rw [h]; rfl) _).bind fun _ => keeps_pure _
  apply Typed.ite fun h => (typed_utf8 (by rw [h]; rfl) _).bind fun _ => keeps_pure _
  apply Typed.ite fun h => (typed_userProperty (by rw [h]; rfl)).bind fun _ => keeps_pure _
  apply Typed.ite fun h => (typed_boolean (by rw [h]; rfl) _).bind fun _ => keeps_pure _
  apply Typed.ite fun h => (typed_boolean (by rw [h]; rfl) _).bind fun _ => keeps_pure _
  apply Typed.ite fun h => (typed_boolean (by rw [h]; rfl) _).bind fun _ => keeps_pure _
  apply Typed.ite fun h => (typed_u16 (by rw [h]; rfl) _).bind fun _ => keeps_pure _
  apply Typed.ite fun h => (typed_utf8 (by rw [h]; rfl) _).bind fun _ =>
    (keeps_refuse _ _).bind fun _ => keeps_pure _
  apply Typed.ite fun h => (typed_utf8 (by rw [h]; rfl) _).bind fun _ => keeps_pure _
  apply Typed.ite fun h => (typed_utf8 (by rw [h]; rfl) _).bind fun _ => keeps_pure _
  apply Typed.ite fun h => (typed_utf8 (by rw [h]; rfl) _).bind fun _ => keeps_pure _
  exact typed_throw _

theorem keeps_checkOnce (seen : List UInt8) (id : UInt8) : Keeps (checkOnce seen id) :=
  (keeps_refuse _ _).bind fun _ => keeps_pure _

theorem typed_readFlag {id : UInt8} (hid : widthOf id = some .byte) : Typed id readFlag :=
  (typed_u8 hid _).bind fun _ => (keeps_refuse _ _).bind fun _ => keeps_pure _

theorem typed_connectProperty (walk : ConnectWalk) (id : UInt8) :
    Typed id (connectProperty walk id) := by
  unfold connectProperty
  split_ifs with h₁ h₂ h₃ h₄ h₅ h₆ h₇ h₈
  · exact (keeps_checkOnce _ _).bind_typed fun _ =>
      (typed_u32 (by rw [h₁]; rfl) _).bind fun _ => keeps_pure _
  · exact (keeps_checkOnce _ _).bind_typed fun _ =>
      (typed_u16 (by rw [h₂]; rfl) _).bind fun _ => (keeps_refuse _ _).bind fun _ => keeps_pure _
  · exact (keeps_checkOnce _ _).bind_typed fun _ =>
      (typed_u32 (by rw [h₃]; rfl) _).bind fun _ => (keeps_refuse _ _).bind fun _ => keeps_pure _
  · exact (keeps_checkOnce _ _).bind_typed fun _ =>
      (typed_u16 (by rw [h₄]; rfl) _).bind fun _ => keeps_pure _
  · exact (keeps_checkOnce _ _).bind_typed fun _ =>
      (typed_readFlag (by rw [h₅]; rfl)).bind fun _ => keeps_pure _
  · exact (keeps_checkOnce _ _).bind_typed fun _ =>
      (typed_readFlag (by rw [h₆]; rfl)).bind fun _ => keeps_pure _
  · exact (keeps_checkOnce _ _).bind_typed fun _ =>
      (typed_utf8 (by rcases h₇ with h | h <;> rw [h] <;> rfl) _).bind fun _ => keeps_pure _
  · exact (typed_userProperty (by rw [h₈]; rfl)).bind fun _ => keeps_pure _
  · exact typed_throw _

theorem typed_willProperty (seen : List UInt8) (id : UInt8) : Typed id (willProperty seen id) := by
  unfold willProperty
  split_ifs with h₁ h₂ h₃ h₄
  · exact (keeps_checkOnce _ _).bind_typed fun _ =>
      (typed_u32 (by rcases h₁ with h | h <;> rw [h] <;> rfl) _).bind fun _ => keeps_pure _
  · exact (keeps_checkOnce _ _).bind_typed fun _ =>
      (typed_readFlag (by rw [h₂]; rfl)).bind fun _ => keeps_pure _
  · exact (keeps_checkOnce _ _).bind_typed fun _ =>
      (typed_utf8 (by rcases h₃ with h | h | h <;> rw [h] <;> rfl) _).bind fun _ => keeps_pure _
  · exact (typed_userProperty (by rw [h₄]; rfl)).bind fun _ => keeps_pure _
  · exact typed_throw _

theorem typed_subscribeProperty (subscriptionIdAvailable found : Bool) (id : UInt8) :
    Typed id (subscribeProperty subscriptionIdAvailable found id) := by
  unfold subscribeProperty
  split_ifs with h₁ h₂
  · exact (keeps_refuse _ _).bind_typed fun _ =>
      (typed_variableLength (by rw [h₁]; rfl)).bind fun _ => (keeps_refuse _ _).bind fun _ =>
        (keeps_refuse _ _).bind fun _ => keeps_pure _
  · exact (typed_userProperty (by rw [h₂]; rfl)).bind fun _ => keeps_pure _
  · exact typed_throw _

theorem typed_unsubscribeProperty (found : Unit) (id : UInt8) :
    Typed id (unsubscribeProperty found id) := by
  unfold unsubscribeProperty
  split_ifs with h
  · exact (typed_userProperty (by rw [h]; rfl)).bind fun _ => keeps_pure _
  · exact typed_throw _

theorem typed_outgoingPublishProperty (serverTopicAliasMax : UInt16) (found : Option UInt16)
    (id : UInt8) : Typed id (outgoingPublishProperty serverTopicAliasMax found id) := by
  unfold outgoingPublishProperty
  split_ifs with h₁ h₂ h₃ h₄ h₅
  · exact (typed_u8 (by rw [h₁]; rfl) _).bind fun _ => keeps_pure _
  · exact (typed_u32 (by rw [h₂]; rfl) _).bind fun _ => keeps_pure _
  · exact (typed_utf8 (by rcases h₃ with h | h | h <;> rw [h] <;> rfl) _).bind fun _ => keeps_pure _
  · exact (typed_u16 (by rw [h₄]; rfl) _).bind fun _ => (keeps_refuse _ _).bind fun _ => keeps_pure _
  · exact (typed_userProperty (by rw [h₅]; rfl)).bind fun _ => keeps_pure _
  · exact typed_throw _

theorem typed_outgoingAckProperty (found : Bool) (id : UInt8) :
    Typed id (outgoingAckProperty found id) := by
  unfold outgoingAckProperty
  split_ifs with h₁ h₂
  · exact (typed_utf8 (by rw [h₁]; rfl) _).bind fun _ => keeps_pure _
  · exact (typed_userProperty (by rw [h₂]; rfl)).bind fun _ => keeps_pure _
  · exact typed_throw _

/-- The acceptor walked these properties, and a cursor sees the same ones. -/
def ReadBack {α : Type} (property : α → UInt8 → PropertyReader.Reading α) (found : α)
    (bytes : List UInt8) : Prop :=
  ∃ ps last r', PropertyReader.Walked property found (.new bytes bytes.length) ps last r' ∧
    PropertyCursor.Visits bytes 0 ps

theorem readBack_of_walk {α : Type} {property : α → UInt8 → PropertyReader.Reading α}
    (hproperty : ∀ found id, Typed id (property found id)) {found last : α} {bytes : List UInt8}
    (hsmall : bytes.length ≤ u32Max)
    (h : PropertyReader.walk property found bytes bytes.length = .ok last) :
    ReadBack property found bytes := by
  obtain ⟨ps, r', hwalked, hbytes⟩ := PropertyReader.walk_eq_ok hproperty h
  refine ⟨ps, last, r', hwalked, ?_⟩
  rw [hbytes] at hsmall ⊢
  exact PropertyCursor.visits_encodedSection [] hsmall

theorem bounded_eq_ok {buffer bytes : List UInt8} {start length : ℕ} :
    bounded buffer start length = .ok bytes ↔
      start + length ≤ buffer.length ∧ bytes = (buffer.drop start).take length := by
  rw [bounded, slice?]
  split_ifs with h
  · rw [orBadResponse, Except.ok.injEq, List.drop_take, Nat.add_sub_cancel_left]
    exact ⟨fun hbytes => ⟨h.2, hbytes.symm⟩, fun hbytes => hbytes.2.symm⟩
  · rw [orBadResponse]
    constructor
    · intro hbytes
      cases hbytes
    · rintro ⟨hle, -⟩
      omega

theorem readBack_of_section {α : Type} {property : α → UInt8 → PropertyReader.Reading α}
    (hproperty : ∀ found id, Typed id (property found id)) {found last : α}
    {buffer rest bytes : List UInt8} {start length : ℕ}
    (hlength : decodeVariableLength buffer = .ok length)
    (hbytes : bounded rest start length = .ok bytes)
    (h : PropertyReader.walk property found bytes length = .ok last) :
    ReadBack property found bytes := by
  obtain ⟨hle, -⟩ := PropertyReader.decodeVariableLength_eq_ok.mp hlength
  obtain ⟨hinside, htaken⟩ := bounded_eq_ok.mp hbytes
  have hsame : bytes.length = length := by
    rw [htaken, List.length_take, List.length_drop]
    omega
  rw [maxRemainingLength] at hle
  rw [← hsame] at h
  exact readBack_of_walk hproperty (by rw [hsame, u32Max]; omega) h

theorem readBack_nil {α : Type} (property : α → UInt8 → PropertyReader.Reading α) (found : α) :
    ReadBack property found [] := by
  have hvisits : PropertyCursor.Visits ([] ++ encodedSection []) 0 [] :=
    PropertyCursor.visits_encodedSection [] (Nat.zero_le u32Max)
  exact ⟨[], found, _, .done rfl, hvisits⟩

theorem readBack_deserializePublish {packet : PacketInfo} {maxPacketSize : ℕ}
    {topicAliasMax : UInt16} {publish : PublishInfo}
    (h : deserializePublish packet maxPacketSize topicAliasMax = .ok publish) :
    ReadBack publishProperty {} publish.properties := by
  rw [deserializePublish, refuseIf_bind_eq_ok, refuseIf_bind_eq_ok, refuseIf_bind_eq_ok,
    except_bind_eq_ok] at h
  obtain ⟨-, -, -, ⟨qos, dup, retain⟩, -, h⟩ := h
  dsimp only at h
  rw [except_bind_eq_ok] at h
  obtain ⟨_, -, h⟩ := h
  rw [except_bind_eq_ok] at h
  obtain ⟨_, -, h⟩ := h
  rw [except_bind_eq_ok] at h
  obtain ⟨topicNameLength, -, h⟩ := h
  rw [except_bind_eq_ok] at h
  obtain ⟨_, -, h⟩ := h
  rw [except_bind_eq_ok] at h
  obtain ⟨_, -, h⟩ := h
  rw [except_bind_eq_ok] at h
  obtain ⟨_, -, h⟩ := h
  rw [except_bind_eq_ok] at h
  obtain ⟨⟨properties, propertyLength⟩, hread, h⟩ := h
  dsimp only at h
  rw [except_bind_eq_ok] at h
  obtain ⟨_, -, h⟩ := h
  obtain rfl := Except.ok.inj h
  rw [readPublishProperties, refuseIf_bind_eq_ok] at hread
  obtain ⟨-, hread⟩ := hread
  rw [refuseIf_bind_eq_ok, except_bind_eq_ok] at hread
  obtain ⟨-, sectionBytes, -, hread⟩ := hread
  rw [except_bind_eq_ok] at hread
  obtain ⟨length, hlength, hread⟩ := hread
  rw [except_bind_eq_ok] at hread
  obtain ⟨_, -, hread⟩ := hread
  rw [except_bind_eq_ok] at hread
  obtain ⟨bytes, hbytes, hread⟩ := hread
  rw [except_bind_eq_ok] at hread
  obtain ⟨_, hwalk, hread⟩ := hread
  cases hread
  rw [walkPublishProperties, except_bind_eq_ok] at hwalk
  obtain ⟨found, hwalk, -⟩ := hwalk
  exact readBack_of_section typed_publishProperty hlength hbytes hwalk

theorem readBack_deserializeConnack {packet : PacketInfo} {client : ClientSettings}
    {connack : ConnAck} (h : deserializeConnack packet client = .ok connack) :
    ReadBack (ConnAckWalk.property client.requestResponseInfo) {} connack.properties := by
  rw [deserializeConnack, refuseIf_bind_eq_ok, refuseIf_bind_eq_ok, refuseIf_bind_eq_ok,
    refuseIf_bind_eq_ok, except_bind_eq_ok] at h
  obtain ⟨-, -, -, -, flags, -, h⟩ := h
  rw [except_bind_eq_ok] at h
  obtain ⟨reasonCode, -, h⟩ := h
  rw [refuseIf_bind_eq_ok, refuseIf_bind_eq_ok, refuseIf_bind_eq_ok, except_bind_eq_ok] at h
  obtain ⟨-, -, -, afterHeader, -, h⟩ := h
  rw [except_bind_eq_ok] at h
  obtain ⟨length, hlength, h⟩ := h
  rw [refuseIf_bind_eq_ok, except_bind_eq_ok] at h
  obtain ⟨-, bytes, hbytes, h⟩ := h
  rw [except_bind_eq_ok] at h
  obtain ⟨found, hwalk, h⟩ := h
  cases h
  exact readBack_of_section (ConnAckWalk.typed_property _) hlength hbytes hwalk

theorem readBack_deserializePubAcks {packet : PacketInfo} {requestProblemInfo : Bool}
    {ack : AckInfo} (h : deserializePubAcks packet requestProblemInfo = .ok ack) :
    ReadBack ackProperty false ack.properties := by
  rw [deserializePubAcks, refuseIf_bind_eq_ok, except_bind_eq_ok] at h
  obtain ⟨-, packetId, -, h⟩ := h
  rw [except_bind_eq_ok] at h
  obtain ⟨reasonCodes, -, h⟩ := h
  split_ifs at h with hshort
  · cases h
    exact readBack_nil _ _
  · rw [refuseIf_bind_eq_ok, except_bind_eq_ok] at h
    obtain ⟨-, body, -, h⟩ := h
    rw [except_bind_eq_ok] at h
    obtain ⟨properties, hproperties, h⟩ := h
    cases h
    rw [decodePubAckProperties, except_bind_eq_ok] at hproperties
    obtain ⟨length, hlength, hproperties⟩ := hproperties
    rw [refuseIf_bind_eq_ok, refuseIf_bind_eq_ok, except_bind_eq_ok] at hproperties
    obtain ⟨-, -, bytes, hbytes, hproperties⟩ := hproperties
    rw [except_bind_eq_ok] at hproperties
    obtain ⟨_, hwalk, hproperties⟩ := hproperties
    cases hproperties
    rw [walkAckProperties, except_bind_eq_ok] at hwalk
    obtain ⟨found, hwalk, -⟩ := hwalk
    exact readBack_of_section typed_ackProperty hlength hbytes hwalk

theorem readBack_deserializeSubUnsubAck {packet : PacketInfo} {ack : AckInfo}
    (h : deserializeSubUnsubAck packet = .ok ack) :
    ReadBack ackProperty false ack.properties := by
  rw [deserializeSubUnsubAck, refuseIf_bind_eq_ok, except_bind_eq_ok] at h
  obtain ⟨-, packetId, -, h⟩ := h
  rw [except_bind_eq_ok] at h
  obtain ⟨afterId, -, h⟩ := h
  rw [except_bind_eq_ok] at h
  obtain ⟨⟨properties, propertyBytes⟩, hproperties, h⟩ := h
  dsimp only at h
  rw [except_bind_eq_ok] at h
  obtain ⟨reasonCodes, -, h⟩ := h
  rw [except_bind_eq_ok] at h
  obtain ⟨_, -, h⟩ := h
  cases h
  rw [deserializeSubUnsubAckProperties, except_bind_eq_ok] at hproperties
  obtain ⟨length, hlength, hproperties⟩ := hproperties
  rw [refuseIf_bind_eq_ok, refuseIf_bind_eq_ok, except_bind_eq_ok] at hproperties
  obtain ⟨-, -, bytes, hbytes, hproperties⟩ := hproperties
  rw [except_bind_eq_ok] at hproperties
  obtain ⟨_, hwalk, hproperties⟩ := hproperties
  cases hproperties
  rw [walkAckProperties, except_bind_eq_ok] at hwalk
  obtain ⟨found, hwalk, -⟩ := hwalk
  exact readBack_of_section typed_ackProperty hlength hbytes hwalk

theorem readBack_deserializeAck {packet : PacketInfo} {limits : Limits} {ack : AckInfo}
    (h : deserializeAck packet limits = .ok ack) : ReadBack ackProperty false ack.properties := by
  rw [deserializeAck, refuseIf_bind_eq_ok, refuseIf_bind_eq_ok, refuseIf_bind_eq_ok] at h
  obtain ⟨-, -, -, h⟩ := h
  by_cases hpublish : isPublishAck packet.packetType = true
  · rw [if_pos hpublish, except_bind_eq_ok] at h
    obtain ⟨found, hfound, h⟩ := h
    rw [except_bind_eq_ok] at h
    obtain ⟨_, -, h⟩ := h
    cases h
    exact readBack_deserializePubAcks hfound
  rw [if_neg hpublish] at h
  split_ifs at h with hsubscribe hping
  · exact readBack_deserializeSubUnsubAck h
  · rw [refuseIf_bind_eq_ok] at h
    cases h.2
    exact readBack_nil _ _

theorem readBack_deserializeDisconnect {packet : PacketInfo} {maxPacketSize : ℕ}
    {disconnect : Disconnect} (h : deserializeDisconnect packet maxPacketSize = .ok disconnect) :
    ReadBack incomingDisconnectProperty [] disconnect.properties := by
  rw [deserializeDisconnect, refuseIf_bind_eq_ok, refuseIf_bind_eq_ok, refuseIf_bind_eq_ok] at h
  obtain ⟨-, -, -, h⟩ := h
  split_ifs at h with hnone hreason
  · cases h
    exact readBack_nil _ _
  · rw [except_bind_eq_ok] at h
    obtain ⟨reasonCode, -, h⟩ := h
    rw [refuseIf_bind_eq_ok] at h
    obtain ⟨-, h⟩ := h
    cases h
    exact readBack_nil _ _
  · rw [except_bind_eq_ok] at h
    obtain ⟨reasonCode, -, h⟩ := h
    rw [refuseIf_bind_eq_ok, except_bind_eq_ok] at h
    obtain ⟨-, afterReason, -, h⟩ := h
    rw [except_bind_eq_ok] at h
    obtain ⟨length, hlength, h⟩ := h
    rw [refuseIf_bind_eq_ok, except_bind_eq_ok] at h
    obtain ⟨-, bytes, hbytes, h⟩ := h
    rw [except_bind_eq_ok] at h
    obtain ⟨_, hwalk, h⟩ := h
    cases h
    exact readBack_of_section typed_incomingDisconnectProperty hlength hbytes hwalk

theorem readBack_validateWalk {α : Type} {property : α → UInt8 → PropertyReader.Reading α}
    (hproperty : ∀ found id, Typed id (property found id)) {found last : α}
    {properties : List UInt8} (h : validateWalk property found properties = .ok last) :
    ReadBack property found properties := by
  rw [validateWalk, refuseIf_bind_eq_ok, refuseIf_bind_eq_ok] at h
  exact readBack_of_walk hproperty (Nat.not_lt.mp h.1) h.2.2

/-- A cursor over a section that was accepted sees the properties that the acceptor walked, and
one that is refused stays where it is. -/
theorem accepted_sections_read_back :
    (∀ packet maxPacketSize topicAliasMax publish,
      deserializePublish packet maxPacketSize topicAliasMax = .ok publish →
        ReadBack publishProperty {} publish.properties) ∧
    (∀ packet client connack, deserializeConnack packet client = .ok connack →
      ReadBack (ConnAckWalk.property client.requestResponseInfo) {} connack.properties) ∧
    (∀ packet limits ack, deserializeAck packet limits = .ok ack →
      ReadBack ackProperty false ack.properties) ∧
    (∀ packet maxPacketSize disconnect,
      deserializeDisconnect packet maxPacketSize = .ok disconnect →
        ReadBack incomingDisconnectProperty [] disconnect.properties) ∧
    (∀ properties found, validateConnectProperties properties = .ok found →
      ReadBack connectProperty {} properties) ∧
    (∀ properties, validateWillProperties properties = .ok () →
      ReadBack willProperty [] properties) ∧
    (∀ subscriptionIdAvailable properties,
      validateSubscribeProperties subscriptionIdAvailable properties = .ok () →
        ReadBack (subscribeProperty subscriptionIdAvailable) false properties) ∧
    (∀ properties, validateUnsubscribeProperties properties = .ok () →
      ReadBack unsubscribeProperty () properties) ∧
    (∀ serverTopicAliasMax properties topicAlias,
      validatePublishProperties serverTopicAliasMax properties = .ok topicAlias →
        ReadBack (outgoingPublishProperty serverTopicAliasMax) none properties) ∧
    (∀ properties, validatePublishAckProperties properties = .ok () →
      ReadBack outgoingAckProperty false properties) ∧
    (∀ connectSessionExpiry properties,
      validateOutgoingProperties connectSessionExpiry properties = .ok () →
        ReadBack (outgoingDisconnectProperty connectSessionExpiry) () properties) ∧
    ∀ (c c' : PropertyCursor) (e : CursorError),
      (PropertyCursor.skip c = (.error e, c') → c' = c) ∧
        ∀ getter : Getter, getter.read c = (.error e, c') → c' = c := by
  refine ⟨fun _ _ _ _ => readBack_deserializePublish, fun _ _ _ => readBack_deserializeConnack,
    fun _ _ _ => readBack_deserializeAck, fun _ _ _ => readBack_deserializeDisconnect,
    ?_, ?_, ?_, fun _ => readBack_validateWalk typed_unsubscribeProperty,
    fun _ _ _ => readBack_validateWalk (typed_outgoingPublishProperty _), ?_, ?_, ?_⟩
  · intro properties found h
    rw [validateConnectProperties, except_bind_eq_ok] at h
    obtain ⟨walk, hwalk, -⟩ := h
    exact readBack_validateWalk typed_connectProperty hwalk
  · intro properties h
    rw [validateWillProperties, except_bind_eq_ok] at h
    obtain ⟨seen, hwalk, -⟩ := h
    exact readBack_validateWalk typed_willProperty hwalk
  · intro subscriptionIdAvailable properties h
    rw [validateSubscribeProperties, except_bind_eq_ok] at h
    obtain ⟨seen, hwalk, -⟩ := h
    exact readBack_validateWalk (typed_subscribeProperty _) hwalk
  · intro properties h
    rw [validatePublishAckProperties, except_bind_eq_ok] at h
    obtain ⟨seen, hwalk, -⟩ := h
    exact readBack_validateWalk typed_outgoingAckProperty hwalk
  · intro connectSessionExpiry properties h
    rw [validateOutgoingProperties, refuseIf_bind_eq_ok] at h
    exact readBack_of_walk (typed_outgoingDisconnectProperty _) (Nat.not_lt.mp h.1) h.2
  · intro c c' e
    exact ⟨PropertyCursor.careful_skip c e c', fun getter =>
      PropertyCursor.careful_read getter c e c'⟩

end RtosMqtt
