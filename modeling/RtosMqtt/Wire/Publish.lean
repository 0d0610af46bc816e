import RtosMqtt.State.Machine
import RtosMqtt.Wire.Ack

/-! # A PUBLISH from the broker

The flags of the type byte say whether a packet identifier follows the topic.
Properties come next, and what is left is the payload.
-/

namespace RtosMqtt

structure PublishInfo where
  qos : QoS
  dup : Bool
  retain : Bool
  packetId : Option UInt16
  topicName : List UInt8
  properties : List UInt8
  payload : List UInt8
  deriving DecidableEq, Repr

namespace PublishFlag

def retain : UInt8 := bit 0
def qos1 : UInt8 := bit 1
def qos2 : UInt8 := bit 2
def dup : UInt8 := bit 3

end PublishFlag

def processPublishFlags (flags : UInt8) : Except ParseError (QoS × Bool × Bool) := do
  refuseIf (flags &&& PublishFlag.qos2 ≠ 0 ∧ flags &&& PublishFlag.qos1 ≠ 0) .badResponse
  let qos : QoS :=
    if flags &&& PublishFlag.qos2 ≠ 0 then .exactlyOnce
    else if flags &&& PublishFlag.qos1 ≠ 0 then .atLeastOnce
    else .atMostOnce
  pure (qos, flags &&& PublishFlag.dup != 0, flags &&& PublishFlag.retain != 0)

def packetIdCost (qos : QoS) : ℕ := if qos = .atMostOnce then 0 else 2

def checkRemainingLength (remainingLength : ℕ) (qos : QoS) (qos0Minimum : ℕ) :
    Except ParseError Unit :=
  refuseIf (remainingLength < satAdd qos0Minimum (packetIdCost qos)) .badResponse

structure PublishWalk where
  seen : List UInt8 := []
  topicAlias : UInt16 := 0
  deriving DecidableEq, Repr

def publishProperty (found : PublishWalk) (id : UInt8) : PropertyReader.Reading PublishWalk :=
  let used := id ∈ found.seen
  let seen := id :: found.seen
  if id = PropertyId.payloadFormat then do
    let value ← PropertyReader.u8 used
    Prog.refuse (value > 1) .badResponse
    pure { found with seen }
  else if id = PropertyId.topicAlias then do
    let topicAlias ← PropertyReader.u16 used
    Prog.refuse (topicAlias = 0) .badResponse
    pure { seen, topicAlias }
  else if id = PropertyId.responseTopic ∨ id = PropertyId.correlationData ∨
      id = PropertyId.contentType then do
    let _ ← PropertyReader.utf8 used
    pure { found with seen }
  else if id = PropertyId.messageExpiry then do
    let _ ← PropertyReader.u32 used
    pure { found with seen }
  -- one for each matching subscription, and zero is not refused
  else if id = PropertyId.subscriptionId then do
    let _ ← PropertyReader.variableLength
    pure found
  else if id = PropertyId.userProperty then do
    let _ ← PropertyReader.userProperty
    pure found
  else Prog.throw .badResponse

/-- The alias is compared with the maximum after the whole walk. -/
def walkPublishProperties (properties : List UInt8) (propertyLength : ℕ)
    (topicAliasMax : UInt16) : Except ParseError Unit := do
  let found ← PropertyReader.walk publishProperty {} properties propertyLength
  refuseIf (PropertyId.topicAlias ∈ found.seen ∧ topicAliasMax < found.topicAlias) .badResponse

def readPublishProperties (packet : PacketInfo) (start : ℕ) (qos : QoS)
    (topicNameLength topicAliasMax : UInt16) : Except ParseError (List UInt8 × ℕ) := do
  let topicCost := satAdd topicNameLength.toNat 2
  refuseIf (packet.remainingLength < topicCost) .badParameter
  let left := packet.remainingLength - topicCost
  refuseIf (left < packetIdCost qos) .badParameter
  let sectionBytes ← bounded packet.remainingData start (left - packetIdCost qos)
  let propertyLength ← decodeVariableLength sectionBytes
  let encoded := variableLengthEncodedSize propertyLength
  checkRemainingLength packet.remainingLength qos
    (satAdd (satAdd (satAdd topicNameLength.toNat 2) propertyLength) encoded)
  let properties ← bounded sectionBytes encoded propertyLength
  walkPublishProperties properties propertyLength topicAliasMax
  pure (properties, propertyLength)

def readPublishId (packet : PacketInfo) (qos : QoS) (afterTopic : ℕ) :
    Except ParseError (Option UInt16) :=
  if qos = .atMostOnce then pure none
  else do
    let bytes ← bounded packet.remainingData afterTopic 2
    let id ← orBadResponse (fromBeBytes16 bytes)
    refuseIf (id = 0) .badResponse
    pure (some id)

def deserializePublish (packet : PacketInfo) (maxPacketSize : ℕ) (topicAliasMax : UInt16) :
    Except ParseError PublishInfo := do
  refuseIf (packet.packetType &&& 0xF0 ≠ Packet.publish) .badParameter
  refuseIf (remainingLengthInvalid ≤ packet.remainingLength) .badParameter
  refuseIf (maxPacketSize < wholePacketSize packet.remainingLength) .badResponse
  let (qos, dup, retain) ← processPublishFlags (packet.packetType &&& 0x0F)
  checkRemainingLength packet.remainingLength qos 4
  let lengthBytes ← bounded packet.remainingData 0 2
  let topicNameLength ← orBadResponse (fromBeBytes16 lengthBytes)
  checkRemainingLength packet.remainingLength qos (satAdd topicNameLength.toNat 3)
  let topicName ← bounded packet.remainingData 2 topicNameLength.toNat
  let afterTopic := topicNameLength.toNat + 2
  let packetId ← readPublishId packet qos afterTopic
  let afterId := afterTopic + packetIdCost qos
  let (properties, propertyLength) ←
    readPublishProperties packet afterId qos topicNameLength topicAliasMax
  let encoded := variableLengthEncodedSize propertyLength
  let consumed := satAdd (satAdd (satAdd (satAdd topicNameLength.toNat 2) propertyLength) encoded)
    (packetIdCost qos)
  let payload ← bounded packet.remainingData (afterId + encoded + propertyLength)
    (packet.remainingLength - consumed)
  pure { qos, dup, retain, packetId, topicName, properties, payload }

end RtosMqtt
