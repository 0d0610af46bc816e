import RtosMqtt.Wire.Publish
import RtosMqtt.Wire.Writer

/-! # Sizing a PUBLISH, a CONNECT and a list of topic filters

The zero-copy senders need a packet's lengths and its fixed header before any
of its parts are sent.
-/

namespace RtosMqtt

structure OutgoingPublish where
  qos : QoS
  dup : Bool
  retain : Bool
  topicName : List UInt8
  payload : List UInt8
  properties : List UInt8
  deriving DecidableEq, Repr

def u16Max : ℕ := 65535

def publishPacketSize (publish : OutgoingPublish) (maxPacketSize : ℕ) :
    Except EncodeError PacketSize := do
  let propertyLength := publish.properties.length
  let payloadLength := publish.payload.length
  refuseIf (u32Max < propertyLength) .badParameter
  refuseIf (maxRemainingLength < propertyLength) .badParameter
  refuseIf (u16Max < publish.topicName.length) .badParameter
  refuseIf (u32Max < payloadLength) .badParameter
  refuseIf (remainingLengthInvalid ≤ payloadLength) .badParameter
  let fixed := satAdd (satAdd (satAdd publish.topicName.length 2) (packetIdCost publish.qos))
    (variableLengthEncodedSize propertyLength)
  -- what is left of the largest packet after each part
  let budget := maxRemainingLength - fixed
  refuseIf (budget < propertyLength) .badParameter
  refuseIf (budget - propertyLength < payloadLength) .badParameter
  let remainingLength := satAdd (satAdd fixed propertyLength) payloadLength
  let packetSize := wholePacketSize remainingLength
  refuseIf (maxPacketSize < packetSize) .badParameter
  pure { remainingLength, packetSize }

def publishFlags (publish : OutgoingPublish) : UInt8 :=
  Packet.publish |||
    (match publish.qos with
      | .atMostOnce => 0
      | .atLeastOnce => PublishFlag.qos1
      | .exactlyOnce => PublishFlag.qos2) |||
    (if publish.retain then PublishFlag.retain else 0) |||
    if publish.dup then PublishFlag.dup else 0

/-- The length of the topic is in this header and the topic is not. -/
def serializePublishHeaderWithoutTopic (publish : OutgoingPublish) (remainingLength : ℕ) :
    Serializing ℕ := do
  Prog.refuse (remainingLengthInvalid ≤ remainingLength) .badParameter
  let headerLength := 1 + variableLengthEncodedSize remainingLength + 2
  let destination ← Prog.get
  Prog.refuse (destination.length < headerLength) .noMemory
  writeAt .noMemory 0 [publishFlags publish]
  let encoded ← encodeAt .noMemory 1 remainingLength
  Prog.refuse (encoded = 0) .noMemory
  let length := if publish.topicName.length ≤ u16Max then publish.topicName.length else u16Max
  writeAt .noMemory (1 + encoded) (toBeBytes16 length.toUInt16)
  pure headerLength

def updateDuplicateFlag (header : UInt8) (set : Bool) : Except EncodeError UInt8 := do
  refuseIf (header &&& 0xF0 ≠ Packet.publish) .badParameter
  pure (if set then header ||| PublishFlag.dup else header &&& ~~~PublishFlag.dup)

inductive RetainHandling where
  | onSubscribe | onSubscribeIfNew | never
  deriving DecidableEq, Repr

structure Subscription where
  topicFilter : List UInt8
  qos : QoS
  noLocal : Bool
  retainAsPublished : Bool
  retainHandling : RetainHandling
  deriving DecidableEq, Repr

inductive SubscriptionType where
  | subscribe | unsubscribe
  deriving DecidableEq, Repr

def subscriptionOptions (subscription : Subscription) : UInt8 :=
  (match subscription.qos with
    | .atMostOnce => 0
    | .atLeastOnce => bit 0
    | .exactlyOnce => bit 1) |||
    (if subscription.noLocal then bit 2 else 0) |||
    (if subscription.retainAsPublished then bit 3 else 0) |||
    match subscription.retainHandling with
    | .onSubscribe => 0
    | .onSubscribeIfNew => bit 4
    | .never => bit 5

/-- The bound is checked after a filter and before its options byte. -/
def listRemainingLength (which : SubscriptionType) :
    (topicFilterLengths : List ℕ) → ℕ → Except EncodeError ℕ
  | [], remainingLength => .ok remainingLength
  | length :: lengths, remainingLength => do
    refuseIf (u16Max < length) .badParameter
    let remainingLength := satAdd (satAdd remainingLength length) 2
    refuseIf (remainingLengthInvalid ≤ remainingLength) .badParameter
    listRemainingLength which lengths
      (if which = .subscribe then satAdd remainingLength 1 else remainingLength)

def listPacketSize (which : SubscriptionType) (topicFilterLengths : List ℕ)
    (propertyLength maxPacketSize : ℕ) : Except EncodeError PacketSize := do
  refuseIf (maxPacketSize = 0) .badParameter
  refuseIf (maxRemainingLength < propertyLength) .badParameter
  let remainingLength ← listRemainingLength which topicFilterLengths
    (satAdd (satAdd 2 propertyLength) (variableLengthEncodedSize propertyLength))
  refuseIf (topicFilterLengths = []) .badParameter
  refuseIf (maxRemainingLength < remainingLength) .badParameter
  let packetSize := satAdd (satAdd remainingLength 1) (variableLengthEncodedSize remainingLength)
  refuseIf (maxPacketSize < packetSize) .badParameter
  pure { remainingLength, packetSize }

structure Will where
  info : WillInfo
  topicName : List UInt8
  payload : List UInt8
  properties : List UInt8
  deriving DecidableEq, Repr

structure Connect where
  info : ConnectInfo
  clientIdentifier : List UInt8
  properties : List UInt8
  will : Option Will
  deriving DecidableEq, Repr

def connectHeaderSize : ℕ := 10

def fieldSize (length : ℕ) : ℕ := satAdd (min length u32Max) 2

/-- A CONNECT's own bound on a section, which allows the largest remaining length. -/
def connectSectionLength (properties : List UInt8) : Except EncodeError ℕ := do
  refuseIf (u32Max < properties.length) .badParameter
  refuseIf (maxRemainingLength < properties.length) .badParameter
  pure properties.length

def connectPacketSize (connect : Connect) : Except EncodeError PacketSize := do
  refuseIf (connect.clientIdentifier.head? = some 0) .badParameter
  refuseIf (u16Max < connect.clientIdentifier.length) .badParameter
  refuseIf (connect.info.username.any (u16Max < ·.length)) .badParameter
  refuseIf (connect.info.password.any (u16Max < ·.length)) .badParameter
  refuseIf (connect.will.any fun will =>
    u16Max < will.payload.length ∨ u16Max < will.topicName.length) .badParameter
  let propertyLength ← connectSectionLength connect.properties
  let willPropertyLength ←
    (match connect.will with
      | none => .ok 0
      | some will => connectSectionLength will.properties)
  let length := satAdd (satAdd (satAdd connectHeaderSize propertyLength)
    (variableLengthEncodedSize propertyLength)) (fieldSize connect.clientIdentifier.length)
  let length :=
    match connect.will with
    | none => length
    | some will => satAdd (satAdd (satAdd (satAdd length willPropertyLength)
        (variableLengthEncodedSize willPropertyLength)) (fieldSize will.topicName.length))
        (fieldSize will.payload.length)
  let length :=
    match connect.info.username with
    | none => length
    | some username => satAdd length (fieldSize username.length)
  let length :=
    match connect.info.password with
    | none => length
    | some password => satAdd length (fieldSize password.length)
  refuseIf (maxRemainingLength < length) .badParameter
  pure { remainingLength := length, packetSize := wholePacketSize length }

end RtosMqtt
