import RtosMqtt.Wire.Ack

/-! # CONNACK

The broker's answer to a CONNECT: whether a session was resumed, a reason code,
and the limits it announces. A bit records each property that was present.
-/

namespace RtosMqtt

inductive Field where
  | subscriptionId | sessionExpiryInterval | receiveMaximum | maxPacketSize | topicAliasMax
  | requestResponseInfo | requestProblemInfo | authenticationMethod | authenticationData
  | payloadFormatIndicator | messageExpiryInterval | topicAlias | responseTopic | correlationData
  | contentType | reasonString | willDelay | assignedClientId | serverKeepAlive
  | responseInformation | serverReference | maxQos | retainAvailable
  | wildcardSubscriptionAvailable | subscriptionIdAvailable | sharedSubscriptionAvailable
  | userProp
  deriving DecidableEq, Repr

/-- The bit of a field, by the numbers that cross the API. -/
def Field.bit : Field → ℕ
  | subscriptionId => 1
  | sessionExpiryInterval => 2
  | receiveMaximum => 3
  | maxPacketSize => 4
  | topicAliasMax => 5
  | requestResponseInfo => 6
  | requestProblemInfo => 7
  | authenticationMethod => 9
  | authenticationData => 10
  | payloadFormatIndicator => 11
  | messageExpiryInterval => 12
  | topicAlias => 13
  | responseTopic => 14
  | correlationData => 15
  | contentType => 16
  | reasonString => 17
  | willDelay => 18
  | assignedClientId => 19
  | serverKeepAlive => 20
  | responseInformation => 21
  | serverReference => 22
  | maxQos => 23
  | retainAvailable => 24
  | wildcardSubscriptionAvailable => 25
  | subscriptionIdAvailable => 26
  | sharedSubscriptionAvailable => 27
  | userProp => 28

structure ClientSettings where
  maxPacketSize : ℕ
  requestResponseInfo : Bool
  deriving DecidableEq, Repr

structure ServerSettings where
  sessionExpiry : ℕ := 0
  receiveMax : UInt16 := 0
  maxQos : UInt8 := 0
  retainAvailable : UInt8 := 0
  maxPacketSize : ℕ := 0
  topicAliasMax : UInt16 := 0
  wildcardAvailable : UInt8 := 0
  subscriptionIdAvailable : UInt8 := 0
  sharedAvailable : UInt8 := 0
  keepAlive : UInt16 := 0
  deriving DecidableEq, Repr

structure ConnAck where
  sessionPresent : Bool
  reasonCode : UInt8
  server : ServerSettings := {}
  fieldsPresent : List Field := []
  properties : List UInt8
  deriving DecidableEq, Repr

/-- The word whose bits are the fields that were present. -/
def ConnAck.fieldBits (c : ConnAck) : ℕ :=
  c.fieldsPresent.foldr (fun field bits => bits ||| 1 <<< field.bit) 0

def ConnAck.refused (c : ConnAck) : Bool := c.reasonCode != 0

def connackReasonCodeValid (reasonCode : UInt8) : Bool :=
  reasonCode ∈ [0x00, 0x80, 0x81, 0x82, 0x83, 0x84, 0x85, 0x86, 0x87, 0x88, 0x89, 0x8A, 0x8C,
    0x90, 0x95, 0x97, 0x99, 0x9A, 0x9B, 0x9C, 0x9D, 0x9F]

/-- Which properties have been seen, so a repeat is a protocol error. The user property has
no flag: it may repeat. -/
structure ConnAckSeen where
  sessionExpiry : Bool := false
  receiveMax : Bool := false
  maxQos : Bool := false
  retain : Bool := false
  maxPacket : Bool := false
  clientId : Bool := false
  topicAlias : Bool := false
  reasonString : Bool := false
  wildcard : Bool := false
  subId : Bool := false
  sharedSub : Bool := false
  keepAlive : Bool := false
  responseInfo : Bool := false
  serverRef : Bool := false
  authMethod : Bool := false
  authData : Bool := false
  deriving DecidableEq, Repr

structure ConnAckWalk where
  server : ServerSettings := {}
  fieldsPresent : List Field := []
  seen : ConnAckSeen := {}
  deriving DecidableEq, Repr

namespace ConnAckWalk

open PropertyReader (Reading)

def mark (found : ConnAckWalk) (field : Field) (server : ServerSettings) (seen : ConnAckSeen) :
    ConnAckWalk where
  server := server
  fieldsPresent := field :: found.fieldsPresent
  seen := seen

def boolean (seen : Bool) : Reading UInt8 := do
  let value ← PropertyReader.u8 seen
  Prog.refuse (value > 1) .badResponse
  pure value

def property (requestResponseInfo : Bool) (found : ConnAckWalk) (id : UInt8) :
    Reading ConnAckWalk :=
  let server := found.server
  let seen := found.seen
  if id = PropertyId.sessionExpiry then do
    let sessionExpiry ← PropertyReader.u32 seen.sessionExpiry
    pure (found.mark .sessionExpiryInterval { server with sessionExpiry }
      { seen with sessionExpiry := true })
  else if id = PropertyId.receiveMax then do
    let receiveMax ← PropertyReader.u16 seen.receiveMax
    Prog.refuse (receiveMax = 0) .badResponse
    pure (found.mark .receiveMaximum { server with receiveMax } { seen with receiveMax := true })
  else if id = PropertyId.maxQos then do
    let maxQos ← boolean seen.maxQos
    pure (found.mark .maxQos { server with maxQos } { seen with maxQos := true })
  else if id = PropertyId.retainAvailable then do
    let retainAvailable ← boolean seen.retain
    pure (found.mark .retainAvailable { server with retainAvailable } { seen with retain := true })
  else if id = PropertyId.maxPacketSize then do
    let maxPacketSize ← PropertyReader.u32 seen.maxPacket
    Prog.refuse (maxPacketSize = 0) .badResponse
    pure (found.mark .maxPacketSize { server with maxPacketSize } { seen with maxPacket := true })
  else if id = PropertyId.assignedClientId then do
    let _ ← PropertyReader.utf8 seen.clientId
    pure (found.mark .assignedClientId server { seen with clientId := true })
  else if id = PropertyId.topicAliasMax then do
    let topicAliasMax ← PropertyReader.u16 seen.topicAlias
    pure (found.mark .topicAliasMax { server with topicAliasMax } { seen with topicAlias := true })
  else if id = PropertyId.reasonString then do
    let _ ← PropertyReader.utf8 seen.reasonString
    pure (found.mark .reasonString server { seen with reasonString := true })
  else if id = PropertyId.userProperty then do
    let _ ← PropertyReader.userProperty
    pure (found.mark .userProp server seen)
  else if id = PropertyId.wildcardAvailable then do
    let wildcardAvailable ← boolean seen.wildcard
    pure (found.mark .wildcardSubscriptionAvailable { server with wildcardAvailable }
      { seen with wildcard := true })
  else if id = PropertyId.subscriptionIdAvailable then do
    let subscriptionIdAvailable ← boolean seen.subId
    pure (found.mark .subscriptionIdAvailable { server with subscriptionIdAvailable }
      { seen with subId := true })
  else if id = PropertyId.sharedSubAvailable then do
    let sharedAvailable ← boolean seen.sharedSub
    pure (found.mark .sharedSubscriptionAvailable { server with sharedAvailable }
      { seen with sharedSub := true })
  else if id = PropertyId.serverKeepAlive then do
    let keepAlive ← PropertyReader.u16 seen.keepAlive
    pure (found.mark .serverKeepAlive { server with keepAlive } { seen with keepAlive := true })
  else if id = PropertyId.responseInfo then do
    let _ ← PropertyReader.utf8 seen.responseInfo
    -- a server must not send it unasked
    Prog.refuse (!requestResponseInfo) .badResponse
    pure (found.mark .responseInformation server { seen with responseInfo := true })
  else if id = PropertyId.serverReference then do
    let _ ← PropertyReader.utf8 seen.serverRef
    pure (found.mark .serverReference server { seen with serverRef := true })
  else if id = PropertyId.authMethod then do
    let _ ← PropertyReader.utf8 seen.authMethod
    pure (found.mark .authenticationMethod server { seen with authMethod := true })
  else if id = PropertyId.authData then do
    let _ ← PropertyReader.utf8 seen.authData
    pure (found.mark .authenticationData server { seen with authData := true })
  else Prog.throw .badResponse

end ConnAckWalk

def walkConnackProperties (properties : List UInt8) (propertyLength : ℕ)
    (client : ClientSettings) : Except ParseError ConnAckWalk :=
  PropertyReader.walk (ConnAckWalk.property client.requestResponseInfo) {} properties propertyLength

def connackMinimumSize : ℕ := 3

def sessionPresentMask : UInt8 := 0x01

def deserializeConnack (packet : PacketInfo) (client : ClientSettings) :
    Except ParseError ConnAck := do
  refuseIf (packet.packetType ≠ Packet.connack) .badParameter
  refuseIf (client.maxPacketSize = 0) .badParameter
  refuseIf (client.maxPacketSize < wholePacketSize packet.remainingLength) .badResponse
  refuseIf (packet.remainingLength < connackMinimumSize) .badResponse
  let flags ← orBadResponse packet.remainingData.head?
  let reasonCode ← orBadResponse packet.remainingData[1]?
  refuseIf (flags ||| sessionPresentMask ≠ sessionPresentMask) .badResponse
  let sessionPresent := flags &&& sessionPresentMask == sessionPresentMask
  refuseIf (sessionPresent ∧ reasonCode ≠ 0) .badResponse
  refuseIf (!connackReasonCodeValid reasonCode) .badResponse
  let afterHeader ← bounded packet.remainingData 2 (packet.remainingLength - 2)
  let propertyLength ← decodeVariableLength afterHeader
  let encoded := variableLengthEncodedSize propertyLength
  refuseIf (packet.remainingLength ≠ satAdd (satAdd propertyLength encoded) 2) .badResponse
  let properties ← bounded afterHeader encoded propertyLength
  let found ← walkConnackProperties properties propertyLength client
  pure { sessionPresent, reasonCode, server := found.server, fieldsPresent := found.fieldsPresent,
         properties }

end RtosMqtt
