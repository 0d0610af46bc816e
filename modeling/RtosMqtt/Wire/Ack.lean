import RtosMqtt.Wire.Property

/-! # Acknowledgements from the broker

PUBACK, PUBREC, PUBREL and PUBCOMP share a body: the packet identifier, then a
reason code and a property section that may be left off. SUBACK and UNSUBACK
end in one reason code a filter, and PINGRESP is empty.
-/

namespace RtosMqtt

/-- A packet whose fixed header has been read: the body may be longer or shorter than claimed. -/
structure PacketInfo where
  packetType : UInt8
  remainingLength : ℕ
  remainingData : List UInt8
  deriving DecidableEq, Repr

structure Limits where
  maxPacketSize : ℕ
  requestProblemInfo : Bool
  deriving DecidableEq, Repr

structure AckInfo where
  packetId : Option UInt16
  reasonCodes : List UInt8
  properties : List UInt8
  deriving DecidableEq, Repr

def bounded (buffer : List UInt8) (start length : ℕ) : Except ParseError (List UInt8) :=
  orBadResponse (slice? buffer start (start + length))

def readPacketId (remainingData : List UInt8) : Except ParseError UInt16 := do
  let bytes ← bounded remainingData 0 2
  let id ← orBadResponse (fromBeBytes16 bytes)
  refuseIf (id = 0) .badResponse
  pure id

/-- A reason string at most once, and any number of user properties. -/
def ackProperty (reasonStringSeen : Bool) (id : UInt8) : PropertyReader.Reading Bool :=
  if id = PropertyId.reasonString then do
    let _ ← PropertyReader.utf8 reasonStringSeen
    pure true
  else if id = PropertyId.userProperty then do
    let _ ← PropertyReader.userProperty
    pure reasonStringSeen
  else Prog.throw .badResponse

def walkAckProperties (properties : List UInt8) (propertyLength : ℕ) : Except ParseError Unit := do
  let _ ← PropertyReader.walk ackProperty false properties propertyLength
  pure ()

/-- Nothing follows these properties, so the section must fill the body exactly. -/
def decodePubAckProperties (body : List UInt8) : Except ParseError (List UInt8) := do
  let propertyLength ← decodeVariableLength body
  let encoded := variableLengthEncodedSize propertyLength
  refuseIf (u32Max < body.length) .badResponse
  refuseIf (body.length ≠ satAdd propertyLength encoded) .badResponse
  let properties ← bounded body encoded propertyLength
  walkAckProperties properties propertyLength
  pure properties

def deserializePubAcks (packet : PacketInfo) (requestProblemInfo : Bool) :
    Except ParseError AckInfo := do
  refuseIf (packet.remainingLength < 2) .badResponse
  let packetId ← readPacketId packet.remainingData
  let reasonCodes ←
    (if packet.remainingLength > 2 then bounded packet.remainingData 2 1 else .ok [])
  if packet.remainingLength ≤ 3 then
    pure { packetId := some packetId, reasonCodes, properties := [] }
  else
    -- properties from a broker that was told to send none are a protocol error
    refuseIf (!requestProblemInfo) .badResponse
    let body ← bounded packet.remainingData 3 (packet.remainingLength - 3)
    let properties ← decodePubAckProperties body
    pure { packetId := some packetId, reasonCodes, properties }

def validateAckReasonCode (code : UInt8) : Except ParseError Unit :=
  refuseIf (code ∉ [0x00, 0x10, 0x80, 0x83, 0x87, 0x90, 0x91, 0x92, 0x97, 0x99]) .badResponse

/-- The code is checked after the body, though its byte came first. -/
def checkAckReasonCode (ack : AckInfo) : Except ParseError Unit :=
  match ack.reasonCodes.head? with
  | none => .ok ()
  | some code => validateAckReasonCode code

def deserializeSubUnsubAckProperties (afterId : List UInt8) :
    Except ParseError (List UInt8 × ℕ) := do
  let propertyLength ← decodeVariableLength afterId
  let encoded := variableLengthEncodedSize propertyLength
  refuseIf (u32Max < afterId.length) .badResponse
  refuseIf (satAdd afterId.length 2 < satAdd (satAdd propertyLength encoded) 2) .badResponse
  let properties ← bounded afterId encoded propertyLength
  walkAckProperties properties propertyLength
  pure (properties, encoded + properties.length)

def subackStatusAllowed (code : UInt8) : Bool :=
  code ≤ 0x02 || code ∈ [0x80, 0x83, 0x87, 0x8F, 0x91, 0x97, 0x9E, 0xA1, 0xA2]

def readSubackStatus (reasonCodes : List UInt8) : Except ParseError Unit :=
  refuseIf (!reasonCodes.all subackStatusAllowed) .badResponse

def deserializeSubUnsubAck (packet : PacketInfo) : Except ParseError AckInfo := do
  refuseIf (packet.remainingLength < 4) .badResponse
  let packetId ← readPacketId packet.remainingData
  let afterId ← bounded packet.remainingData 2 (packet.remainingLength - 2)
  let (properties, propertyBytes) ← deserializeSubUnsubAckProperties afterId
  let reasonCodes ← orBadResponse (slice? afterId propertyBytes afterId.length)
  readSubackStatus reasonCodes
  pure { packetId := some packetId, reasonCodes, properties }

def isPublishAck (packetType : UInt8) : Bool :=
  packetType ∈ [Packet.puback, Packet.pubrec, Packet.pubrel, Packet.pubcomp]

def deserializeAck (packet : PacketInfo) (limits : Limits) : Except ParseError AckInfo := do
  refuseIf (packet.packetType = Packet.connack) .badParameter
  refuseIf (limits.maxPacketSize = 0) .badParameter
  refuseIf (limits.maxPacketSize < wholePacketSize packet.remainingLength) .badResponse
  if isPublishAck packet.packetType then
    let ack ← deserializePubAcks packet limits.requestProblemInfo
    (if packet.remainingLength > 2 then checkAckReasonCode ack else .ok ())
    pure ack
  else if packet.packetType = Packet.suback ∨ packet.packetType = Packet.unsuback then
    deserializeSubUnsubAck packet
  else if packet.packetType = Packet.pingresp then
    refuseIf (packet.remainingLength ≠ 0) .badResponse
    pure { packetId := none, reasonCodes := [], properties := [] }
  else .error .badResponse

end RtosMqtt
