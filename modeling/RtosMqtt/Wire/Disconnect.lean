import RtosMqtt.Wire.Ack

/-! # DISCONNECT

A broker's DISCONNECT may leave off its properties, or its whole body. A
client's own is sized, and its reason code checked, before it is sent.
-/

namespace RtosMqtt

structure Disconnect where
  reasonCode : Option UInt8
  properties : List UInt8
  deriving DecidableEq, Repr

structure PacketSize where
  remainingLength : ℕ
  packetSize : ℕ
  deriving DecidableEq, Repr

/-- The errors of the size calculators and the serializers. -/
inductive EncodeError where
  | badParameter | noMemory
  deriving DecidableEq, Repr

def malformedPacket : UInt8 := 0x81

/-- `0x04` is the client's own, the last row the server's own. -/
def reasonCodeAllowed (reasonCode : UInt8) (incoming : Bool) : Bool :=
  if reasonCode = 0x04 then !incoming
  else if reasonCode ∈ [0x00, 0x80, 0x81, 0x82, 0x83, 0x90, 0x93, 0x94, 0x95, 0x96, 0x97, 0x98,
      0x99] then true
  else reasonCode ∈ [0x87, 0x89, 0x8B, 0x8C, 0x8D, 0x8E, 0x8F, 0x9A, 0x9B, 0x9C, 0x9D, 0x9E,
    0xA0, 0xA1, 0xA2] && incoming

def incomingDisconnectProperty (seen : List UInt8) (id : UInt8) :
    PropertyReader.Reading (List UInt8) :=
  if id = PropertyId.reasonString ∨ id = PropertyId.serverReference then do
    let _ ← PropertyReader.utf8 (id ∈ seen)
    pure (id :: seen)
  else if id = PropertyId.userProperty then do
    let _ ← PropertyReader.userProperty
    pure seen
  else Prog.throw .badResponse

def deserializeDisconnect (packet : PacketInfo) (maxPacketSize : ℕ) :
    Except ParseError Disconnect := do
  refuseIf (maxPacketSize = 0) .badParameter
  refuseIf (remainingLengthInvalid ≤ packet.remainingLength) .badResponse
  refuseIf (maxPacketSize < wholePacketSize packet.remainingLength) .badResponse
  if packet.remainingLength = 0 then pure { reasonCode := none, properties := [] }
  else
    let reasonCode ← orBadResponse packet.remainingData.head?
    refuseIf (!reasonCodeAllowed reasonCode true) .badResponse
    if packet.remainingLength = 1 then pure { reasonCode := some reasonCode, properties := [] }
    else
      let afterReason ← bounded packet.remainingData 1 (packet.remainingLength - 1)
      let propertyLength ← decodeVariableLength afterReason
      let encoded := variableLengthEncodedSize propertyLength
      refuseIf (packet.remainingLength ≠ satAdd (satAdd propertyLength encoded) 1) .badResponse
      let properties ← bounded afterReason encoded propertyLength
      let _ ← PropertyReader.walk incomingDisconnectProperty [] properties propertyLength
      pure { reasonCode := some reasonCode, properties }

/-- Each property gets a fresh flag here, so a repeat is not caught. -/
def outgoingDisconnectProperty (connectSessionExpiry : ℕ) (found : Unit) (id : UInt8) :
    PropertyReader.Reading Unit :=
  if id = PropertyId.sessionExpiry then do
    let sessionExpiry ← PropertyReader.u32 false
    Prog.refuse (connectSessionExpiry = 0 ∧ sessionExpiry ≠ 0) .badParameter
  else if id = PropertyId.reasonString then do
    let _ ← PropertyReader.utf8 false
    pure found
  else if id = PropertyId.userProperty then do
    let _ ← PropertyReader.userProperty
    pure found
  else Prog.throw .badParameter

def validateOutgoingProperties (connectSessionExpiry : ℕ) (properties : List UInt8) :
    Except ParseError Unit := do
  refuseIf (u32Max < properties.length) .badParameter
  PropertyReader.walk (outgoingDisconnectProperty connectSessionExpiry) () properties
    properties.length

def disconnectPacketSize (reasonCode : Option UInt8) (propertyLength maxPacketSize : ℕ) :
    Except EncodeError PacketSize := do
  refuseIf (reasonCode = none ∧ propertyLength ≠ 0) .badParameter
  refuseIf (maxPacketSize = 0) .badParameter
  refuseIf (reasonCode.any fun code => !reasonCodeAllowed code false) .badParameter
  let length := if reasonCode.isSome then 1 else 0
  refuseIf (remainingLengthInvalid ≤ propertyLength) .badParameter
  let encoded := variableLengthEncodedSize propertyLength
  refuseIf (remainingLengthInvalid ≤ satAdd (satAdd propertyLength encoded) length) .badParameter
  let remainingLength := satAdd (satAdd length encoded) propertyLength
  let packetSize := wholePacketSize remainingLength
  refuseIf (maxPacketSize < packetSize) .badParameter
  pure { remainingLength, packetSize }

end RtosMqtt
