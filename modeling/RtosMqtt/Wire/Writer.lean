import RtosMqtt.State.Machine
import RtosMqtt.Wire.Disconnect

/-! # Writing packets

A serializer fills a destination the caller owns. The fixed headers answer how
many bytes they wrote, zero when the destination is too short; the packet
serializers answer an error. Either way the bytes written before a refusal stay.
-/

namespace RtosMqtt

def writeAt {ε : Type} (e : ε) (start : ℕ) (bytes : List UInt8) : Prog (List UInt8) ε Unit :=
  fun destination =>
    if start + bytes.length ≤ destination.length then
      (.ok (), destination.take start ++ bytes ++ destination.drop (start + bytes.length))
    else (.error e, destination)

def encodeAt {ε : Type} (e : ε) (start length : ℕ) : Prog (List UInt8) ε ℕ := fun destination =>
  if destination.length < start then (.error e, destination)
  else
    let (written, tail) := encodeVariableLength (destination.drop start) length
    (.ok written, destination.take start ++ tail)

/-- A fixed header in the making; a refusal is the code's zero. -/
abbrev Writing := Prog (List UInt8) Unit

namespace Writing

def put (start : ℕ) (value : UInt8) : Writing Unit := writeAt () start [value]

def putU16 (start : ℕ) (value : UInt16) : Writing Unit := writeAt () start (toBeBytes16 value)

/-- The type byte and the remaining length, into a destination with room for `total` bytes. -/
def header (packetType : UInt8) (remainingLength total : ℕ) : Writing Unit := do
  let destination ← Prog.get
  Prog.refuse (destination.length < total) ()
  put 0 packetType
  let written ← encodeAt () 1 remainingLength
  Prog.refuse (written ≠ variableLengthEncodedSize remainingLength) ()

def written (w : Writing ℕ) (destination : List UInt8) : ℕ × List UInt8 :=
  match w destination with
  | (.ok n, destination) => (n, destination)
  | (.error _, destination) => (0, destination)

end Writing

open Writing

def serializeAckFixed (destination : List UInt8) (packetType : UInt8) (packetId : UInt16)
    (remainingLength : ℕ) (reasonCode : UInt8) : ℕ × List UInt8 :=
  let lengthBytes := variableLengthEncodedSize remainingLength
  let total := 1 + lengthBytes + 2 + 1
  written (do
    header packetType remainingLength total
    putU16 (1 + lengthBytes) packetId
    put (1 + lengthBytes + 2) reasonCode
    pure total) destination

structure ConnectInfo where
  cleanSession : Bool
  keepAliveSeconds : UInt16
  username : Option (List UInt8)
  password : Option (List UInt8)
  deriving DecidableEq, Repr

structure WillInfo where
  qos : QoS
  retain : Bool
  deriving DecidableEq, Repr

def version5 : UInt8 := 5

/-- Bit 0 stays clear; a QoS 0 will sets neither QoS bit. -/
def connectFlags (connect : ConnectInfo) (will : Option WillInfo) : UInt8 :=
  (if connect.cleanSession then bit 1 else 0) |||
    (if connect.username.isSome then bit 7 else 0) |||
    (if connect.password.isSome then bit 6 else 0) |||
    match will with
    | none => 0
    | some will =>
      bit 2 |||
        (match will.qos with
          | .atMostOnce => 0
          | .atLeastOnce => bit 3
          | .exactlyOnce => bit 4) |||
        if will.retain then bit 5 else 0

def serializeConnectFixedHeader (destination : List UInt8) (connect : ConnectInfo)
    (will : Option WillInfo) (remainingLength : ℕ) : ℕ × List UInt8 :=
  let lengthBytes := variableLengthEncodedSize remainingLength
  let total := 1 + lengthBytes + 6 + 1 + 1 + 2
  let start := 1 + lengthBytes
  written (do
    header Packet.connect remainingLength total
    putU16 start 4
    -- the protocol name is always MQTT
    writeAt () (start + 2) [0x4D, 0x51, 0x54, 0x54]
    put (start + 6) version5
    put (start + 7) (connectFlags connect will)
    putU16 (start + 8) connect.keepAliveSeconds
    pure total) destination

def serializeDisconnectFixed (destination : List UInt8) (reasonCode : Option UInt8)
    (remainingLength : ℕ) : ℕ × List UInt8 :=
  let lengthBytes := variableLengthEncodedSize remainingLength
  let total := 1 + lengthBytes + if reasonCode.isSome then 1 else 0
  written (do
    header Packet.disconnect remainingLength total
    (match reasonCode with
      | none => pure ()
      | some reason => put (1 + lengthBytes) reason)
    pure total) destination

/-- The type byte, the length and the identifier of a list packet. -/
def serializeIdHeader (destination : List UInt8) (packetType : UInt8) (remainingLength : ℕ)
    (packetId : UInt16) : ℕ × List UInt8 :=
  let lengthBytes := variableLengthEncodedSize remainingLength
  let total := 1 + lengthBytes + 2
  written (do
    header packetType remainingLength total
    putU16 (1 + lengthBytes) packetId
    pure total) destination

abbrev Serializing := Prog (List UInt8) EncodeError

def sectionLength (properties : List UInt8) : Except EncodeError ℕ := do
  refuseIf (u32Max < properties.length) .badParameter
  refuseIf (remainingLengthInvalid ≤ properties.length) .badParameter
  pure properties.length

/-- A property section after its encoded length. -/
def putSection (start : ℕ) (properties : List UInt8) (length : ℕ) : Serializing ℕ := do
  let encoded ← encodeAt .noMemory start length
  Prog.refuse (encoded = 0) .noMemory
  if properties = [] then pure (start + encoded)
  else
    writeAt .noMemory (start + encoded) properties
    pure (start + encoded + properties.length)

def publishAckPacketSize : ℕ := 4

def simpleAckRemainingLength : UInt8 := 2

/-- A PUBACK and a PUBREC carry one of nine codes, a PUBREL and a PUBCOMP one of two. -/
def ackReasonCodeAllowed (packetType reasonCode : UInt8) : Bool :=
  if packetType = Packet.puback ∨ packetType = Packet.pubrec then
    reasonCode ∈ [0x00, 0x10, 0x80, 0x83, 0x87, 0x90, 0x91, 0x97, 0x99]
  else if packetType = Packet.pubrel ∨ packetType = Packet.pubcomp then
    reasonCode ∈ [0x00, 0x92]
  else false

def ackKindAllowed (packetType : UInt8) : Option UInt8 → Bool
  | some code => ackReasonCodeAllowed packetType code
  | none => isPublishAck packetType

/-- Four bytes, six with a reason code, or a property section after that. -/
def serializeAck (packetType : UInt8) (packetId : UInt16) (reasonCode : Option UInt8)
    (properties : List UInt8) : Serializing ℕ := do
  let destination ← Prog.get
  Prog.refuse (destination.length < publishAckPacketSize) .noMemory
  Prog.refuse (packetId = 0) .badParameter
  Prog.refuse (reasonCode = none ∧ properties ≠ []) .badParameter
  Prog.refuse (!ackKindAllowed packetType reasonCode) .badParameter
  let propertyLength ← Prog.lift (sectionLength properties)
  writeAt .noMemory 0 [packetType]
  match reasonCode with
  | none =>
    writeAt .noMemory 1 (simpleAckRemainingLength :: toBeBytes16 packetId)
    pure 4
  | some code =>
    Prog.refuse (destination.length < publishAckPacketSize + 2) .badParameter
    if properties = [] then
      writeAt .noMemory 1 ((simpleAckRemainingLength + 2) :: toBeBytes16 packetId ++ [code, 0x00])
      pure 6
    else
      let remainingLength :=
        satAdd (satAdd 3 (variableLengthEncodedSize propertyLength)) propertyLength
      Prog.refuse (maxRemainingLength < remainingLength) .badParameter
      let packetSize := wholePacketSize remainingLength
      Prog.refuse (destination.length < packetSize) .badParameter
      let encoded ← encodeAt .noMemory 1 remainingLength
      Prog.refuse (encoded = 0) .noMemory
      writeAt .noMemory (1 + encoded) (toBeBytes16 packetId ++ [code])
      let _ ← putSection (1 + encoded + 3) properties propertyLength
      pure packetSize

def pingreqPacket : List UInt8 := [Packet.pingreq, 0]

def serializePingreq : Serializing ℕ := do
  writeAt .noMemory 0 pingreqPacket
  pure pingreqPacket.length

/-- An acknowledgement with a reason code and properties. -/
def ackPacketSize (maxPacketSize propertyLength : ℕ) : Except EncodeError PacketSize := do
  refuseIf (maxPacketSize = 0) .badParameter
  refuseIf (u32Max < propertyLength) .badParameter
  refuseIf (maxRemainingLength < propertyLength) .badParameter
  let remainingLength :=
    satAdd (satAdd 3 (variableLengthEncodedSize propertyLength)) propertyLength
  refuseIf (maxRemainingLength < remainingLength) .badParameter
  let packetSize := satAdd (satAdd remainingLength 1) (variableLengthEncodedSize remainingLength)
  refuseIf (maxPacketSize < packetSize) .badParameter
  pure { remainingLength, packetSize }

end RtosMqtt
