import RtosMqtt.Library.Program

/-! # Fixed headers and variable-length integers

A packet starts with its type byte and the remaining length, seven bits a byte
with the top bit saying that another follows. Lengths are 32-bit numbers and
their sums saturate.
-/

namespace RtosMqtt

def u32Max : ℕ := 4294967295

def satAdd (a b : ℕ) : ℕ := min (a + b) u32Max

def bit (n : UInt8) : UInt8 := 1 <<< n

def slice? (buffer : List UInt8) (start stop : ℕ) : Option (List UInt8) :=
  if start ≤ stop ∧ stop ≤ buffer.length then some ((buffer.take stop).drop start) else none

theorem of_slice? {buffer bytes : List UInt8} {start stop : ℕ}
    (h : slice? buffer start stop = some bytes) : start ≤ stop ∧ stop ≤ buffer.length := by
  unfold slice? at h
  split_ifs at h with hle
  exact hle

theorem length_of_slice? {buffer bytes : List UInt8} {start stop : ℕ}
    (h : slice? buffer start stop = some bytes) : bytes.length = stop - start := by
  unfold slice? at h
  split_ifs at h with hle
  obtain rfl := Option.some.inj h
  rw [List.length_drop, List.length_take]
  omega

def toBeBytes16 (n : UInt16) : List UInt8 := [(n >>> 8).toUInt8, n.toUInt8]

def fromBeBytes16 : List UInt8 → Option UInt16
  | [hi, lo] => some (hi.toUInt16 <<< 8 ||| lo.toUInt16)
  | _ => none

def toBeBytes32 (n : ℕ) : List UInt8 :=
  [(n / 16777216).toUInt8, (n / 65536).toUInt8, (n / 256).toUInt8, n.toUInt8]

def fromBeBytes32 : List UInt8 → Option ℕ
  | [a, b, c, d] => some (((a.toNat * 256 + b.toNat) * 256 + c.toNat) * 256 + d.toNat)
  | _ => none

namespace Packet

def connect : UInt8 := 0x10
def connack : UInt8 := 0x20
def publish : UInt8 := 0x30
def puback : UInt8 := 0x40
def pubrec : UInt8 := 0x50
def pubrelNibble : UInt8 := 0x60
def pubrel : UInt8 := 0x62
def pubcomp : UInt8 := 0x70
def subscribe : UInt8 := 0x82
def suback : UInt8 := 0x90
def unsubscribe : UInt8 := 0xA2
def unsuback : UInt8 := 0xB0
def pingreq : UInt8 := 0xC0
def pingresp : UInt8 := 0xD0
def disconnect : UInt8 := 0xE0
def auth : UInt8 := 0xF0

end Packet

def maxRemainingLength : ℕ := 268435455

def remainingLengthInvalid : ℕ := 268435456

structure PacketHeader where
  packetType : UInt8
  remainingLength : ℕ
  headerLength : ℕ
  deriving DecidableEq, Repr

inductive HeaderError where
  | noDataAvailable | needMoreBytes | badResponse
  deriving DecidableEq, Repr

/-- The types a broker may send, by high nibble; a PUBREL's second bit must be set. -/
def incomingPacketValid (packetType : UInt8) : Bool :=
  if packetType &&& 0xF0 = Packet.pubrelNibble then packetType &&& 0x02 != 0
  else [Packet.connack, Packet.publish, Packet.puback, Packet.pubrec, Packet.pubcomp,
    Packet.suback, Packet.unsuback, Packet.pingresp, Packet.disconnect,
    Packet.auth].any fun t => t >>> 4 == packetType >>> 4

def variableLengthEncodedSize (length : ℕ) : ℕ :=
  if length < 128 then 1
  else if length < 16384 then 2
  else if length < 2097152 then 3
  else 4

/-- A whole packet: the body, the bytes that encode its length, and the type byte. -/
def wholePacketSize (remainingLength : ℕ) : ℕ :=
  satAdd (satAdd remainingLength (variableLengthEncodedSize remainingLength)) 1

/-- One turn writes one byte of seven bits, least significant first. -/
def encodeFrom : (turns : ℕ) → (remaining written : ℕ) → List UInt8 → ℕ × List UInt8
  | 0, _, written, destination => (written, destination)
  | turns + 1, remaining, written, destination =>
    let low := (remaining % 128).toUInt8
    let byte := if remaining / 128 > 0 then low ||| 0x80 else low
    if written < destination.length then
      if remaining / 128 = 0 then (written + 1, destination.set written byte)
      else encodeFrom turns (remaining / 128) (written + 1) (destination.set written byte)
    else (written, destination)

/-- The bytes written, zero when the destination is too short. A `u32` has at most five digits. -/
def encodeVariableLength (destination : List UInt8) (length : ℕ) : ℕ × List UInt8 :=
  if destination.length < variableLengthEncodedSize length then (0, destination)
  else encodeFrom 5 length 0 destination

structure Arithmetic where
  add : ℕ → ℕ → ℕ
  mul : ℕ → ℕ → ℕ

def wrapping : Arithmetic where
  add a b := (a + b) % (u32Max + 1)
  mul a b := a * b % (u32Max + 1)

def saturating : Arithmetic where
  add := satAdd
  mul a b := min (a * b) u32Max

section Decode

variable {m : Type → Type} [Monad m]

/-- The digits of a variable-length integer and how many there were. The multiplier is
checked before a byte is asked for, so a fifth one is never read. -/
def decodeFrom (arith : Arithmetic) (next : ℕ → m UInt8) (outOfRange : ℕ → Bool)
    (bad : m (ℕ × ℕ)) : (turns : ℕ) → (value multiplier bytesDecoded : ℕ) → m (ℕ × ℕ)
  | 0, _, _, _ => bad
  | turns + 1, value, multiplier, bytesDecoded =>
    if multiplier > 2097152 then bad
    else do
      let byte ← next bytesDecoded
      let value := arith.add value (arith.mul (byte &&& 0x7F).toNat multiplier)
      if outOfRange value then bad
      else if byte &&& 0x80 = 0 then pure (value, bytesDecoded + 1)
      else
        decodeFrom arith next outOfRange bad turns value (arith.mul multiplier 128)
          (bytesDecoded + 1)

end Decode

/-- The byte after the type byte and the digits so far, when it has been received. -/
def headerByte (buffer : List UInt8) (available bytesDecoded : ℕ) : Except HeaderError UInt8 :=
  if available ≤ bytesDecoded + 1 then .error .needMoreBytes
  else
    match buffer[bytesDecoded + 1]? with
    | none => .error .needMoreBytes
    | some byte => .ok byte

def processIncomingPacketTypeAndLength (buffer : List UInt8) (available : ℕ) :
    Except HeaderError PacketHeader :=
  if available < 1 then .error .noDataAvailable
  else
    match buffer.head? with
    | none => .error .noDataAvailable
    | some packetType => do
      refuseIf (!incomingPacketValid packetType) .badResponse
      let (remainingLength, bytesDecoded) ←
        decodeFrom wrapping (headerByte buffer available) (fun _ => false) (.error .badResponse)
          5 0 1 0
      refuseIf (bytesDecoded ≠ variableLengthEncodedSize remainingLength) .badResponse
      pure { packetType, remainingLength, headerLength := bytesDecoded + 1 }

end RtosMqtt
