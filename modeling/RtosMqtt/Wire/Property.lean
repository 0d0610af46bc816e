import RtosMqtt.Wire.Header

/-! # Reading a property section

A reader walks a section under a budget of bytes. The budget is charged before
the body of a string is known to fit, and a refusal leaves it so.
-/

namespace RtosMqtt

/-- The one error of the property readers is a bad response; the two that the parsers
built on them share. -/
inductive ParseError where
  | badParameter | badResponse
  deriving DecidableEq, Repr

def orBadResponse {α : Type} : Option α → Except ParseError α
  | none => .error .badResponse
  | some a => .ok a

structure PropertyReader where
  bytes : List UInt8
  position : ℕ := 0
  remaining : ℕ
  deriving DecidableEq, Repr

/-- The shared decoder, on the front of a buffer. -/
def decodeVariableLength (buffer : List UInt8) : Except ParseError ℕ := do
  let (value, bytesDecoded) ←
    decodeFrom saturating (fun i => orBadResponse buffer[i]?) (remainingLengthInvalid ≤ ·)
      (.error .badResponse) 5 0 1 0
  refuseIf (bytesDecoded ≠ variableLengthEncodedSize value) .badResponse
  pure value

namespace PropertyReader

abbrev Reading := Prog PropertyReader ParseError

def new (bytes : List UInt8) (propertyLength : ℕ) : PropertyReader where
  bytes := bytes
  remaining := propertyLength

def take (n : ℕ) : Reading (List UInt8) := fun r =>
  match slice? r.bytes r.position (r.position + n) with
  | none => (.error .badResponse, r)
  | some bytes => (.ok bytes, { r with position := r.position + n })

def charge (n : ℕ) : Reading Unit := Prog.modify fun r => { r with remaining := r.remaining - n }

/-- Refuse a repeated property, or one the budget has no room for. -/
def room (used : Bool) (n : ℕ) : Reading Unit := do
  let r ← Prog.get
  Prog.refuse (used ∨ r.remaining < n) .badResponse

def u8 (used : Bool) : Reading UInt8 := do
  room used 1
  let bytes ← take 1
  let value ← Prog.lift (orBadResponse bytes.head?)
  charge 1
  pure value

def u16 (used : Bool) : Reading UInt16 := do
  room used 2
  let bytes ← take 2
  let value ← Prog.lift (orBadResponse (fromBeBytes16 bytes))
  charge 2
  pure value

def u32 (used : Bool) : Reading ℕ := do
  room used 4
  let bytes ← take 4
  let value ← Prog.lift (orBadResponse (fromBeBytes32 bytes))
  charge 4
  pure value

def propertyId : Reading UInt8 := do
  room false 1
  let bytes ← take 1
  let value ← Prog.lift (orBadResponse bytes.head?)
  charge 1
  pure value

def variableLength : Reading ℕ := do
  room false 1
  let r ← Prog.get
  let rest ← Prog.lift (orBadResponse (slice? r.bytes r.position r.bytes.length))
  let value ← Prog.lift (decodeVariableLength (rest.take (min r.remaining rest.length)))
  let encoded := variableLengthEncodedSize value
  Prog.modify fun r => { r with position := r.position + encoded }
  charge encoded
  pure value

def utf8 (used : Bool) : Reading (List UInt8) := do
  room used 2
  let header ← take 2
  let length ← Prog.lift (orBadResponse (fromBeBytes16 header))
  -- charged before the body is known to fit
  charge 2
  let r ← Prog.get
  Prog.refuse (r.remaining < length.toNat) .badResponse
  let body ← take length.toNat
  charge length.toNat
  pure body

def userProperty : Reading (List UInt8 × List UInt8) := do
  let key ← utf8 false
  let value ← utf8 false
  pure (key, value)

/-- Walk a section to its end, one property a turn, gathering what it says. Each turn
charges the budget, so as many turns as it has bytes are enough. -/
def walkFrom {α : Type} (property : α → UInt8 → Reading α) : (turns : ℕ) → α → Reading α
  | 0, found => pure found
  | turns + 1, found => do
    let r ← Prog.get
    if r.remaining = 0 then pure found
    else
      let id ← propertyId
      let found ← property found id
      walkFrom property turns found

def walk {α : Type} (property : α → UInt8 → Reading α) (found : α) (bytes : List UInt8)
    (propertyLength : ℕ) : Except ParseError α :=
  (walkFrom property propertyLength found (new bytes propertyLength)).1

end PropertyReader

namespace PropertyId

def payloadFormat : UInt8 := 0x01
def messageExpiry : UInt8 := 0x02
def contentType : UInt8 := 0x03
def responseTopic : UInt8 := 0x08
def correlationData : UInt8 := 0x09
def subscriptionId : UInt8 := 0x0B
def sessionExpiry : UInt8 := 0x11
def assignedClientId : UInt8 := 0x12
def serverKeepAlive : UInt8 := 0x13
def authMethod : UInt8 := 0x15
def authData : UInt8 := 0x16
def requestProblem : UInt8 := 0x17
def willDelay : UInt8 := 0x18
def requestResponse : UInt8 := 0x19
def responseInfo : UInt8 := 0x1A
def serverReference : UInt8 := 0x1C
def reasonString : UInt8 := 0x1F
def receiveMax : UInt8 := 0x21
def topicAliasMax : UInt8 := 0x22
def topicAlias : UInt8 := 0x23
def maxQos : UInt8 := 0x24
def retainAvailable : UInt8 := 0x25
def userProperty : UInt8 := 0x26
def maxPacketSize : UInt8 := 0x27
def wildcardAvailable : UInt8 := 0x28
def subscriptionIdAvailable : UInt8 := 0x29
def sharedSubAvailable : UInt8 := 0x2A

end PropertyId

/-- `encode_string`: the length prefix and the body, or nothing when they do not fit. -/
def encodeString (destination : List UInt8) (source : Option (List UInt8)) (length : UInt16) :
    ℕ × List UInt8 :=
  let total := length.toNat + 2
  if destination.length < total then (0, destination)
  else
    let headed := toBeBytes16 length ++ destination.drop 2
    match source with
    | none => (total, headed)
    | some bytes =>
      if length.toNat ≤ bytes.length then
        (total, toBeBytes16 length ++ bytes.take length.toNat ++ destination.drop total)
      else (0, headed)

end RtosMqtt
