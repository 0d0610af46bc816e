import RtosMqtt.Wire.Property

/-! # Walking a property section back

A cursor stands on an identifier byte. It tells which property that is, steps
past it, or reads it when it is the one that is asked for.
-/

namespace RtosMqtt

inductive CursorError where
  | badParameter | badResponse | endOfProperties
  deriving DecidableEq, Repr

/-- How wide a property's value is. -/
inductive Width where
  | byte | twoBytes | fourBytes | string | pair | variableLength
  deriving DecidableEq, Repr

/-- The width of the property that an identifier introduces, if it introduces one. -/
def widthOf (id : UInt8) : Option Width :=
  if id ∈ [PropertyId.sessionExpiry, PropertyId.maxPacketSize, PropertyId.willDelay,
      PropertyId.messageExpiry] then some .fourBytes
  else if id ∈ [PropertyId.receiveMax, PropertyId.topicAliasMax, PropertyId.topicAlias,
      PropertyId.serverKeepAlive] then some .twoBytes
  else if id ∈ [PropertyId.requestProblem, PropertyId.requestResponse, PropertyId.payloadFormat,
      PropertyId.maxQos, PropertyId.retainAvailable, PropertyId.wildcardAvailable,
      PropertyId.subscriptionIdAvailable, PropertyId.sharedSubAvailable] then some .byte
  else if id ∈ [PropertyId.authMethod, PropertyId.contentType, PropertyId.responseTopic,
      PropertyId.assignedClientId, PropertyId.reasonString, PropertyId.responseInfo,
      PropertyId.serverReference, PropertyId.authData, PropertyId.correlationData] then
    some .string
  else if id = PropertyId.userProperty then some .pair
  else if id = PropertyId.subscriptionId then some .variableLength
  else none

structure PropertyCursor where
  bytes : List UInt8
  position : ℕ := 0
  deriving DecidableEq, Repr

namespace PropertyCursor

abbrev Stepping := Prog PropertyCursor CursorError

def new (bytes : List UInt8) : PropertyCursor where
  bytes := bytes

def orEnd {α : Type} : Option α → Except CursorError α
  | none => .error .endOfProperties
  | some a => .ok a

def seek (position : ℕ) : Stepping Unit := Prog.modify fun c => { c with position }

def identifier : Stepping UInt8 := do
  let c ← Prog.get
  Prog.refuse (c.bytes.length ≤ c.position) .endOfProperties
  Prog.lift (orEnd c.bytes[c.position]?)

/-- A reader over everything after the identifier byte. -/
def body : Stepping PropertyReader := do
  let c ← Prog.get
  let rest ← Prog.lift (orEnd (slice? c.bytes (c.position + 1) c.bytes.length))
  Prog.refuse (u32Max < rest.length) .badResponse
  pure (.new rest rest.length)

def nextType : Stepping UInt8 := do
  let id ← identifier
  Prog.refuse (widthOf id = none) .badParameter
  pure id

/-- Read a value, and step past it once it is read. -/
def readValue {α : Type} (read : PropertyReader.Reading α) (reader : PropertyReader) :
    Stepping α := do
  let (value, used) ← Prog.lift
    (match read reader with
    | (.ok value, reader) => .ok (value, reader.position)
    | (.error _, _) => .error .badResponse)
  let c ← Prog.get
  seek (c.position + 1 + used)
  pure value

/-- The subscription identifier, which is not read through the reader. -/
def variableLength : Stepping ℕ := do
  let c ← Prog.get
  let start := c.position + 1
  let rest ← Prog.lift (orEnd (slice? c.bytes start c.bytes.length))
  let value ← Prog.lift ((decodeVariableLength rest).mapError fun _ => .badResponse)
  seek (start + variableLengthEncodedSize value)
  pure value

/-- Step past whatever is under the cursor. -/
def skip : Stepping Unit := do
  let id ← identifier
  match widthOf id with
  | none => Prog.throw .badParameter
  | some width => do
    let reader ← body
    match width with
    | .byte => do
      let _ ← readValue (PropertyReader.u8 false) reader
      pure ()
    | .twoBytes => do
      let _ ← readValue (PropertyReader.u16 false) reader
      pure ()
    | .fourBytes => do
      let _ ← readValue (PropertyReader.u32 false) reader
      pure ()
    | .string => do
      let _ ← readValue (PropertyReader.utf8 false) reader
      pure ()
    | .pair => do
      let _ ← readValue PropertyReader.userProperty reader
      pure ()
    | .variableLength => do
      let _ ← variableLength
      pure ()

def one {α : Type} (expected : UInt8) (read : PropertyReader.Reading α) : Stepping α := do
  let id ← identifier
  Prog.refuse (id ≠ expected) .badParameter
  let reader ← body
  readValue read reader

def userProperty : Stepping (List UInt8 × List UInt8) :=
  one PropertyId.userProperty PropertyReader.userProperty

def subscriptionId : Stepping ℕ := do
  let id ← identifier
  Prog.refuse (id ≠ PropertyId.subscriptionId) .badParameter
  variableLength

def sessionExpiry : Stepping ℕ := one PropertyId.sessionExpiry (PropertyReader.u32 false)

def receiveMax : Stepping UInt16 := one PropertyId.receiveMax (PropertyReader.u16 false)

def maxQos : Stepping UInt8 := one PropertyId.maxQos (PropertyReader.u8 false)

def retainAvailable : Stepping UInt8 := one PropertyId.retainAvailable (PropertyReader.u8 false)

def maxPacketSize : Stepping ℕ := one PropertyId.maxPacketSize (PropertyReader.u32 false)

def assignedClientId : Stepping (List UInt8) :=
  one PropertyId.assignedClientId (PropertyReader.utf8 false)

def topicAliasMax : Stepping UInt16 := one PropertyId.topicAliasMax (PropertyReader.u16 false)

def reasonString : Stepping (List UInt8) := one PropertyId.reasonString (PropertyReader.utf8 false)

def wildcardAvailable : Stepping UInt8 := one PropertyId.wildcardAvailable (PropertyReader.u8 false)

def subscriptionIdAvailable : Stepping UInt8 :=
  one PropertyId.subscriptionIdAvailable (PropertyReader.u8 false)

def sharedSubAvailable : Stepping UInt8 :=
  one PropertyId.sharedSubAvailable (PropertyReader.u8 false)

def serverKeepAlive : Stepping UInt16 := one PropertyId.serverKeepAlive (PropertyReader.u16 false)

def responseInfo : Stepping (List UInt8) := one PropertyId.responseInfo (PropertyReader.utf8 false)

def serverReference : Stepping (List UInt8) :=
  one PropertyId.serverReference (PropertyReader.utf8 false)

def authMethod : Stepping (List UInt8) := one PropertyId.authMethod (PropertyReader.utf8 false)

def authData : Stepping (List UInt8) := one PropertyId.authData (PropertyReader.utf8 false)

def payloadFormat : Stepping UInt8 := one PropertyId.payloadFormat (PropertyReader.u8 false)

def messageExpiry : Stepping ℕ := one PropertyId.messageExpiry (PropertyReader.u32 false)

def topicAlias : Stepping UInt16 := one PropertyId.topicAlias (PropertyReader.u16 false)

def responseTopic : Stepping (List UInt8) := one PropertyId.responseTopic (PropertyReader.utf8 false)

def correlationData : Stepping (List UInt8) :=
  one PropertyId.correlationData (PropertyReader.utf8 false)

def contentType : Stepping (List UInt8) := one PropertyId.contentType (PropertyReader.utf8 false)

/-- Every run that stops with an error leaves the cursor alone. -/
def Careful {α : Type} (p : Stepping α) : Prop := ∀ c e c', p c = (.error e, c') → c' = c

def Resting {α : Type} (p : Stepping α) : Prop := ∀ c, (p c).2 = c

section Careful

variable {α β : Type} {p : Stepping α} {f : α → Stepping β}

theorem Resting.careful (h : Resting p) : Careful p := by
  intro c e c' hp
  rw [← h c, hp]

theorem Resting.bind (h : Resting p) (hf : ∀ a, Resting (f a)) : Resting (p >>= f) := by
  intro c
  have hc := h c
  rw [Prog.bind_apply]
  rcases hp : p c with ⟨_ | a, u⟩
  · rw [hp] at hc
    exact hc
  · rw [hp] at hc
    obtain rfl := hc
    exact hf a u

theorem Resting.bind_careful (h : Resting p) (hf : ∀ a, Careful (f a)) : Careful (p >>= f) := by
  intro c e c' hp
  rcases Prog.bind_eq_error.mp hp with hp | ⟨a, u, hp, hfa⟩
  · rw [← h c, hp]
  · have hu := h c
    rw [hp] at hu
    obtain rfl := hu
    exact hf a u e c' hfa

theorem Careful.bind_pure (h : Careful p) (b : α → β) : Careful (p >>= fun a => pure (b a)) := by
  intro c e c' hp
  rcases Prog.bind_eq_error.mp hp with hp | ⟨a, u, -, hpure⟩
  · exact h c e c' hp
  · cases hpure

theorem resting_get : Resting (Prog.get : Stepping PropertyCursor) := fun _ => rfl

theorem resting_lift (r : Except CursorError α) : Resting (Prog.lift r : Stepping α) := fun _ => rfl

theorem resting_refuse (c : Prop) [Decidable c] (e : CursorError) :
    Resting (Prog.refuse c e : Stepping Unit) := fun _ => rfl

theorem careful_seek (position : ℕ) : Careful (seek position) := nofun

theorem resting_identifier : Resting identifier :=
  resting_get.bind fun _ => (resting_refuse _ _).bind fun _ => resting_lift _

theorem resting_body : Resting body :=
  resting_get.bind fun _ => (resting_lift _).bind fun _ => (resting_refuse _ _).bind fun _ =>
    fun _ => rfl

theorem careful_readValue (read : PropertyReader.Reading α) (reader : PropertyReader) :
    Careful (readValue read reader) :=
  (resting_lift _).bind_careful fun _ => resting_get.bind_careful fun _ =>
    (careful_seek _).bind_pure _

theorem careful_variableLength : Careful variableLength :=
  resting_get.bind_careful fun _ => (resting_lift _).bind_careful fun _ =>
    (resting_lift _).bind_careful fun _ => (careful_seek _).bind_pure _

theorem careful_skip : Careful skip := by
  apply resting_identifier.bind_careful
  intro id
  cases widthOf id with
  | none => exact (resting_lift _).careful
  | some width =>
    apply resting_body.bind_careful
    intro reader
    cases width with
    | variableLength => exact careful_variableLength.bind_pure _
    | _ => exact (careful_readValue _ _).bind_pure _

theorem careful_one (expected : UInt8) (read : PropertyReader.Reading α) :
    Careful (one expected read) :=
  resting_identifier.bind_careful fun _ => (resting_refuse _ _).bind_careful fun _ =>
    resting_body.bind_careful fun _ => careful_readValue _ _

theorem careful_subscriptionId : Careful subscriptionId :=
  resting_identifier.bind_careful fun _ => (resting_refuse _ _).bind_careful fun _ =>
    careful_variableLength

end Careful

end PropertyCursor

end RtosMqtt
