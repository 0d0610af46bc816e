import RtosMqtt.Wire.Property

/-! # The negotiated session

Each side's limits, with the defaults that hold until a CONNECT or a CONNACK
says otherwise, and the update a CONNECT's own properties make.
-/

namespace RtosMqtt

def maxPacketSizeLimit : ℕ := 268435460

structure ClientLimits where
  receiveMax : UInt16 := 65535
  maxPacketSize : ℕ := maxPacketSizeLimit
  topicAliasMax : UInt16 := 0
  requestResponseInfo : Bool := false
  requestProblemInfo : Bool := true
  deriving DecidableEq, Repr

structure ServerLimits where
  receiveMax : UInt16 := 65535
  maxQos : UInt8 := 2
  retainAvailable : UInt8 := 1
  maxPacketSize : ℕ := maxPacketSizeLimit
  topicAliasMax : UInt16 := 0
  wildcardAvailable : UInt8 := 1
  subscriptionIdAvailable : UInt8 := 1
  sharedAvailable : UInt8 := 1
  keepAlive : UInt16 := 65535
  deriving DecidableEq, Repr

structure ConnectionProperties where
  sessionExpiry : ℕ := 0
  client : ClientLimits := {}
  server : ServerLimits := {}
  deriving DecidableEq, Repr

/-- The properties under update and the ones seen; the rest may repeat. -/
structure ConnectUpdate where
  context : ConnectionProperties
  seen : List UInt8 := []
  deriving DecidableEq, Repr

namespace ConnectUpdate

/-- A walk that writes the session as it goes. -/
abbrev Updating := Prog (PropertyReader × ConnectUpdate) ParseError

def reading {α : Type} (p : PropertyReader.Reading α) : Updating α := fun (r, u) =>
  match p r with
  | (.ok a, r) => (.ok a, (r, u))
  | (.error _, r) => (.error .badResponse, (r, u))

def write (id : UInt8) (f : ConnectionProperties → ConnectionProperties) : Updating Unit :=
  Prog.modify fun (r, u) => (r, { context := f u.context, seen := id :: u.seen })

def property (id : UInt8) : Updating Unit := do
  let (_, u) ← Prog.get
  let used := id ∈ u.seen
  if id = PropertyId.sessionExpiry then
    let sessionExpiry ← reading (PropertyReader.u32 used)
    write id fun c => { c with sessionExpiry }
  else if id = PropertyId.receiveMax then
    let receiveMax ← reading (PropertyReader.u16 used)
    write id fun c => { c with client := { c.client with receiveMax } }
  else if id = PropertyId.maxPacketSize then
    let maxPacketSize ← reading (PropertyReader.u32 used)
    write id fun c => { c with client := { c.client with maxPacketSize } }
  else if id = PropertyId.topicAliasMax then
    let topicAliasMax ← reading (PropertyReader.u16 used)
    write id fun c => { c with client := { c.client with topicAliasMax } }
  -- stepped past and dropped, and free to repeat
  else if id = PropertyId.requestProblem ∨ id = PropertyId.requestResponse then
    let _ ← reading (PropertyReader.u8 false)
    pure ()
  else if id = PropertyId.authData ∨ id = PropertyId.authMethod then
    let _ ← reading (PropertyReader.utf8 false)
    pure ()
  else if id = PropertyId.userProperty then
    let _ ← reading PropertyReader.userProperty
    pure ()
  else Prog.throw .badParameter

def walk : (turns : ℕ) → Updating Unit
  | 0 => pure ()
  | turns + 1 => do
    let (r, _) ← Prog.get
    if r.remaining = 0 then pure ()
    else
      let id ← reading PropertyReader.propertyId
      property id
      walk turns

end ConnectUpdate

/-- What was read before a refusal stays written. -/
def updateWithConnectProps (properties : List UInt8) :
    Prog ConnectionProperties ParseError Unit := fun context =>
  if u32Max < properties.length ∨ remainingLengthInvalid ≤ properties.length then
    (.error .badParameter, context)
  else
    let (result, _, u) :=
      ConnectUpdate.walk properties.length (.new properties properties.length, { context })
    (result, u.context)

end RtosMqtt
