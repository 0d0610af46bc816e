import RtosMqtt.Wire.Outgoing

/-! # Checking what the application sends

Before a packet is built, its property section is walked by the table of its
kind. Where a table keeps no flag for a property, a repeat of it passes.
-/

namespace RtosMqtt

open PropertyReader (Reading)

def validateWalk {α : Type} (property : α → UInt8 → Reading α) (found : α)
    (properties : List UInt8) : Except ParseError α := do
  refuseIf (u32Max < properties.length) .badParameter
  refuseIf (remainingLengthInvalid ≤ properties.length) .badParameter
  PropertyReader.walk property found properties properties.length

structure ConnectValidation where
  requestProblemInfo : Bool := false
  maxPacketSize : Option ℕ := none
  deriving DecidableEq, Repr

structure ConnectWalk where
  seen : List UInt8 := []
  found : ConnectValidation := {}
  deriving DecidableEq, Repr

/-- A property seen before is refused before it is read. -/
def checkOnce (seen : List UInt8) (id : UInt8) : Reading (List UInt8) := do
  Prog.refuse (id ∈ seen) .badResponse
  pure (id :: seen)

def readFlag : Reading UInt8 := do
  let value ← PropertyReader.u8 false
  Prog.refuse (value > 1) .badResponse
  pure value

def connectProperty (walk : ConnectWalk) (id : UInt8) : Reading ConnectWalk :=
  if id = PropertyId.sessionExpiry then do
    let seen ← checkOnce walk.seen id
    let _ ← PropertyReader.u32 false
    pure { walk with seen }
  else if id = PropertyId.receiveMax then do
    let seen ← checkOnce walk.seen id
    let value ← PropertyReader.u16 false
    Prog.refuse (value = 0) .badResponse
    pure { walk with seen }
  else if id = PropertyId.maxPacketSize then do
    let seen ← checkOnce walk.seen id
    let value ← PropertyReader.u32 false
    Prog.refuse (value = 0) .badResponse
    pure { seen, found := { walk.found with maxPacketSize := some value } }
  else if id = PropertyId.topicAliasMax then do
    let seen ← checkOnce walk.seen id
    let _ ← PropertyReader.u16 false
    pure { walk with seen }
  else if id = PropertyId.requestResponse then do
    let seen ← checkOnce walk.seen id
    let _ ← readFlag
    pure { walk with seen }
  else if id = PropertyId.requestProblem then do
    let seen ← checkOnce walk.seen id
    let value ← readFlag
    pure { seen, found := { walk.found with requestProblemInfo := value == 1 } }
  else if id = PropertyId.authMethod ∨ id = PropertyId.authData then do
    let seen ← checkOnce walk.seen id
    let _ ← PropertyReader.utf8 false
    pure { walk with seen }
  else if id = PropertyId.userProperty then do
    let _ ← PropertyReader.userProperty
    pure walk
  else Prog.throw .badResponse

/-- Authentication data needs a method, in either order. What is found starts from its defaults: the
caller passes a fresh one. -/
def validateConnectProperties (properties : List UInt8) : Except ParseError ConnectValidation := do
  let walk ← validateWalk connectProperty {} properties
  refuseIf (PropertyId.authData ∈ walk.seen ∧ PropertyId.authMethod ∉ walk.seen) .badParameter
  pure walk.found

def willProperty (seen : List UInt8) (id : UInt8) : Reading (List UInt8) :=
  if id = PropertyId.willDelay ∨ id = PropertyId.messageExpiry then do
    let seen ← checkOnce seen id
    let _ ← PropertyReader.u32 false
    pure seen
  else if id = PropertyId.payloadFormat then do
    let seen ← checkOnce seen id
    let _ ← readFlag
    pure seen
  else if id = PropertyId.contentType ∨ id = PropertyId.responseTopic ∨
      id = PropertyId.correlationData then do
    let seen ← checkOnce seen id
    let _ ← PropertyReader.utf8 false
    pure seen
  else if id = PropertyId.userProperty then do
    let _ ← PropertyReader.userProperty
    pure seen
  else Prog.throw .badResponse

def validateWillProperties (properties : List UInt8) : Except ParseError Unit := do
  let _ ← validateWalk willProperty [] properties
  pure ()

def subscribeProperty (subscriptionIdAvailable : Bool) (subscriptionId : Bool) (id : UInt8) :
    Reading Bool :=
  if id = PropertyId.subscriptionId then do
    Prog.refuse (subscriptionId = true) .badParameter
    let value ← PropertyReader.variableLength
    Prog.refuse (subscriptionIdAvailable = false) .badParameter
    Prog.refuse (value = 0) .badParameter
    pure true
  else if id = PropertyId.userProperty then do
    let _ ← PropertyReader.userProperty
    pure subscriptionId
  else Prog.throw .badParameter

def validateSubscribeProperties (subscriptionIdAvailable : Bool) (properties : List UInt8) :
    Except ParseError Unit := do
  let _ ← validateWalk (subscribeProperty subscriptionIdAvailable) false properties
  pure ()

def unsubscribeProperty (_ : Unit) (id : UInt8) : Reading Unit :=
  if id = PropertyId.userProperty then do
    let _ ← PropertyReader.userProperty
    pure ()
  else Prog.throw .badParameter

def validateUnsubscribeProperties (properties : List UInt8) : Except ParseError Unit :=
  validateWalk unsubscribeProperty () properties

/-- The topic alias is the one property kept from repeating. -/
def outgoingPublishProperty (serverTopicAliasMax : UInt16) (topicAlias : Option UInt16)
    (id : UInt8) : Reading (Option UInt16) :=
  if id = PropertyId.payloadFormat then do
    let _ ← PropertyReader.u8 false
    pure topicAlias
  else if id = PropertyId.messageExpiry then do
    let _ ← PropertyReader.u32 false
    pure topicAlias
  else if id = PropertyId.contentType ∨ id = PropertyId.responseTopic ∨
      id = PropertyId.correlationData then do
    let _ ← PropertyReader.utf8 false
    pure topicAlias
  else if id = PropertyId.topicAlias then do
    let value ← PropertyReader.u16 topicAlias.isSome
    Prog.refuse (serverTopicAliasMax < value) .badParameter
    pure (some value)
  else if id = PropertyId.userProperty then do
    let _ ← PropertyReader.userProperty
    pure topicAlias
  else Prog.throw .badParameter

def validatePublishProperties (serverTopicAliasMax : UInt16) (properties : List UInt8) :
    Except ParseError (Option UInt16) :=
  validateWalk (outgoingPublishProperty serverTopicAliasMax) none properties

def outgoingAckProperty (reasonStringSeen : Bool) (id : UInt8) : Reading Bool :=
  if id = PropertyId.reasonString then do
    let _ ← PropertyReader.utf8 reasonStringSeen
    pure true
  else if id = PropertyId.userProperty then do
    let _ ← PropertyReader.userProperty
    pure reasonStringSeen
  else Prog.throw .badParameter

def validatePublishAckProperties (properties : List UInt8) : Except ParseError Unit := do
  let _ ← validateWalk outgoingAckProperty false properties
  pure ()

/-- The broker's highest QoS is only compared with zero. -/
def validatePublishParams (publish : OutgoingPublish) (retainAvailable maxQos : UInt8)
    (topicAlias : UInt16) (maxPacketSize : ℕ) : Except ParseError Unit := do
  refuseIf (publish.retain ∧ retainAvailable = 0) .badParameter
  refuseIf (publish.qos ≠ .atMostOnce ∧ maxQos = 0) .badParameter
  refuseIf (topicAlias = 0 ∧ publish.topicName = []) .badParameter
  refuseIf (u16Max < publish.topicName.length) .badParameter
  refuseIf (maxPacketSize = 0) .badParameter

end RtosMqtt
