import RtosMqtt.Wire.Connack
import RtosMqtt.Wire.Writer

/-! # Building a property section

A builder appends properties to a buffer, refusing one that is already set, that
the packet may not carry, or that does not fit. A resumed builder appends after
what is there and has forgotten which properties those were.
-/

namespace RtosMqtt

inductive BuilderError where
  | empty | tooLong | alreadySet | notAllowedInPacket | badValue | noMemory
  deriving DecidableEq, Repr

structure PropertyBuilder where
  buffer : List UInt8
  position : ℕ := 0
  fields : List Field := []
  deriving DecidableEq, Repr

/-- The properties each packet may carry; a CONNECT's include its will's. -/
def allowedProperties (packetType : UInt8) : List Field :=
  if packetType = Packet.connect then
    [.sessionExpiryInterval, .receiveMaximum, .maxPacketSize, .topicAliasMax,
      .requestResponseInfo, .requestProblemInfo, .userProp, .authenticationMethod,
      .authenticationData, .willDelay, .payloadFormatIndicator, .messageExpiryInterval,
      .contentType, .responseTopic, .correlationData]
  else if packetType = Packet.connack then
    [.sessionExpiryInterval, .receiveMaximum, .maxQos, .retainAvailable, .maxPacketSize,
      .assignedClientId, .topicAliasMax, .reasonString, .userProp,
      .wildcardSubscriptionAvailable, .subscriptionIdAvailable, .sharedSubscriptionAvailable,
      .serverKeepAlive, .responseInformation, .serverReference, .authenticationMethod,
      .authenticationData]
  else if packetType = Packet.publish then
    [.payloadFormatIndicator, .messageExpiryInterval, .topicAlias, .responseTopic,
      .correlationData, .userProp, .subscriptionId, .contentType]
  else if isPublishAck packetType then [.reasonString, .userProp]
  else if packetType = Packet.subscribe then [.subscriptionId, .userProp]
  else if packetType = Packet.suback ∨ packetType = Packet.unsuback then
    [.reasonString, .userProp]
  else if packetType = Packet.unsubscribe then [.userProp]
  else if packetType = Packet.disconnect then
    [.sessionExpiryInterval, .reasonString, .userProp, .serverReference]
  else if packetType = Packet.auth then
    [.authenticationMethod, .authenticationData, .reasonString, .userProp]
  else []

namespace PropertyBuilder

abbrev Building := Prog PropertyBuilder BuilderError Unit

def new (buffer : List UInt8) : Except BuilderError PropertyBuilder := do
  refuseIf (buffer = []) .empty
  refuseIf (u32Max < buffer.length) .tooLong
  refuseIf (remainingLengthInvalid ≤ buffer.length) .tooLong
  pure { buffer }

def resume (buffer : List UInt8) (position : ℕ) : Except BuilderError PropertyBuilder := do
  refuseIf (buffer.length < position) .tooLong
  let builder ← new buffer
  pure { builder with position }

def sectionBytes (b : PropertyBuilder) : List UInt8 := b.buffer.take b.position

/-- Room in the buffer, and in the largest section there is. -/
def fits (needed : ℕ) : Building := do
  let b ← Prog.get
  Prog.refuse (b.buffer.length - b.position < needed) .noMemory
  Prog.refuse (u32Max < b.position + needed) .tooLong
  Prog.refuse (remainingLengthInvalid < b.position + needed) .tooLong

def allowed (field : Field) : Option UInt8 → Building
  | none => pure ()
  | some kind => Prog.refuse (field ∉ allowedProperties kind) .notAllowedInPacket

def roomFor (needed : ℕ) (field : Field) (packetType : Option UInt8) : Building := do
  let b ← Prog.get
  Prog.refuse (field ∈ b.fields) .alreadySet
  allowed field packetType
  fits needed

/-- Write the identifier and the bytes after it. -/
def put (id : UInt8) (bytes : List UInt8) : Building := fun b =>
  match writeAt BuilderError.noMemory b.position (id :: bytes) b.buffer with
  | (.ok (), buffer) => (.ok (), { b with buffer, position := b.position + 1 + bytes.length })
  | (.error e, _) => (.error e, b)

/-- Write the identifier, and let `encode` write the `width` bytes behind it. The position moves once
that went well. -/
def putEncoded (id : UInt8) (width : ℕ) (encode : List UInt8 → Bool × List UInt8) : Building :=
  fun b =>
    let finish := b.position + 1 + width
    match slice? b.buffer b.position finish with
    | none | some [] => (.error .noMemory, b)
    | some (_ :: body) =>
      let (complete, body) := encode body
      let buffer := b.buffer.take b.position ++ id :: body ++ b.buffer.drop finish
      if complete then (.ok (), { b with buffer, position := finish })
      else (.error .noMemory, { b with buffer })

def mark (field : Field) : Building :=
  Prog.modify fun b => { b with fields := field :: b.fields }

def addFixed (bytes : List UInt8) (id : UInt8) (field : Field) (packetType : Option UInt8) :
    Building := do
  roomFor (bytes.length + 1) field packetType
  put id bytes
  mark field

def addU8 (value : Bool) : UInt8 → Field → Option UInt8 → Building :=
  addFixed [if value then 1 else 0]

def addU16 (value : UInt16) : UInt8 → Field → Option UInt8 → Building :=
  addFixed (toBeBytes16 value)

def addU32 (value : UInt32) : UInt8 → Field → Option UInt8 → Building :=
  addFixed (toBeBytes32 value.toNat)

def addUtf8 (value : List UInt8) (id : UInt8) (field : Field) (packetType : Option UInt8) :
    Building := do
  Prog.refuse (value = []) .badValue
  Prog.refuse (65535 < value.length) .badValue
  roomFor (value.length + 3) field packetType
  put id (toBeBytes16 value.length.toUInt16 ++ value)
  mark field

def sessionExpiry (seconds : UInt32) : Option UInt8 → Building :=
  addU32 seconds PropertyId.sessionExpiry .sessionExpiryInterval

def receiveMax (value : UInt16) (packetType : Option UInt8) : Building := do
  Prog.refuse (value = 0) .badValue
  addU16 value PropertyId.receiveMax .receiveMaximum packetType

def maxPacketSize (value : UInt32) (packetType : Option UInt8) : Building := do
  Prog.refuse (value = 0) .badValue
  addU32 value PropertyId.maxPacketSize .maxPacketSize packetType

def topicAliasMax (value : UInt16) : Option UInt8 → Building :=
  addU16 value PropertyId.topicAliasMax .topicAliasMax

def requestResponseInfo (value : Bool) : Option UInt8 → Building :=
  addU8 value PropertyId.requestResponse .requestResponseInfo

def requestProblemInfo (value : Bool) : Option UInt8 → Building :=
  addU8 value PropertyId.requestProblem .requestProblemInfo

def authMethod (method : List UInt8) : Option UInt8 → Building :=
  addUtf8 method PropertyId.authMethod .authenticationMethod

def authData (data : List UInt8) (packetType : Option UInt8) : Building := do
  let b ← Prog.get
  Prog.refuse (.authenticationMethod ∉ b.fields) .badValue
  addUtf8 data PropertyId.authData .authenticationData packetType

def payloadFormat (utf8 : Bool) : Option UInt8 → Building :=
  addU8 utf8 PropertyId.payloadFormat .payloadFormatIndicator

def messageExpiry (seconds : UInt32) : Option UInt8 → Building :=
  addU32 seconds PropertyId.messageExpiry .messageExpiryInterval

def willDelay (seconds : UInt32) : Option UInt8 → Building :=
  addU32 seconds PropertyId.willDelay .willDelay

def topicAlias (value : UInt16) (packetType : Option UInt8) : Building := do
  Prog.refuse (value = 0) .badValue
  addU16 value PropertyId.topicAlias .topicAlias packetType

def responseTopic (topic : List UInt8) (packetType : Option UInt8) : Building := do
  Prog.refuse (0x23 ∈ topic ∨ 0x2B ∈ topic) .badValue
  addUtf8 topic PropertyId.responseTopic .responseTopic packetType

def correlationData (data : List UInt8) : Option UInt8 → Building :=
  addUtf8 data PropertyId.correlationData .correlationData

def contentType (value : List UInt8) : Option UInt8 → Building :=
  addUtf8 value PropertyId.contentType .contentType

def reasonString (reason : List UInt8) : Option UInt8 → Building :=
  addUtf8 reason PropertyId.reasonString .reasonString

def encodeLength (value : ℕ) (body : List UInt8) : Bool × List UInt8 :=
  let (written, body) := encodeVariableLength body value
  (written == variableLengthEncodedSize value, body)

/-- A variable-length value of its own width. -/
def subscriptionId (value : UInt32) (packetType : Option UInt8) : Building := do
  Prog.refuse (value = 0 ∨ maxRemainingLength < value.toNat) .badValue
  let width := variableLengthEncodedSize value.toNat
  roomFor (width + 1) .subscriptionId packetType
  putEncoded PropertyId.subscriptionId width (encodeLength value.toNat)
  mark .subscriptionId

def encodePair (key value body : List UInt8) : Bool × List UInt8 :=
  let (written, body) := encodeString body (some key) key.length.toUInt16
  if written = 0 ∨ body.length < written then (false, body)
  else
    let (more, tail) :=
      encodeString (body.drop written) (some value) value.length.toUInt16
    (more != 0, body.take written ++ tail)

/-- Two strings, and no field: a user property may repeat. -/
def userProperty (key value : List UInt8) (packetType : Option UInt8) : Building := do
  Prog.refuse (key = [] ∨ value = []) .badValue
  Prog.refuse (65535 < key.length ∨ 65535 < value.length) .badValue
  allowed .userProp packetType
  fits (key.length + value.length + 5)
  putEncoded PropertyId.userProperty (key.length + value.length + 4) (encodePair key value)

end PropertyBuilder

inductive Adder where
  | sessionExpiry (seconds : UInt32)
  | receiveMax (value : UInt16)
  | maxPacketSize (value : UInt32)
  | topicAliasMax (value : UInt16)
  | requestResponseInfo (value : Bool)
  | requestProblemInfo (value : Bool)
  | authMethod (method : List UInt8)
  | authData (data : List UInt8)
  | payloadFormat (utf8 : Bool)
  | messageExpiry (seconds : UInt32)
  | willDelay (seconds : UInt32)
  | topicAlias (value : UInt16)
  | responseTopic (topic : List UInt8)
  | correlationData (data : List UInt8)
  | contentType (value : List UInt8)
  | reasonString (reason : List UInt8)
  | subscriptionId (value : UInt32)
  | userProperty (key value : List UInt8)
  deriving DecidableEq, Repr

/-- Make the call, with the packet type the caller names. -/
def Adder.add (packetType : Option UInt8) : Adder → PropertyBuilder.Building
  | .sessionExpiry seconds => PropertyBuilder.sessionExpiry seconds packetType
  | .receiveMax value => PropertyBuilder.receiveMax value packetType
  | .maxPacketSize value => PropertyBuilder.maxPacketSize value packetType
  | .topicAliasMax value => PropertyBuilder.topicAliasMax value packetType
  | .requestResponseInfo value => PropertyBuilder.requestResponseInfo value packetType
  | .requestProblemInfo value => PropertyBuilder.requestProblemInfo value packetType
  | .authMethod method => PropertyBuilder.authMethod method packetType
  | .authData data => PropertyBuilder.authData data packetType
  | .payloadFormat utf8 => PropertyBuilder.payloadFormat utf8 packetType
  | .messageExpiry seconds => PropertyBuilder.messageExpiry seconds packetType
  | .willDelay seconds => PropertyBuilder.willDelay seconds packetType
  | .topicAlias value => PropertyBuilder.topicAlias value packetType
  | .responseTopic topic => PropertyBuilder.responseTopic topic packetType
  | .correlationData data => PropertyBuilder.correlationData data packetType
  | .contentType value => PropertyBuilder.contentType value packetType
  | .reasonString reason => PropertyBuilder.reasonString reason packetType
  | .subscriptionId value => PropertyBuilder.subscriptionId value packetType
  | .userProperty key value => PropertyBuilder.userProperty key value packetType

namespace PropertyBuilder

def addAll (b : PropertyBuilder) (calls : List (Adder × Option UInt8)) : PropertyBuilder :=
  calls.foldl (fun b (adder, packetType) => (adder.add packetType b).2) b

end PropertyBuilder

end RtosMqtt
