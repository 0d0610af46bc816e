import RtosMqtt.Client.Send

/-! # Publishing

A PUBLISH above QoS 0 is reserved in the records, then kept in the store with its
DUP flag set, then sent, and only then does the state machine learn of it.
-/

namespace RtosMqtt.Client

variable {W : Type} (env : Environment W)

/-- The parts of a PUBLISH in wire order, empty ones that may be absent left out. -/
def publishParts (head topicName : List UInt8) (qos : QoS) (packetId : UInt16)
    (prefixBytes properties payload : List UInt8) : List (List UInt8) :=
  [head, topicName] ++
    (if qos = .atMostOnce then [] else [toBeBytes16 packetId]) ++
    [prefixBytes] ++
    (if properties = [] then [] else [properties]) ++
    if payload = [] then [] else [payload]

def topicAliasOf (c : MqttContext) (properties : List UInt8) : Client W (Option UInt16) :=
  if properties = [] then pure none
  else
    check (fun _ => .badParameter)
      (validatePublishProperties c.properties.server.topicAliasMax properties)

def duplicateHeader (dup : Bool) (header : List UInt8) : Client W (List UInt8) :=
  if dup then pure header
  else do
    let flags ← check (fun _ => .badParameter) (updateDuplicateFlag (header.headD 0) true)
    pure (header.set 0 flags)

/-- A collision of a re-delivery is with the record being re-sent. -/
def reservePublish (publish : OutgoingPublish) (packetId : UInt16) : Client W Unit := do
  let answer ← reserve packetId publish.qos
  Prog.when (¬ (answer = some (.error .stateCollision) ∧ publish.dup = true)) do
    let _ ← accepted answer
    pure ()

def publish (publish : OutgoingPublish) (packetId : UInt16) : Client W Unit := do
  let c ← context
  check id (c.validatePublish publish.qos packetId publish.topicName.length
    publish.payload.length)
  let server := c.properties.server
  let topicAlias ← topicAliasOf c publish.properties
  check (fun _ => .badParameter)
    (validatePublishParams publish server.retainAvailable server.maxQos (topicAlias.getD 0)
      server.maxPacketSize)
  let size ← check (fun _ => .badParameter) (publishPacketSize publish server.maxPacketSize)
  let header :=
    serializePublishHeaderWithoutTopic publish size.remainingLength (List.replicate 7 0)
  let headerSize ← check (fun _ => .badParameter) header.1
  connected
  Prog.when (publish.qos ≠ .atMostOnce) (reservePublish publish packetId)
  let length := encodeVariableLength (List.replicate 4 0) publish.properties.length
  let dupHeader ← duplicateHeader publish.dup header.2
  let parts (header : List UInt8) := publishParts (header.take headerSize) publish.topicName
    publish.qos packetId (length.2.take length.1) publish.properties publish.payload
  Prog.when (publish.qos ≠ .atMostOnce) (keep env packetId.toUInt32 (parts dupHeader))
  let outcome ← sendVectors env (parts header.2)
  sentWhole (parts header.2).flatten.length outcome
  Prog.when (publish.qos ≠ .atMostOnce) do
    let answer ← updatePublish packetId .send publish.qos
    let _ ← accepted answer
    pure ()

end RtosMqtt.Client
