import RtosMqtt.Client.Send

/-! # The receive loop

One read, and then as many packets as the buffer holds whole. A packet that was
handled is dropped off the front of the buffer; one whose handling answered an
error stays where it is, and the call ends with that error.
-/

namespace RtosMqtt

def packetTxTimeoutMs : UInt32 := 30000

def packetRxTimeoutMs : UInt32 := 30000

def pingrespTimeoutMs : UInt32 := 5000

def usizeMax : ℕ := 18446744073709551615

/-- What an acknowledgement about to be sent should carry. -/
structure Reply where
  reasonCode : Option UInt8
  propertyLength : ℕ
  deriving DecidableEq, Repr

namespace MqttContext

/-- The packet at the front of the buffer, as the deserializers want it. -/
def packetView (c : MqttContext) (total : ℕ) : Option PacketInfo :=
  match processIncomingPacketTypeAndLength c.network c.index with
  | .error _ => none
  | .ok header => (slice? c.network header.headerLength total).map fun body =>
      { packetType := header.packetType
        remainingLength := header.remainingLength
        remainingData := body }

/-- How long the packet at the front of the buffer claims to be. -/
def measure (c : MqttContext) : Except ClientError ℕ :=
  match processIncomingPacketTypeAndLength c.network c.index with
  | .error e => .error (.ofHeader e)
  | .ok header => .ok (header.remainingLength + header.headerLength)

/-- Drop bytes off the front and slide the rest down. -/
def consume (c : MqttContext) (total : ℕ) : MqttContext :=
  { c with
    index := c.index - total
    network := c.network.drop total ++ c.network.drop (c.network.length - total) }

def limits (c : MqttContext) : Limits where
  maxPacketSize := c.properties.client.maxPacketSize
  requestProblemInfo := c.properties.client.requestProblemInfo

end MqttContext

namespace Client

variable {W : Type} (env : Environment W)

/-- A PUBREC and a PUBREL are kept, because the broker will ask again. -/
def keepAck (packetType : UInt8) (packetId : UInt16) (parts : List (List UInt8)) :
    Client W Unit :=
  Prog.when (packetType ≠ Packet.puback ∧ packetType ≠ Packet.pubcomp)
    (keep env (incomingKey packetId) parts)

def ackSent (packetId : UInt16) (ack : AckType) : Client W Unit := do
  update fun c => { c with controlPacketSent := true }
  let answer ← updateAck packetId ack .send
  let _ ← accepted answer
  pure ()

def sendPublishAcksWithoutProperty (packetId : UInt16) (state : PublishState) : Client W Unit :=
  match ackFromPacketType (ackTypeToSend state) with
  | none => pure ()
  | some ack => do
    let packetType := ackTypeToSend state
    let packet := serializeAck packetType packetId none []
      (List.replicate publishAckPacketSize 0)
    let written ← check (fun _ => .badParameter) packet.1
    let c ← context
    refuse (c.properties.server.maxPacketSize < publishAckPacketSize) .badParameter
    connected
    keepAck env packetType packetId [packet.2.take written]
    let outcome ← sendBuffer env (packet.2.take written)
    sentWhole written outcome
    ackSent packetId ack

/-- The application's properties, its reason code, and the size of the packet they make. -/
def checkReply (c : MqttContext) (packetType : UInt8) (reply : Reply) : Except ClientError Unit := do
  (if reply.propertyLength > 0 then
    match slice? c.ackProperties 0 reply.propertyLength with
    | none => .error .badParameter
    | some properties => (validatePublishAckProperties properties).mapError fun _ => .badParameter
  else .ok ())
  validatePublishAckReasonCode reply.reasonCode packetType
  let _ ← (ackPacketSize c.properties.server.maxPacketSize reply.propertyLength).mapError
    fun _ => ClientError.badParameter
  pure ()

/-- The application's section is emptied whether or not the send works. -/
def buildAndSendAckWithProps (packetType : UInt8) (packetId : UInt16) (reasonCode : UInt8)
    (remainingLength propertyLength : ℕ) : Client W Unit := do
  let header := serializeAckFixed (List.replicate 8 0) packetType packetId remainingLength
    reasonCode
  refuse (header.1 = 0) .sendFailed
  let length := encodeVariableLength (List.replicate 4 0) propertyLength
  let total := header.1 + length.1 + propertyLength
  Prog.when (propertyLength > 0) (update fun c => { c with ackUsed := 0 })
  refuse (maxPacketSizeLimit < total) .badParameter
  let c ← context
  let properties ← orFail .sendFailed (slice? c.ackProperties 0 propertyLength)
  let parts := [header.2.take header.1, length.2.take length.1] ++
    if propertyLength = 0 then [] else [properties]
  keepAck env packetType packetId parts
  let outcome ← sendVectors env parts
  sentWhole total outcome

/-- An acknowledgement with properties and no reason code is refused. -/
def sendPublishAcksWithProperty (packetId : UInt16) (state : PublishState) (reply : Reply) :
    Client W Unit := do
  let packetType := ackTypeToSend state
  let c ← context
  Prog.when (packetType ≠ 0) (check id (checkReply c packetType reply))
  connected
  match ackFromPacketType packetType with
  | none => pure ()
  | some ack => do
    let size ← check (fun _ => .badParameter)
      (ackPacketSize c.properties.server.maxPacketSize reply.propertyLength)
    buildAndSendAckWithProps env packetType packetId (reply.reasonCode.getD 0)
      size.remainingLength reply.propertyLength
    ackSent packetId ack

/-- Which sender depends on whether the application said anything. -/
def sendAckFor (packetId : UInt16) (state : PublishState) (reply : Reply) : Client W Unit :=
  if reply.propertyLength = 0 ∧ reply.reasonCode = none then
    sendPublishAcksWithoutProperty env packetId state
  else sendPublishAcksWithProperty env packetId state reply

/-- Send what the application's section and reason code ask for. -/
def replyWith (packetId : UInt16) (state : PublishState) (reasonCode : Option UInt8) :
    Client W Unit := do
  let c ← context
  sendAckFor env packetId state { reasonCode, propertyLength := c.ackUsed }

/-- A section as long as no packet can be is a failed send. -/
def checkSectionLength : Client W Unit := do
  let c ← context
  refuse (remainingLengthInvalid ≤ c.ackUsed) .sendFailed

/-- Whether a received PUBLISH is a duplicate, and the position its acknowledgement leaves. -/
def receivedState (answer : Option (Except StateError PublishState)) (qos : QoS) :
    Client W (Bool × PublishState) :=
  match answer with
  | none => pure (false, .null)
  | some (.ok state) => pure (false, state)
  | some (.error .stateCollision) => pure (true, calculateStatePublish .receive qos)
  | some (.error e) => fail (.state e)

def publishEvent (view : PacketInfo) (publish : PublishInfo) : Event where
  packetType := view.packetType
  packetId := publish.packetId.getD 0
  publish := some publish
  reasonCodes := []
  properties := publish.properties

/-- A duplicate at QoS 1 is forwarded, a duplicate at QoS 2 is not. -/
def tell (duplicate : Bool) (qos : QoS) : Bool := !duplicate || qos == .atLeastOnce

def handleIncomingPublish (total : ℕ) : Client W Unit := do
  let c ← context
  let view ← orFail .recvFailed (c.packetView total)
  let publish ← check .ofParse (deserializePublish view c.properties.client.maxPacketSize
    c.properties.client.topicAliasMax)
  let qos := publish.qos
  let packetId := publish.packetId.getD 0
  refuse (c.records = none ∧ qos ≠ .atMostOnce) .recvFailed
  let answer ← updatePublish packetId .receive qos
  let (duplicate, ackState) ← receivedState answer qos
  let (accepted, reasonCode) ←
    (if tell duplicate qos then dispatch env (publishEvent view publish) (qos != .atMostOnce)
    else pure (true, none))
  refuse (!accepted) .eventCallbackFailed
  Prog.when (qos ≠ .atMostOnce) do
    checkSectionLength
    replyWith env packetId ackState reasonCode

def releasedKey (ack : AckType) (packetId : UInt16) : UInt32 :=
  match ack with
  | .pubAck | .pubRec => packetId.toUInt32
  | .pubComp | .pubRel => incomingKey packetId

def ackEvent (view : PacketInfo) (info : AckInfo) : Event where
  packetType := view.packetType
  packetId := info.packetId.getD 0
  publish := none
  reasonCodes := info.reasonCodes
  properties := info.properties

def endsSequence (ack : AckType) : Bool := ack == .pubAck || ack == .pubComp

def handlePublishAcks (total : ℕ) : Client W Unit := do
  let c ← context
  let view ← orFail .recvFailed (c.packetView total)
  let ack ← orFail .badResponse (ackFromPacketType view.packetType)
  let info ← check .ofParse (deserializeAck view c.limits)
  let packetId := info.packetId.getD 0
  let answer ← updateAck packetId ack .receive
  let state ← accepted answer
  clearStored env (releasedKey ack packetId)
  let (accepted, reasonCode) ← dispatch env (ackEvent view info) (!endsSequence ack)
  refuse (!accepted) .eventCallbackFailed
  checkSectionLength
  Prog.when (endsSequence ack = false) (replyWith env packetId (state.getD .null) reasonCode)

def handlePingresp (total : ℕ) (manageKeepAlive : Bool) : Client W Unit := do
  let c ← context
  let view ← orFail .recvFailed (c.packetView total)
  let info ← check .ofParse (deserializeAck view c.limits)
  if manageKeepAlive then update fun c => { c with waitingForPingResp := false }
  else do
    let event := { ackEvent view info with reasonCodes := [], properties := [] }
    let (accepted, _) ← dispatch env event false
    refuse (!accepted) .eventCallbackFailed

def handleSubUnsubAck (total : ℕ) : Client W Unit := do
  let c ← context
  let view ← orFail .recvFailed (c.packetView total)
  let info ← check .ofParse (deserializeAck view c.limits)
  let (accepted, _) ← dispatch env (ackEvent view info) false
  refuse (!accepted) .eventCallbackFailed

def handleIncomingAck (packetType : UInt8) (total : ℕ) (manageKeepAlive : Bool) :
    Client W Unit :=
  if isPublishAck packetType then handlePublishAcks env total
  else if packetType = Packet.pingresp then handlePingresp env total manageKeepAlive
  else if packetType = Packet.suback ∨ packetType = Packet.unsuback then
    handleSubUnsubAck env total
  else fail .badResponse

def disconnectEvent (view : PacketInfo) (incoming : Disconnect) : Event where
  packetType := view.packetType
  packetId := 0
  publish := none
  reasonCodes := incoming.reasonCode.toList
  properties := incoming.properties

/-- A malformed DISCONNECT is answered with one, and a well-formed one is shown to the
application. -/
def answerDisconnect (view : PacketInfo) (c : MqttContext) : Client W Unit :=
  match deserializeDisconnect view c.properties.client.maxPacketSize with
  | .error _ => do
    disconnect env (some malformedPacket) []
    fail .notConnected
  | .ok incoming => do
    let (accepted, _) ← dispatch env (disconnectEvent view incoming) false
    refuse (!accepted) .eventCallbackFailed

/-- The connection is dropped whatever happens. -/
def handleIncomingDisconnect (total : ℕ) : Client W Unit := do
  let c ← context
  let view ← orFail .recvFailed (c.packetView total)
  let status ← attempt (answerDisconnect env view c)
  update fun c => { c with connectStatus := .notConnected }
  check id status

/-- Only a PUBLISH may have flags in the low bits of its type. -/
def handlePacket (total : ℕ) (manageKeepAlive : Bool) : Client W Unit := do
  let c ← context
  let packetType ← orFail .recvFailed c.network.head?
  if packetType &&& 0xF0 = Packet.publish then handleIncomingPublish env total
  else if packetType = Packet.disconnect then handleIncomingDisconnect env total
  else handleIncomingAck env packetType total manageKeepAlive

/-- An outstanding PINGRESP is a timeout, and not a reason for another PINGREQ. -/
def handleKeepAlive : Client W Unit := do
  let now ← nowMs env
  let c ← context
  let txTimeout := min (1000 * c.keepAliveSeconds.toUInt32) packetTxTimeoutMs
  if c.waitingForPingResp then
    refuse (pingrespTimeoutMs < elapsedMs now c.pingReqSendTime) .keepAliveTimeout
  else if txTimeout ≠ 0 ∧ txTimeout ≤ elapsedMs now c.lastPacketTxTime then ping env
  else
    let sinceRx := elapsedMs now c.lastPacketRxTime
    Prog.when (sinceRx ≠ 0 ∧ packetRxTimeoutMs ≤ sinceRx) (ping env)

/-- What arrived is counted, and the packet at the front measured. -/
def arrival (received : Recv) : Client W (Except ClientError ℕ) := do
  let c ← context
  match received with
  | .failed =>
    connectionLost
    pure (.error .recvFailed)
  | .nothing => pure (if c.index = 0 then .error .noDataAvailable else c.measure)
  | .bytes count =>
    if count = 0 ∧ c.index = 0 then pure (.error .noDataAvailable)
    else do
      update fun c => { c with index := min (c.index + count) usizeMax }
      let c ← context
      pure c.measure

def arrivedNothing (received : Recv) : Bool := received == .nothing || received == .bytes 0

/-- The check hangs off nothing having arrived, and its success leaves the status as it was. -/
def keepAliveTurn (manageKeepAlive : Bool) (received : Recv) (status : Except ClientError ℕ) :
    Client W (Except ClientError ℕ) :=
  if arrivedNothing received ∧ manageKeepAlive ∧
      (status = .error .noDataAvailable ∨ status = .error .needMoreBytes ∨ status.isOk) then do
    let outcome ← attempt (handleKeepAlive env)
    match outcome with
    | .ok () => pure status
    | .error e => pure (.error e)
  else pure status

/-- The part of a turn before a packet is handled answers the length of a whole one. -/
def nextPacket (manageKeepAlive : Bool) (received : Recv) : Client W ℕ := do
  let status ← arrival received
  let status ← keepAliveTurn env manageKeepAlive received status
  let total ← check id status
  let c ← context
  refuse (c.network.length < total) .recvFailed
  refuse (c.index < total) .needMoreBytes
  pure total

/-- The part of a turn that handles a packet, and drops it when that went well. -/
def processPacket (total : ℕ) (manageKeepAlive : Bool) : Client W Unit := do
  handlePacket env total manageKeepAlive
  update fun c => c.consume total
  let now ← nowMs env
  update fun c => { c with lastPacketRxTime := now }

def turnsFrom (manageKeepAlive : Bool) : (turns : ℕ) → (received : Recv) → Client W Unit
  | 0, _ => Prog.throw .blocked
  | turns + 1, received => do
    let total ← nextPacket env manageKeepAlive received
    processPacket env total manageKeepAlive
    let c ← context
    if c.index = 0 then pure ()
    else turnsFrom manageKeepAlive turns (if arrivedNothing received then received else .bytes 0)

def readIn : Client W Recv := do
  let c ← context
  match slice? c.network c.index c.network.length with
  | none => pure .failed
  | some into => do
    let (outcome, data) ← recv env into
    update fun c => { c with network := c.network.take c.index ++ data }
    pure outcome

/-- No data is not an error. -/
def finish (outcome : Except ClientError Unit) : Except ClientError Unit :=
  if outcome = .error .noDataAvailable then .ok () else outcome

def receiveSingleIteration (manageKeepAlive : Bool) : Client W Unit := do
  let received ← readIn env
  let outcome ← attempt (turnsFrom env manageKeepAlive env.patience received)
  check id (finish outcome)

/-- One pass, with keep alive managed. -/
def processLoop : Client W Unit := do
  update fun c => { c with controlPacketSent := false }
  receiveSingleIteration env true

/-- One pass, with keep alive left to the caller. -/
def receiveLoop : Client W Unit := receiveSingleIteration env false

end Client

end RtosMqtt
