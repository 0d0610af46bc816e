import RtosMqtt.Client.Send
import RtosMqtt.State.Resend

/-! # Opening a connection

A CONNECT goes out, a CONNACK comes back, and the session is either started
clean or resumed. A resumed session sends again what the records say was under
way: from the store when there is one, and as bare PUBRELs when there is not.
-/

namespace RtosMqtt

def recvPollingTimeoutMs : UInt32 := 10

def maxConnackReceiveRetryCount : ℕ := 5

inductive ReadOutcome where
  | bytes (count : ℕ)
  | failed
  deriving DecidableEq, Repr

/-- A value the CONNACK announced, or else the one that held before. -/
def ConnAck.announced {α : Type} (c : ConnAck) (field : Field) (new old : α) : α :=
  if field ∈ c.fieldsPresent then new else old

/-- Copy what a CONNACK announced into the session. -/
def applyConnack (properties : ConnectionProperties) (connack : ConnAck) : ConnectionProperties :=
  let announced {α : Type} : Field → α → α → α := connack.announced
  let server := properties.server
  { properties with
    sessionExpiry :=
      announced .sessionExpiryInterval connack.server.sessionExpiry properties.sessionExpiry
    server := {
      receiveMax := announced .receiveMaximum connack.server.receiveMax server.receiveMax
      maxQos := announced .maxQos connack.server.maxQos server.maxQos
      retainAvailable :=
        announced .retainAvailable connack.server.retainAvailable server.retainAvailable
      maxPacketSize :=
        announced .maxPacketSize connack.server.maxPacketSize server.maxPacketSize
      topicAliasMax :=
        announced .topicAliasMax connack.server.topicAliasMax server.topicAliasMax
      wildcardAvailable := announced .wildcardSubscriptionAvailable
        connack.server.wildcardAvailable server.wildcardAvailable
      subscriptionIdAvailable := announced .subscriptionIdAvailable
        connack.server.subscriptionIdAvailable server.subscriptionIdAvailable
      sharedAvailable := announced .sharedSubscriptionAvailable
        connack.server.sharedAvailable server.sharedAvailable
      keepAlive := announced .serverKeepAlive connack.server.keepAlive server.keepAlive } }

/-- The section that goes out: one Maximum Packet Size when the caller gave none. -/
def outgoingSection (connect : Connect) (networkSize : ℕ) : List UInt8 :=
  if connect.properties = [] then PropertyId.maxPacketSize :: toBeBytes32 networkSize
  else connect.properties

def maxConnectVectors : ℕ := 15

/-- The vectors of a CONNECT so far, and the bytes they hold. -/
structure ConnectVectors where
  parts : List (List UInt8)
  total : ℕ
  total_eq : total = parts.flatten.length

namespace ConnectVectors

def empty : ConnectVectors where
  parts := []
  total := 0
  total_eq := rfl

/-- A vector past the array is left out, and its bytes are not counted. -/
def push (v : ConnectVectors) (part : List UInt8) : ConnectVectors :=
  if v.parts.length < maxConnectVectors then
    { parts := v.parts ++ [part]
      total := v.total + part.length
      total_eq := by
        rw [List.flatten_append, List.length_append, List.flatten_singleton, v.total_eq] }
  else v

def pushAll (v : ConnectVectors) (parts : List (List UInt8)) : ConnectVectors := parts.foldl push v

theorem pushAll_append (v : ConnectVectors) (parts parts' : List (List UInt8)) :
    v.pushAll (parts ++ parts') = (v.pushAll parts).pushAll parts' := List.foldl_append

theorem parts_pushAll {v : ConnectVectors} {parts : List (List UInt8)}
    (h : v.parts.length + parts.length ≤ maxConnectVectors) :
    (v.pushAll parts).parts = v.parts ++ parts := by
  induction parts generalizing v with
  | nil => exact (List.append_nil _).symm
  | cons part parts ih =>
    rw [List.length_cons] at h
    have hpush : (v.push part).parts = v.parts ++ [part] := by
      rw [push, if_pos (by omega)]
    have hroom : (v.push part).parts.length + parts.length ≤ maxConnectVectors := by
      rw [hpush, List.length_append, List.length_singleton]
      omega
    have hall := ih hroom
    rw [hpush, List.append_assoc] at hall
    exact hall

end ConnectVectors

namespace Client

variable {W : Type} (env : Environment W)

/-- One byte, or the error the caller gives for nothing and for a failure. -/
def recvOne (nothing failed : ClientError) : Client W UInt8 := do
  let (outcome, byte) ← recv env [0]
  match outcome with
  | .failed => fail failed
  | .nothing => fail nothing
  | .bytes count => if count = 0 then fail nothing else orFail nothing byte.head?

/-- Past the type byte the two failures are one. -/
def readRemainingLength : Client W (ℕ × ℕ) := do
  let (remainingLength, bytesDecoded) ←
    decodeFrom saturating (fun _ => recvOne env .badResponse .badResponse) (fun _ => false)
      (fail .badResponse) 5 0 1 0
  refuse (remainingLengthInvalid ≤ remainingLength) .badResponse
  refuse (bytesDecoded ≠ variableLengthEncodedSize remainingLength) .badResponse
  pure (remainingLength, bytesDecoded)

def readHeader : Client W PacketHeader := do
  let packetType ← recvOne env .noDataAvailable .recvFailed
  refuse (!incomingPacketValid packetType) .badResponse
  let (remainingLength, bytesDecoded) ← readRemainingLength env
  pure { packetType, remainingLength, headerLength := bytesDecoded + 1 }

def recvExactFrom (wanted : ℕ) : (turns total : ℕ) → (lastData : UInt32) → Client W ReadOutcome
  | 0, _, _ => Prog.throw .blocked
  | turns + 1, total, lastData =>
    if wanted ≤ total then pure (.bytes total)
    else do
      let c ← context
      match slice? c.network total wanted with
      | none => pure .failed
      | some into =>
        let (outcome, data) ← recv env into
        update fun c => { c with network := c.network.take total ++ data ++ c.network.drop wanted }
        match outcome with
        | .failed =>
          connectionLost
          pure .failed
        | .nothing =>
          let now ← nowMs env
          if recvPollingTimeoutMs ≤ elapsedMs now lastData then pure (.bytes total)
          else recvExactFrom wanted turns total lastData
        | .bytes count =>
          let now ← nowMs env
          -- an empty read only asks whether the poll has timed out
          if count = 0 then
            if recvPollingTimeoutMs ≤ elapsedMs now lastData then pure (.bytes total)
            else recvExactFrom wanted turns total lastData
          else recvExactFrom wanted turns (total + min count (wanted - total)) now

def recvExact (wanted : ℕ) : Client W ReadOutcome := do
  let lastData ← nowMs env
  recvExactFrom env wanted env.patience 0 lastData

def receiveConnackPacket (remainingLength : ℕ) : Client W Unit := do
  let c ← context
  refuse (c.network.length < remainingLength) .recvFailed
  let outcome ← recvExact env remainingLength
  refuse (outcome ≠ .bytes remainingLength) .recvFailed

/-- Ask again while nothing has arrived, until the timeout or the retries are used up. -/
def readConnackHeader (entry timeoutMs : UInt32) :
    (turns loopCount : ℕ) → Client W (Except ClientError PacketHeader)
  | 0, _ => Prog.throw .blocked
  | turns + 1, loopCount => do
    let header ← attempt (readHeader env)
    let giveUp ←
      (if timeoutMs > 0 then do
        let now ← nowMs env
        pure (decide (timeoutMs ≤ elapsedMs now entry))
      else pure (decide (maxConnackReceiveRetryCount ≤ loopCount)))
    match header with
    | .error .noDataAvailable =>
      if giveUp then pure (.error .noDataAvailable)
      else readConnackHeader entry timeoutMs turns (loopCount + 1)
    | header => pure header

def receiveConnack (timeoutMs : UInt32) (cleanSession : Bool) : Client W Unit := do
  let entry ← nowMs env
  let header ← readConnackHeader env entry timeoutMs env.patience 0
  let packet ← check id header
  refuse (packet.packetType ≠ Packet.connack) .badResponse
  receiveConnackPacket env packet.remainingLength
  let c ← context
  let connack ← check .ofParse (deserializeConnack
    { packetType := packet.packetType
      remainingLength := packet.remainingLength
      remainingData := c.network.take packet.remainingLength }
    { maxPacketSize := c.properties.client.maxPacketSize
      requestResponseInfo := c.properties.client.requestResponseInfo })
  -- written before either refusal below
  Prog.modify fun s => { s with sessionPresent := connack.sessionPresent }
  update fun c => { c with properties := applyConnack c.properties connack }
  refuse (cleanSession ∧ connack.sessionPresent) .badResponse
  refuse connack.refused .serverRefused

/-- The length prefix of a string, and the string when it has bytes. -/
def stringParts (body : List UInt8) : List (List UInt8) :=
  [toBeBytes16 (min body.length u16Max).toUInt16] ++ if body = [] then [] else [body]

def pushString (v : ConnectVectors) (body : List UInt8) : Client W ConnectVectors := do
  refuse (maxPacketSizeLimit < v.total + 2 + body.length) .badParameter
  pure (v.pushAll (stringParts body))

/-- The encoding of a section's length, and the section when it has bytes. -/
def sectionParts (properties : List UInt8) : List (List UInt8) :=
  let length := encodeVariableLength (List.replicate 4 0) properties.length
  [length.2.take length.1] ++ if properties = [] then [] else [properties]

def pushWill (v : ConnectVectors) : Option Will → Client W ConnectVectors
  | none => pure v
  | some will => do
    let v ← pushString (v.pushAll (sectionParts will.properties)) will.topicName
    pushString v will.payload

def pushOption (v : ConnectVectors) : Option (List UInt8) → Client W ConnectVectors
  | none => pure v
  | some body => pushString v body

def pushConnect (head : List UInt8) (connect : Connect) : Client W ConnectVectors := do
  let v ← pushString (ConnectVectors.empty.pushAll (head :: sectionParts connect.properties))
    connect.clientIdentifier
  let v ← pushWill v connect.will
  let v ← pushOption v connect.info.username
  pushOption v connect.info.password

def announce (properties : List UInt8) : Client W Unit := fun s =>
  let updated := updateWithConnectProps properties s.context.properties
  (updated.1.mapError fun _ => .error .badParameter,
    { s with context := { s.context with properties := updated.2 } })

/-- The keep alive goes through the server's slot, where a CONNACK may overwrite it. -/
def sendConnect (connect : Connect) (remainingLength : ℕ) : Client W Unit := do
  let fixed := serializeConnectFixedHeader (List.replicate 15 0) connect.info
    (connect.will.map Will.info) remainingLength
  refuse (fixed.1 = 0) .sendFailed
  update fun c => { c with properties := { c.properties with
    server := { c.properties.server with keepAlive := connect.info.keepAliveSeconds } } }
  refuse (u32Max < connect.properties.length) .badParameter
  refuse (u16Max < connect.clientIdentifier.length) .badParameter
  Prog.when (connect.properties ≠ []) (announce connect.properties)
  let v ← pushConnect (fixed.2.take fixed.1) connect
  let outcome ← sendVectors env v.parts
  sentWhole v.total outcome

/-- Every identifier of a walk is cleared from the store. -/
def clearAll (key : UInt16 → UInt32) : List UInt16 → Client W Unit
  | [] => pure ()
  | packetId :: ids => do
    clear env (key packetId)
    clearAll key ids

/-- The walk for PUBRELs comes after the array it walks was cleared. -/
def handleCleanSession : Client W Unit := do
  update fun c => { c with index := 0, network := c.network.map fun _ => 0 }
  let c ← context
  match c.records with
  | none => pure ()
  | some r => do
    Prog.when env.storing
      (clearAll env UInt16.toUInt32 (PublishRecords.resends r.publishToResend (r.outgoing.length + 1) 0))
    let r := r.clearOutgoing
    Prog.when env.storing
      (clearAll env incomingKey (PublishRecords.resends r.pubrelToResend (r.outgoing.length + 1) 0))
    update fun c => { c with records := some r.clearIncoming }

/-- A bare acknowledgement, sent and then recorded. -/
def sendPublishAcks (packetId : UInt16) (state : PublishState) : Client W Unit :=
  match ackFromPacketType (ackTypeToSend state) with
  | none => pure ()
  | some ack => do
    let packet := serializeAck (ackTypeToSend state) packetId none []
      (List.replicate publishAckPacketSize 0)
    let written ← check (fun _ => .badParameter) packet.1
    connected
    let outcome ← sendBuffer env (packet.2.take written)
    sentWhole written outcome
    update fun c => { c with controlPacketSent := true }
    let answer ← updateAck packetId ack .send
    let _ ← accepted answer
    pure ()

/-- The store's bytes go to the transport as they are. -/
def resendStored (key : UInt32) : Client W Unit := do
  let packet ← retrieve env key
  let packet ← orFail .publishRetrieveFailed packet
  refuse (maxPacketSizeLimit < packet.length) .badParameter
  let outcome ← sendBuffer env packet
  sentWhole packet.length outcome

/-- Walk the records from a cursor, asking for the next identifier at each turn. -/
def resendFrom (next : PublishRecords → ℕ → Option UInt16 × ℕ) (resend : UInt16 → Client W Unit) :
    (turns cursor : ℕ) → Client W Unit
  | 0, _ => pure ()
  | turns + 1, cursor => do
    let c ← context
    match (c.records.map fun r => next r cursor).getD (none, cursor) with
    | (none, _) => pure ()
    | (some packetId, cursor) => do
      resend packetId
      resendFrom next resend turns cursor

/-- A cursor only moves forward, so it is past the array after one turn a slot and one more. -/
def resendAll (next : PublishRecords → ℕ → Option UInt16 × ℕ) (resend : UInt16 → Client W Unit) :
    Client W Unit := do
  let c ← context
  resendFrom next resend (c.outgoing.length + 1) 0

def handleUncleanSession : Client W Unit := do
  resendAll PublishRecords.pubrelToResend fun packetId =>
    if env.storing then resendStored env (incomingKey packetId)
    else sendPublishAcks env packetId .pubRelSend
  -- a publish that was never kept cannot be sent again
  Prog.when env.storing
    (resendAll PublishRecords.publishToResend fun packetId => resendStored env packetId.toUInt32)

/-- Each side's Receive Maximum caps the array of what the other side sends it. -/
def capRecords : Client W Unit := update fun c =>
  { c with records := c.records.map fun r =>
      r.cap c.properties.server.receiveMax.toNat c.properties.client.receiveMax.toNat }

def connectInner (connect : Connect) (timeoutMs : UInt32) (size : PacketSize) : Client W Unit := do
  sendConnect env connect size.remainingLength
  receiveConnack env timeoutMs connect.info.cleanSession
  capRecords
  let s ← Prog.get
  Prog.when (s.sessionPresent = false) (handleCleanSession env)
  update fun c =>
    { c with
      connectStatus := .connected
      keepAliveSeconds := c.properties.server.keepAlive
      waitingForPingResp := false
      pingReqSendTime := 0 }
  Prog.when (s.sessionPresent = true) (handleUncleanSession env)

/-- What the caller's properties say must be true of the client. -/
def checkConnectProperties (connect : Connect) : Client W Unit := do
  let c ← context
  if connect.properties = [] then
    update fun c => { c with properties := { c.properties with
      client := { c.properties.client with maxPacketSize := min c.network.length u32Max } } }
  else do
    let found ← check (fun _ => .badParameter) (validateConnectProperties connect.properties)
    update fun c => { c with properties := { c.properties with
      client := { c.properties.client with requestProblemInfo := found.requestProblemInfo } } }
    refuse (found.maxPacketSize.any (c.network.length < ·)) .badParameter

def notYetConnected (c : MqttContext) : Except ClientError Unit :=
  match c.connectStatus with
  | .notConnected => .ok ()
  | .connected => .error .statusConnected
  | .disconnectPending => .error .disconnectPending

/-- A failure after the CONNACK leaves a connection that has to be closed. -/
def connect (connect : Connect) (timeoutMs : UInt32) : Client W Unit := do
  Prog.when (connect.will.any (·.properties ≠ []))
    (check (fun _ => .badParameter)
      (validateWillProperties ((connect.will.map Will.properties).getD [])))
  checkConnectProperties connect
  let c ← context
  let connect := { connect with
    properties := outgoingSection connect (min c.network.length u32Max) }
  let size ← check (fun _ => .badParameter) (connectPacketSize connect)
  check id (notYetConnected c)
  let outcome ← attempt (connectInner env connect timeoutMs size)
  Prog.when (outcome ≠ .ok ()) connectionLost
  check id outcome

end Client

end RtosMqtt
