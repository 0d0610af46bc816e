import RtosMqtt.State.Calls
import RtosMqtt.Wire.Builder
import RtosMqtt.Wire.Context
import RtosMqtt.Wire.Validate

/-! # The client's context

Everything a client keeps between calls: the negotiated session, the receive
buffer with the number of bytes in it, the records, and the buffer in which the
application builds the properties of its acknowledgements.
-/

namespace RtosMqtt

inductive ClientError where
  | badParameter | notConnected | disconnectPending | sendFailed | publishStoreFailed
  | state (e : StateError)
  | recvFailed | badResponse | serverRefused | statusConnected | publishRetrieveFailed
  | noDataAvailable | needMoreBytes | eventCallbackFailed | keepAliveTimeout
  deriving DecidableEq, Repr

namespace ClientError

def ofParse : ParseError → ClientError
  | .badParameter => .badParameter
  | .badResponse => .badResponse

def ofHeader : HeaderError → ClientError
  | .noDataAvailable => .noDataAvailable
  | .needMoreBytes => .needMoreBytes
  | .badResponse => .badResponse

end ClientError

inductive ConnectionStatus where
  | notConnected | connected | disconnectPending
  deriving DecidableEq, Repr

/-- The fields of `MqttContext`; the records are there once `enable_qos` was called. -/
structure MqttContext where
  properties : ConnectionProperties := {}
  connectStatus : ConnectionStatus := .notConnected
  network : List UInt8
  nextPacketId : UInt16 := 1
  records : Option PublishRecords := none
  ackProperties : List UInt8 := []
  ackUsed : ℕ := 0
  lastPacketTxTime : UInt32 := 0
  lastPacketRxTime : UInt32 := 0
  pingReqSendTime : UInt32 := 0
  waitingForPingResp : Bool := false
  keepAliveSeconds : UInt16 := 0
  controlPacketSent : Bool := false
  index : ℕ := 0
  deriving DecidableEq, Repr

namespace MqttContext

def new (network : List UInt8) : MqttContext where
  network := network

def enableQos (c : MqttContext) (outgoing incoming : List Record) (ackProperties : List UInt8) :
    MqttContext :=
  { c with records := some (.new outgoing incoming), ackProperties, ackUsed := 0 }

def outgoing (c : MqttContext) : List Record := (c.records.map PublishRecords.outgoing).getD []

def incoming (c : MqttContext) : List Record := (c.records.map PublishRecords.incoming).getD []

def received (c : MqttContext) : List UInt8 := c.network.take c.index

def connected (c : MqttContext) : Except ClientError Unit :=
  match c.connectStatus with
  | .connected => .ok ()
  | .notConnected => .error .notConnected
  | .disconnectPending => .error .disconnectPending

def validatePublish (c : MqttContext) (qos : QoS) (packetId : UInt16)
    (topicLength payloadLength : ℕ) : Except ClientError Unit := do
  refuseIf (qos ≠ .atMostOnce ∧ packetId = 0) .badParameter
  refuseIf (u16Max < topicLength) .badParameter
  refuseIf (remainingLengthInvalid ≤ payloadLength) .badParameter
  refuseIf (c.outgoing.length = 0 ∧ qos ≠ .atMostOnce) .badParameter

end MqttContext

structure Event where
  packetType : UInt8
  packetId : UInt16
  publish : Option PublishInfo
  reasonCodes : List UInt8
  properties : List UInt8
  deriving DecidableEq, Repr

/-- What the application may say in an acknowledgement. -/
structure AckReply where
  accepted : Bool
  reasonCode : Option UInt8 := none
  buffer : List UInt8
  used : ℕ
  deriving DecidableEq, Repr

inductive ReplyAction where
  | setReasonCode (reasonCode : UInt8)
  | withProperties (calls : List (Adder × Option UInt8))
  deriving DecidableEq, Repr

namespace AckReply

def setReasonCode (r : AckReply) (reasonCode : UInt8) : AckReply :=
  if r.accepted then { r with reasonCode := some reasonCode } else r

/-- The builder is resumed, so an adder appends to what an earlier event left. -/
def withProperties (r : AckReply) (calls : List (Adder × Option UInt8)) : AckReply :=
  if !r.accepted || r.buffer.isEmpty then r
  else
    match PropertyBuilder.resume r.buffer r.used with
    | .error _ => r
    | .ok builder =>
      let builder := builder.addAll calls
      { r with buffer := builder.buffer, used := builder.position }

def act (r : AckReply) : ReplyAction → AckReply
  | .setReasonCode reasonCode => r.setReasonCode reasonCode
  | .withProperties calls => r.withProperties calls

end AckReply

/-- The key of an acknowledgement in the store; a publish is kept under its identifier. -/
def incomingKey (packetId : UInt16) : UInt32 := packetId.toUInt32 ||| 0x10000

def elapsedMs (later start : UInt32) : UInt32 := later - start

/-- Zero when a position owes no packet. -/
def ackTypeToSend : PublishState → UInt8
  | .pubAckSend => Packet.puback
  | .pubRecSend => Packet.pubrec
  | .pubRelSend => Packet.pubrel
  | .pubCompSend => Packet.pubcomp
  | _ => 0

def ackFromPacketType (packetType : UInt8) : Option AckType :=
  if packetType = Packet.puback then some .pubAck
  else if packetType = Packet.pubrec then some .pubRec
  else if packetType = Packet.pubrel then some .pubRel
  else if packetType = Packet.pubcomp then some .pubComp
  else none

/-- An absent reason code is refused, like one of the other half of the handshake. -/
def validatePublishAckReasonCode (reasonCode : Option UInt8) (packetType : UInt8) :
    Except ClientError Unit :=
  match reasonCode with
  | none => .error .badParameter
  | some reasonCode =>
    if reasonCode = 0x00 then .ok ()
    else if reasonCode ∈ [0x10, 0x80, 0x83, 0x87, 0x90, 0x91, 0x97, 0x99] then
      refuseIf (packetType ≠ Packet.puback ∧ packetType ≠ Packet.pubrec) .badParameter
    else if reasonCode = 0x92 then
      refuseIf (packetType ≠ Packet.pubrel ∧ packetType ≠ Packet.pubcomp) .badParameter
    else .error .badParameter

end RtosMqtt
