import RtosMqtt.Client.Context
import RtosMqtt.Library.Loop

/-! # What the client is connected to

The transport, the clock, the store and the event handler are the caller's. They
share a world, and each answer is any function of that world and of what it is
asked. A log notes what passed between them and the client.
-/

namespace RtosMqtt

inductive Recv where
  | bytes (count : ℕ)
  | nothing
  | failed
  deriving DecidableEq, Repr

inductive Sent where
  | bytes (count : ℕ)
  | nothing
  | failed
  deriving DecidableEq, Repr

inductive SendOutcome where
  | sent (count : ℕ)
  | failed
  deriving DecidableEq, Repr

/-- The caller's side of one call, over a world `W`. `patience` bounds the turns of a loop that
waits for the transport or the clock. -/
structure Environment (W : Type) where
  recv : List UInt8 → W → (Recv × List UInt8) × W
  send : List UInt8 → W → Sent × W
  writev : List (List UInt8) → W → Sent × W
  nowMs : W → UInt32 × W
  storing : Bool
  store : UInt32 → List (List UInt8) → W → Bool × W
  retrieve : UInt32 → W → Option (List UInt8) × W
  clear : UInt32 → W → W
  onEvent : Event → AckReply → W → (List ReplyAction × Bool) × W
  patience : ℕ

/-- How a client stands towards the broker when it offers bytes. -/
structure Standing where
  status : ConnectionStatus
  maxPacketSize : ℕ
  deriving DecidableEq, Repr

def MqttContext.standing (c : MqttContext) : Standing where
  status := c.connectStatus
  maxPacketSize := c.properties.server.maxPacketSize

inductive Observation where
  | clock (now : UInt32)
  | received (into : List UInt8) (outcome : Recv)
  | sent (parts : List (List UInt8)) (outcome : Sent) (standing : Standing)
  | stored (key : UInt32) (parts : List (List UInt8)) (accepted : Bool)
  | retrieved (key : UInt32) (packet : Option (List UInt8))
  | cleared (key : UInt32)
  | event (e : Event) (accepted : Bool)
  | recorded (before : PublishRecords) (call : Call) (answer : Except StateError Unit)

/-- The context, the caller's world, the log, and the out-parameter of `connect`. -/
structure Sys (W : Type) where
  context : MqttContext
  world : W
  log : List Observation := []
  sessionPresent : Bool := false

/-- How a call stops short: with an error, or waiting for longer than the caller's patience. -/
inductive Stop where
  | error (e : ClientError)
  | blocked
  deriving DecidableEq, Repr

/-- A function of the client. -/
abbrev Client (W : Type) := Prog (Sys W) Stop

namespace Client

variable {W ε α : Type}

def context : Client W MqttContext := Prog.answer fun s => (s.context, s)

def update (f : MqttContext → MqttContext) : Client W Unit :=
  Prog.modify fun s => { s with context := f s.context }

def fail (e : ClientError) : Client W α := Prog.throw (.error e)

def refuse (c : Prop) [Decidable c] (e : ClientError) : Client W Unit := Prog.refuse c (.error e)

/-- A result of a pure function, its error translated. -/
def check (f : ε → ClientError) (result : Except ε α) : Client W α :=
  Prog.lift (result.mapError fun e => .error (f e))

def orFail (e : ClientError) : Option α → Client W α
  | none => fail e
  | some a => pure a

/-- Run a function and answer its outcome, error or not. -/
def attempt (p : Client W α) : Client W (Except ClientError α) := fun s =>
  match p s with
  | (.ok a, s) => (.ok (.ok a), s)
  | (.error (.error e), s) => (.ok (.error e), s)
  | (.error .blocked, s) => (.error .blocked, s)

def connected : Client W Unit := do
  let c ← context
  check id c.connected

variable (env : Environment W)

def nowMs : Client W UInt32 := Prog.answer fun s =>
  let answer := env.nowMs s.world
  (answer.1, { s with world := answer.2, log := s.log ++ [.clock answer.1] })

/-- The slice after the transport wrote to it: it cannot change its length. -/
def overlay (data into : List UInt8) : List UInt8 := (data ++ into.drop data.length).take into.length

def recv (into : List UInt8) : Client W (Recv × List UInt8) := Prog.answer fun s =>
  let answer := env.recv into s.world
  let into := overlay answer.1.2 into
  ((answer.1.1, into),
    { s with world := answer.2, log := s.log ++ [.received into answer.1.1] })

def send (bytes : List UInt8) : Client W Sent := Prog.answer fun s =>
  let answer := env.send bytes s.world
  (answer.1,
    { s with world := answer.2, log := s.log ++ [.sent [bytes] answer.1 s.context.standing] })

def writev (parts : List (List UInt8)) : Client W Sent := Prog.answer fun s =>
  let answer := env.writev parts s.world
  (answer.1,
    { s with world := answer.2, log := s.log ++ [.sent parts answer.1 s.context.standing] })

def store (key : UInt32) (parts : List (List UInt8)) : Client W Bool := Prog.answer fun s =>
  let answer := env.store key parts s.world
  (answer.1, { s with world := answer.2, log := s.log ++ [.stored key parts answer.1] })

def retrieve (key : UInt32) : Client W (Option (List UInt8)) := Prog.answer fun s =>
  let answer := env.retrieve key s.world
  (answer.1, { s with world := answer.2, log := s.log ++ [.retrieved key answer.1] })

def clear (key : UInt32) : Client W Unit := Prog.modify fun s =>
  { s with world := env.clear key s.world, log := s.log ++ [.cleared key] }

def clearStored (key : UInt32) : Client W Unit := if env.storing then clear env key else pure ()

def keep (key : UInt32) (parts : List (List UInt8)) : Client W Unit :=
  if env.storing then do
    let accepted ← store env key parts
    refuse (!accepted) .publishStoreFailed
  else pure ()

/-- Hand the application an event and collect its reply. -/
def dispatch (e : Event) (wantsReply : Bool) : Client W (Bool × Option UInt8) :=
  Prog.answer fun s =>
    let reply : AckReply :=
      { accepted := wantsReply, buffer := s.context.ackProperties, used := s.context.ackUsed }
    let answer := env.onEvent e reply s.world
    let reply := answer.1.1.foldl AckReply.act reply
    ((answer.1.2, reply.reasonCode),
      { s with
        context := { s.context with ackProperties := reply.buffer, ackUsed := reply.used }
        world := answer.2
        log := s.log ++ [.event e answer.1.2] })

/-- Call the records, when there are any; an absent answer means there are none. -/
def onRecords (call : Call) (f : PublishRecords → Except StateError α × PublishRecords) :
    Client W (Option (Except StateError α)) := Prog.answer fun s =>
  match s.context.records with
  | none => (none, s)
  | some r =>
    (some (f r).1,
      { s with
        context := { s.context with records := some (f r).2 }
        log := s.log ++ [.recorded r call ((f r).1.map fun _ => ())] })

def reserve (packetId : UInt16) (qos : QoS) : Client W (Option (Except StateError Unit)) :=
  onRecords (.reserve packetId qos) (·.reserve packetId qos)

def updatePublish (packetId : UInt16) (op : Operation) (qos : QoS) :
    Client W (Option (Except StateError PublishState)) :=
  onRecords (.updatePublish packetId op qos) (·.updatePublish packetId op qos)

def updateAck (packetId : UInt16) (ack : AckType) (op : Operation) :
    Client W (Option (Except StateError PublishState)) :=
  onRecords (.updateAck packetId ack op) (·.updateAck packetId ack op)

/-- A refusal by the state machine is an error, and no records are no refusal. -/
def accepted (answer : Option (Except StateError α)) : Client W (Option α) :=
  match answer with
  | none => pure none
  | some (.ok a) => pure (some a)
  | some (.error e) => fail (.state e)

end Client

end RtosMqtt
