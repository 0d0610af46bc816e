import RtosMqtt.Client.Environment

/-! # The two senders, PINGREQ and DISCONNECT

A transport may take any part of what it is offered. Both senders go round until
everything is taken, the transport fails, or the send has taken too long; they
differ in when they read the clock and in how they compare it.
-/

namespace RtosMqtt

def sendTimeoutMs : UInt32 := 20000

namespace Client

variable {W : Type} (env : Environment W)

def connectionLost : Client W Unit := update fun c =>
  if c.connectStatus = .connected then { c with connectStatus := .disconnectPending } else c

def stampTx : Client W Unit := do
  let now ← nowMs env
  update fun c => { c with lastPacketTxTime := now }

def bufferTurn (buffer : List UInt8) (start : UInt32) (sent : ℕ) : Client W (ℕ ⊕ SendOutcome) :=
  if buffer.length ≤ sent then pure (.inr (.sent sent))
  else do
    let remaining := buffer.drop sent
    match ← send env remaining with
    | .failed =>
      connectionLost
      let _ ← nowMs env
      pure (.inr .failed)
    | .nothing =>
      let now ← nowMs env
      pure (if sendTimeoutMs ≤ elapsedMs now start then .inr (.sent sent) else .inl sent)
    | .bytes count =>
      let sent := sent + min count remaining.length
      stampTx env
      let now ← nowMs env
      pure (if sendTimeoutMs ≤ elapsedMs now start then .inr (.sent sent) else .inl sent)

def sendBuffer (buffer : List UInt8) : Client W SendOutcome := do
  let start ← nowMs env
  Prog.loop (bufferTurn env buffer start) .blocked env.patience 0

/-- Step over every vector that was taken whole, and into the one that was not. -/
def advance : (taken : ℕ) → List (List UInt8) → List (List UInt8)
  | _, [] => []
  | taken, part :: rest =>
    if taken < part.length then part.drop taken :: rest else advance (taken - part.length) rest

/-- One turn, with the bytes sent so far and the vectors that are left. -/
def vectorsTurn (total : ℕ) (start : UInt32) (place : ℕ × List (List UInt8)) :
    Client W (ℕ × List (List UInt8) ⊕ SendOutcome) :=
  if total ≤ place.1 ∨ place.2 = [] then pure (.inr (.sent place.1))
  else do
    match ← writev env place.2 with
    | .failed =>
      connectionLost
      pure (.inr .failed)
    | .nothing =>
      let now ← nowMs env
      pure (if sendTimeoutMs < elapsedMs now start then .inr (.sent place.1)
        else .inl (place.1, advance 0 place.2))
    | .bytes count =>
      let taken := min count (total - place.1)
      stampTx env
      if place.1 + taken < total then
        let now ← nowMs env
        pure (if sendTimeoutMs < elapsedMs now start then .inr (.sent (place.1 + taken))
          else .inl (place.1 + taken, advance taken place.2))
      else pure (.inr (.sent (place.1 + taken)))

def sendVectors (vectors : List (List UInt8)) : Client W SendOutcome := do
  let start ← nowMs env
  Prog.loop (vectorsTurn env vectors.flatten.length start) .blocked env.patience (0, vectors)

/-- Anything short of the whole packet is a failed send. -/
def sentWhole (total : ℕ) (outcome : SendOutcome) : Client W Unit :=
  refuse (outcome ≠ .sent total) .sendFailed

def ping : Client W Unit := do
  connected
  let packet := serializePingreq (List.replicate 2 0)
  let written ← check (fun _ => .sendFailed) packet.1
  let outcome ← sendBuffer env (packet.2.take written)
  sentWhole written outcome
  update fun c => { c with pingReqSendTime := c.lastPacketTxTime, waitingForPingResp := true }

/-- The status changes and the receive buffer is emptied before anything is sent. -/
def disconnect (reasonCode : Option UInt8) (properties : List UInt8) : Client W Unit := do
  refuse (reasonCode = none ∧ properties ≠ []) .badParameter
  let c ← context
  Prog.when (properties ≠ []) (check (fun _ => .badParameter)
    (validateOutgoingProperties c.properties.sessionExpiry properties))
  refuse (u32Max < properties.length) .badParameter
  let size ← check (fun _ => .badParameter)
    (disconnectPacketSize reasonCode properties.length c.properties.server.maxPacketSize)
  refuse (c.connectStatus = .notConnected) .notConnected
  update fun c =>
    { c with connectStatus := .notConnected, index := 0, network := c.network.map fun _ => 0 }
  let fixed := serializeDisconnectFixed (List.replicate 6 0) reasonCode size.remainingLength
  refuse (fixed.1 = 0) .sendFailed
  let length := encodeVariableLength (List.replicate 4 0) properties.length
  let outcome ← sendVectors env
    ([fixed.2.take fixed.1, length.2.take length.1] ++ if properties = [] then [] else [properties])
  sentWhole (fixed.1 + length.1 + properties.length) outcome

end Client

end RtosMqtt
