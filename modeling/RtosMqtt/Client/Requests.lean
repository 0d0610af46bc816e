import RtosMqtt.Client.Loop
import RtosMqtt.Client.Publish
import RtosMqtt.Client.Session

/-! # Runs of a client

An application makes one call after the other, and each call has its own caller's
side: another transport, another clock, another store, another handler.
-/

namespace RtosMqtt

/-- A call that neither opens a session nor replaces the records. -/
inductive Traffic where
  | processLoop
  | receiveLoop
  | publish (message : OutgoingPublish) (packetId : UInt16)
  | cancelCallback (packetId : UInt16)
  | ping
  | disconnect (reasonCode : Option UInt8) (properties : List UInt8)
  deriving DecidableEq, Repr

inductive Request where
  | enableQos (outgoing incoming : List Record) (ackProperties : List UInt8)
  | connect (options : Connect) (timeoutMs : UInt32)
  | traffic (call : Traffic)
  deriving DecidableEq, Repr

namespace Client

variable {W : Type} (env : Environment W)

/-- Forget an outgoing message before it is answered. -/
def cancelCallback (packetId : UInt16) : Client W Unit := do
  let answer ← onRecords (.remove packetId) (·.remove packetId)
  let removed ← accepted answer
  refuse (removed = none) .badParameter

end Client

def Traffic.perform {W : Type} (env : Environment W) : Traffic → Client W Unit
  | .processLoop => Client.processLoop env
  | .receiveLoop => Client.receiveLoop env
  | .publish message packetId => Client.publish env message packetId
  | .cancelCallback packetId => Client.cancelCallback packetId
  | .ping => Client.ping env
  | .disconnect reasonCode properties => Client.disconnect env reasonCode properties

def Request.perform {W : Type} (env : Environment W) : Request → Client W Unit
  | .enableQos outgoing incoming ackProperties =>
    Client.update fun c => c.enableQos outgoing incoming ackProperties
  | .connect options timeoutMs => Client.connect env options timeoutMs
  | .traffic call => call.perform env

namespace Client

variable {W : Type}

/-- A client as a machine that answers the application's calls. -/
def machine (W : Type) : Machine (Environment W × Request) (Sys W) (Except Stop Unit) where
  step call s := call.2.perform call.1 s

/-- The part of it that leaves the session open. -/
def trafficMachine (W : Type) : Machine (Environment W × Traffic) (Sys W) (Except Stop Unit) where
  step call s := call.2.perform call.1 s

/-- A client as it is made: no connection, no records, an empty buffer. -/
def start (network : List UInt8) (world : W) : Sys W := { context := .new network, world }

def after (s : Sys W) (calls : List (Environment W × Request)) : Sys W :=
  ((machine W).run calls s).2

def afterTraffic (s : Sys W) (calls : List (Environment W × Traffic)) : Sys W :=
  ((trafficMachine W).run calls s).2

end Client

end RtosMqtt
