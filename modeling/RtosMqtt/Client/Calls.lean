import RtosMqtt.Client.Opening

/-! # Every call of the client

Beside the calls of a session an application subscribes and unsubscribes, sends
an acknowledgement or reads by hand, steps the packet identifier, and writes
fields of the context and of the records. Each call is a course of the pieces
that its kind allows.
-/

namespace RtosMqtt

/-- Bytes of a slice are overwritten, and its length stays. -/
def overwrite {α : Type} (new old : List α) : List α := new.take old.length ++ old.drop new.length

inductive Setting where
  | keepAliveSeconds (seconds : UInt16)
  | waitingForPingResp (waiting : Bool)
  | lastPacketTxTime (now : UInt32)
  | lastPacketRxTime (now : UInt32)
  | pingReqSendTime (now : UInt32)
  | nextPacketId
  | records (outgoing incoming : List Record)
  deriving DecidableEq, Repr

/-- The identifier after this one; zero is not one. -/
def packetIdAfter (packetId : UInt16) : UInt16 := if packetId = 0xFFFF then 1 else packetId + 1

def Setting.apply (c : MqttContext) : Setting → MqttContext
  | .keepAliveSeconds seconds => { c with keepAliveSeconds := seconds }
  | .waitingForPingResp waiting => { c with waitingForPingResp := waiting }
  | .lastPacketTxTime now => { c with lastPacketTxTime := now }
  | .lastPacketRxTime now => { c with lastPacketRxTime := now }
  | .pingReqSendTime now => { c with pingReqSendTime := now }
  | .nextPacketId => { c with nextPacketId := packetIdAfter c.nextPacketId }
  | .records outgoing incoming => { c with records := c.records.map fun r =>
      { r with outgoing := overwrite outgoing r.outgoing, incoming := overwrite incoming r.incoming } }

inductive Invocation where
  | request (call : Request)
  | subscribe (list : List Subscription) (packetId : UInt16) (properties : List UInt8)
  | unsubscribe (list : List Subscription) (packetId : UInt16) (properties : List UInt8)
  | sendPublishAcks (packetId : UInt16) (state : PublishState)
  | recvExact (wanted : ℕ)
  | set (setting : Setting)
  deriving DecidableEq, Repr

def Invocation.perform {W : Type} (env : Environment W) : Invocation → Client W Unit
  | .request call => call.perform env
  | .subscribe list packetId properties => Client.subscribe env list packetId properties
  | .unsubscribe list packetId properties => Client.unsubscribe env list packetId properties
  | .sendPublishAcks packetId state => Client.sendPublishAcks env packetId state
  | .recvExact wanted => do
    let _ ← Client.recvExact env wanted
    pure ()
  | .set setting => Client.update fun c => setting.apply c

def Invocation.may : Invocation → Act → Bool
  | .request (.enableQos _ _ _), act => act == .adjust || act == .replace
  | .request (.connect _ _), act => act.connecting
  | .request (.traffic .processLoop), act => act == .read || act.looping
  | .request (.traffic .receiveLoop), act => act == .read || act.looping
  | .request (.traffic (.publish _ _)), act => act.handling
  | .request (.traffic (.cancelCallback _)), act => act == .call
  | .request (.traffic .ping), act => act.handling
  | .request (.traffic (.disconnect _ _)), act => act == .close || act == .farewell false
  | .subscribe _ _ _, act => act == .send .sized
  | .unsubscribe _ _ _, act => act == .send .sized
  | .sendPublishAcks _ _, act => act == .send .bare || act == .mark || act == .call
  | .recvExact _, act => act == .note || act == .read || act == .adjust || act == .lose
  | .set _, act => act == .adjust || act == .restore

def Invocation.connects : Invocation → Bool
  | .request (.connect _ _) => true
  | _ => false

theorem Invocation.connects_of_establish {call : Invocation} (h : call.may .establish = true) :
    call.connects = true := by
  cases call with
  | request call =>
    cases call with
    | enableQos => cases h
    | connect => rfl
    | traffic call => cases call <;> cases h
  | _ => cases h

namespace Client

variable {W : Type} {env : Environment W} {may : Act → Prop}

theorem enableQos_course (hadjust : may .adjust) (hreplace : may .replace)
    (outgoing incoming : List Record) (ackProperties : List UInt8) :
    (update fun c => c.enableQos outgoing incoming ackProperties : Client W Unit).Moves
      (Course env may) := by
  intro s
  have hwritten : Piece env .adjust s { s with context :=
      { s.context with ackProperties := ackProperties, ackUsed := 0 } } := .adjust rfl rfl rfl
  exact (hwritten.course hadjust).trans
    (Piece.course (.replace (.fresh s.context.records outgoing incoming) rfl rfl) hreplace)

theorem set_course (hadjust : may .adjust) (hrestore : may .restore) (setting : Setting) :
    (update fun c => setting.apply c : Client W Unit).Moves (Course env may) := by
  intro s
  cases setting with
  | records outgoing incoming =>
    cases hr : s.context.records with
    | none =>
      refine Piece.course (.adjust ?_ rfl rfl) hadjust
      simp [update_apply, Setting.apply, hr]
    | some r =>
      have hpiece : Piece env .restore s _ := .restore { r with
        outgoing := overwrite outgoing r.outgoing, incoming := overwrite incoming r.incoming } s
      simp only [update_apply, Setting.apply, hr, Option.map_some]
      exact hpiece.course hrestore
  | _ => exact Piece.course (.adjust rfl rfl rfl) hadjust

theorem reads_course (hnote : may .note) (hread : may .read) (hadjust : may .adjust)
    (hlose : may .lose) : Reads env (Course env may) :=
  ⟨nowMs_course hnote, recv_course hread, fun _ _ => Piece.course (.adjust rfl rfl rfl) hadjust,
    fun s => Piece.course (.lose s) hlose⟩

theorem perform_course (call : Invocation) :
    (call.perform env).Moves (Course env fun act => call.may act = true) := by
  cases call with
  | request call =>
    cases call with
    | enableQos outgoing incoming ackProperties => exact enableQos_course (by rfl) (by rfl) _ _ _
    | connect options timeoutMs => exact connect_course (fun _ h => h) _ _
    | traffic call =>
      cases call with
      | processLoop => exact processLoop_course (fun act h => by simp [Invocation.may, h]) (by rfl)
      | receiveLoop => exact receiveLoop_course (fun act h => by simp [Invocation.may, h]) (by rfl)
      | publish message packetId => exact publish_course (fun _ h => h) _ _
      | cancelCallback packetId => exact cancelCallback_course (by rfl) _
      | ping => exact ping_course fun _ h => h
      | disconnect reasonCode properties => exact fun _ => disconnect_course false (by rfl) _ _ (by simp)
  | subscribe list packetId properties => exact sendList_course (by rfl) _ _ _ _
  | unsubscribe list packetId properties => exact sendList_course (by rfl) _ _ _ _
  | sendPublishAcks packetId state => exact sendPublishAcks_course (by rfl) (by rfl) (by rfl) _ _
  | recvExact wanted =>
    exact (recvExact_moves (reads_course (by rfl) (by rfl) (by rfl) (by rfl)) _).bind fun _ => .pure _
  | set setting => exact set_course (by rfl) (by rfl) _

/-- The client as a machine that answers any call. -/
def caller (W : Type) : Machine (Environment W × Invocation) (Sys W) (Except Stop Unit) where
  step call s := call.2.perform call.1 s

def afterAll (s : Sys W) (calls : List (Environment W × Invocation)) : Sys W :=
  ((caller W).run calls s).2

end Client

end RtosMqtt
