import RtosMqtt.Client.Dispatch
import RtosMqtt.Client.Subscribe
import Mathlib.Logic.Relation

/-! # What a call is made of

Every function of the client is a course of pieces: it notes what it was told,
marks something for itself, shows an event, calls the records, or offers a packet
to the transport. What a piece may do, and when a packet may be offered, is said
here once.
-/

namespace RtosMqtt

/-- Why a packet is offered: its size was compared with the broker's limit, it is a PINGREQ, it is
a PUBREL that a resumed session owes, the store returned it, or it opens a connection. -/
inductive Sending where
  | sized | pingreq | bare | stored | connect
  deriving DecidableEq, Repr

inductive Act where
  | note | mark | event | call | read
  | send (sending : Sending)
  | farewell (answering : Bool)
  | adjust | lose | close | replace | establish | restore
  deriving DecidableEq, Repr

def Act.handling : Act → Bool
  | .note | .mark | .event | .call | .send .sized | .send .pingreq => true
  | _ => false

/-- What a turn of a pass does up to the packet it finds. -/
def Act.finding : Act → Bool
  | .adjust | .lose => true
  | act => act.handling

def Act.looping : Act → Bool
  | .farewell true | .close => true
  | act => act.finding

/-- The clock and the store, and not the transport. -/
def Observation.passive : Observation → Bool
  | .clock _ | .stored _ _ _ | .retrieved _ _ | .cleared _ => true
  | _ => false

variable {W α : Type}

/-- When a packet may be offered, and what is known of it. -/
def Sending.Allows (sending : Sending) (packet : List UInt8) (s : Sys W) : Prop :=
  match sending with
  | .sized => s.context.connectStatus = .connected ∧
      packet.length ≤ s.context.properties.server.maxPacketSize
  | .pingreq => s.context.connectStatus = .connected ∧ packet = pingreqPacket
  | .bare => s.context.connectStatus = .connected ∧ packet.length = publishAckPacketSize
  | .stored => s.context.connectStatus = .connected ∧
      ∃ key, s.log.getLast? = some (.retrieved key (some packet))
  | .connect => s.context.connectStatus = .notConnected ∧ packet.head? = some Packet.connect

/-- A part of a packet goes to one of the two senders. -/
def Offered (env : Environment W) (packet : List UInt8) (s t : Sys W) : Prop :=
  ∃ parts, parts.flatten <:+: packet ∧
    (t = (Client.sendVectors env parts s).2 ∨
      ∃ buffer, parts = [buffer] ∧ t = (Client.sendBuffer env buffer s).2)

/-- Only what a client marks for itself changed: the application's section, the flag of a sent
packet, and the outstanding PINGREQ. -/
def Marked (s t : Sys W) : Prop :=
  ∃ ackUsed controlPacketSent waitingForPingResp pingReqSendTime, t = { s with context :=
    { s.context with ackUsed, controlPacketSent, waitingForPingResp, pingReqSendTime } }

/-- The packet at the front of the buffer is a DISCONNECT that cannot be read. -/
def MalformedDisconnect (c : MqttContext) : Prop :=
  c.network.head? = some Packet.disconnect ∧ ∃ total view e, c.packetView total = some view ∧
    deserializeDisconnect view c.properties.client.maxPacketSize = .error e

/-- What a `disconnect` does once nothing stands in its way. -/
def Client.disconnected (s : Sys W) : Sys W :=
  { s with context := { s.context with
    connectStatus := .notConnected, index := 0, network := s.context.network.map fun _ => 0 } }

inductive Replaces : Option PublishRecords → PublishRecords → Prop
  | fresh (before : Option PublishRecords) (outgoing incoming : List Record) :
      Replaces before (.new outgoing incoming)
  | capped (r : PublishRecords) (outgoing incoming : ℕ) :
      Replaces (some r) (r.cap outgoing incoming)
  | cleared (r : PublishRecords) : Replaces (some r) r.clearOutgoing.clearIncoming

inductive Piece (env : Environment W) : Act → Sys W → Sys W → Prop
  | note {s t : Sys W} (hcontext : ∃ now, t.context = { s.context with lastPacketTxTime := now })
      (hlog : ∃ more, t.log = s.log ++ more ∧ ∀ o ∈ more, o.passive = true)
      (hpresent : t.sessionPresent = s.sessionPresent) : Piece env .note s t
  | mark {s t : Sys W} (h : Marked s t) : Piece env .mark s t
  | event (e : Event) (wantsReply : Bool) (s : Sys W) :
      Piece env .event s (Client.dispatch env e wantsReply s).2
  | call {s : Sys W} {r : PublishRecords} (c : Call) (hr : s.context.records = some r) :
      Piece env .call s { s with
        context := { s.context with records := some (r.call c).2 }
        log := s.log ++ [.recorded r c (r.call c).1] }
  | read (into : List UInt8) (s : Sys W) : Piece env .read s (Client.recv env into s).2
  | send {sending : Sending} {packet : List UInt8} {s t : Sys W} (h : sending.Allows packet s)
      (ho : Offered env packet s t)
      (hwhole : sending = .pingreq → t = (Client.sendBuffer env packet s).2) :
      Piece env (.send sending) s t
  | adjust {s t : Sys W} (hrecords : t.context.records = s.context.records)
      (hstatus : t.context.connectStatus = s.context.connectStatus) (hlog : t.log = s.log) :
      Piece env .adjust s t
  | lose (s : Sys W) : Piece env .lose s (Client.connectionLost s).2
  | farewell {answering : Bool} {packet : List UInt8} {s t : Sys W}
      (h : s.context.connectStatus ≠ .notConnected)
      (hanswer : answering = true → MalformedDisconnect s.context)
      (hsize : packet.length ≤ s.context.properties.server.maxPacketSize)
      (htype : packet.head? = some Packet.disconnect)
      (ho : Offered env packet (Client.disconnected s) t) : Piece env (.farewell answering) s t
  | close {s t : Sys W} (hrecords : t.context.records = s.context.records)
      (hstatus : t.context.connectStatus = .notConnected) (hlog : t.log = s.log) :
      Piece env .close s t
  | replace {s t : Sys W} {r : PublishRecords} (h : Replaces s.context.records r)
      (hrecords : t.context = { s.context with records := some r }) (hlog : t.log = s.log) :
      Piece env .replace s t
  | establish {s t : Sys W} (hrecords : t.context.records = s.context.records)
      (hbefore : s.context.connectStatus = .notConnected)
      (hstatus : t.context.connectStatus = .connected) (hlog : t.log = s.log) :
      Piece env .establish s t
  | restore (r : PublishRecords) (s : Sys W) :
      Piece env .restore s { s with context := { s.context with records := some r } }

def Course (env : Environment W) (may : Act → Prop) : Sys W → Sys W → Prop :=
  Relation.ReflTransGen fun s t => ∃ act, may act ∧ Piece env act s t

instance (env : Environment W) (may : Act → Prop) : IsPreorder (Sys W) (Course env may) where
  refl _ := .refl
  trans _ _ _ := .trans

theorem Piece.course {env : Environment W} {may : Act → Prop} {act : Act} {s t : Sys W}
    (h : Piece env act s t) (hmay : may act) : Course env may s t := .single ⟨act, hmay, h⟩

theorem Course.mono {env : Environment W} {may may' : Act → Prop} {s t : Sys W}
    (h : Course env may s t) (hmay : ∀ act, may act → may' act) : Course env may' s t :=
  h.lift id fun _ _ ⟨act, hact, hpiece⟩ => ⟨act, hmay act hact, hpiece⟩

theorem Course.keeps {env : Environment W} {may : Act → Prop} {R : Sys W → Sys W → Prop}
    [IsPreorder (Sys W) R] (hR : ∀ act s t, may act → Piece env act s t → R s t) {s t : Sys W}
    (h : Course env may s t) : R s t := by
  induction h with
  | refl => exact refl_of R s
  | tail _ hpiece ih =>
    obtain ⟨act, hmay, hpiece⟩ := hpiece
    exact trans_of R ih (hR act _ _ hmay hpiece)

namespace Client

variable {env : Environment W} {may : Act → Prop}

section Notes

variable (hmay : may .note)

include hmay

theorem note_course {p : Client W α} (hcontext : ∀ s, (p s).2.context = s.context)
    (hlog : ∀ s, ∃ o : Observation, (p s).2.log = s.log ++ [o] ∧ o.passive = true)
    (hpresent : ∀ s, (p s).2.sessionPresent = s.sessionPresent) : p.Moves (Course env may) := by
  intro s
  refine Piece.course (.note ⟨s.context.lastPacketTxTime, hcontext s⟩ ?_ (hpresent s)) hmay
  obtain ⟨o, ho, hpassive⟩ := hlog s
  exact ⟨[o], ho, by simpa using hpassive⟩

theorem nowMs_course : (nowMs env).Moves (Course env may) :=
  note_course hmay (fun _ => rfl) (fun _ => ⟨_, rfl, rfl⟩) fun _ => rfl

theorem store_course (key : UInt32) (parts : List (List UInt8)) :
    (store env key parts).Moves (Course env may) :=
  note_course hmay (fun _ => rfl) (fun _ => ⟨_, rfl, rfl⟩) fun _ => rfl

theorem retrieve_course (key : UInt32) : (retrieve env key).Moves (Course env may) :=
  note_course hmay (fun _ => rfl) (fun _ => ⟨_, rfl, rfl⟩) fun _ => rfl

theorem clear_course (key : UInt32) : (clear env key).Moves (Course env may) :=
  note_course hmay (fun _ => rfl) (fun _ => ⟨_, rfl, rfl⟩) fun _ => rfl

theorem clearStored_course (key : UInt32) : (clearStored env key).Moves (Course env may) :=
  .ite (clear_course hmay key) (.pure _)

theorem keep_course (key : UInt32) (parts : List (List UInt8)) :
    (keep env key parts).Moves (Course env may) :=
  .ite ((store_course hmay key parts).bind fun _ => refuse_moves _ _) (.pure _)

theorem keepAck_course (packetType : UInt8) (packetId : UInt16) (parts : List (List UInt8)) :
    (keepAck env packetType packetId parts).Moves (Course env may) := .when (keep_course hmay _ _)

end Notes

variable (env) in
theorem keep_context (key : UInt32) (parts : List (List UInt8)) (s : Sys W) :
    (keep env key parts s).2.context = s.context := by
  unfold keep
  split_ifs
  · rfl
  · rfl

variable (env) in
theorem keepAck_context (packetType : UInt8) (packetId : UInt16) (parts : List (List UInt8))
    (s : Sys W) : (keepAck env packetType packetId parts s).2.context = s.context := by
  unfold keepAck Prog.when
  split_ifs
  · exact keep_context _ _ _ s
  · rfl

theorem recv_course (hmay : may .read) (into : List UInt8) :
    (recv env into).Moves (Course env may) := fun s => Piece.course (.read into s) hmay

theorem sendBuffer_course (sending : Sending) {buffer : List UInt8} {s : Sys W}
    (hmay : may (.send sending)) (h : sending.Allows buffer s) :
    Course env may s (sendBuffer env buffer s).2 :=
  Piece.course (.send h ⟨[buffer], by simp, .inr ⟨buffer, rfl, rfl⟩⟩ fun _ => rfl) hmay

theorem sendVectors_course (sending : Sending) {packet : List UInt8} {parts : List (List UInt8)}
    {s : Sys W} (hmay : may (.send sending)) (h : sending.Allows packet s)
    (hpart : parts.flatten <:+: packet) (hvectors : sending ≠ .pingreq) :
    Course env may s (sendVectors env parts s).2 :=
  Piece.course (.send h ⟨parts, hpart, .inl rfl⟩ fun hping => absurd hping hvectors) hmay

theorem connected_course {f : Unit → Client W α} {s : Sys W}
    (hf : s.context.connectStatus = .connected → Course env may s (f () s).2) :
    Course env may s ((connected >>= f) s).2 := by
  refine Prog.rel_bind_of (connected_moves s) ?_
  intro _ t h
  obtain ⟨hstatus, rfl⟩ := connected_run_eq_ok.mp h
  exact hf hstatus

section Records

variable (hmay : may .call)

include hmay

theorem onRecords_course {c : Call} {f : PublishRecords → Except StateError α × PublishRecords}
    (hf : ∀ r, r.call c = ((f r).1.map fun _ => (), (f r).2)) :
    (onRecords c f : Client W _).Moves (Course env may) := by
  intro s
  cases hr : s.context.records with
  | none =>
    rw [onRecords_none hr]
    exact refl_of (Course env may) s
  | some r =>
    have hpiece : Piece env .call s _ := .call c hr
    rw [hf r] at hpiece
    rw [onRecords_some hr]
    exact hpiece.course hmay

theorem reserve_course (packetId : UInt16) (qos : QoS) :
    (reserve packetId qos : Client W _).Moves (Course env may) :=
  onRecords_course hmay fun r => by rw [except_map_unit]; rfl

theorem updatePublish_course (packetId : UInt16) (op : Operation) (qos : QoS) :
    (updatePublish packetId op qos : Client W _).Moves (Course env may) :=
  onRecords_course hmay fun _ => rfl

theorem updateAck_course (packetId : UInt16) (ack : AckType) (op : Operation) :
    (updateAck packetId ack op : Client W _).Moves (Course env may) :=
  onRecords_course hmay fun _ => rfl

theorem cancelCallback_course (packetId : UInt16) :
    (cancelCallback packetId : Client W Unit).Moves (Course env may) :=
  Prog.Moves.bind (onRecords_course hmay fun r => by rw [except_map_unit]; rfl) fun _ =>
    (accepted_moves _).bind fun _ => refuse_moves _ _

end Records

section Handling

variable (hmay : ∀ act, act.handling = true → may act)

include hmay

theorem mark_course {f : MqttContext → MqttContext} (hf : ∀ c, ∃ used sent waiting pinged, f c =
    { c with ackUsed := used, controlPacketSent := sent, waitingForPingResp := waiting,
             pingReqSendTime := pinged }) :
    (update f : Client W Unit).Moves (Course env may) := by
  intro s
  obtain ⟨used, sent, waiting, pinged, hc⟩ := hf s.context
  refine Piece.course (.mark ⟨used, sent, waiting, pinged, ?_⟩) (hmay .mark rfl)
  rw [update_apply, hc]

theorem dispatch_course (e : Event) (wantsReply : Bool) :
    (dispatch env e wantsReply).Moves (Course env may) :=
  fun s => Piece.course (.event e wantsReply s) (hmay .event rfl)

theorem ackSent_course (packetId : UInt16) (ack : AckType) :
    (ackSent packetId ack : Client W Unit).Moves (Course env may) := by
  dsimp only [ackSent]
  exact (mark_course hmay fun _ => ⟨_, _, _, _, rfl⟩).bind fun _ =>
    (updateAck_course (hmay .call rfl) _ _ _).bind fun _ => (accepted_moves _).bind fun _ => .pure _

theorem sendPublishAcksWithoutProperty_course (packetId : UInt16) (state : PublishState) :
    (sendPublishAcksWithoutProperty env packetId state).Moves (Course env may) := by
  unfold sendPublishAcksWithoutProperty
  split
  · exact .pure _
  rename_i ack hack
  intro s
  refine Prog.rel_bind_of (check_moves _ _ s) ?_
  intro written t h
  obtain ⟨hwritten, rfl⟩ := check_eq_ok.mp h
  obtain ⟨rfl, hpacket⟩ := serializeAck_bare_eq_ok (isPublishAck_of_ackFromPacketType hack) hwritten
  rw [Prog.bind_of_ok (context_apply t), hpacket]
  by_cases hsize : t.context.properties.server.maxPacketSize < publishAckPacketSize
  · rw [Client.refuse, Prog.refuse_bind_apply, if_pos hsize]
    exact refl_of (Course env may) t
  rw [Client.refuse, Prog.refuse_bind_of_not hsize]
  refine connected_course ?_
  intro hconnected
  refine Prog.rel_bind_of (keepAck_course (hmay .note rfl) _ _ _ t) ?_
  intro _ u hkeep
  have hcontext := keepAck_context env (ackTypeToSend state) packetId
    [(ackPacket (ackTypeToSend state) packetId []).take 4] t
  rw [hkeep] at hcontext
  refine Prog.rel_bind (sendBuffer_course .sized (hmay _ rfl) ?_) fun _ =>
    (sentWhole_moves _ _).bind fun _ => ackSent_course hmay _ _
  have hlength : ((ackPacket (ackTypeToSend state) packetId []).take 4).length ≤ 4 :=
    List.length_take_le _ _
  rw [Sending.Allows, show u.context = t.context from hcontext]
  exact ⟨hconnected, hlength.trans (not_lt.mp hsize)⟩

theorem buildAndSendAckWithProps_course {packetType : UInt8} {packetId : UInt16}
    {reasonCode : UInt8} {remainingLength propertyLength : ℕ} {s : Sys W}
    (hlength : propertyLength ≤ maxRemainingLength) (hremaining : remainingLength ≤ maxRemainingLength)
    (htotal : remainingLength = 3 + variableLengthEncodedSize propertyLength + propertyLength)
    (hconnected : s.context.connectStatus = .connected)
    (hsize : 1 + variableLengthEncodedSize remainingLength + remainingLength ≤
      s.context.properties.server.maxPacketSize) :
    Course env may s (buildAndSendAckWithProps env packetType packetId reasonCode remainingLength
      propertyLength s).2 := by
  obtain ⟨hheadSize, hhead⟩ := serializeAckFixed_spec packetType packetId hremaining reasonCode
  obtain ⟨hprefixSize, hprefix⟩ := encodeVariableLength_spec hlength
  rw [buildAndSendAckWithProps]
  simp only [hhead, hprefix, hheadSize, hprefixSize]
  refine Prog.rel_bind_of (refuse_moves _ _ s) ?_
  intro _ t h
  obtain rfl : t = s := (Prod.mk.inj h).2.symm
  refine Prog.rel_bind_of (Prog.Moves.when (mark_course hmay fun _ => ⟨_, _, _, _, by rfl⟩) t) ?_
  intro _ u h
  have hu : u.context.connectStatus = t.context.connectStatus ∧
      u.context.properties = t.context.properties := by
    unfold Prog.when at h
    split_ifs at h
    · obtain ⟨-, rfl⟩ := Prod.mk.inj h
      exact ⟨rfl, rfl⟩
    · obtain ⟨-, rfl⟩ := Prod.mk.inj h
      exact ⟨rfl, rfl⟩
  refine Prog.rel_bind_of (refuse_moves _ _ u) ?_
  intro _ v h
  obtain rfl : v = u := (Prod.mk.inj h).2.symm
  rw [Prog.bind_of_ok (context_apply v)]
  refine Prog.rel_bind_of (orFail_moves _ _ v) ?_
  intro properties w h
  obtain ⟨hslice, rfl⟩ := orFail_eq_ok.mp h
  refine Prog.rel_bind_of (keepAck_course (hmay .note rfl) _ _ _ w) ?_
  intro _ x hkeep
  have hcontext : x.context = w.context := by
    have hstill := keepAck_context env packetType packetId
      ([packetType :: encodedLength remainingLength ++ toBeBytes16 packetId ++ [reasonCode],
        encodedLength propertyLength] ++ if propertyLength = 0 then [] else [properties]) w
    rwa [hkeep] at hstill
  refine Prog.rel_bind (sendVectors_course .sized (hmay _ rfl) ?_
    (List.infix_refl _) (by decide)) fun _ => sentWhole_moves _ _
  rw [Sending.Allows, hcontext, hu.1, hu.2]
  refine ⟨hconnected, le_trans ?_ hsize⟩
  have hproperties : properties.length = propertyLength := length_of_slice? hslice
  have hsection : (if propertyLength = 0 then [] else [properties]).flatten = properties := by
    split_ifs with hzero
    · exact (List.length_eq_zero_iff.mp (hproperties.trans hzero)).symm
    · simp
  have htwo : (toBeBytes16 packetId).length = 2 := rfl
  rw [List.flatten_append, hsection]
  simp only [List.flatten_cons, List.flatten_nil, List.length_append, List.length_cons,
    List.length_nil, hproperties, htwo, length_encodedLength hlength,
    length_encodedLength hremaining]
  omega

theorem sendPublishAcksWithProperty_course (packetId : UInt16) (state : PublishState)
    (reply : Reply) : (sendPublishAcksWithProperty env packetId state reply).Moves
      (Course env may) := by
  intro s
  rw [sendPublishAcksWithProperty, Prog.bind_of_ok (context_apply s)]
  refine Prog.rel_bind_of (Prog.Moves.when (check_moves _ _) s) ?_
  intro _ t h
  obtain rfl : t = s := by
    unfold Prog.when at h
    split_ifs at h <;> exact (Prod.mk.inj h).2.symm
  refine connected_course ?_
  intro hconnected
  cases ackFromPacketType (ackTypeToSend state) with
  | none => exact refl_of (Course env may) t
  | some ack =>
  refine Prog.rel_bind_of (check_moves _ _ t) ?_
  intro size u h
  obtain ⟨hsize, rfl⟩ := check_eq_ok.mp h
  obtain ⟨hlength, hremaining, htotal⟩ := ackPacketSize_eq_ok hsize
  exact Prog.rel_bind (buildAndSendAckWithProps_course hmay hlength hremaining htotal hconnected
    (le_of_ackPacketSize hsize)) fun _ => ackSent_course hmay _ _

theorem replyWith_course (packetId : UInt16) (state : PublishState) (reasonCode : Option UInt8) :
    (replyWith env packetId state reasonCode).Moves (Course env may) :=
  context_moves.bind fun _ => .ite (sendPublishAcksWithoutProperty_course hmay _ _)
    (sendPublishAcksWithProperty_course hmay _ _ _)

theorem handleIncomingPublish_course (total : ℕ) :
    (handleIncomingPublish env total).Moves (Course env may) := by
  dsimp only [handleIncomingPublish]
  exact context_moves.bind fun _ => (orFail_moves _ _).bind fun _ => (check_moves _ _).bind fun _ =>
    (refuse_moves _ _).bind fun _ => (updatePublish_course (hmay .call rfl) _ _ _).bind fun _ =>
      (receivedState_moves _ _).bind fun _ =>
        Prog.Moves.bind (.ite (dispatch_course hmay _ _) (.pure _)) fun _ =>
          (refuse_moves _ _).bind fun _ =>
            .when (checkSectionLength_moves.bind fun _ => replyWith_course hmay _ _ _)

theorem handlePublishAcks_course (total : ℕ) :
    (handlePublishAcks env total).Moves (Course env may) := by
  dsimp only [handlePublishAcks]
  exact context_moves.bind fun _ => (orFail_moves _ _).bind fun _ => (orFail_moves _ _).bind fun _ =>
    (check_moves _ _).bind fun _ => (updateAck_course (hmay .call rfl) _ _ _).bind fun _ =>
      (accepted_moves _).bind fun _ => (clearStored_course (hmay .note rfl) _).bind fun _ =>
        (dispatch_course hmay _ _).bind fun _ => (refuse_moves _ _).bind fun _ =>
          checkSectionLength_moves.bind fun _ => .when (replyWith_course hmay _ _ _)

theorem handleIncomingAck_course (packetType : UInt8) (total : ℕ) (manageKeepAlive : Bool) :
    (handleIncomingAck env packetType total manageKeepAlive).Moves (Course env may) := by
  refine .ite (handlePublishAcks_course hmay _) (.ite ?_ (.ite ?_ (fail_moves _)))
  · dsimp only [handlePingresp]
    exact context_moves.bind fun _ => (orFail_moves _ _).bind fun _ => (check_moves _ _).bind fun _ =>
      .ite (mark_course hmay fun _ => ⟨_, _, _, _, by rfl⟩)
        ((dispatch_course hmay _ _).bind fun _ => refuse_moves _ _)
  · dsimp only [handleSubUnsubAck]
    exact context_moves.bind fun _ => (orFail_moves _ _).bind fun _ => (check_moves _ _).bind fun _ =>
      (dispatch_course hmay _ _).bind fun _ => refuse_moves _ _

theorem ping_course : (ping env).Moves (Course env may) := by
  intro s
  dsimp only [ping]
  refine connected_course ?_
  intro hconnected
  refine Prog.rel_bind_of (check_moves _ _ s) ?_
  intro written t h
  obtain ⟨hwritten, rfl⟩ := check_eq_ok.mp h
  obtain rfl : written = 2 := (Except.ok.inj hwritten).symm
  exact Prog.rel_bind (sendBuffer_course .pingreq (hmay _ rfl) ⟨hconnected, rfl⟩)
    fun _ => (sentWhole_moves _ _).bind fun _ => mark_course hmay fun _ => ⟨_, _, _, _, by rfl⟩

theorem handleKeepAlive_course : (handleKeepAlive env).Moves (Course env may) := by
  dsimp only [handleKeepAlive]
  exact (nowMs_course (hmay .note rfl)).bind fun _ => context_moves.bind fun _ =>
    .ite (refuse_moves _ _) (.ite (ping_course hmay) (.when (ping_course hmay)))

theorem keepAliveTurn_course (manageKeepAlive : Bool) (received : Recv)
    (status : Except ClientError ℕ) :
    (keepAliveTurn env manageKeepAlive received status).Moves (Course env may) :=
  .ite ((attempt_moves (handleKeepAlive_course hmay)).bind fun outcome => by
    cases outcome <;> exact .pure _) (.pure _)

end Handling

/-- A `disconnect` that gets as far as changing the status. -/
def Disconnects (c : MqttContext) (reasonCode : Option UInt8) (properties : List UInt8) : Prop :=
  (reasonCode = none → properties = []) ∧
    (properties ≠ [] →
      validateOutgoingProperties c.properties.sessionExpiry properties = .ok ()) ∧
    properties.length ≤ u32Max ∧
    (∃ size, disconnectPacketSize reasonCode properties.length c.properties.server.maxPacketSize =
      .ok size) ∧
    c.connectStatus ≠ .notConnected

def disconnectParts (reasonCode : Option UInt8) (properties : List UInt8) (n : ℕ) :
    List (List UInt8) :=
  [disconnectHead reasonCode n, encodedLength properties.length] ++
    if properties = [] then [] else [properties]

theorem flatten_disconnectParts (reasonCode : Option UInt8) (properties : List UInt8) (n : ℕ) :
    (disconnectParts reasonCode properties n).flatten =
      disconnectHead reasonCode n ++ encodedLength properties.length ++ properties := by
  rw [disconnectParts]
  split_ifs with hnone
  · simp [hnone]
  · simp

/-- A `disconnect` does nothing, or sends its packet once the connection is closed. -/
theorem disconnect_cases (env : Environment W) (reasonCode : Option UInt8) (properties : List UInt8)
    (s : Sys W) :
    (¬ Disconnects s.context reasonCode properties ∧
        Refuses (disconnect env reasonCode properties) s) ∨
      ∃ size, Disconnects s.context reasonCode properties ∧
        disconnectPacketSize reasonCode properties.length
          s.context.properties.server.maxPacketSize = .ok size ∧
        disconnect env reasonCode properties s =
          (sendVectors env (disconnectParts reasonCode properties size.remainingLength) >>=
            sentWhole (disconnectParts reasonCode properties size.remainingLength).flatten.length)
              (disconnected s) := by
  unfold Refuses disconnect
  by_cases hreason : reasonCode = none ∧ properties ≠ []
  · rw [Client.refuse, Prog.refuse_bind_apply, if_pos hreason]
    exact .inl ⟨fun h => hreason.2 (h.1 hreason.1), _, rfl⟩
  rw [Client.refuse, Prog.refuse_bind_of_not hreason, Prog.bind_of_ok (context_apply s)]
  by_cases hvalid : properties ≠ [] →
      validateOutgoingProperties s.context.properties.sessionExpiry properties = .ok ()
  case neg =>
    obtain ⟨hne, herror⟩ := Classical.not_imp.mp hvalid
    refine .inl ⟨fun h => herror (h.2.1 hne), ?_⟩
    rw [Prog.when_bind_of hne]
    cases hv : validateOutgoingProperties s.context.properties.sessionExpiry properties with
    | error e =>
      rw [check_bind_of_error rfl]
      exact ⟨_, rfl⟩
    | ok _ => exact absurd hv herror
  have hchecked : Prog.when (properties ≠ []) (check (fun _ => .badParameter)
      (validateOutgoingProperties s.context.properties.sessionExpiry properties)) s =
        (.ok (), s) := by
    unfold Prog.when
    split_ifs with hne
    · exact check_eq_ok.mpr ⟨hvalid hne, rfl⟩
    · rfl
  rw [Prog.bind_of_ok hchecked]
  by_cases hlength : u32Max < properties.length
  · rw [Client.refuse, Prog.refuse_bind_apply, if_pos hlength]
    exact .inl ⟨fun h => absurd h.2.2.1 (not_le.mpr hlength), _, rfl⟩
  rw [Client.refuse, Prog.refuse_bind_of_not hlength]
  cases hsize : disconnectPacketSize reasonCode properties.length
      s.context.properties.server.maxPacketSize with
  | error e =>
    rw [check_bind_of_error rfl]
    refine .inl ⟨?_, _, rfl⟩
    rintro ⟨-, -, -, ⟨size, hok⟩, -⟩
    rw [hsize] at hok
    cases hok
  | ok size =>
  rw [check_bind_of_ok rfl]
  by_cases hstatus : s.context.connectStatus = .notConnected
  · rw [Client.refuse, Prog.refuse_bind_apply, if_pos hstatus]
    exact .inl ⟨fun h => h.2.2.2.2 hstatus, _, rfl⟩
  rw [Client.refuse, Prog.refuse_bind_of_not hstatus, Prog.bind_of_ok (update_apply _ s)]
  have hnone : reasonCode = none → properties = [] := fun h => by
    by_contra hne
    exact hreason ⟨h, hne⟩
  refine .inr ⟨size, ⟨hnone, hvalid, not_lt.mp hlength, ⟨size, hsize⟩, hstatus⟩, rfl, ?_⟩
  obtain ⟨hproperties, hremaining, -, -⟩ := disconnectPacketSize_eq_ok hsize
  obtain ⟨hheadSize, hhead⟩ := serializeDisconnectFixed_spec reasonCode hremaining
  obtain ⟨hprefixSize, hprefix⟩ := encodeVariableLength_spec hproperties
  have hpos : 0 < (disconnectHead reasonCode size.remainingLength).length := Nat.succ_pos _
  have htotal : (disconnectParts reasonCode properties size.remainingLength).flatten.length =
      (disconnectHead reasonCode size.remainingLength).length +
        variableLengthEncodedSize properties.length + properties.length := by
    rw [flatten_disconnectParts, List.length_append, List.length_append,
      length_encodedLength hproperties]
  dsimp only
  rw [hheadSize, hhead, hprefixSize, hprefix, Client.refuse, Prog.refuse_bind_of_not (by omega),
    htotal]
  rfl

theorem disconnect_course (answering : Bool) (hfarewell : may (.farewell answering))
    (reasonCode : Option UInt8) (properties : List UInt8) {s : Sys W}
    (hanswer : answering = true → MalformedDisconnect s.context) :
    Course env may s (disconnect env reasonCode properties s).2 := by
  rcases disconnect_cases env reasonCode properties s with ⟨-, h⟩ | ⟨size, hdisconnects, hsize, hrun⟩
  · rw [h.snd]
    exact refl_of (Course env may) s
  obtain ⟨hproperties, hremaining, hvalue, hfits⟩ := disconnectPacketSize_eq_ok hsize
  rw [hrun]
  refine Prog.rel_bind (Piece.course (.farewell hdisconnects.2.2.2.2 hanswer ?_ ?_
    ⟨_, List.infix_refl _, .inl rfl⟩) hfarewell) fun _ => sentWhole_moves _ _
  · rw [flatten_disconnectParts, List.length_append, List.length_append,
      length_disconnectHead reasonCode hremaining, length_encodedLength hproperties]
    omega
  · rw [flatten_disconnectParts]
    rfl

section Finding

variable (hmay : ∀ act, act.finding = true → may act)

include hmay

theorem handling_of_finding (act : Act) (h : act.handling = true) : may act := by
  refine hmay act ?_
  unfold Act.finding
  split
  · rfl
  · rfl
  · exact h

theorem adjust_course {f : MqttContext → MqttContext} (hf : ∀ c, (f c).records = c.records ∧
    (f c).connectStatus = c.connectStatus) : (update f : Client W Unit).Moves (Course env may) :=
  fun s => Piece.course (.adjust (hf s.context).1 (hf s.context).2 rfl) (hmay .adjust rfl)

theorem connectionLost_course : (connectionLost : Client W Unit).Moves (Course env may) :=
  fun s => Piece.course (.lose s) (hmay .lose rfl)

theorem arrival_course (received : Recv) :
    (arrival received : Client W _).Moves (Course env may) := by
  refine context_moves.bind fun c => ?_
  cases received with
  | failed => exact (connectionLost_course hmay).bind fun _ => .pure _
  | nothing => exact .pure _
  | bytes count =>
    exact .ite (.pure _) ((adjust_course hmay fun _ => ⟨by rfl, by rfl⟩).bind fun _ =>
      context_moves.bind fun _ => .pure _)

theorem nextPacket_course (manageKeepAlive : Bool) (received : Recv) :
    (nextPacket env manageKeepAlive received).Moves (Course env may) :=
  (arrival_course hmay _).bind fun _ =>
    (keepAliveTurn_course (handling_of_finding hmay) _ _ _).bind fun _ =>
      (check_moves _ _).bind fun _ => context_moves.bind fun _ => (refuse_moves _ _).bind fun _ =>
        (refuse_moves _ _).bind fun _ => .pure _

end Finding

section Loop

variable (hmay : ∀ act, act.looping = true → may act)

include hmay

theorem finding_of_looping (act : Act) (h : act.finding = true) : may act := by
  refine hmay act ?_
  unfold Act.looping
  split
  · rfl
  · rfl
  · exact h

theorem handling_of_looping (act : Act) (h : act.handling = true) : may act :=
  handling_of_finding (finding_of_looping hmay) act h

theorem handleIncomingDisconnect_course (total : ℕ) {s : Sys W}
    (htype : s.context.network.head? = some Packet.disconnect) :
    Course env may s (handleIncomingDisconnect env total s).2 := by
  rw [handleIncomingDisconnect, Prog.bind_of_ok (context_apply s)]
  refine Prog.rel_bind_of (orFail_moves _ _ s) ?_
  intro view t h
  obtain ⟨hview, rfl⟩ := orFail_eq_ok.mp h
  have hanswer : Course env may t (answerDisconnect env view t.context t).2 := by
    unfold answerDisconnect
    cases hread : deserializeDisconnect view t.context.properties.client.maxPacketSize with
    | error e =>
      exact Prog.rel_bind (disconnect_course true (hmay _ rfl) _ _
        fun _ => ⟨htype, total, view, e, hview, hread⟩) fun _ => fail_moves _
    | ok incoming =>
      exact ((dispatch_course (handling_of_looping hmay) _ _).bind fun _ => refuse_moves _ _) t
  rw [← attempt_snd] at hanswer
  exact Prog.rel_bind hanswer fun _ =>
    Prog.Moves.bind (fun s => Piece.course (.close rfl rfl rfl) (hmay .close rfl)) fun _ =>
      check_moves _ _

theorem handlePacket_course (total : ℕ) (manageKeepAlive : Bool) :
    (handlePacket env total manageKeepAlive).Moves (Course env may) := by
  intro s
  rw [handlePacket, Prog.bind_of_ok (context_apply s)]
  refine Prog.rel_bind_of (orFail_moves _ _ s) ?_
  intro packetType t h
  obtain ⟨hhead, rfl⟩ := orFail_eq_ok.mp h
  split_ifs with hpublish hdisconnect
  · exact handleIncomingPublish_course (handling_of_looping hmay) _ t
  · exact handleIncomingDisconnect_course hmay _ (hdisconnect ▸ hhead)
  · exact handleIncomingAck_course (handling_of_looping hmay) _ _ _ t

theorem processPacket_course (total : ℕ) (manageKeepAlive : Bool) :
    (processPacket env total manageKeepAlive).Moves (Course env may) :=
  have hfind := finding_of_looping hmay
  (handlePacket_course hmay _ _).bind fun _ => (adjust_course hfind fun _ => ⟨by rfl, by rfl⟩).bind
    fun _ => (nowMs_course (hfind .note rfl)).bind fun _ =>
      adjust_course hfind fun _ => ⟨by rfl, by rfl⟩

theorem turnsFrom_course (manageKeepAlive : Bool) (turns : ℕ) (received : Recv) :
    (turnsFrom env manageKeepAlive turns received).Moves (Course env may) := by
  induction turns generalizing received with
  | zero => exact .throw _
  | succ turns ih =>
    exact (nextPacket_course (finding_of_looping hmay) _ _).bind fun _ =>
      (processPacket_course hmay _ _).bind fun _ => context_moves.bind fun _ => .ite (.pure _) (ih _)

theorem readIn_course (hread : may .read) : (readIn env).Moves (Course env may) := by
  refine context_moves.bind fun c => ?_
  cases slice? c.network c.index c.network.length with
  | none => exact .pure _
  | some into =>
    exact (recv_course hread _).bind fun _ =>
      (adjust_course (finding_of_looping hmay) fun _ => ⟨by rfl, by rfl⟩).bind fun _ => .pure _

theorem receiveSingleIteration_course (hread : may .read) (manageKeepAlive : Bool) :
    (receiveSingleIteration env manageKeepAlive).Moves (Course env may) :=
  (readIn_course hmay hread).bind fun _ => (attempt_moves (turnsFrom_course hmay _ _ _)).bind fun _ =>
    check_moves _ _

theorem processLoop_course (hread : may .read) : (processLoop env).Moves (Course env may) :=
  Prog.Moves.bind (adjust_course (finding_of_looping hmay) fun _ => ⟨by rfl, by rfl⟩) fun _ =>
    receiveSingleIteration_course hmay hread _

theorem receiveLoop_course (hread : may .read) : (receiveLoop env).Moves (Course env may) :=
  receiveSingleIteration_course hmay hread _

end Loop

theorem send_smooth {bytes : List UInt8} {outcome : Sent} {s t : Sys W}
    (h : send env bytes s = (.ok outcome, t)) (ho : outcome ≠ .failed) : Smooth s t := by
  obtain rfl := of_send h
  refine ⟨⟨_, _, rfl, rfl⟩, rfl, .one rfl ?_⟩
  cases outcome <;> simp_all [Observation.fails]

theorem writev_smooth {parts : List (List UInt8)} {outcome : Sent} {s t : Sys W}
    (h : writev env parts s = (.ok outcome, t)) (ho : outcome ≠ .failed) : Smooth s t := by
  obtain rfl := of_writev h
  refine ⟨⟨_, _, rfl, rfl⟩, rfl, .one rfl ?_⟩
  cases outcome <;> simp_all [Observation.fails]

theorem nowMs_smooth : (nowMs env).Yields Smooth :=
  Prog.Moves.yields fun _ => ⟨⟨_, _, rfl, rfl⟩, rfl, .one rfl rfl⟩

theorem stampTx_smooth : (stampTx env).Yields Smooth :=
  Prog.Moves.yields fun _ => ⟨⟨_, _, rfl, rfl⟩, rfl, .one rfl rfl⟩

theorem onRecords_still (c : Call) (f : PublishRecords → Except StateError α × PublishRecords) :
    (onRecords c f : Client W _).Moves Still := by
  intro s
  cases hr : s.context.records with
  | none => rw [onRecords_none hr]; exact ⟨rfl, rfl⟩
  | some r => rw [onRecords_some hr]; exact ⟨rfl, rfl⟩

theorem reservePublish_still (message : OutgoingPublish) (packetId : UInt16) :
    (reservePublish message packetId : Client W Unit).Moves Still :=
  (onRecords_still _ _).bind fun _ => .when ((accepted_moves _).bind fun _ => .pure _)

theorem reservePublish_course (hmay : may .call) (message : OutgoingPublish) (packetId : UInt16) :
    (reservePublish message packetId : Client W Unit).Moves (Course env may) :=
  (reserve_course hmay _ _).bind fun _ => .when ((accepted_moves _).bind fun _ => .pure _)

/-- Reports a number of bytes only when the transport met no error. -/
def SentSmoothly (s : Sys W) : Except Stop SendOutcome → Sys W → Prop
  | .ok (.sent _), t => Smooth s t
  | _, _ => True

variable (env) in
theorem bufferTurn_smooth (buffer : List UInt8) (start : UInt32) (k : ℕ) {s t : Sys W}
    (hst : Smooth s t) : Prog.Turned (fun _ t => Smooth s t) (SentSmoothly s)
      (bufferTurn env buffer start k t) := by
  have hturn := bufferTurn_cases env buffer start k t
  generalize bufferTurn env buffer start k t = run at hturn ⊢
  cases hturn with
  | whole => exact hst
  | failed => exact trivial
  | @nothing u _ hsend =>
    have hsu := trans_of Smooth hst (send_smooth hsend (by simp))
    have hsv := trans_of Smooth hsu (nowMs_smooth u _ _ (nowMs_apply env u))
    exact .ite hsv hsv
  | @bytes u _ _ _ hsend =>
    have hsu := trans_of Smooth hst (send_smooth hsend (by simp))
    have hsv := trans_of Smooth hsu (stampTx_smooth u _ _ (stampTx_apply env u))
    have hsw := trans_of Smooth hsv (nowMs_smooth _ _ _ (nowMs_apply env _))
    exact .ite hsw hsw

theorem sendBuffer_smooth {buffer : List UInt8} {n : ℕ} {s t : Sys W}
    (h : sendBuffer env buffer s = (.ok (.sent n), t)) : Smooth s t := by
  rw [sendBuffer, Prog.bind_of_ok (nowMs_apply env s)] at h
  have hloop := @Prog.turned_loop _ _ _ _ _ .blocked 0 _ _ (SentSmoothly s)
    (fun k _ hst => bufferTurn_smooth env buffer (env.nowMs s.world).1 k hst) (fun _ _ _ => trivial)
    (nowMs_smooth s _ _ (nowMs_apply env s)) env.patience
  rwa [h] at hloop

variable (env) in
theorem vectorsTurn_smooth (total : ℕ) (start : UInt32) (place : ℕ × List (List UInt8))
    {s t : Sys W} (hst : Smooth s t) : Prog.Turned (fun _ t => Smooth s t) (SentSmoothly s)
      (vectorsTurn env total start place t) := by
  have hturn := vectorsTurn_cases env total start place t
  generalize vectorsTurn env total start place t = run at hturn ⊢
  cases hturn with
  | whole => exact hst
  | failed => exact trivial
  | @nothing u _ hsend =>
    have hsu := trans_of Smooth hst (writev_smooth hsend (by simp))
    have hsv := trans_of Smooth hsu (nowMs_smooth u _ _ (nowMs_apply env u))
    exact .ite hsv hsv
  | @bytes u _ _ _ hsend =>
    have hsu := trans_of Smooth hst (writev_smooth hsend (by simp))
    have hsv := trans_of Smooth hsu (stampTx_smooth u _ _ (stampTx_apply env u))
    have hsw := trans_of Smooth hsv (nowMs_smooth _ _ _ (nowMs_apply env _))
    exact .ite hsw hsw
  | @last u _ _ _ _ hsend =>
    have hsu := trans_of Smooth hst (writev_smooth hsend (by simp))
    exact trans_of Smooth hsu (stampTx_smooth u _ _ (stampTx_apply env u))

theorem sendVectors_smooth {vectors : List (List UInt8)} {n : ℕ} {s t : Sys W}
    (h : sendVectors env vectors s = (.ok (.sent n), t)) : Smooth s t := by
  rw [sendVectors, Prog.bind_of_ok (nowMs_apply env s)] at h
  have hloop := @Prog.turned_loop _ _ _ _ _ .blocked (0, vectors) _ _ (SentSmoothly s)
    (fun place _ hst => vectorsTurn_smooth env vectors.flatten.length (env.nowMs s.world).1 place hst)
    (fun _ _ _ => trivial)
    (nowMs_smooth s _ _ (nowMs_apply env s)) env.patience
  rwa [h] at hloop

theorem length_publishParts {head topicName prefixBytes properties payload : List UInt8}
    {qos : QoS} {packetId : UInt16} :
    (publishParts head topicName qos packetId prefixBytes properties payload).flatten.length =
      head.length + topicName.length + packetIdCost qos + prefixBytes.length + properties.length +
        payload.length := by
  have htwo : (toBeBytes16 packetId).length = 2 := rfl
  unfold publishParts packetIdCost
  split_ifs <;> simp_all <;> omega

variable (env) in
/-- Everything a PUBLISH does before its first byte goes out, and what is to go out. -/
def preparePublish (publish : OutgoingPublish) (packetId : UInt16) :
    Client W (List (List UInt8)) := do
  let c ← context
  check id (c.validatePublish publish.qos packetId publish.topicName.length
    publish.payload.length)
  let server := c.properties.server
  let topicAlias ← topicAliasOf c publish.properties
  check (fun _ => .badParameter)
    (validatePublishParams publish server.retainAvailable server.maxQos (topicAlias.getD 0)
      server.maxPacketSize)
  let size ← check (fun _ => .badParameter) (publishPacketSize publish server.maxPacketSize)
  let header :=
    serializePublishHeaderWithoutTopic publish size.remainingLength (List.replicate 7 0)
  let headerSize ← check (fun _ => .badParameter) header.1
  connected
  Prog.when (publish.qos ≠ .atMostOnce) (reservePublish publish packetId)
  let length := encodeVariableLength (List.replicate 4 0) publish.properties.length
  let dupHeader ← duplicateHeader publish.dup header.2
  let parts (header : List UInt8) := publishParts (header.take headerSize) publish.topicName
    publish.qos packetId (length.2.take length.1) publish.properties publish.payload
  Prog.when (publish.qos ≠ .atMostOnce) (keep env packetId.toUInt32 (parts dupHeader))
  pure (parts header.2)

variable (env) in
def deliverPublish (publish : OutgoingPublish) (packetId : UInt16) (parts : List (List UInt8)) :
    Client W Unit := do
  let outcome ← sendVectors env parts
  sentWhole parts.flatten.length outcome
  Prog.when (publish.qos ≠ .atMostOnce) do
    let answer ← updatePublish packetId .send publish.qos
    let _ ← accepted answer
    pure ()

theorem publish_eq (message : OutgoingPublish) (packetId : UInt16) :
    publish env message packetId =
      preparePublish env message packetId >>= deliverPublish env message packetId := by
  simp only [publish, preparePublish, Prog.bind_assoc, Prog.pure_bind]
  rfl

theorem topicAliasOf_moves (c : MqttContext) (properties : List UInt8) {R : Sys W → Sys W → Prop}
    [IsPreorder (Sys W) R] : (topicAliasOf c properties : Client W _).Moves R :=
  .ite (.pure _) (check_moves _ _)

theorem duplicateHeader_moves (dup : Bool) (header : List UInt8) {R : Sys W → Sys W → Prop}
    [IsPreorder (Sys W) R] : (duplicateHeader dup header : Client W _).Moves R :=
  .ite (.pure _) ((check_moves _ _).bind fun _ => .pure _)

theorem preparePublish_course (hnote : may .note) (hcall : may .call) (message : OutgoingPublish)
    (packetId : UInt16) : (preparePublish env message packetId).Moves (Course env may) :=
  context_moves.bind fun _ => (check_moves _ _).bind fun _ => (topicAliasOf_moves _ _).bind fun _ =>
    (check_moves _ _).bind fun _ => (check_moves _ _).bind fun _ => (check_moves _ _).bind fun _ =>
      connected_moves.bind fun _ =>
        (Prog.Moves.when (reservePublish_course hcall _ _)).bind fun _ =>
          (duplicateHeader_moves _ _).bind fun _ =>
            (Prog.Moves.when (keep_course hnote _ _)).bind fun _ => .pure _

/-- The record of a message, reserved; a collision does not stop a re-delivery. -/
structure Reserved (message : OutgoingPublish) (packetId : UInt16) (r r' : PublishRecords) :
    Prop where
  records : r' = (r.reserve packetId message.qos).2
  answer : (r.reserve packetId message.qos).1 = .ok () ∨
    (r.reserve packetId message.qos).1 = .error .stateCollision ∧ message.dup = true

theorem reservePublish_eq_ok {message : OutgoingPublish} {packetId : UInt16} {s t : Sys W}
    {r : PublishRecords} (hr : s.context.records = some r)
    (h : reservePublish message packetId s = (.ok (), t)) :
    ∃ r', t.context.records = some r' ∧ Reserved message packetId r r' := by
  rw [reservePublish, reserve, Prog.bind_of_ok (onRecords_some hr)] at h
  rcases hanswer : (r.reserve packetId message.qos).1 with e | ⟨⟩
  · rw [hanswer] at h
    by_cases hcollision : some (Except.error e : Except StateError Unit) =
        some (.error .stateCollision) ∧ message.dup = true
    · rw [Prog.when, if_neg (not_not.mpr hcollision)] at h
      obtain ⟨-, rfl⟩ := Prod.mk.inj h
      exact ⟨_, rfl, rfl, .inr ⟨hanswer.trans (Option.some.inj hcollision.1), hcollision.2⟩⟩
    · rw [Prog.when, if_pos hcollision] at h
      cases h
  · rw [hanswer] at h
    obtain ⟨-, rfl⟩ := Prod.mk.inj h
    exact ⟨_, rfl, rfl, .inl hanswer⟩

/-- What is known when a PUBLISH is about to go out. -/
structure Prepared (message : OutgoingPublish) (packetId : UInt16) (parts : List (List UInt8))
    (s t : Sys W) : Prop where
  status : s.context.connectStatus = .connected
  still : Still s t
  length : parts.flatten.length ≤ s.context.properties.server.maxPacketSize
  reserved : message.qos ≠ .atMostOnce → ∃ r r', s.context.records = some r ∧
    t.context.records = some r' ∧ Reserved message packetId r r'

theorem preparePublish_eq_ok {message : OutgoingPublish} {packetId : UInt16}
    {parts : List (List UInt8)} {s t : Sys W}
    (h : preparePublish env message packetId s = (.ok parts, t)) :
    Prepared message packetId parts s t := by
  rw [preparePublish, Prog.bind_of_ok (context_apply s)] at h
  rw [Prog.bind_eq_ok] at h
  obtain ⟨_, u, hvalid, h⟩ := h
  obtain ⟨hvalid, rfl⟩ := check_eq_ok.mp hvalid
  rw [Prog.bind_eq_ok] at h
  obtain ⟨topicAlias, v, halias, h⟩ := h
  obtain rfl : v = u := by
    unfold topicAliasOf at halias
    split_ifs at halias
    · exact (Prod.mk.inj halias).2.symm
    · exact (check_eq_ok.mp halias).2
  rw [Prog.bind_eq_ok] at h
  obtain ⟨_, u, hcheck, h⟩ := h
  obtain ⟨-, rfl⟩ := check_eq_ok.mp hcheck
  rw [Prog.bind_eq_ok] at h
  obtain ⟨size, v, hsize, h⟩ := h
  rw [check_eq_ok] at hsize
  obtain ⟨hsize, rfl⟩ := hsize
  rw [Prog.bind_eq_ok] at h
  obtain ⟨headerSize, u, hheader, h⟩ := h
  rw [check_eq_ok] at hheader
  obtain ⟨hheader, rfl⟩ := hheader
  dsimp only at h
  rw [Prog.bind_eq_ok] at h
  obtain ⟨_, v, hconnected, h⟩ := h
  obtain ⟨hconnected, rfl⟩ := connected_run_eq_ok.mp hconnected
  rw [Prog.bind_eq_ok] at h
  obtain ⟨_, u, hreserve, h⟩ := h
  rw [Prog.bind_eq_ok] at h
  obtain ⟨dupHeader, w, hdup, h⟩ := h
  obtain rfl : w = u := by
    unfold duplicateHeader at hdup
    split_ifs at hdup
    · exact (Prod.mk.inj hdup).2.symm
    · obtain ⟨flags, t', hcheck, hpure⟩ := Prog.bind_eq_ok.mp hdup
      obtain ⟨-, rfl⟩ := check_eq_ok.mp hcheck
      exact (Prod.mk.inj hpure).2.symm
  rw [Prog.bind_eq_ok] at h
  obtain ⟨_, x, hkeep, h⟩ := h
  obtain ⟨hparts, rfl⟩ := Prod.mk.inj h
  obtain rfl := Except.ok.inj hparts
  have hreserved := Prog.Moves.when (c := message.qos ≠ .atMostOnce)
    (reservePublish_still message packetId) v
  rw [hreserve] at hreserved
  have hcontext : ∀ u, (Prog.when (message.qos ≠ .atMostOnce) (keep env packetId.toUInt32
      (publishParts (dupHeader.take headerSize) message.topicName message.qos packetId
        ((encodeVariableLength (List.replicate 4 0) message.properties.length).2.take
          (encodeVariableLength (List.replicate 4 0) message.properties.length).1)
        message.properties message.payload)) u).2.context = u.context := by
    intro u
    rw [Prog.when]
    split_ifs
    · exact keep_context env _ _ u
    · rfl
  replace hcontext := hcontext w
  rw [hkeep] at hcontext
  constructor
  · exact hconnected
  · exact ⟨by rw [hcontext]; exact hreserved.status, by rw [hcontext]; exact hreserved.properties⟩
  · obtain ⟨hlength, hfits⟩ := publishPacketSize_eq_ok hsize
    obtain ⟨hprefixSize, hprefix⟩ := encodeVariableLength_spec hlength
    have hheaderSize := serializePublishHeaderWithoutTopic_eq_ok (Prod.ext hheader rfl)
    have hhead := List.length_take_le headerSize
      (serializePublishHeaderWithoutTopic message size.remainingLength (List.replicate 7 0)).2
    rw [length_publishParts, hprefixSize, hprefix, length_encodedLength hlength]
    omega
  · intro hqos
    rw [MqttContext.validatePublish, refuseIf_bind_eq_ok, refuseIf_bind_eq_ok,
      refuseIf_bind_eq_ok, refuseIf_eq_ok] at hvalid
    cases hr : v.context.records with
    | none => exact absurd ⟨by rw [MqttContext.outgoing, hr]; rfl, hqos⟩ hvalid.2.2.2
    | some r =>
      rw [Prog.when, if_pos hqos] at hreserve
      obtain ⟨r', hr', hreserved⟩ := reservePublish_eq_ok hr hreserve
      exact ⟨r, r', rfl, by rw [hcontext, hr'], hreserved⟩

theorem publish_course (hmay : ∀ act, act.handling = true → may act) (message : OutgoingPublish)
    (packetId : UInt16) : (publish env message packetId).Moves (Course env may) := by
  intro s
  rw [publish_eq]
  apply Prog.rel_bind_of (preparePublish_course (hmay .note rfl) (hmay .call rfl) _ _ s)
  intro parts t h
  have hprepared := preparePublish_eq_ok h
  apply Prog.rel_bind
  · apply sendVectors_course .sized (hmay _ rfl) _ (List.infix_refl _) (by decide)
    refine ⟨hprepared.still.status.trans hprepared.status, ?_⟩
    rw [hprepared.still.properties]
    exact hprepared.length
  · exact fun _ => (sentWhole_moves _ _).bind fun _ =>
      .when ((updatePublish_course (hmay .call rfl) _ _ _).bind fun _ =>
        (accepted_moves _).bind fun _ => .pure _)

theorem length_topics (which : SubscriptionType) (list : List Subscription) :
    (list.flatMap (topicParts which)).flatten.length =
      filtersSize which (list.map (·.topicFilter.length)) := by
  induction list with
  | nil => rfl
  | cons entry list ih =>
    have htwo : (toBeBytes16 entry.topicFilter.length.toUInt16).length = 2 := rfl
    rw [List.flatMap_cons, List.flatten_append, List.length_append, ih, List.map_cons, filtersSize]
    unfold topicParts
    split_ifs with hempty hwhich hwhich <;> simp_all <;> omega

/-- The gathers of a list are parts of one packet. -/
theorem sendListFrom_course (hmay : may (.send .sized)) {which : SubscriptionType}
    {packet : List UInt8} {turns : ℕ} {carried : List (List UInt8)} {list : List Subscription}
    {s : Sys W} (hpart : carried.flatten ++ (list.flatMap (topicParts which)).flatten <:+: packet)
    (hallowed : Sending.sized.Allows packet s) :
    Course env may s (sendListFrom env which turns carried carried.flatten.length list s).2 := by
  induction turns generalizing carried list s with
  | zero => exact refl_of (Course env may) s
  | succ turns ih =>
    rw [sendListFrom_succ]
    refine Prog.rel_bind_of (check_moves _ _ s) ?_
    intro taken t h
    obtain ⟨-, rfl⟩ := check_eq_ok.mp h
    refine Prog.rel_bind_of (refuse_moves _ _ t) ?_
    intro _ u h
    obtain rfl : u = t := (Prod.mk.inj h).2.symm
    have hsplit : list.flatMap (topicParts which) = (list.take taken).flatMap (topicParts which) ++
        (list.drop taken).flatMap (topicParts which) := by
      rw [← List.flatMap_append, List.take_append_drop]
    rw [hsplit, List.flatten_append, ← List.append_assoc, ← List.flatten_append] at hpart
    have hgather : (carried ++ (list.take taken).flatMap (topicParts which)).flatten <:+: packet :=
      (List.prefix_append _ _).isInfix.trans hpart
    refine Prog.rel_bind_of (sendVectors_course _ hmay hallowed hgather (by decide)) ?_
    intro outcome v hsend
    refine Prog.rel_bind_of (sentWhole_moves _ _ v) ?_
    intro _ w h
    obtain ⟨rfl, rfl⟩ := sentWhole_eq_ok.mp h
    split_ifs
    · exact refl_of (Course env may) w
    refine ih ?_ ?_
    · rw [List.flatten_nil, List.nil_append]
      exact (List.suffix_append _ _).isInfix.trans hpart
    · obtain ⟨hstatus, hproperties⟩ := (sendVectors_smooth hsend).still
      rw [Sending.Allows, hstatus, hproperties]
      exact hallowed

theorem sendList_course (hmay : may (.send .sized)) (list : List Subscription)
    (packetId : UInt16) (properties : List UInt8) (which : SubscriptionType) :
    (sendList env list packetId properties which).Moves (Course env may) := by
  intro s
  rw [sendList, Prog.bind_of_ok (context_apply s)]
  refine Prog.rel_bind_of (check_moves _ _ s) ?_
  intro _ t h
  obtain ⟨-, rfl⟩ := check_eq_ok.mp h
  refine Prog.rel_bind_of (Prog.Moves.when (check_moves _ _) t) ?_
  intro _ u h
  obtain rfl : u = t := by
    unfold Prog.when at h
    split_ifs at h <;> exact (Prod.mk.inj h).2.symm
  refine Prog.rel_bind_of (refuse_moves _ _ u) ?_
  intro _ v h
  obtain rfl : v = u := (Prod.mk.inj h).2.symm
  refine Prog.rel_bind_of (check_moves _ _ v) ?_
  intro size w h
  obtain ⟨hsize, rfl⟩ := check_eq_ok.mp h
  obtain ⟨hlength, hmax, hremaining, hfits, -⟩ := listPacketSize_eq_ok hsize
  apply connected_course
  intro hconnected
  rw [sendListFrom_front env hsize]
  refine sendListFrom_course hmay (List.infix_refl _) ⟨hconnected, ?_⟩
  rw [List.length_append, length_topics, flatten_listFront, List.length_append,
    length_listHead _ _ hmax, length_sized hlength]
  omega

end Client

end RtosMqtt
