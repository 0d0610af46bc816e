import RtosMqtt.Client.Belonging
import RtosMqtt.Client.Fragments
import RtosMqtt.Client.Once
import RtosMqtt.Client.Packets
import RtosMqtt.State.Unacknowledged

/-! # Sweeps over the client

What reading and sending keep, and a call on the records and an event, every
function keeps that is made of them. A function that publishes, opens a connection
or forgets what was stored is a case of its own, for a relation that keeps more.
-/

namespace RtosMqtt

variable {W α : Type}

/-- A call that asks an array to take a PUBLISH that arrived. -/
def Call.receives : Call → Bool
  | .updatePublish _ .receive _ => true
  | _ => false

theorem Client.onRecords_moves {R : Sys W → Sys W → Prop} [IsPreorder (Sys W) R] {c : Call}
    {f : PublishRecords → Except StateError α × PublishRecords}
    (hf : ∀ r, r.call c = ((f r).1.map fun _ => (), (f r).2))
    (hcall : ∀ (s : Sys W) (r : PublishRecords), s.context.records = some r → R s { s with
      context := { s.context with records := some (r.call c).2 }
      log := s.log ++ [.recorded r c (r.call c).1] }) : (onRecords c f : Client W _).Moves R := by
  intro s
  cases hr : s.context.records with
  | none =>
    rw [onRecords_none hr]
    exact refl_of R s
  | some r =>
    have hs := hcall s r hr
    rw [hf r] at hs
    rw [onRecords_some hr]
    exact hs

theorem Client.handleCleanSession_moves {env : Environment W} {R : Sys W → Sys W → Prop}
    [IsPreorder (Sys W) R] (hio : ∀ {s t : Sys W}, Io s t → R s t)
    (hreset : (update fun c => { c with index := 0, network := c.network.map fun _ => 0 } :
      Client W Unit).Moves R)
    (hcleared : ∀ (s : Sys W) (r : PublishRecords), s.context.records = some r → R s { s with
      context := { s.context with records := some r.clearOutgoing.clearIncoming } }) :
    (handleCleanSession env).Moves R := by
  have hall (key : UInt16 → UInt32) (ids : List UInt16) : (clearAll env key ids).Moves Io := by
    induction ids with
    | nil => exact .pure _
    | cons packetId ids ih => exact (clear_io env _).bind fun _ => ih
  have hclear (key : UInt16 → UInt32) (ids : List UInt16) :
      (Prog.when (env.storing = true) (clearAll env key ids)).Moves Io := .when (hall key ids)
  apply hreset.bind
  intro _ s
  rw [Prog.bind_of_ok (context_apply s)]
  cases hr : s.context.records with
  | none => exact refl_of R s
  | some r =>
    apply Prog.rel_bind_of (hio (hclear _ _ s))
    intro _ t ht
    have hst : Io s t := (hclear _ _).yields _ _ _ ht
    apply Prog.rel_bind_of (hio (hclear _ _ t))
    intro _ u hu
    have htu : Io t u := (hclear _ _).yields _ _ _ hu
    apply hcleared u
    rw [htu.quiet.records, hst.quiet.records, hr]

/-- Neither the records nor the limits change, and nothing opens a connection. -/
structure Adjusts (c c' : MqttContext) : Prop where
  records : c'.records = c.records
  properties : c'.properties = c.properties
  status : c'.connectStatus = .connected → c.connectStatus = .connected

/-- What a relation must keep to hold across every function on an open connection but those that
publish. -/
structure Rounds (env : Environment W) (R : Sys W → Sys W → Prop) : Prop where
  clock : (Client.nowMs env).Moves R
  recv : ∀ into, (Client.recv env into).Moves R
  send : ∀ bytes, (Client.send env bytes).Moves R
  writev : ∀ parts, (Client.writev env parts).Moves R
  retrieve : ∀ key, (Client.retrieve env key).Moves R
  keep : ∀ packetId parts, (Client.keep env (incomingKey packetId) parts).Moves R
  receiveAck : ∀ total, (Client.receiveAck env total).Moves R
  adjust : ∀ (s : Sys W) (c : MqttContext), Adjusts s.context c → R s { s with context := c }
  call : ∀ (s : Sys W) (r : PublishRecords) (c : Call), s.context.records = some r →
    c.publishes = false → R s { s with
      context := { s.context with records := some (r.call c).2 }
      log := s.log ++ [.recorded r c (r.call c).1] }
  event : ∀ (e : Event) (wantsReply : Bool) (s : Sys W), e.publish = none →
    R s (Client.dispatch env e wantsReply s).2

/-- What it must keep as well to hold across the functions that open a connection. -/
structure Openings (env : Environment W) (R : Sys W → Sys W → Prop) : Prop
    extends Rounds env R where
  handleCleanSession : (Client.handleCleanSession env).Moves R
  update : ∀ (s : Sys W) (c : MqttContext), c.records = s.context.records →
    R s { s with context := c }
  present : ∀ (s : Sys W) (sessionPresent : Bool), R s { s with sessionPresent }
  replace : ∀ (s : Sys W) (r : PublishRecords), Replaces s.context.records r →
    R s { s with context := { s.context with records := some r } }

namespace Rounds

open Client

variable {env : Environment W} {R : Sys W → Sys W → Prop} (h : Rounds env R)

include h

theorem moves_update {f : MqttContext → MqttContext} (hf : ∀ c, Adjusts c (f c)) :
    (Client.update f : Client W Unit).Moves R := fun s => h.adjust s (f s.context) (hf s.context)

theorem dispatch {e : Event} (he : e.publish = none) (wantsReply : Bool) :
    (Client.dispatch env e wantsReply).Moves R := fun s => h.event e wantsReply s he

theorem connectionLost : (Client.connectionLost : Client W Unit).Moves R := by
  apply h.moves_update
  intro c
  split_ifs
  · exact ⟨rfl, rfl, fun hopen => by cases hopen⟩
  · exact ⟨rfl, rfl, id⟩

theorem reads : Reads env R where
  clock := h.clock
  recv := h.recv
  write _ := h.moves_update fun _ => ⟨by rfl, by rfl, by exact id⟩
  lost := h.connectionLost

theorem passes : Passes env R where
  clock := h.clock
  stamp _ := h.moves_update fun _ => ⟨by rfl, by rfl, by exact id⟩
  lost := h.connectionLost

variable [IsPreorder (Sys W) R]

theorem sendBuffer (buffer : List UInt8) : (Client.sendBuffer env buffer).Moves R :=
  sendBuffer_moves h.passes fun _ => h.send _

theorem sendVectors (parts : List (List UInt8)) : (Client.sendVectors env parts).Moves R :=
  sendVectors_moves h.passes fun parts _ => h.writev parts

theorem keepAck (packetType : UInt8) (packetId : UInt16) (parts : List (List UInt8)) :
    (Client.keepAck env packetType packetId parts).Moves R := .when (h.keep packetId parts)

theorem resendStored (key : UInt32) : (Client.resendStored env key).Moves R :=
  (h.retrieve key).bind fun _ => (orFail_moves _ _).bind fun _ => (refuse_moves _ _).bind fun _ =>
    (h.sendBuffer _).bind fun _ => sentWhole_moves _ _

theorem onRecords {c : Call} {f : PublishRecords → Except StateError α × PublishRecords}
    (hc : c.publishes = false) (hf : ∀ r, r.call c = ((f r).1.map fun _ => (), (f r).2)) :
    (onRecords c f : Client W _).Moves R := onRecords_moves hf fun s r hr => h.call s r c hr hc

theorem updateAck (packetId : UInt16) (ack : AckType) (op : Operation) :
    (Client.updateAck packetId ack op : Client W _).Moves R := h.onRecords rfl fun _ => rfl

theorem ping : (Client.ping env).Moves R := by
  dsimp only [Client.ping]
  exact connected_moves.bind fun _ => (check_moves _ _).bind fun _ =>
    (h.sendBuffer _).bind fun _ => (sentWhole_moves _ _).bind fun _ =>
      h.moves_update fun _ => ⟨by rfl, by rfl, by exact id⟩

theorem disconnect (reasonCode : Option UInt8) (properties : List UInt8) :
    (Client.disconnect env reasonCode properties).Moves R := by
  dsimp only [Client.disconnect]
  exact (refuse_moves _ _).bind fun _ => context_moves.bind fun _ =>
    (Prog.Moves.when (check_moves _ _)).bind fun _ => (refuse_moves _ _).bind fun _ =>
      (check_moves _ _).bind fun _ => (refuse_moves _ _).bind fun _ =>
        (h.moves_update fun _ => ⟨by rfl, by rfl, by rintro ⟨⟩⟩).bind fun _ =>
          (refuse_moves _ _).bind fun _ => (h.sendVectors _).bind fun _ => sentWhole_moves _ _

theorem cancelCallback (packetId : UInt16) :
    (Client.cancelCallback packetId : Client W Unit).Moves R :=
  Prog.Moves.bind (h.onRecords rfl fun r => by rw [except_map_unit]; rfl) fun _ =>
    (accepted_moves _).bind fun _ => refuse_moves _ _

theorem sendPublishAcks (packetId : UInt16) (state : PublishState) :
    (Client.sendPublishAcks env packetId state).Moves R := by
  unfold Client.sendPublishAcks
  split
  · exact .pure _
  · exact (check_moves _ _).bind fun _ => connected_moves.bind fun _ =>
      (h.sendBuffer _).bind fun _ => (sentWhole_moves _ _).bind fun _ =>
        (h.moves_update fun _ => ⟨by rfl, by rfl, by exact id⟩).bind fun _ =>
          (h.updateAck _ _ _).bind fun _ => (accepted_moves _).bind fun _ => .pure _

theorem handleUncleanSession : (Client.handleUncleanSession env).Moves R :=
  (resendAll_moves fun _ => .ite (h.resendStored _)
    (h.sendPublishAcks _ _)).bind fun _ =>
      .when (resendAll_moves fun _ => h.resendStored _)

theorem replyWith (packetId : UInt16) (state : PublishState) (reasonCode : Option UInt8) :
    (Client.replyWith env packetId state reasonCode).Moves R := by
  have hsent (ack : AckType) : (ackSent packetId ack : Client W Unit).Moves R := by
    dsimp only [ackSent]
    exact (h.moves_update fun _ => ⟨by rfl, by rfl, by exact id⟩).bind fun _ =>
      (h.updateAck _ _ _).bind fun _ => (accepted_moves _).bind fun _ => .pure _
  have hbuild (packetType : UInt8) (reasonCode : UInt8) (remainingLength propertyLength : ℕ) :
      (buildAndSendAckWithProps env packetType packetId reasonCode remainingLength
        propertyLength).Moves R := by
    dsimp only [buildAndSendAckWithProps]
    exact (refuse_moves _ _).bind fun _ =>
      (Prog.Moves.when (h.moves_update fun _ => ⟨by rfl, by rfl, by exact id⟩)).bind fun _ => (refuse_moves _ _).bind fun _ => context_moves.bind fun _ =>
        (orFail_moves _ _).bind fun _ => (h.keepAck _ _ _).bind fun _ =>
          (h.sendVectors _).bind fun _ => sentWhole_moves _ _
  refine context_moves.bind fun _ => .ite ?_ ?_
  · unfold sendPublishAcksWithoutProperty
    split
    · exact .pure _
    · exact (check_moves _ _).bind fun _ => context_moves.bind fun _ =>
        (refuse_moves _ _).bind fun _ => connected_moves.bind fun _ =>
          (h.keepAck _ _ _).bind fun _ =>
            (h.sendBuffer _).bind fun _ => (sentWhole_moves _ _).bind fun _ =>
              hsent _
  · refine context_moves.bind fun _ => (Prog.Moves.when (check_moves _ _)).bind fun _ =>
      connected_moves.bind fun _ => ?_
    split
    · exact .pure _
    · exact (check_moves _ _).bind fun _ => (hbuild _ _ _ _).bind fun _ => hsent _

theorem handlePublishAcks (total : ℕ) : (Client.handlePublishAcks env total).Moves R := by
  rw [handlePublishAcks_eq]
  exact (h.receiveAck total).bind fun _ => (h.dispatch rfl _).bind fun _ =>
    (refuse_moves _ _).bind fun _ => checkSectionLength_moves.bind fun _ =>
      .when (h.replyWith _ _ _)

theorem handleIncomingAck (packetType : UInt8) (total : ℕ) (manageKeepAlive : Bool) :
    (Client.handleIncomingAck env packetType total manageKeepAlive).Moves R := by
  have hpingresp : (handlePingresp env total manageKeepAlive).Moves R := by
    dsimp only [handlePingresp]
    exact context_moves.bind fun _ => (orFail_moves _ _).bind fun _ => (check_moves _ _).bind
      fun _ => .ite (h.moves_update fun _ => ⟨by rfl, by rfl, by exact id⟩)
        ((h.dispatch rfl _).bind fun _ => refuse_moves _ _)
  have hsubscribed : (handleSubUnsubAck env total).Moves R := by
    dsimp only [handleSubUnsubAck]
    exact context_moves.bind fun _ => (orFail_moves _ _).bind fun _ => (check_moves _ _).bind
      fun _ => (h.dispatch rfl _).bind fun _ => refuse_moves _ _
  exact .ite (h.handlePublishAcks total) (.ite hpingresp (.ite hsubscribed (fail_moves _)))

theorem handleIncomingDisconnect (total : ℕ) :
    (Client.handleIncomingDisconnect env total).Moves R := by
  have hanswer (view : PacketInfo) (c : MqttContext) : (answerDisconnect env view c).Moves R := by
    unfold answerDisconnect
    split
    · exact (h.disconnect _ _).bind fun _ => fail_moves _
    · exact (h.dispatch rfl _).bind fun _ => refuse_moves _ _
  dsimp only [Client.handleIncomingDisconnect]
  exact context_moves.bind fun _ => (orFail_moves _ _).bind fun _ =>
    (attempt_moves (hanswer _ _)).bind fun _ =>
      (h.moves_update fun _ => ⟨by rfl, by rfl, by rintro ⟨⟩⟩).bind fun _ => check_moves _ _

theorem handlePacket (hpublish : ∀ total, (handleIncomingPublish env total).Moves R) (total : ℕ)
    (manageKeepAlive : Bool) : (Client.handlePacket env total manageKeepAlive).Moves R :=
  context_moves.bind fun _ => (orFail_moves _ _).bind fun _ => .ite (hpublish total)
    (.ite (h.handleIncomingDisconnect total) (h.handleIncomingAck _ _ _))

theorem nextPacket (manageKeepAlive : Bool) (received : Recv) :
    (Client.nextPacket env manageKeepAlive received).Moves R := by
  have harrival : (arrival received : Client W _).Moves R := by
    refine context_moves.bind fun c => ?_
    split
    · exact h.connectionLost.bind fun _ => .pure _
    · exact .pure _
    · exact .ite (.pure _) ((h.moves_update fun _ => ⟨by rfl, by rfl, by exact id⟩).bind fun _ =>
        context_moves.bind fun _ => .pure _)
  have hkeepAlive : (handleKeepAlive env).Moves R := by
    dsimp only [handleKeepAlive]
    exact h.clock.bind fun _ => context_moves.bind fun _ =>
      .ite (refuse_moves _ _) (.ite (h.ping) (.when (h.ping)))
  have hturn (status : Except ClientError ℕ) :
      (keepAliveTurn env manageKeepAlive received status).Moves R := by
    apply Prog.Moves.ite
    · apply (attempt_moves hkeepAlive).bind
      intro outcome
      cases outcome <;> exact .pure _
    · exact .pure _
  exact harrival.bind fun _ => (hturn _).bind fun _ => (check_moves _ _).bind fun _ =>
    context_moves.bind fun _ => (refuse_moves _ _).bind fun _ => (refuse_moves _ _).bind fun _ =>
      .pure _

theorem processPacket (hpublish : ∀ total, (handleIncomingPublish env total).Moves R) (total : ℕ)
    (manageKeepAlive : Bool) : (Client.processPacket env total manageKeepAlive).Moves R := by
  dsimp only [Client.processPacket]
  exact (h.handlePacket hpublish _ _).bind fun _ =>
    (h.moves_update fun _ => ⟨by rfl, by rfl, by exact id⟩).bind fun _ => h.clock.bind fun _ => h.moves_update fun _ => ⟨by rfl, by rfl, by exact id⟩

theorem readIn : (Client.readIn env).Moves R := by
  refine context_moves.bind fun c => ?_
  split
  · exact .pure _
  · exact (h.recv _).bind fun _ =>
      (h.moves_update fun _ => ⟨by rfl, by rfl, by exact id⟩).bind fun _ => .pure _

theorem request {call : Request} (hcall : (Invocation.request call).passes = false)
    (henable : ∀ outgoing incoming ackProperties,
      call = .enableQos outgoing incoming ackProperties → (call.perform env).Moves R)
    (hconnect : ∀ options timeoutMs, call = .connect options timeoutMs →
      (Client.connect env options timeoutMs).Moves R)
    (hpublish : ∀ message packetId, call = .traffic (.publish message packetId) →
      (Client.publish env message packetId).Moves R) : (call.perform env).Moves R := by
  cases call with
  | enableQos outgoing incoming ackProperties => exact henable _ _ _ rfl
  | connect options timeoutMs => exact hconnect options timeoutMs rfl
  | traffic call =>
    cases call with
    | processLoop => cases hcall
    | receiveLoop => cases hcall
    | publish message packetId => exact hpublish message packetId rfl
    | cancelCallback packetId => exact h.cancelCallback packetId
    | ping => exact h.ping
    | disconnect reasonCode properties => exact h.disconnect reasonCode properties

theorem acknowledge (qos : QoS) (packetId : UInt16) (state : PublishState)
    (answer : Bool × Option UInt8) : (Client.acknowledge env qos packetId state answer).Moves R :=
  (refuse_moves _ _).bind fun _ => .when (checkSectionLength_moves.bind fun _ => h.replyWith _ _ _)

theorem publish (hkeep : ∀ key parts, (Client.keep env key parts).Moves R)
    (hupdate : ∀ packetId qos, (Client.updatePublish packetId .send qos : Client W _).Moves R)
    (message : OutgoingPublish) (packetId : UInt16) :
    (Client.publish env message packetId).Moves R := by
  have hreserve : (reservePublish message packetId : Client W Unit).Moves R :=
    Prog.Moves.bind (h.onRecords rfl fun r => by rw [except_map_unit]; rfl) fun _ =>
      .when ((accepted_moves _).bind fun _ => .pure _)
  dsimp only [Client.publish]
  exact context_moves.bind fun _ => (check_moves _ _).bind fun _ =>
    (topicAliasOf_moves _ _).bind fun _ => (check_moves _ _).bind fun _ =>
      (check_moves _ _).bind fun _ => (check_moves _ _).bind fun _ => connected_moves.bind fun _ =>
        (Prog.Moves.when hreserve).bind fun _ => (duplicateHeader_moves _ _).bind fun _ =>
          (Prog.Moves.when (hkeep _ _)).bind fun _ => (h.sendVectors _).bind fun _ =>
            (sentWhole_moves _ _).bind fun _ => .when ((hupdate _ _).bind fun _ =>
              (accepted_moves _).bind fun _ => .pure _)

theorem handleIncomingPublish
    (hreceive : ∀ total, (Client.receivePublish total : Client W _).Moves R)
    (hshow : ∀ e wantsReply, (Client.dispatch env e wantsReply).Moves R) (total : ℕ) :
    (Client.handleIncomingPublish env total).Moves R := by
  rw [handleIncomingPublish_eq]
  exact (hreceive total).bind fun _ => (Prog.Moves.ite (hshow _ _) (.pure _)).bind fun _ =>
    h.acknowledge _ _ _ _

theorem sendList (list : List Subscription) (packetId : UInt16) (properties : List UInt8)
    (which : SubscriptionType) : (Client.sendList env list packetId properties which).Moves R := by
  have hfrom (turns : ℕ) (carried : List (List UInt8)) (carriedBytes : ℕ)
      (list : List Subscription) :
      (sendListFrom env which turns carried carriedBytes list).Moves R := by
    induction turns generalizing carried carriedBytes list with
    | zero => exact .throw _
    | succ turns ih =>
      exact (check_moves _ _).bind fun _ => (refuse_moves _ _).bind fun _ =>
        (h.sendVectors _).bind fun _ => (sentWhole_moves _ _).bind fun _ =>
          .ite (.pure _) (ih _ _ _)
  dsimp only [Client.sendList]
  exact context_moves.bind fun _ => (check_moves _ _).bind fun _ =>
    (Prog.Moves.when (check_moves _ _)).bind fun _ => (refuse_moves _ _).bind fun _ =>
      (check_moves _ _).bind fun _ => connected_moves.bind fun _ => (refuse_moves _ _).bind fun _ =>
        hfrom _ _ _ _

end Rounds

namespace Openings

open Client

variable {env : Environment W} {R : Sys W → Sys W → Prop} (h : Openings env R)

include h

theorem moves_update {f : MqttContext → MqttContext} (hf : ∀ c, (f c).records = c.records) :
    (Client.update f : Client W Unit).Moves R := fun s => h.update s (f s.context) (hf s.context)

theorem capRecords : (Client.capRecords : Client W Unit).Moves R := by
  intro s
  rw [Client.capRecords, update_apply]
  cases hr : s.context.records with
  | none =>
    apply h.update s
    exact hr.symm
  | some r =>
    apply h.replace s
    rw [hr]
    exact .capped r _ _

variable [IsPreorder (Sys W) R]

theorem enableQos (outgoing incoming : List Record) (ackProperties : List UInt8) :
    ((Request.enableQos outgoing incoming ackProperties).perform env).Moves R := fun s =>
  trans_of R (h.replace s _ (.fresh _ outgoing incoming))
    (h.update _ (s.context.enableQos outgoing incoming ackProperties) rfl)

theorem sendConnect (connect : Connect) (remainingLength : ℕ) :
    (Client.sendConnect env connect remainingLength).Moves R := by
  have hannounce : (announce connect.properties : Client W Unit).Moves R :=
    fun s => h.update s _ rfl
  dsimp only [Client.sendConnect]
  exact (refuse_moves _ _).bind fun _ => (h.moves_update fun _ => by rfl).bind fun _ =>
    (refuse_moves _ _).bind fun _ => (refuse_moves _ _).bind fun _ =>
      (Prog.Moves.when hannounce).bind fun _ => (checks_pushConnect _ _).moves.bind fun _ =>
        (h.toRounds.sendVectors _).bind fun _ => sentWhole_moves _ _

theorem resume (cleanSession : Bool) (connack : ConnAck) :
    (Client.resume env cleanSession connack).Moves R := by
  have hsettle : (settle env).Moves R :=
    (h.capRecords).bind fun _ => Prog.Moves.get.bind fun _ =>
      (Prog.Moves.when (h.handleCleanSession)).bind fun _ =>
        (h.moves_update fun _ => by rfl).bind fun _ => .when h.toRounds.handleUncleanSession
  exact Prog.Moves.bind (fun s => h.present s _) fun _ => (h.moves_update fun _ => by rfl).bind
    fun _ => (refuse_moves _ _).bind fun _ => (refuse_moves _ _).bind fun _ => hsettle

theorem connect (options : Connect) (timeoutMs : UInt32) :
    (Client.connect env options timeoutMs).Moves R := by
  have hchecked : (checkConnectProperties options : Client W Unit).Moves R := by
    refine context_moves.bind fun _ => .ite (h.moves_update fun _ => by rfl) ?_
    exact (check_moves _ _).bind fun _ => (h.moves_update fun _ => by rfl).bind fun _ =>
      refuse_moves _ _
  have hpreparing : (preparing options : Client W _).Moves R :=
    (Prog.Moves.when (check_moves _ _)).bind fun _ => hchecked.bind fun _ =>
      context_moves.bind fun _ => (check_moves _ _).bind fun _ => (check_moves _ _).bind fun _ =>
        .pure _
  rw [connect_eq]
  apply hpreparing.bind
  rintro ⟨outgoing, size⟩
  have hinner : (connectInner env outgoing timeoutMs size).Moves R := by
    rw [connectInner_eq]
    exact (h.sendConnect _ _).bind fun _ =>
      (readConnack_moves h.toRounds.reads timeoutMs).bind fun _ => h.resume _ _
  exact (attempt_moves hinner).bind fun _ =>
    (Prog.Moves.when h.toRounds.connectionLost).bind fun _ => check_moves _ _

theorem request {call : Request} (hcall : (Invocation.request call).passes = false)
    (hpublish : ∀ message packetId, call = .traffic (.publish message packetId) →
      (Client.publish env message packetId).Moves R) : (call.perform env).Moves R := by
  apply h.toRounds.request hcall ?_ (fun options timeoutMs _ => h.connect options timeoutMs)
    hpublish
  rintro outgoing incoming ackProperties rfl
  exact h.enableQos outgoing incoming ackProperties

end Openings

section Invariants

variable {env : Environment W} {I : Sys W → Prop}

theorem Rounds.keptByPass (h : Rounds env (Keeping I))
    (hpublish : ∀ total, (Client.handleIncomingPublish env total).Moves (Keeping I)) :
    KeptByPass env I where
  begin s := h.adjust s _ ⟨rfl, rfl, id⟩
  readIn := h.readIn
  nextPacket := h.nextPacket
  processPacket := h.processPacket hpublish

/-- Any call that does not write the records itself. -/
theorem Rounds.invocation (h : Rounds env (Keeping I))
    (hpublish : ∀ total, (Client.handleIncomingPublish env total).Moves (Keeping I))
    {call : Invocation} (hrestores : call.restores = false)
    (henable : ∀ outgoing incoming ackProperties,
      call = .request (.enableQos outgoing incoming ackProperties) →
      (call.perform env).Moves (Keeping I))
    (hconnect : ∀ options timeoutMs, call = .request (.connect options timeoutMs) →
      (Client.connect env options timeoutMs).Moves (Keeping I))
    (hsend : ∀ message packetId, call = .request (.traffic (.publish message packetId)) →
      (Client.publish env message packetId).Moves (Keeping I)) :
    (call.perform env).Moves (Keeping I) := by
  have hpass : KeptWhile env (fun _ _ _ => True) I := (h.keptByPass hpublish).keptWhile
  cases call with
  | request call =>
    cases hcall : (Invocation.request call).passes with
    | false =>
      apply h.request hcall
      · rintro outgoing incoming ackProperties rfl
        exact henable _ _ _ rfl
      · rintro options timeoutMs rfl
        exact hconnect options timeoutMs rfl
      · rintro message packetId rfl
        exact hsend message packetId rfl
    | true =>
      intro s hs
      rcases call with _ | _ | traffic
      · cases hcall
      · cases hcall
      cases traffic with
      | processLoop =>
        exact (Client.receiveSingleIteration_while hpass true (hpass.begin s hs)
          fun _ _ => trivial).2
      | receiveLoop =>
        exact (Client.receiveSingleIteration_while hpass false hs fun _ _ => trivial).2
      | _ => cases hcall
  | subscribe list packetId properties => exact h.sendList list packetId properties _
  | unsubscribe list packetId properties => exact h.sendList list packetId properties _
  | sendPublishAcks packetId state => exact h.sendPublishAcks packetId state
  | recvExact wanted => exact (Client.recvExact_moves h.reads wanted).bind fun _ => .pure _
  | set setting =>
    cases setting with
    | records => cases hrestores
    | _ => exact fun s => h.adjust s _ ⟨rfl, rfl, id⟩

theorem Openings.invocation (h : Openings env (Keeping I))
    (hpublish : ∀ total, (Client.handleIncomingPublish env total).Moves (Keeping I))
    {call : Invocation} (hrestores : call.restores = false)
    (hsend : ∀ message packetId, call = .request (.traffic (.publish message packetId)) →
      (Client.publish env message packetId).Moves (Keeping I)) :
    (call.perform env).Moves (Keeping I) := by
  apply h.toRounds.invocation hpublish hrestores ?_
    (fun options timeoutMs _ => h.connect options timeoutMs) hsend
  rintro outgoing incoming ackProperties rfl
  exact h.enableQos outgoing incoming ackProperties

end Invariants

structure Sweep (env : Environment W) (R : Sys W → Sys W → Prop) : Prop where
  io : ∀ {s t}, Io s t → R s t
  update : ∀ (s : Sys W) (c : MqttContext), c.records = s.context.records →
    R s { s with context := c }
  present : ∀ (s : Sys W) (sessionPresent : Bool), R s { s with sessionPresent }
  replace : ∀ (s : Sys W) (r : PublishRecords), Replaces s.context.records r →
    R s { s with context := { s.context with records := some r } }
  call : ∀ (s : Sys W) (r : PublishRecords) (c : Call), s.context.records = some r →
    c.receives = false → R s { s with
      context := { s.context with records := some (r.call c).2 }
      log := s.log ++ [.recorded r c (r.call c).1] }
  event : ∀ (e : Event) (wantsReply : Bool) (s : Sys W), e.publish = none →
    R s (Client.dispatch env e wantsReply s).2

namespace Sweep

open Client

variable {env : Environment W} {R : Sys W → Sys W → Prop} (h : Sweep env R)

include h

theorem moves_io {p : Client W α} (hp : p.Moves Io) : p.Moves R := hp.mono h.io

theorem moves_update {f : MqttContext → MqttContext} (hf : ∀ c, (f c).records = c.records) :
    (Client.update f : Client W Unit).Moves R := fun s => h.update s (f s.context) (hf s.context)

variable [IsPreorder (Sys W) R]

theorem onRecords {c : Call} {f : PublishRecords → Except StateError α × PublishRecords}
    (hc : c.receives = false) (hf : ∀ r, r.call c = ((f r).1.map fun _ => (), (f r).2)) :
    (onRecords c f : Client W _).Moves R := onRecords_moves hf fun s r hr => h.call s r c hr hc

theorem handleCleanSession : (Client.handleCleanSession env).Moves R := by
  apply handleCleanSession_moves h.io (h.moves_update fun _ => by rfl)
  intro s r hr
  apply h.replace s
  rw [hr]
  exact .cleared r

theorem receiveAck (total : ℕ) : (Client.receiveAck env total).Moves R := by
  apply receiveAck_moves
  · exact fun _ _ => h.onRecords rfl fun _ => rfl
  · exact fun _ => h.moves_io (clearStored_io env _)

theorem openings : Openings env R where
  clock := h.moves_io (nowMs_io env)
  recv into := h.moves_io (recv_io env into)
  send bytes := h.moves_io (send_io env bytes)
  writev parts := h.moves_io (writev_io env parts)
  retrieve key := h.moves_io (retrieve_io env key)
  keep _ _ := h.moves_io (keep_io env _ _)
  receiveAck := h.receiveAck
  handleCleanSession := h.handleCleanSession
  adjust s c hc := h.update s c hc.records
  update := h.update
  present := h.present
  replace := h.replace
  call s r c hr hc := h.call s r c hr (by cases c <;> first | rfl | cases hc)
  event := h.event

theorem publishes (message : OutgoingPublish) (packetId : UInt16) :
    (Client.publish env message packetId).Moves R :=
  h.openings.toRounds.publish (fun key parts => h.moves_io (keep_io env key parts))
    (fun _ _ => h.onRecords rfl fun _ => rfl) message packetId

end Sweep

namespace Client

/-- What the pieces keep holds at every packet of every run that leaves the records to the client,
and in the end. -/
theorem handledInRun_swept {I : Sys W → Prop} {calls : List (Environment W × Invocation)}
    (hcalls : ∀ call ∈ calls, call.2.restores = false)
    (hsweep : ∀ call ∈ calls, Sweep call.1 (Keeping I))
    (hpublish : ∀ call ∈ calls, ∀ total, (handleIncomingPublish call.1 total).Moves (Keeping I))
    {s : Sys W} (hs : I s) :
    (∀ p ∈ handledInRun calls s, I p.before) ∧ I (afterAll s calls) := by
  apply handledInRun_while (C := fun _ _ _ _ => True) hs
  · exact fun call hmem _ => (hsweep call hmem).openings.invocation (hpublish call hmem)
      (hcalls call hmem) fun message packetId _ => (hsweep call hmem).publishes message packetId
  · intro call hmem
    exact ((hsweep call hmem).openings.toRounds.keptByPass (hpublish call hmem)).keptWhile
  · exact fun _ _ => trivial

end Client

end RtosMqtt
