import RtosMqtt.Client.Consumption
import RtosMqtt.Client.Opened

/-! # The outstanding PINGREQ

A flag says that a PINGRESP is owed, and a time when the PINGREQ went out. Only
`ping` and the handling of a PINGRESP write them, and only the keep-alive check
answers that the PINGRESP is late.
-/

namespace RtosMqtt

variable {W α β ε : Type}

structure SameWait (s t : Sys W) : Prop where
  waiting : t.context.waitingForPingResp = s.context.waitingForPingResp
  sendTime : t.context.pingReqSendTime = s.context.pingReqSendTime

instance : IsPreorder (Sys W) SameWait where
  refl _ := ⟨rfl, rfl⟩
  trans _ _ _ h h' := ⟨h'.waiting.trans h.waiting, h'.sendTime.trans h.sendTime⟩

theorem Io.sameWait {s t : Sys W} (h : Io s t) : SameWait s t := by
  obtain ⟨status, now, hcontext⟩ := h.context
  constructor <;> rw [hcontext]

namespace Client

/-- A program that leaves the outstanding PINGREQ alone and never answers that it is late. -/
def Aloof (p : Client W α) : Prop :=
  ∀ s, SameWait s (p s).2 ∧ (p s).1 ≠ .error (.error .keepAliveTimeout)

variable {p : Client W α} {f : α → Client W β} {env : Environment W}

theorem Aloof.moves (h : Aloof p) : p.Moves SameWait := fun s => (h s).1

theorem Aloof.pure (a : α) : Aloof (Pure.pure a : Client W α) :=
  fun s => ⟨refl_of SameWait s, by simp⟩

theorem Aloof.blocked : Aloof (Prog.throw .blocked : Client W α) :=
  fun s => ⟨refl_of SameWait s, by simp⟩

theorem Aloof.answer {g : Sys W → α × Sys W} (h : ∀ s, SameWait s (g s).2) :
    Aloof (Prog.answer g : Client W α) := fun s => ⟨h s, by simp⟩

theorem Aloof.bind (hp : Aloof p) (hf : ∀ a, Aloof (f a)) : Aloof (p >>= f) := by
  intro s
  obtain ⟨hsame, hnot⟩ := hp s
  rw [Prog.bind_apply]
  rcases h : p s with ⟨e | a, t⟩
  · rw [h] at hsame hnot
    exact ⟨hsame, fun he => hnot (congrArg Except.error (Except.error.inj he))⟩
  · rw [h] at hsame
    obtain ⟨hrest, hlast⟩ := hf a t
    exact ⟨trans_of SameWait hsame hrest, hlast⟩

theorem Aloof.ite {c : Prop} [Decidable c] {q : Client W α} (hp : Aloof p) (hq : Aloof q) :
    Aloof (if c then p else q) := by
  split_ifs
  · exact hp
  · exact hq

theorem Aloof.when {c : Prop} [Decidable c] {p : Client W Unit} (hp : Aloof p) :
    Aloof (Prog.when c p) := .ite hp (.pure ())

theorem Aloof.update {g : MqttContext → MqttContext}
    (h : ∀ c, (g c).waitingForPingResp = c.waitingForPingResp ∧
      (g c).pingReqSendTime = c.pingReqSendTime) : Aloof (update g : Client W Unit) :=
  fun s => ⟨⟨(h s.context).1, (h s.context).2⟩, by simp⟩

theorem Aloof.fail {e : ClientError} (h : e ≠ .keepAliveTimeout) :
    Aloof (fail e : Client W α) :=
  fun s => ⟨refl_of SameWait s, fun he => h (Stop.error.inj (Except.error.inj he))⟩

theorem Aloof.refuse {c : Prop} [Decidable c] {e : ClientError}
    (h : e ≠ .keepAliveTimeout) : Aloof (refuse c e : Client W Unit) := by
  by_cases hc : c
  · have hrefuse : (Client.refuse c e : Client W Unit) = Client.fail e := by
      rw [Client.refuse, Prog.refuse, refuseIf, if_pos hc]
      rfl
    rw [hrefuse]
    exact .fail h
  · have hrefuse : (Client.refuse c e : Client W Unit) = Pure.pure () := by
      rw [Client.refuse, Prog.refuse, refuseIf, if_neg hc]
      rfl
    rw [hrefuse]
    exact .pure ()

theorem Aloof.check {g : ε → ClientError} {r : Except ε α}
    (h : ∀ e, r = .error e → g e ≠ .keepAliveTimeout) : Aloof (check g r : Client W α) := by
  cases r with
  | error e => exact .fail (h e rfl)
  | ok a => exact .pure a

theorem Aloof.orFail {e : ClientError} (a : Option α) (h : e ≠ .keepAliveTimeout) :
    Aloof (orFail e a : Client W α) := by
  cases a with
  | none => exact .fail h
  | some a => exact .pure a

theorem Aloof.context : Aloof (context : Client W MqttContext) :=
  .answer fun s => refl_of SameWait s

theorem Aloof.connected : Aloof (connected : Client W Unit) := by
  refine Aloof.context.bind fun c => .check fun e h => ?_
  unfold MqttContext.connected at h
  cases hstatus : c.connectStatus <;> rw [hstatus] at h <;> cases h <;> decide

theorem Aloof.attempt_bind {f : Except ClientError α → Client W β} (hp : Aloof p)
    (hf : ∀ outcome, outcome ≠ .error .keepAliveTimeout → Aloof (f outcome)) :
    Aloof (attempt p >>= f) := by
  intro s
  obtain ⟨hsame, hnot⟩ := hp s
  have hrest (outcome : Except ClientError α) (hne : outcome ≠ .error .keepAliveTimeout) :
      SameWait s (f outcome (p s).2).2 ∧
        (f outcome (p s).2).1 ≠ .error (.error .keepAliveTimeout) := by
    obtain ⟨hnext, hlast⟩ := hf outcome hne (p s).2
    exact ⟨trans_of SameWait hsame hnext, hlast⟩
  rw [Prog.bind_apply]
  unfold Client.attempt
  rcases hrun : p s with ⟨(e | _) | a, t⟩
  · rw [hrun] at hrest hnot
    apply hrest (.error e)
    rintro ⟨⟩
    exact hnot rfl
  · rw [hrun] at hsame
    exact ⟨hsame, by simp⟩
  · rw [hrun] at hrest
    exact hrest (.ok a) (by simp)

theorem Aloof.nowMs : Aloof (nowMs env) := .answer fun _ => ⟨rfl, rfl⟩

theorem Aloof.onRecords {call : Call} {g : PublishRecords → Except StateError α × PublishRecords} :
    Aloof (onRecords call g : Client W _) := by
  intro s
  cases hr : s.context.records with
  | none =>
    rw [onRecords_none hr]
    exact ⟨refl_of SameWait s, by simp⟩
  | some r =>
    rw [onRecords_some hr]
    exact ⟨⟨rfl, rfl⟩, by simp⟩

theorem Aloof.accepted (a : Option (Except StateError α)) :
    Aloof (accepted a : Client W (Option α)) := by
  rcases a with _ | e | a
  · exact .pure _
  · exact .fail (by simp)
  · exact .pure _

theorem Aloof.connectionLost : Aloof (connectionLost : Client W Unit) :=
  .update fun c => by
    split_ifs
    · exact ⟨rfl, rfl⟩
    · exact ⟨rfl, rfl⟩

theorem Aloof.stampTx : Aloof (stampTx env) := Aloof.nowMs.bind fun _ => .update fun _ => ⟨by rfl, by rfl⟩

theorem Aloof.loop {κ : Type} {turn : κ → Client W (κ ⊕ α)} (h : ∀ k, Aloof (turn k))
    (turns : ℕ) (k : κ) : Aloof (Prog.loop turn .blocked turns k) := by
  induction turns generalizing k with
  | zero => exact .blocked
  | succ turns ih =>
    refine (h k).bind fun place => ?_
    cases place with
    | inl k' => exact ih k'
    | inr a => exact .pure a

theorem Aloof.sendBuffer (buffer : List UInt8) : Aloof (sendBuffer env buffer) := by
  refine Aloof.nowMs.bind fun start => .loop (fun sent => ?_) _ _
  refine .ite (.pure _) (Aloof.bind (.answer fun _ => ⟨rfl, rfl⟩) fun outcome => ?_)
  cases outcome with
  | failed => exact Aloof.connectionLost.bind fun _ => Aloof.nowMs.bind fun _ => .pure _
  | nothing => exact Aloof.nowMs.bind fun _ => .pure _
  | bytes count => exact Aloof.stampTx.bind fun _ => Aloof.nowMs.bind fun _ => .pure _

theorem Aloof.sendVectors (vectors : List (List UInt8)) : Aloof (sendVectors env vectors) := by
  refine Aloof.nowMs.bind fun start => .loop (fun place => ?_) _ _
  refine .ite (.pure _) (Aloof.bind (.answer fun _ => ⟨rfl, rfl⟩) fun outcome => ?_)
  cases outcome with
  | failed => exact Aloof.connectionLost.bind fun _ => .pure _
  | nothing => exact Aloof.nowMs.bind fun _ => .pure _
  | bytes count =>
    exact Aloof.stampTx.bind fun _ => .ite (Aloof.nowMs.bind fun _ => .pure _) (.pure _)

theorem Aloof.sentWhole (total : ℕ) (outcome : SendOutcome) :
    Aloof (sentWhole total outcome : Client W Unit) := .refuse (by decide)

theorem Aloof.keep (key : UInt32) (parts : List (List UInt8)) : Aloof (keep env key parts) :=
  .ite (Aloof.bind (.answer fun _ => ⟨rfl, rfl⟩) fun _ => .refuse (by decide)) (.pure _)

theorem Aloof.clearStored (key : UInt32) : Aloof (clearStored env key) :=
  .ite (fun s => ⟨⟨rfl, rfl⟩, by simp [Client.clear]⟩) (.pure _)

theorem Aloof.dispatch (e : Event) (wantsReply : Bool) : Aloof (dispatch env e wantsReply) :=
  .answer fun _ => ⟨rfl, rfl⟩

theorem Aloof.ackSent (packetId : UInt16) (ack : AckType) :
    Aloof (ackSent packetId ack : Client W Unit) :=
  Aloof.bind (.update fun _ => ⟨by rfl, by rfl⟩) fun _ => Aloof.onRecords.bind fun _ =>
    (Aloof.accepted _).bind fun _ => .pure _

theorem Aloof.sendPublishAcksWithoutProperty (packetId : UInt16) (state : PublishState) :
    Aloof (sendPublishAcksWithoutProperty env packetId state) := by
  unfold Client.sendPublishAcksWithoutProperty
  cases ackFromPacketType (ackTypeToSend state) with
  | none => exact .pure _
  | some ack =>
    exact Aloof.bind (.check fun _ _ => by decide) fun _ => Aloof.context.bind fun _ =>
      Aloof.bind (.refuse (by decide)) fun _ => Aloof.connected.bind fun _ =>
        (Aloof.when (Aloof.keep _ _)).bind fun _ => (Aloof.sendBuffer _).bind fun _ =>
          (Aloof.sentWhole _ _).bind fun _ => .ackSent _ _

theorem Aloof.buildAndSendAckWithProps (packetType : UInt8) (packetId : UInt16) (reasonCode : UInt8)
    (remainingLength propertyLength : ℕ) : Aloof (buildAndSendAckWithProps env packetType packetId
      reasonCode remainingLength propertyLength) := by
  dsimp only [Client.buildAndSendAckWithProps]
  exact Aloof.bind (.refuse (by decide)) fun _ =>
    (Aloof.when (.update fun _ => ⟨by rfl, by rfl⟩)).bind fun _ => Aloof.bind (.refuse (by decide)) fun _ =>
      Aloof.context.bind fun _ => Aloof.bind (.orFail _ (by decide)) fun _ =>
        (Aloof.when (Aloof.keep _ _)).bind fun _ => (Aloof.sendVectors _).bind fun _ =>
          .sentWhole _ _

theorem checkReply_error {c : MqttContext} {packetType : UInt8} {reply : Reply} {e : ClientError}
    (h : checkReply c packetType reply = .error e) : e = .badParameter := by
  unfold checkReply at h
  obtain h | ⟨_, -, h⟩ := except_bind_eq_error.mp h
  · split_ifs at h
    cases hslice : slice? c.ackProperties 0 reply.propertyLength with
    | none =>
      rw [hslice] at h
      exact (Except.error.inj h).symm
    | some properties =>
      rw [hslice] at h
      dsimp only at h
      cases hvalid : validatePublishAckProperties properties with
      | error => rw [hvalid] at h; exact (Except.error.inj h).symm
      | ok => rw [hvalid] at h; cases h
  obtain h | ⟨_, -, h⟩ := except_bind_eq_error.mp h
  · unfold validatePublishAckReasonCode refuseIf at h
    cases hreason : reply.reasonCode with
    | none => rw [hreason] at h; exact (Except.error.inj h).symm
    | some reasonCode =>
      rw [hreason] at h
      dsimp only at h
      split_ifs at h <;> exact (Except.error.inj h).symm
  obtain h | ⟨_, -, h⟩ := except_bind_eq_error.mp h
  · cases hsize : ackPacketSize c.properties.server.maxPacketSize reply.propertyLength with
    | error => rw [hsize] at h; exact (Except.error.inj h).symm
    | ok => rw [hsize] at h; cases h
  · cases h

theorem Aloof.sendPublishAcksWithProperty (packetId : UInt16) (state : PublishState)
    (reply : Reply) : Aloof (sendPublishAcksWithProperty env packetId state reply) := by
  refine Aloof.context.bind fun c => Aloof.bind (.when (.check ?_)) fun _ =>
    Aloof.connected.bind fun _ => ?_
  · intro e h
    rw [checkReply_error h]
    decide
  · cases ackFromPacketType (ackTypeToSend state) with
    | none => exact .pure _
    | some ack =>
      exact Aloof.bind (.check fun _ _ => by decide) fun _ =>
        (Aloof.buildAndSendAckWithProps _ _ _ _ _).bind fun _ => .ackSent _ _

theorem Aloof.replyWith (packetId : UInt16) (state : PublishState) (reasonCode : Option UInt8) :
    Aloof (replyWith env packetId state reasonCode) :=
  Aloof.context.bind fun _ =>
    .ite (.sendPublishAcksWithoutProperty _ _) (.sendPublishAcksWithProperty _ _ _)

theorem Aloof.checkSectionLength : Aloof (checkSectionLength : Client W Unit) :=
  Aloof.context.bind fun _ => .refuse (by decide)

theorem ofParse_ne (e : ParseError) : ClientError.ofParse e ≠ .keepAliveTimeout := by
  cases e <;> decide

theorem Aloof.parse {r : Except ParseError α} : Aloof (Client.check .ofParse r : Client W α) :=
  .check fun e _ => ofParse_ne e

theorem Aloof.receivedState (answer : Option (Except StateError PublishState)) (qos : QoS) :
    Aloof (receivedState answer qos : Client W _) := by
  unfold Client.receivedState
  split
  · exact .pure _
  · exact .pure _
  · exact .pure _
  · exact .fail (by simp)

theorem Aloof.handleIncomingPublish (total : ℕ) : Aloof (handleIncomingPublish env total) := by
  dsimp only [Client.handleIncomingPublish]
  exact Aloof.context.bind fun _ => Aloof.bind (.orFail _ (by decide)) fun _ => Aloof.parse.bind fun _ =>
    Aloof.bind (.refuse (by decide)) fun _ => Aloof.onRecords.bind fun _ => (Aloof.receivedState _ _).bind fun _ =>
      Aloof.bind (.ite (.dispatch _ _) (.pure _)) fun _ => Aloof.bind (.refuse (by decide)) fun _ =>
        .when (Aloof.checkSectionLength.bind fun _ => .replyWith _ _ _)

theorem Aloof.handlePublishAcks (total : ℕ) : Aloof (handlePublishAcks env total) := by
  dsimp only [Client.handlePublishAcks]
  exact Aloof.context.bind fun _ => Aloof.bind (.orFail _ (by decide)) fun _ => Aloof.bind (.orFail _ (by decide)) fun _ =>
    Aloof.parse.bind fun _ => Aloof.onRecords.bind fun _ => (Aloof.accepted _).bind fun _ =>
      (Aloof.clearStored _).bind fun _ => (Aloof.dispatch _ _).bind fun _ => Aloof.bind (.refuse (by decide))
        fun _ => Aloof.checkSectionLength.bind fun _ => .when (.replyWith _ _ _)

theorem Aloof.handleSubUnsubAck (total : ℕ) : Aloof (handleSubUnsubAck env total) := by
  dsimp only [Client.handleSubUnsubAck]
  exact Aloof.context.bind fun _ => Aloof.bind (.orFail _ (by decide)) fun _ => Aloof.parse.bind fun _ =>
    (Aloof.dispatch _ _).bind fun _ => .refuse (by decide)

theorem Aloof.handlePingresp (total : ℕ) : Aloof (handlePingresp env total false) := by
  dsimp only [Client.handlePingresp]
  exact Aloof.context.bind fun _ => Aloof.bind (.orFail _ (by decide)) fun _ => Aloof.parse.bind fun _ =>
    (Aloof.dispatch _ _).bind fun _ => .refuse (by decide)

theorem Aloof.disconnect (reasonCode : Option UInt8) (properties : List UInt8) :
    Aloof (disconnect env reasonCode properties) := by
  dsimp only [Client.disconnect]
  exact Aloof.bind (.refuse (by decide)) fun _ => Aloof.context.bind fun _ =>
    (Aloof.when (.check fun _ _ => by decide)).bind fun _ => Aloof.bind (.refuse (by decide)) fun _ =>
      Aloof.bind (.check fun _ _ => by decide) fun _ => Aloof.bind (.refuse (by decide)) fun _ =>
        Aloof.bind (.update fun _ => ⟨by rfl, by rfl⟩) fun _ => Aloof.bind (.refuse (by decide)) fun _ =>
          (Aloof.sendVectors _).bind fun _ => .sentWhole _ _

theorem Aloof.answerDisconnect (view : PacketInfo) (c : MqttContext) :
    Aloof (answerDisconnect env view c) := by
  unfold Client.answerDisconnect
  cases deserializeDisconnect view c.properties.client.maxPacketSize with
  | error => exact (Aloof.disconnect _ _).bind fun _ => .fail (by decide)
  | ok => exact (Aloof.dispatch _ _).bind fun _ => .refuse (by decide)

theorem Aloof.handleIncomingDisconnect (total : ℕ) : Aloof (handleIncomingDisconnect env total) := by
  dsimp only [Client.handleIncomingDisconnect]
  refine Aloof.context.bind fun c => Aloof.bind (.orFail _ (by decide)) fun view =>
    (Aloof.answerDisconnect view c).attempt_bind fun status hstatus =>
      Aloof.bind (.update fun _ => ⟨by rfl, by rfl⟩) fun _ => .check ?_
  rintro e rfl rfl
  exact hstatus rfl

end Client

def pingrespPacket : List UInt8 := [Packet.pingresp, 0]

/-- The packet at the front of the buffer is a PINGRESP. -/
def MqttContext.AtPingresp (c : MqttContext) : Prop := pingrespPacket <+: c.received

instance (c : MqttContext) : Decidable c.AtPingresp :=
  inferInstanceAs (Decidable (_ <+: _))

theorem MqttContext.AtPingresp.head? {c : MqttContext} (h : c.AtPingresp) :
    c.network.head? = some Packet.pingresp := by
  obtain ⟨rest, hrest⟩ := h
  rw [received] at hrest
  cases hnetwork : c.network with
  | nil => rw [hnetwork, List.take_nil] at hrest; cases hrest
  | cons byte network =>
    rw [hnetwork] at hrest
    cases hindex : c.index with
    | zero => rw [hindex] at hrest; cases hrest
    | succ index =>
      rw [hindex, List.take_succ_cons] at hrest
      exact congrArg some (List.cons.inj hrest).1.symm

namespace Client

variable {env : Environment W}

theorem atPingresp_of_view {c : MqttContext} {total : ℕ} {view : PacketInfo} {info : AckInfo}
    (hview : c.packetView total = some view) (htype : view.packetType = Packet.pingresp)
    (hread : deserializeAck view c.limits = .ok info) : c.AtPingresp := by
  have hlength : view.remainingLength = 0 := by
    unfold deserializeAck at hread
    rw [htype] at hread
    obtain ⟨-, hread⟩ := refuseIf_bind_eq_ok.mp hread
    obtain ⟨-, hread⟩ := refuseIf_bind_eq_ok.mp hread
    obtain ⟨-, hread⟩ := refuseIf_bind_eq_ok.mp hread
    exact not_not.mp (refuseIf_bind_eq_ok.mp hread).1
  unfold MqttContext.packetView at hview
  cases hheader : processIncomingPacketTypeAndLength c.network c.index with
  | error e => rw [hheader] at hview; cases hview
  | ok header =>
    rw [hheader] at hview
    obtain ⟨body, -, rfl⟩ := Option.map_eq_some_iff.mp hview
    obtain ⟨-, hprefix⟩ := processIncomingPacketTypeAndLength_eq_ok.mp hheader
    have hencoded : header.encoded = pingrespPacket := by
      rw [PacketHeader.encoded, show header.packetType = _ from htype,
        show header.remainingLength = _ from hlength]
      rfl
    rw [hencoded] at hprefix
    exact hprefix

theorem handlePingresp_managed (total : ℕ) {s : Sys W}
    (htype : s.context.network.head? = some Packet.pingresp) :
    ((handlePingresp env total true s).2 = s ∧
        ∃ e, e ≠ .keepAliveTimeout ∧ (handlePingresp env total true s).1 = .error (.error e)) ∨
      s.context.AtPingresp ∧ handlePingresp env total true s =
        (.ok (), { s with context := { s.context with waitingForPingResp := false } }) := by
  rw [handlePingresp, Prog.bind_of_ok (context_apply s)]
  cases hview : s.context.packetView total with
  | none =>
    rw [orFail_bind_of_none rfl]
    exact .inl ⟨rfl, .recvFailed, by decide, rfl⟩
  | some view =>
    rw [orFail_bind_of_some rfl]
    have hhead := head?_of_packetView hview
    rw [htype] at hhead
    cases hread : deserializeAck view s.context.limits with
    | error e =>
      rw [check_bind_of_error rfl]
      exact .inl ⟨rfl, _, ofParse_ne e, rfl⟩
    | ok info =>
      rw [check_bind_of_ok rfl, if_pos rfl]
      exact .inr ⟨atPingresp_of_view hview (Option.some.inj hhead).symm hread, rfl⟩

/-- Any other packet leaves the outstanding PINGREQ alone, and so does any packet when keep alive is
left to the caller. -/
theorem handlePacket_aloof {total : ℕ} {manageKeepAlive : Bool} {s : Sys W}
    (h : manageKeepAlive = true → s.context.network.head? ≠ some Packet.pingresp) :
    SameWait s (handlePacket env total manageKeepAlive s).2 ∧
      (handlePacket env total manageKeepAlive s).1 ≠ .error (.error .keepAliveTimeout) := by
  rw [handlePacket, Prog.bind_of_ok (context_apply s)]
  cases hhead : s.context.network.head? with
  | none => exact Aloof.fail (by decide) s
  | some packetType =>
    rw [orFail_bind_of_some rfl]
    refine Aloof.ite (.handleIncomingPublish _) (.ite (.handleIncomingDisconnect _)
      (.ite (.handlePublishAcks _) ?_)) s
    by_cases hpingresp : packetType = Packet.pingresp
    · rw [if_pos hpingresp]
      cases manageKeepAlive with
      | false => exact .handlePingresp _
      | true =>
        rw [hhead, hpingresp] at h
        exact absurd rfl (h rfl)
    · rw [if_neg hpingresp]
      exact .ite (.handleSubUnsubAck _) (.fail (by decide))

theorem handlePacket_wait (total : ℕ) (manageKeepAlive : Bool) (s : Sys W) :
    (SameWait s (handlePacket env total manageKeepAlive s).2 ∧
        (handlePacket env total manageKeepAlive s).1 ≠ .error (.error .keepAliveTimeout) ∧
        (manageKeepAlive = true → (handlePacket env total manageKeepAlive s).1 = .ok () →
          ¬ s.context.AtPingresp)) ∨
      manageKeepAlive = true ∧ s.context.AtPingresp ∧
        handlePacket env total manageKeepAlive s =
          (.ok (), { s with context := { s.context with waitingForPingResp := false } }) := by
  by_cases h : manageKeepAlive = true ∧ s.context.network.head? = some Packet.pingresp
  · obtain ⟨rfl, hhead⟩ := h
    have hrun : handlePacket env total true s = handlePingresp env total true s := by
      rw [handlePacket, Prog.bind_of_ok (context_apply s), hhead, orFail_bind_of_some rfl]
      rfl
    rw [hrun]
    obtain ⟨hstays, e, hne, herror⟩ | ⟨hat, hdone⟩ := handlePingresp_managed total hhead
    · refine .inl ⟨by rw [hstays]; exact refl_of SameWait s, ?_, ?_⟩
      · rw [herror]
        exact fun he => hne (Stop.error.inj (Except.error.inj he))
      · intro _ hok
        rw [herror] at hok
        cases hok
    · exact .inr ⟨rfl, hat, hdone⟩
  · obtain ⟨hsame, hnot⟩ := @handlePacket_aloof _ env total manageKeepAlive s
      fun hmanaged hhead => h ⟨hmanaged, hhead⟩
    exact .inl ⟨hsame, hnot, fun hmanaged _ hat => h ⟨hmanaged, hat.head?⟩⟩

end Client

namespace Observation

def reading : Observation → Option UInt32
  | .clock now => some now
  | _ => none

/-- Whether an offer still lacks the reading behind it, and the last reading behind one. -/
def noteOffer (noted : Bool × Option UInt32) : Observation → Bool × Option UInt32
  | .sent _ _ _ => (true, none)
  | .clock now => if noted.1 then (false, some now) else noted
  | _ => noted

end Observation

/-- What the clock said right after the last offer to the transport. -/
def offeredAt (log : List Observation) : Option UInt32 :=
  (log.foldl Observation.noteOffer (false, none)).2

def lastReading (log : List Observation) : Option UInt32 :=
  (log.filterMap Observation.reading).getLast?

theorem offeredAt_twice (log : List Observation) (parts : List (List UInt8)) (outcome : Sent)
    (standing : Standing) (now later : UInt32) :
    offeredAt (log ++ [.sent parts outcome standing] ++ [.clock now] ++ [.clock later]) = some now := by
  simp [offeredAt, Observation.noteOffer]

theorem lastReading_clock (log : List Observation) (now : UInt32) :
    lastReading (log ++ [.clock now]) = some now := by
  simp [lastReading, Observation.reading]

/-- The time of the last packet is that of the last offer. -/
def Stamped (s : Sys W) : Prop := offeredAt s.log = some s.context.lastPacketTxTime

def SentPingreq (s t : Sys W) : Prop := wire t.log = wire s.log ++ pingreqPacket

instance (s t : Sys W) : Decidable (SentPingreq s t) := inferInstanceAs (Decidable (_ = _))

namespace Client

variable (env : Environment W)

/-- A sender that came to the end of its packet noted the time. -/
theorem bufferTurn_stamped {buffer : List UInt8} {n : ℕ} {t : Sys W} (start : UInt32)
    (h : n = buffer.length → Stamped t) :
    Prog.Turned (fun n t => n = buffer.length → Stamped t)
      (fun answer t => answer = .ok (.sent buffer.length) → Stamped t)
      (bufferTurn env buffer start n t) := by
  have hturn := bufferTurn_cases env buffer start n t
  generalize bufferTurn env buffer start n t = run at hturn ⊢
  cases hturn with
  | whole =>
    intro hanswer
    exact h (SendOutcome.sent.inj (Except.ok.inj hanswer))
  | failed =>
    intro hanswer
    cases hanswer
  | nothing hlen =>
    refine .ite (fun heq => absurd heq hlen.ne) fun hanswer => ?_
    exact absurd (SendOutcome.sent.inj (Except.ok.inj hanswer)) hlen.ne
  | @bytes u _ _ _ hsend =>
    have hstamped : Stamped (nowMs env (stampTx env u).2).2 := by
      obtain rfl := of_send hsend
      exact offeredAt_twice _ _ _ _ _ _
    exact .ite (fun _ => hstamped) fun _ => hstamped

/-- A sender that did not send its packet whole is cut short, or it ends with another outcome; and
one that did noted the time. -/
theorem sendBuffer_whole {buffer : List UInt8} (hne : buffer ≠ []) (s : Sys W) :
    (sendBuffer env buffer s).1 = .error .blocked ∨
      (sendBuffer env buffer s).1 = .ok (.sent buffer.length) ∧ Stamped (sendBuffer env buffer s).2 ∧
        wire (sendBuffer env buffer s).2.log = wire s.log ++ buffer ∨
      ∃ outcome, (sendBuffer env buffer s).1 = .ok outcome ∧ outcome ≠ .sent buffer.length ∧
        wire (sendBuffer env buffer s).2.log ≠ wire s.log ++ buffer := by
  have hwire {n : ℕ} {t : Sys W} (h : Upto buffer n s t) :
      wire t.log = wire s.log ++ buffer.take n := by
    obtain ⟨io, hlog, -, hout⟩ := h.out
    rw [hlog, wire_append, hout]
  have hshort {n : ℕ} {t : Sys W} (h : Upto buffer n s t) (hn : n ≠ buffer.length) :
      wire t.log ≠ wire s.log ++ buffer := by
    rw [hwire h]
    intro heq
    have hlength := congrArg List.length (List.append_cancel_left heq)
    rw [List.length_take_of_le h.inside] at hlength
    exact hn hlength
  rw [sendBuffer, Prog.bind_of_ok (nowMs_apply env s)]
  generalize hstart : ({ s with
    world := (env.nowMs s.world).2, log := s.log ++ [.clock (env.nowMs s.world).1] } : Sys W) = t
  have hzero : Upto buffer 0 s t := upto_zero (hstart ▸ .clock .nothing)
  have hempty : 0 = buffer.length → Stamped t := fun h =>
    absurd (List.length_eq_zero_iff.mp h.symm) hne
  obtain ⟨⟨hended, hstamped⟩, -⟩ | ⟨n, u, -, hcut, -⟩ := Prog.loop_cases
    (fun n t h => (bufferTurn_turned env _ h.1).and (bufferTurn_stamped env _ h.2))
      ⟨hzero, hempty⟩ env.patience
  · right
    rcases hrun : Prog.loop (bufferTurn env buffer (env.nowMs s.world).1) .blocked env.patience 0 t with
      ⟨stop | n | -, u⟩
    · rw [hrun] at hended
      exact hended.elim
    · rw [hrun] at hended hstamped
      have hupto : Upto buffer n s u := hended
      by_cases hn : n = buffer.length
      · subst hn
        refine .inl ⟨rfl, hstamped rfl, ?_⟩
        rw [hwire hupto, List.take_length]
      · exact .inr ⟨_, rfl, fun h => hn (SendOutcome.sent.inj h), hshort hupto hn⟩
    · rw [hrun] at hended
      obtain ⟨n, hlt, hupto⟩ := hended
      exact .inr ⟨_, rfl, by simp, hshort hupto hlt.ne⟩
  · exact .inl (by rw [hcut])

/-- A `ping` that sends a PINGREQ waits from then on for the PINGRESP; one that does not leaves the
wait as it was. -/
theorem ping_cases (s : Sys W) :
    ((ping env s).1 = .ok () ∧ SentPingreq s (ping env s).2 ∧
        (ping env s).2.context.waitingForPingResp = true ∧
        offeredAt (ping env s).2.log = some (ping env s).2.context.pingReqSendTime) ∨
      SameWait s (ping env s).2 ∧ (ping env s).1 ≠ .error (.error .keepAliveTimeout) ∧
        ((ping env s).1 = .error .blocked ∨ ¬ SentPingreq s (ping env s).2) := by
  have hunsent : ¬ SentPingreq s s := by
    intro h
    have hlength := congrArg List.length h
    rw [List.length_append] at hlength
    have htwo : pingreqPacket.length = 2 := rfl
    omega
  rw [ping]
  by_cases hstatus : s.context.connected = .ok ()
  · have hconnected : connected s = (.ok (), s) := by
      rw [connected, Prog.bind_of_ok (context_apply s), hstatus]
      rfl
    rw [Prog.bind_of_ok hconnected]
    have hpacket : serializePingreq (List.replicate 2 0) = (.ok 2, pingreqPacket) := rfl
    rw [hpacket]
    dsimp only
    rw [check_bind_of_ok rfl, show pingreqPacket.take 2 = pingreqPacket from rfl]
    have hsame : SameWait s (sendBuffer env pingreqPacket s).2 := (Aloof.sendBuffer _ s).1
    obtain hcut | ⟨hwhole, hstamped, hwire⟩ | ⟨outcome, hended, hne, hwire⟩ :=
      @sendBuffer_whole _ env pingreqPacket (by decide) s
    · have hrun : sendBuffer env pingreqPacket s = (.error .blocked, _) := Prod.ext hcut rfl
      right
      rw [Prog.bind_of_error hrun]
      exact ⟨hsame, by simp, .inl rfl⟩
    · left
      rw [Prog.bind_of_ok (Prog.eq_of_fst_ok hwhole), sentWhole, Client.refuse,
        Prog.refuse_bind_of_not (show ¬ SendOutcome.sent pingreqPacket.length ≠ .sent 2 from
          not_not.mpr rfl)]
      exact ⟨rfl, hwire, rfl, hstamped⟩
    · right
      rw [Prog.bind_of_ok (Prog.eq_of_fst_ok hended), sentWhole, Client.refuse,
        Prog.refuse_bind_apply, if_pos (show outcome ≠ .sent 2 from hne)]
      exact ⟨hsame, by simp, .inr hwire⟩
  · right
    obtain ⟨hsame, hnot⟩ := Aloof.connected s
    have hrefused : ∃ e, connected s = (.error e, s) := by
      rw [connected, Prog.bind_of_ok (context_apply s)]
      cases hconnected : s.context.connected with
      | error e => exact ⟨_, rfl⟩
      | ok => exact absurd hconnected hstatus
    obtain ⟨e, hrefused⟩ := hrefused
    rw [hrefused] at hnot
    rw [Prog.bind_of_error hrefused]
    exact ⟨refl_of SameWait s, fun h => hnot (congrArg Except.error (Except.error.inj h)), .inr hunsent⟩

end Client

end RtosMqtt
