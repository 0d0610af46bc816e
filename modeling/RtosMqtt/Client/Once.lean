import RtosMqtt.Client.Dispatch

/-! # Once each, over every run

The handlers, the loop and the calls of an application, put together from their
parts. None of them shows a QoS 2 message a second time before it is complete.
-/

namespace RtosMqtt.Client

variable {W α : Type} (env : Environment W)

theorem ping_quiet : (ping env).Moves Quiet := by
  dsimp only [ping]
  exact connected_moves.bind fun _ => (check_moves _ _).bind fun _ =>
    ((sendBuffer_io env _).mono Io.quiet).bind fun _ => (sentWhole_moves _ _).bind fun _ =>
      update_quiet fun _ => by rfl

theorem disconnect_quiet (reasonCode : Option UInt8) (properties : List UInt8) :
    (disconnect env reasonCode properties).Moves Quiet := by
  dsimp only [disconnect]
  exact (refuse_moves _ _).bind fun _ => context_moves.bind fun _ =>
    (Prog.Moves.when (check_moves _ _)).bind fun _ => (refuse_moves _ _).bind fun _ =>
      (check_moves _ _).bind fun _ => (refuse_moves _ _).bind fun _ =>
        (update_quiet fun _ => by rfl).bind fun _ => (refuse_moves _ _).bind fun _ =>
          ((sendVectors_io env _).mono Io.quiet).bind fun _ => sentWhole_moves _ _

theorem reservePublish_orderly (message : OutgoingPublish) (packetId : UInt16) :
    (reservePublish message packetId : Client W Unit).Moves Orderly :=
  (reserve_orderly _ _).bind fun _ => .when ((accepted_moves _).bind fun _ => .pure _)

theorem publish_orderly (message : OutgoingPublish) (packetId : UInt16) :
    (publish env message packetId).Moves Orderly := by
  dsimp only [publish]
  have htopic (c : MqttContext) : (topicAliasOf c message.properties : Client W _).Moves Orderly :=
    .ite (.pure _) (check_moves _ _)
  have hheader (dup : Bool) (header : List UInt8) :
      (duplicateHeader dup header : Client W _).Moves Orderly :=
    .ite (.pure _) ((check_moves _ _).bind fun _ => .pure _)
  exact context_moves.bind fun _ => (check_moves _ _).bind fun _ => (htopic _).bind fun _ =>
    (check_moves _ _).bind fun _ => (check_moves _ _).bind fun _ => (check_moves _ _).bind fun _ =>
      connected_moves.bind fun _ => (Prog.Moves.when (reservePublish_orderly _ _)).bind fun _ =>
        (hheader _ _).bind fun _ => (Prog.Moves.when ((keep_io env _ _).mono Io.orderly)).bind fun _ =>
          ((sendVectors_io env _).mono Io.orderly).bind fun _ => (sentWhole_moves _ _).bind fun _ =>
            .when ((updatePublish_orderly _ _ _).bind fun _ => (accepted_moves _).bind fun _ =>
              .pure _)

theorem cancelCallback_orderly (packetId : UInt16) :
    (cancelCallback packetId : Client W Unit).Moves Orderly :=
  (remove_orderly _).bind fun _ => (accepted_moves _).bind fun _ => refuse_moves _ _

theorem acknowledge_orderly (accepted : Bool) (qos : QoS) (packetId : UInt16)
    (state : PublishState) (reasonCode : Option UInt8) :
    (refuse (!accepted) .eventCallbackFailed >>= fun _ => Prog.when (qos ≠ .atMostOnce)
      (checkSectionLength >>= fun _ => replyWith env packetId state reasonCode) :
        Client W Unit).Moves Orderly :=
  (refuse_moves _ _).bind fun _ =>
    .when (checkSectionLength_moves.bind fun _ => replyWith_orderly env _ _ _)

theorem handleIncomingPublish_orderly (total : ℕ) :
    (handleIncomingPublish env total).Moves Orderly := by
  intro s
  rw [handleIncomingPublish, Prog.bind_of_ok (context_apply s)]
  cases hview : s.context.packetView total with
  | none => rw [orFail_bind_of_none rfl]; exact refl_of Orderly s
  | some view =>
  rw [orFail_bind_of_some rfl]
  cases hpublish : deserializePublish view s.context.properties.client.maxPacketSize
      s.context.properties.client.topicAliasMax with
  | error e => rw [check_bind_of_error rfl]; exact refl_of Orderly s
  | ok publish =>
  rw [check_bind_of_ok rfl]
  dsimp only
  by_cases hqos : publish.qos = .exactlyOnce
  · rw [hqos]
    cases hr : s.context.records with
    | none =>
      rw [Client.refuse, Prog.refuse_bind_apply, if_pos ⟨rfl, by simp⟩]
      exact refl_of Orderly s
    | some r =>
    rw [Client.refuse, Prog.refuse_bind_of_not (by simp)]
    have htaken := updatePublish_orderly (publish.packetId.getD 0) .receive .exactlyOnce s
    rcases hanswer : updatePublish (publish.packetId.getD 0) .receive .exactlyOnce s with
      ⟨_ | answer, t⟩
    · rw [Prog.bind_of_error hanswer]
      rwa [hanswer] at htaken
    rw [Prog.bind_of_ok hanswer]
    rw [hanswer] at htaken
    cases answer with
    | none =>
      rw [updatePublish, onRecords_some hr] at hanswer
      cases hanswer
    | some answer =>
    cases answer with
    | ok state =>
      exact trans_of Orderly (admit_dispatch_orderly env (publishEvent view publish) true
        hanswer) (acknowledge_orderly env _ _ _ _ _ _)
    | error e =>
      cases e with
      | stateCollision =>
        exact trans_of Orderly htaken (acknowledge_orderly env true .exactlyOnce
          (publish.packetId.getD 0) .pubRecSend none t)
      | badParameter => exact htaken
      | noMemory => exact htaken
      | illegalState => exact htaken
      | badResponse => exact htaken
  · refine (Prog.Moves.bind (refuse_moves _ _) fun _ => (updatePublish_orderly _ _ _).bind fun answer =>
      (receivedState_moves _ _).bind fun _ => Prog.Moves.bind (.ite (dispatch_orderly env ?_ _)
        (.pure _)) fun _ => acknowledge_orderly env _ _ _ _ _ : Prog.Moves Orderly _) s
    intro other hother
    rw [← Option.some.inj hother]
    exact hqos

theorem handlePublishAcks_orderly (total : ℕ) : (handlePublishAcks env total).Moves Orderly := by
  dsimp only [handlePublishAcks]
  exact context_moves.bind fun _ => (orFail_moves _ _).bind fun _ => (orFail_moves _ _).bind fun _ =>
    (check_moves _ _).bind fun _ => (updateAck_orderly (by simp)).bind fun _ =>
      (accepted_moves _).bind fun _ => ((clearStored_io env _).mono Io.orderly).bind fun _ =>
        (dispatch_orderly env (by simp [ackEvent]) _).bind fun _ => (refuse_moves _ _).bind fun _ =>
          checkSectionLength_moves.bind fun _ => .when (replyWith_orderly env _ _ _)

theorem handlePingresp_orderly (total : ℕ) (manageKeepAlive : Bool) :
    (handlePingresp env total manageKeepAlive).Moves Orderly := by
  dsimp only [handlePingresp]
  exact context_moves.bind fun _ => (orFail_moves _ _).bind fun _ => (check_moves _ _).bind fun _ =>
    .ite (update_orderly fun _ => by rfl)
      ((dispatch_orderly env (by simp [ackEvent]) _).bind fun _ => refuse_moves _ _)

theorem handleSubUnsubAck_orderly (total : ℕ) : (handleSubUnsubAck env total).Moves Orderly := by
  dsimp only [handleSubUnsubAck]
  exact context_moves.bind fun _ => (orFail_moves _ _).bind fun _ => (check_moves _ _).bind fun _ =>
    (dispatch_orderly env (by simp [ackEvent]) _).bind fun _ => refuse_moves _ _

theorem handleIncomingAck_orderly (packetType : UInt8) (total : ℕ) (manageKeepAlive : Bool) :
    (handleIncomingAck env packetType total manageKeepAlive).Moves Orderly :=
  .ite (handlePublishAcks_orderly env _) (.ite (handlePingresp_orderly env _ _)
    (.ite (handleSubUnsubAck_orderly env _) (fail_moves _)))

theorem answerDisconnect_orderly (view : PacketInfo) (c : MqttContext) :
    (answerDisconnect env view c).Moves Orderly := by
  unfold answerDisconnect
  split
  · exact ((disconnect_quiet env _ _).mono Quiet.orderly).bind fun _ => fail_moves _
  · exact (dispatch_orderly env (by simp [disconnectEvent]) _).bind fun _ => refuse_moves _ _

theorem handleIncomingDisconnect_orderly (total : ℕ) :
    (handleIncomingDisconnect env total).Moves Orderly := by
  dsimp only [handleIncomingDisconnect]
  exact context_moves.bind fun _ => (orFail_moves _ _).bind fun _ =>
    (attempt_moves (answerDisconnect_orderly env _ _)).bind fun _ =>
      (update_orderly fun _ => by rfl).bind fun _ => check_moves _ _

theorem handlePacket_orderly (total : ℕ) (manageKeepAlive : Bool) :
    (handlePacket env total manageKeepAlive).Moves Orderly :=
  context_moves.bind fun _ => (orFail_moves _ _).bind fun _ =>
    .ite (handleIncomingPublish_orderly env _)
      (.ite (handleIncomingDisconnect_orderly env _) (handleIncomingAck_orderly env _ _ _))

theorem handleKeepAlive_quiet : (handleKeepAlive env).Moves Quiet := by
  dsimp only [handleKeepAlive]
  exact ((nowMs_io env).mono Io.quiet).bind fun _ => context_moves.bind fun _ =>
    .ite (refuse_moves _ _) (.ite (ping_quiet env) (.when (ping_quiet env)))

theorem arrival_quiet (received : Recv) : (arrival received : Client W _).Moves Quiet := by
  refine context_moves.bind fun _ => ?_
  split
  · exact (connectionLost_io.mono Io.quiet).bind fun _ => .pure _
  · exact .pure _
  · exact .ite (.pure _) ((update_quiet fun _ => by rfl).bind fun _ => context_moves.bind fun _ =>
      .pure _)

theorem keepAliveTurn_quiet (manageKeepAlive : Bool) (received : Recv)
    (status : Except ClientError ℕ) :
    (keepAliveTurn env manageKeepAlive received status).Moves Quiet :=
  .ite ((attempt_moves (handleKeepAlive_quiet env)).bind fun outcome => by
    cases outcome <;> exact .pure _) (.pure _)

theorem nextPacket_quiet (manageKeepAlive : Bool) (received : Recv) :
    (nextPacket env manageKeepAlive received).Moves Quiet :=
  (arrival_quiet _).bind fun _ => (keepAliveTurn_quiet env _ _ _).bind fun _ =>
    (check_moves _ _).bind fun _ => context_moves.bind fun _ => (refuse_moves _ _).bind fun _ =>
      (refuse_moves _ _).bind fun _ => .pure _

theorem processPacket_orderly (total : ℕ) (manageKeepAlive : Bool) :
    (processPacket env total manageKeepAlive).Moves Orderly := by
  dsimp only [processPacket]
  exact (handlePacket_orderly env _ _).bind fun _ => (update_orderly fun _ => by rfl).bind fun _ =>
    ((nowMs_io env).mono Io.orderly).bind fun _ => update_orderly fun _ => by rfl

theorem turnsFrom_orderly (manageKeepAlive : Bool) (turns : ℕ) (received : Recv) :
    (turnsFrom env manageKeepAlive turns received).Moves Orderly := by
  induction turns generalizing received with
  | zero => exact .throw _
  | succ turns ih =>
    exact ((nextPacket_quiet env _ _).mono Quiet.orderly).bind fun _ =>
      (processPacket_orderly env _ _).bind fun _ => context_moves.bind fun _ => .ite (.pure _) (ih _)

theorem readIn_quiet : (readIn env).Moves Quiet := by
  refine context_moves.bind fun _ => ?_
  split
  · exact .pure _
  · exact ((recv_io env _).mono Io.quiet).bind fun _ => (update_quiet fun _ => by rfl).bind fun _ =>
      .pure _

theorem receiveSingleIteration_orderly (manageKeepAlive : Bool) :
    (receiveSingleIteration env manageKeepAlive).Moves Orderly :=
  ((readIn_quiet env).mono Quiet.orderly).bind fun _ =>
    (attempt_moves (turnsFrom_orderly env _ _ _)).bind fun _ => check_moves _ _

end RtosMqtt.Client

namespace RtosMqtt

variable {W : Type}

theorem Traffic.perform_orderly (env : Environment W) (call : Traffic) :
    (call.perform env).Moves Orderly := by
  cases call with
  | processLoop =>
    exact (Client.update_orderly fun _ => by rfl).bind fun _ =>
      Client.receiveSingleIteration_orderly env true
  | receiveLoop => exact Client.receiveSingleIteration_orderly env false
  | publish message packetId => exact Client.publish_orderly env message packetId
  | cancelCallback packetId => exact Client.cancelCallback_orderly packetId
  | ping => exact (Client.ping_quiet env).mono Quiet.orderly
  | disconnect reasonCode properties =>
    exact (Client.disconnect_quiet env reasonCode properties).mono Quiet.orderly

namespace Client

theorem deliveredSince_afterTraffic (s : Sys W) (calls : List (Environment W × Traffic)) :
    DeliveredSince s.log (afterTraffic s calls) :=
  Machine.run_invariant (m := trafficMachine W) (I := DeliveredSince s.log)
    (fun call t h => call.2.perform_orderly call.1 t s.log h)
    ⟨[], (List.append_nil _).symm, delivered_nil _⟩ calls

/-- In any run without a new connection, from any state: the event of a QoS 2 PUBLISH comes right
after the incoming array took its identifier, of which it held no record, and between two events
for one identifier its PUBCOMP went out and its record was removed. -/
theorem delivered_once (s : Sys W) (calls : List (Environment W × Traffic)) :
    ∃ log, (afterTraffic s calls).log = s.log ++ log ∧
      (∀ earlier o later packetId, log = earlier ++ o :: later → o.delivers packetId = true →
        ∃ init p, earlier = init ++ [p] ∧ p.Admits packetId) ∧
      (∀ earlier o between o' later packetId, log = earlier ++ o :: (between ++ o' :: later) →
        o.delivers packetId = true → o'.delivers packetId = true → Completes packetId between) := by
  obtain ⟨log, hlog, h⟩ := deliveredSince_afterTraffic s calls
  exact ⟨log, hlog, h.admitted, h.completed⟩

end Client

end RtosMqtt
