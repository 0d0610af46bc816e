import RtosMqtt.Client.Belonging
import RtosMqtt.Client.Scripted

/-! # Runs in which nothing is left behind

Only the handlers touch the properties of acknowledgements. So in a run in which
every event's properties are spent, each acknowledgement carries those of its own
event, and in the end the buffer is empty.
-/

namespace RtosMqtt

variable {W α : Type}

namespace Client

variable {env : Environment W}

theorem sameBuilt_of_io {p : Client W α} (h : p.Moves Io) : p.Moves SameBuilt :=
  h.mono Io.sameBuilt

theorem reads_sameBuilt : Reads env SameBuilt :=
  ⟨sameBuilt_of_io (nowMs_io env), fun into => sameBuilt_of_io (recv_io env into),
    fun _ => update_sameBuilt fun _ => ⟨by rfl, by rfl⟩, sameBuilt_of_io connectionLost_io⟩

theorem readIn_sameBuilt : (readIn env).Moves SameBuilt := by
  refine context_moves.bind fun c => ?_
  split
  · exact .pure _
  · exact (sameBuilt_of_io (recv_io env _)).bind fun _ =>
      Prog.Moves.bind (update_sameBuilt fun _ => ⟨by rfl, by rfl⟩) fun _ => .pure _

theorem ping_sameBuilt : (ping env).Moves SameBuilt :=
  connected_moves.bind fun _ => (check_moves _ _).bind fun _ =>
    (sameBuilt_of_io (sendBuffer_io env _)).bind fun _ => (sentWhole_moves _ _).bind fun _ =>
      update_sameBuilt fun _ => ⟨by rfl, by rfl⟩

theorem handleKeepAlive_sameBuilt : (handleKeepAlive env).Moves SameBuilt :=
  (sameBuilt_of_io (nowMs_io env)).bind fun _ => context_moves.bind fun _ =>
    .ite (refuse_moves _ _) (.ite ping_sameBuilt (.when ping_sameBuilt))

theorem arrival_sameBuilt (received : Recv) : (arrival received : Client W _).Moves SameBuilt := by
  refine context_moves.bind fun c => ?_
  cases received with
  | failed => exact (sameBuilt_of_io connectionLost_io).bind fun _ => .pure _
  | nothing => exact .pure _
  | bytes count =>
    exact .ite (.pure _) (Prog.Moves.bind (update_sameBuilt fun _ => ⟨by rfl, by rfl⟩) fun _ =>
      context_moves.bind fun _ => .pure _)

theorem nextPacket_sameBuilt (manageKeepAlive : Bool) (received : Recv) :
    (nextPacket env manageKeepAlive received).Moves SameBuilt := by
  have hturn (status : Except ClientError ℕ) :
      (keepAliveTurn env manageKeepAlive received status).Moves SameBuilt := by
    refine .ite ((attempt_moves handleKeepAlive_sameBuilt).bind fun outcome => ?_) (.pure _)
    split
    · exact .pure _
    · exact .pure _
  exact (arrival_sameBuilt _).bind fun _ => (hturn _).bind fun _ => (check_moves _ _).bind fun _ =>
    context_moves.bind fun _ => (refuse_moves _ _).bind fun _ => (refuse_moves _ _).bind fun _ =>
      .pure _

theorem cancelCallback_sameBuilt (packetId : UInt16) :
    (cancelCallback packetId : Client W Unit).Moves SameBuilt :=
  (onRecords_sameBuilt _ _).bind fun _ => (accepted_moves _).bind fun _ => refuse_moves _ _

theorem publish_sameBuilt (message : OutgoingPublish) (packetId : UInt16) :
    (publish env message packetId).Moves SameBuilt := by
  have hreserve : (reservePublish message packetId : Client W Unit).Moves SameBuilt :=
    (onRecords_sameBuilt _ _).bind fun _ =>
      .when ((accepted_moves _).bind fun _ => .pure _)
  dsimp only [publish]
  exact context_moves.bind fun _ => (check_moves _ _).bind fun _ =>
    (topicAliasOf_moves _ _).bind fun _ => (check_moves _ _).bind fun _ =>
      (check_moves _ _).bind fun _ => (check_moves _ _).bind fun _ => connected_moves.bind fun _ =>
        (Prog.Moves.when hreserve).bind fun _ => (duplicateHeader_moves _ _).bind fun _ =>
          (Prog.Moves.when (sameBuilt_of_io (keep_io env _ _))).bind fun _ =>
            (sameBuilt_of_io (sendVectors_io env _)).bind fun _ => (sentWhole_moves _ _).bind
              fun _ => .when ((onRecords_sameBuilt _ _).bind fun _ => (accepted_moves _).bind
                fun _ => .pure _)

theorem sendList_sameBuilt (list : List Subscription) (packetId : UInt16)
    (properties : List UInt8) (which : SubscriptionType) :
    (sendList env list packetId properties which).Moves SameBuilt := by
  have hfrom (turns : ℕ) (carried : List (List UInt8)) (carriedBytes : ℕ)
      (list : List Subscription) :
      (sendListFrom env which turns carried carriedBytes list).Moves SameBuilt := by
    induction turns generalizing carried carriedBytes list with
    | zero => exact .throw _
    | succ turns ih =>
      exact (check_moves _ _).bind fun _ => (refuse_moves _ _).bind fun _ =>
        (sameBuilt_of_io (sendVectors_io env _)).bind fun _ => (sentWhole_moves _ _).bind fun _ =>
          .ite (.pure _) (ih _ _ _)
  dsimp only [sendList]
  exact context_moves.bind fun _ => (check_moves _ _).bind fun _ =>
    (Prog.Moves.when (check_moves _ _)).bind fun _ => (refuse_moves _ _).bind fun _ =>
      (check_moves _ _).bind fun _ => connected_moves.bind fun _ => (refuse_moves _ _).bind fun _ =>
        hfrom _ _ _ _

theorem sendConnect_sameBuilt (connect : Connect) (remainingLength : ℕ) :
    (sendConnect env connect remainingLength).Moves SameBuilt := by
  have hannounce : (announce connect.properties : Client W Unit).Moves SameBuilt :=
    fun _ => ⟨rfl, rfl⟩
  dsimp only [sendConnect]
  exact (refuse_moves _ _).bind fun _ =>
    Prog.Moves.bind (update_sameBuilt fun _ => ⟨by rfl, by rfl⟩) fun _ =>
      (refuse_moves _ _).bind fun _ => (refuse_moves _ _).bind fun _ =>
        (Prog.Moves.when hannounce).bind fun _ => (checks_pushConnect _ _).moves.bind fun _ =>
          (sameBuilt_of_io (sendVectors_io env _)).bind fun _ => sentWhole_moves _ _

theorem receiveConnack_sameBuilt (timeoutMs : UInt32) (cleanSession : Bool) :
    (receiveConnack env timeoutMs cleanSession).Moves SameBuilt := by
  rw [receiveConnack_eq]
  exact (readConnack_moves reads_sameBuilt timeoutMs).bind fun _ =>
    Prog.Moves.bind (fun _ => ⟨rfl, rfl⟩) fun _ =>
      Prog.Moves.bind (update_sameBuilt fun _ => ⟨by rfl, by rfl⟩) fun _ =>
        (refuse_moves _ _).bind fun _ => refuse_moves _ _

theorem handleCleanSession_sameBuilt : (handleCleanSession env).Moves SameBuilt := by
  have hclear (key : UInt16 → UInt32) (ids : List UInt16) :
      (clearAll env key ids).Moves SameBuilt := by
    induction ids with
    | nil => exact .pure _
    | cons packetId ids ih => exact (sameBuilt_of_io (clear_io env _)).bind fun _ => ih
  refine Prog.Moves.bind (update_sameBuilt fun _ => ⟨by rfl, by rfl⟩) fun _ =>
    context_moves.bind fun c => ?_
  cases c.records with
  | none => exact .pure _
  | some r =>
    exact (Prog.Moves.when (hclear _ _)).bind fun _ => (Prog.Moves.when (hclear _ _)).bind fun _ =>
      update_sameBuilt fun _ => ⟨by rfl, by rfl⟩

theorem sendPublishAcks_sameBuilt (packetId : UInt16) (state : PublishState) :
    (sendPublishAcks env packetId state).Moves SameBuilt := by
  unfold sendPublishAcks
  split
  · exact .pure _
  · exact (check_moves _ _).bind fun _ => connected_moves.bind fun _ =>
      (sameBuilt_of_io (sendBuffer_io env _)).bind fun _ => (sentWhole_moves _ _).bind fun _ =>
        Prog.Moves.bind (update_sameBuilt fun _ => ⟨by rfl, by rfl⟩) fun _ =>
          (onRecords_sameBuilt _ _).bind fun _ => (accepted_moves _).bind fun _ => .pure _

theorem handleUncleanSession_sameBuilt : (handleUncleanSession env).Moves SameBuilt :=
  (resendAll_moves fun _ => .ite (sameBuilt_of_io (resendStored_io env _))
    (sendPublishAcks_sameBuilt _ _)).bind fun _ =>
      .when (resendAll_moves fun _ => sameBuilt_of_io (resendStored_io env _))

theorem connect_sameBuilt (options : Connect) (timeoutMs : UInt32) :
    (connect env options timeoutMs).Moves SameBuilt := by
  have hcheck : (checkConnectProperties options : Client W Unit).Moves SameBuilt :=
    context_moves.bind fun c => .ite (update_sameBuilt fun _ => ⟨by rfl, by rfl⟩)
      ((check_moves _ _).bind fun _ =>
        Prog.Moves.bind (update_sameBuilt fun _ => ⟨by rfl, by rfl⟩) fun _ => refuse_moves _ _)
  have hinner (options : Connect) (size : PacketSize) :
      (connectInner env options timeoutMs size).Moves SameBuilt :=
    (sendConnect_sameBuilt _ _).bind fun _ => (receiveConnack_sameBuilt _ _).bind fun _ =>
      Prog.Moves.bind (update_sameBuilt fun _ => ⟨by rfl, by rfl⟩) fun _ => Prog.Moves.get.bind
        fun _ => (Prog.Moves.when handleCleanSession_sameBuilt).bind fun _ =>
          Prog.Moves.bind (update_sameBuilt fun _ => ⟨by rfl, by rfl⟩) fun _ =>
            .when handleUncleanSession_sameBuilt
  dsimp only [connect]
  exact (Prog.Moves.when (check_moves _ _)).bind fun _ => hcheck.bind fun _ =>
    context_moves.bind fun _ => (check_moves _ _).bind fun _ => (check_moves _ _).bind fun _ =>
      (attempt_moves (hinner _ _)).bind fun _ =>
        (Prog.Moves.when (sameBuilt_of_io connectionLost_io)).bind fun _ => check_moves _ _

def Unbuilt (s : Sys W) : Prop := s.context.ackUsed = 0

theorem keeps_unbuilt {p : Client W α} (h : p.Moves SameBuilt) : p.Moves (Keeping Unbuilt) :=
  fun s hs => (h s).used.trans hs

theorem request_unbuilt {call : Request} (hpass : (Invocation.request call).passes = false) :
    (call.perform env).Moves (Keeping Unbuilt) := by
  cases call with
  | enableQos outgoing incoming ackProperties => exact fun _ _ => rfl
  | connect options timeoutMs => exact keeps_unbuilt (connect_sameBuilt options timeoutMs)
  | traffic call =>
    cases call with
    | processLoop => cases hpass
    | receiveLoop => cases hpass
    | publish message packetId => exact keeps_unbuilt (publish_sameBuilt message packetId)
    | cancelCallback packetId => exact keeps_unbuilt (cancelCallback_sameBuilt packetId)
    | ping => exact keeps_unbuilt ping_sameBuilt
    | disconnect reasonCode properties => exact keeps_unbuilt (disconnect_sameBuilt _ _)

theorem perform_unbuilt (call : Invocation) (hpass : call.passes = false) :
    (call.perform env).Moves (Keeping Unbuilt) := by
  cases call with
  | request call => exact request_unbuilt hpass
  | subscribe list packetId properties => exact keeps_unbuilt (sendList_sameBuilt _ _ _ _)
  | unsubscribe list packetId properties => exact keeps_unbuilt (sendList_sameBuilt _ _ _ _)
  | sendPublishAcks packetId state => exact keeps_unbuilt (sendPublishAcks_sameBuilt packetId state)
  | recvExact wanted =>
    exact keeps_unbuilt ((recvExact_moves reads_sameBuilt wanted).bind fun _ => .pure _)
  | set setting => cases setting <;> exact fun _ hs => hs

theorem unbuilt_pass (env : Environment W) :
    KeptWhile env (fun _ total s => Spent env total s) Unbuilt where
  begin _ hs := hs
  readIn := keeps_unbuilt readIn_sameBuilt
  nextPacket _ _ := keeps_unbuilt (nextPacket_sameBuilt _ _)
  processPacket total manageKeepAlive s hs hspent := by
    have hhandled : Unbuilt (handlePacket env total manageKeepAlive s).2 :=
      ((handlePacket_answered env total manageKeepAlive s).empties hs).mpr hspent
    have hrest : SameBuilt (handlePacket env total manageKeepAlive s).2
        (processPacket env total manageKeepAlive s).2 :=
      Prog.rel_bind (refl_of SameBuilt _) fun _ =>
        Prog.Moves.bind (update_sameBuilt fun _ => ⟨by rfl, by rfl⟩) fun _ =>
          (sameBuilt_of_io (nowMs_io env)).bind fun _ =>
            update_sameBuilt fun _ => ⟨by rfl, by rfl⟩
    exact hrest.used.trans hhandled

end Client

/-- No properties wait when a packet is handed over, what goes out carries those that were added
for it, and none are left. -/
structure Belongs (h : Client.Handled W) : Prop where
  before : h.before.context.ackUsed = 0
  own : PutsOwn ((h.env.addedFor h.total h.before).flatMap Adder.encoded) h.before
    (Client.handlePacket h.env h.total h.manageKeepAlive h.before).2
  after : (Client.handlePacket h.env h.total h.manageKeepAlive h.before).2.context.ackUsed = 0

namespace Client

/-- In every run, acknowledgements carry the properties of their own events, and nothing is carried
over to another, exactly when each event adds nothing, or is accepted with a reply that passes the
checks while the connection is up. -/
theorem belongs_iff (calls : List (Environment W × Invocation)) (network : List UInt8) (world : W) :
    (∀ h ∈ handledInRun calls (start network world), Belongs h) ↔
      ∀ h ∈ handledInRun calls (start network world), Spent h.env h.total h.before := by
  constructor
  · intro hbelongs h hh
    obtain ⟨hbefore, -, hafter⟩ := hbelongs h hh
    exact ((handlePacket_answered h.env h.total h.manageKeepAlive h.before).empties hbefore).mp hafter
  · intro hspent h hh
    have hstart : Unbuilt (start network world) := rfl
    have hunbuilt : Unbuilt h.before := (handledInRun_while
      (C := fun env _ total s => Spent env total s) hstart
      (fun call _ => perform_unbuilt call.2) (fun call _ => unbuilt_pass call.1) hspent).1 h hh
    have hanswered := handlePacket_answered h.env h.total h.manageKeepAlive h.before
    refine ⟨hunbuilt, ?_, (hanswered.empties hunbuilt).mpr (hspent h hh)⟩
    have hnone : h.before.context.built = [] := by
      rw [MqttContext.built, show h.before.context.ackUsed = 0 from hunbuilt, List.take_zero]
    have hputs := hanswered.puts
    rwa [hnone, List.nil_append] at hputs

/-- A QoS 1 message comes twice; its event is refused and then accepted. -/
def refusedThenAccepted : List (Environment Script × Invocation) :=
  let env := Script.environment false
  [(env, .request (.enableQos [Record.default] [Record.default] (List.replicate 32 0))),
    (env, .request (.connect (Script.connect true []) 0)),
    (env, .request (.traffic .processLoop)), (env, .request (.traffic .processLoop))]

/-- The handler adds a user property before it refuses, and only a reason code when it accepts. -/
def addingThenRefusing : Sys Script :=
  start (List.replicate 64 0)
    { reads := [Script.connack false [], [0x32, 7, 0, 1, 97, 0, 1, 0, 42]]
      answers := [([.withProperties [(.userProperty [97] [98], none)]], false),
        ([.setReasonCode 0], true)] }

/-- An acknowledgement carries what was added for an event that was refused. -/
theorem leftover_acknowledged : ∃ h ∈ handledInRun refusedThenAccepted addingThenRefusing,
    h.env.addedFor h.total h.before = [] ∧
      wire (handlePacket h.env h.total h.manageKeepAlive h.before).2.log =
        wire h.before.log ++ [0x40, 11, 0, 1, 0, 7, 0x26, 0, 1, 97, 0, 1, 98] ∧
      ¬ Belongs h := by
  have hfound : ∃ h ∈ handledInRun refusedThenAccepted addingThenRefusing,
      h.env.addedFor h.total h.before = [] ∧
        wire (handlePacket h.env h.total h.manageKeepAlive h.before).2.log =
          wire h.before.log ++ [0x40, 11, 0, 1, 0, 7, 0x26, 0, 1, 97, 0, 1, 98] ∧
        h.before.context.ackUsed ≠ 0 := by
    decide +kernel
  obtain ⟨h, hh, hadded, hwire, hused⟩ := hfound
  exact ⟨h, hh, hadded, hwire, fun hbelongs => hused hbelongs.before⟩

end Client

end RtosMqtt
