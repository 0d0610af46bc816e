import RtosMqtt.Client.Replies

/-! # The event an acknowledgement answers

A packet that asks for an acknowledgement shows one event, and its handler builds
the properties of the acknowledgement. They are the only ones it carries in every
run in which no event leaves any behind.
-/

namespace RtosMqtt

variable {W : Type}

structure ReceivedPublish where
  view : PacketInfo
  publish : PublishInfo
  duplicate : Bool
  state : PublishState

structure ReceivedAck where
  view : PacketInfo
  ack : AckType
  info : AckInfo
  state : PublishState

/-- An event that is shown with a reply, and what its acknowledgement answers. -/
structure Asking (W : Type) where
  event : Event
  packetId : UInt16
  state : PublishState
  before : Sys W

namespace Client

variable (env : Environment W)

def receivePublish (total : ℕ) : Client W ReceivedPublish := do
  let c ← context
  let view ← orFail .recvFailed (c.packetView total)
  let publish ← check .ofParse (deserializePublish view c.properties.client.maxPacketSize
    c.properties.client.topicAliasMax)
  refuse (c.records = none ∧ publish.qos ≠ .atMostOnce) .recvFailed
  let answer ← updatePublish (publish.packetId.getD 0) .receive publish.qos
  let (duplicate, state) ← receivedState answer publish.qos
  pure { view, publish, duplicate, state }

def receiveAck (total : ℕ) : Client W ReceivedAck := do
  let c ← context
  let view ← orFail .recvFailed (c.packetView total)
  let ack ← orFail .badResponse (ackFromPacketType view.packetType)
  let info ← check .ofParse (deserializeAck view c.limits)
  let answer ← updateAck (info.packetId.getD 0) ack .receive
  let state ← accepted answer
  clearStored env (releasedKey ack (info.packetId.getD 0))
  pure { view, ack, info, state := state.getD .null }

def respond (packetId : UInt16) (state : PublishState) (answer : Bool × Option UInt8) :
    Client W Unit := do
  refuse (!answer.1) .eventCallbackFailed
  checkSectionLength
  replyWith env packetId state answer.2

def concludeAck (ack : AckType) (packetId : UInt16) (state : PublishState)
    (answer : Bool × Option UInt8) : Client W Unit := do
  refuse (!answer.1) .eventCallbackFailed
  checkSectionLength
  Prog.when (endsSequence ack = false) (replyWith env packetId state answer.2)

theorem handleIncomingPublish_eq (total : ℕ) : handleIncomingPublish env total =
    receivePublish total >>= fun p =>
      (if tell p.duplicate p.publish.qos then
        dispatch env (publishEvent p.view p.publish) (p.publish.qos != .atMostOnce)
      else pure (true, none)) >>=
        acknowledge env p.publish.qos (p.publish.packetId.getD 0) p.state := by
  simp only [receivePublish, Prog.bind_assoc, Prog.pure_bind]
  rfl

theorem handlePublishAcks_eq (total : ℕ) : handlePublishAcks env total =
    receiveAck env total >>= fun p =>
      dispatch env (ackEvent p.view p.info) (!endsSequence p.ack) >>=
        concludeAck env p.ack (p.info.packetId.getD 0) p.state := by
  simp only [receiveAck, Prog.bind_assoc, Prog.pure_bind]
  rfl

/-- The event of a PUBLISH, when its acknowledgement is owed. -/
def askingPublish (total : ℕ) (s : Sys W) : Option (Asking W) :=
  match receivePublish total s with
  | (.error _, _) => none
  | (.ok p, t) =>
    if tell p.duplicate p.publish.qos ∧ p.publish.qos ≠ .atMostOnce then
      some ⟨publishEvent p.view p.publish, p.publish.packetId.getD 0, p.state, t⟩
    else none

def askingAck (total : ℕ) (s : Sys W) : Option (Asking W) :=
  match receiveAck env total s with
  | (.error _, _) => none
  | (.ok p, t) =>
    if endsSequence p.ack then none
    else some ⟨ackEvent p.view p.info, p.info.packetId.getD 0, p.state, t⟩

/-- The event that the packet at the front of the buffer shows with a reply. -/
def asking (total : ℕ) (s : Sys W) : Option (Asking W) :=
  match s.context.network.head? with
  | none => none
  | some packetType =>
    if packetType &&& 0xF0 = Packet.publish then askingPublish total s
    else if isPublishAck packetType then askingAck env total s
    else none

end Client

def MqttContext.offered (c : MqttContext) (wantsReply : Bool) : AckReply where
  accepted := wantsReply
  buffer := c.ackProperties
  used := c.ackUsed

/-- The properties that a handler adds to its reply to an event. -/
def Environment.added (env : Environment W) (e : Event) (s : Sys W) : List Adder :=
  (s.context.offered true).added (env.onEvent e (s.context.offered true) s.world).1.1

/-- The properties that are added while a packet is handled. -/
def Environment.addedFor (env : Environment W) (total : ℕ) (s : Sys W) : List Adder :=
  ((Client.asking env total s).map fun a => env.added a.event a.before).getD []

/-- Nothing is added to the reply, or the event is accepted and nothing stands in the way of what
was added. -/
def Asking.Spent (env : Environment W) (a : Asking W) : Prop :=
  env.added a.event a.before = [] ∨ env.Accepts a.event true a.before ∧
    (Client.shown env a.event true a.before).context.Lets (ackTypeToSend a.state)
      (env.reply a.event true a.before).1.reasonCode

/-- What goes out is a first part of a DISCONNECT, or of an acknowledgement with these properties
and no others. -/
def PutsOwn (properties : List UInt8) (s t : Sys W) : Prop :=
  ∃ packet, Puts packet s t ∧ (packet.head? = some Packet.disconnect ∨
    ∃ packetType packetId reasonCode,
      packet = replyPacket packetType packetId reasonCode properties)

/-- What handling a packet does with the properties of acknowledgements, where it may have asked
for one: what was built before and what is added now goes out together, and an empty buffer stays
so exactly when what is added is spent. -/
structure Answered (env : Environment W) (asked : Option (Asking W)) (s t : Sys W) : Prop where
  puts : PutsOwn (s.context.built ++
    ((asked.map fun a => env.added a.event a.before).getD []).flatMap Adder.encoded) s t
  empties : s.context.ackUsed = 0 →
    (t.context.ackUsed = 0 ↔ ∀ a, asked = some a → a.Spent env)

structure Aside (s t : Sys W) : Prop where
  mute : Mute s t
  same : SameBuilt s t

instance : IsPreorder (Sys W) Aside where
  refl s := ⟨refl_of Mute s, refl_of SameBuilt s⟩
  trans _ _ _ h h' := ⟨trans_of Mute h.mute h'.mute, trans_of SameBuilt h.same h'.same⟩

/-- What is added while a packet is handled is sent with its acknowledgement, if it has one. -/
def Spent (env : Environment W) (total : ℕ) (s : Sys W) : Prop :=
  ∀ a, Client.asking env total s = some a → a.Spent env

namespace Client

variable {env : Environment W}

theorem onRecords_aside {α : Type} (c : Call)
    (f : PublishRecords → Except StateError α × PublishRecords) :
    (onRecords c f : Client W _).Moves Aside :=
  fun s => ⟨onRecords_mute c f s, onRecords_sameBuilt c f s⟩

theorem receivePublish_moves {R : Sys W → Sys W → Prop} [IsPreorder (Sys W) R]
    (hupdate : ∀ packetId qos, (updatePublish packetId .receive qos : Client W _).Moves R)
    (total : ℕ) : (receivePublish total : Client W _).Moves R := by
  dsimp only [receivePublish]
  exact context_moves.bind fun _ => (orFail_moves _ _).bind fun _ => (check_moves _ _).bind
    fun _ => (refuse_moves _ _).bind fun _ => (hupdate _ _).bind fun _ =>
      (receivedState_moves _ _).bind fun _ => .pure _

theorem receivePublish_aside (total : ℕ) : (receivePublish total : Client W _).Moves Aside :=
  receivePublish_moves (fun _ _ => onRecords_aside _ _) total

theorem receiveAck_moves {R : Sys W → Sys W → Prop}
    [IsPreorder (Sys W) R]
    (hupdate : ∀ packetId ack, (updateAck packetId ack .receive : Client W _).Moves R)
    (hclear : ∀ key, (clearStored env key).Moves R) (total : ℕ) :
    (receiveAck env total).Moves R := by
  dsimp only [receiveAck]
  exact context_moves.bind fun _ => (orFail_moves _ _).bind fun _ => (orFail_moves _ _).bind
    fun _ => (check_moves _ _).bind fun _ => (hupdate _ _).bind fun _ =>
      (accepted_moves _).bind fun _ => (hclear _).bind fun _ => .pure _

theorem receiveAck_aside (total : ℕ) : (receiveAck env total).Moves Aside := by
  apply receiveAck_moves
  · exact fun _ _ => onRecords_aside _ _
  · exact fun key s => ⟨clearStored_mute key s, (clearStored_io env key s).sameBuilt⟩

theorem dispatch_aside (e : Event) : (dispatch env e false).Moves Aside := by
  intro s
  have hextends := AckReply.extends_foldl (s.context.offered false)
    (env.onEvent e (s.context.offered false) s.world).1.1
  rw [AckReply.added_of_not_accepted rfl] at hextends
  have hbytes := hextends.bytes
  rw [List.flatMap_nil, List.append_nil] at hbytes
  exact ⟨dispatch_mute e false s, hextends.used, hbytes⟩

variable (env) in
theorem built_shown (e : Event) (s : Sys W) :
    (shown env e true s).context.built =
        s.context.built ++ (env.added e s).flatMap Adder.encoded ∧
      (shown env e true s).context.ackUsed =
        s.context.ackUsed + ((env.added e s).flatMap Adder.encoded).length := by
  have hextends := AckReply.extends_foldl (s.context.offered true)
    (env.onEvent e (s.context.offered true) s.world).1.1
  exact ⟨hextends.bytes, hextends.used⟩

theorem flatMap_encoded_eq_nil {adders : List Adder} :
    (adders.flatMap Adder.encoded).length = 0 ↔ adders = [] := by
  rw [List.length_eq_zero_iff, List.flatMap_eq_nil_iff]
  constructor
  · intro h
    apply List.eq_nil_iff_forall_not_mem.mpr
    intro adder hmem
    cases h adder hmem
  · rintro rfl adder hmem
    cases hmem

variable (env) in
theorem respond_puts (packetId : UInt16) (state : PublishState) (answer : Bool × Option UInt8)
    (s : Sys W) : Puts (replyPacket (ackTypeToSend state) packetId answer.2 s.context.built) s
      (respond env packetId state answer s).2 := by
  apply puts_bind_of (refuse_moves _ _)
  intro _ t h
  obtain rfl : t = s := (Prod.mk.inj h).2.symm
  apply puts_bind_of checkSectionLength_moves
  intro _ u h
  obtain rfl : u = t := by
    rw [checkSectionLength, Prog.bind_of_ok (context_apply t)] at h
    exact (Prod.mk.inj h).2.symm
  exact replyWith_puts packetId state answer.2 u

theorem respond_used_iff (packetId : UInt16) (state : PublishState) (answer : Bool × Option UInt8)
    (s : Sys W) : (respond env packetId state answer s).2.context.ackUsed = 0 ↔
      s.context.ackUsed = 0 ∨ answer.1 = true ∧ s.context.Lets (ackTypeToSend state) answer.2 := by
  rw [respond, Client.refuse, Prog.refuse_bind_apply]
  by_cases haccepted : answer.1 = true
  · rw [if_neg (by simp [haccepted]), checkSectionLength, Prog.bind_assoc,
      Prog.bind_of_ok (context_apply s), Client.refuse, Prog.refuse_bind_apply]
    by_cases hlong : remainingLengthInvalid ≤ s.context.ackUsed
    · rw [if_pos hlong]
      refine ⟨.inl, ?_⟩
      rintro (hnone | ⟨-, -, -, hchecked⟩)
      · exact hnone
      · obtain ⟨size, hsize⟩ := (checkReply_eq_ok hchecked).2
        have hlength := (ackPacketSize_eq_ok hsize).1
        dsimp only at hlength
        rw [maxRemainingLength] at hlength
        rw [remainingLengthInvalid] at hlong
        omega
    · rw [if_neg hlong, replyWith_used_iff]
      simp [haccepted]
  · rw [if_pos (by simpa using haccepted)]
    simp [haccepted]

theorem Mute.putsOwn {properties : List UInt8} {s t : Sys W} (h : Mute s t) :
    PutsOwn properties s t := ⟨_, h.puts, .inr ⟨0, 0, none, rfl⟩⟩

theorem unasked_spent (a : Asking W) (h : none = some a) : a.Spent env := by cases h

theorem answered_aside {s t : Sys W} (h : Aside s t) : Answered env none s t where
  puts := Mute.putsOwn h.mute
  empties hnone := iff_of_true (h.same.used.trans hnone) unasked_spent

theorem answered_respond {packetId : UInt16} {state : PublishState} {s u : Sys W} (h : Aside s u) :
    Answered env none s (respond env packetId state (true, none) u).2 where
  puts := by
    have hputs := respond_puts env packetId state (true, none) u
    rw [h.same.bytes] at hputs
    rw [Option.map_none, Option.getD_none, List.flatMap_nil, List.append_nil]
    exact ⟨_, hputs.after h.mute, .inr ⟨_, _, _, rfl⟩⟩
  empties hnone := iff_of_true
    ((respond_used_iff packetId state (true, none) u).mpr (.inl (h.same.used.trans hnone)))
    unasked_spent

theorem answered_event {a : Asking W} {s : Sys W} (h : Aside s a.before) :
    Answered env (some a) s
      ((dispatch env a.event true >>= respond env a.packetId a.state) a.before).2 := by
  obtain ⟨hbuilt, hused⟩ := built_shown env a.event a.before
  rw [Prog.bind_of_ok (dispatch_apply env a.event true a.before)]
  constructor
  · have hputs := respond_puts env a.packetId a.state
      ((env.reply a.event true a.before).2, (env.reply a.event true a.before).1.reasonCode)
      (shown env a.event true a.before)
    rw [hbuilt, h.same.bytes] at hputs
    have hshown : Mute a.before (shown env a.event true a.before) := dispatch_mute _ _ _
    exact ⟨_, (hputs.after hshown).after h.mute, .inr ⟨_, _, _, rfl⟩⟩
  · intro hnone
    rw [respond_used_iff, hused, h.same.used, hnone, Nat.zero_add, flatMap_encoded_eq_nil]
    constructor
    · rintro h _ ⟨⟩
      exact h
    · exact fun h => h a rfl

theorem acknowledge_eq_respond {qos : QoS} (hqos : qos ≠ .atMostOnce) (packetId : UInt16)
    (state : PublishState) : acknowledge env qos packetId state = respond env packetId state := by
  funext answer
  rw [acknowledge, respond, Prog.when, if_pos hqos]

theorem acknowledge_atMostOnce_aside (packetId : UInt16) (state : PublishState)
    (answer : Bool × Option UInt8) :
    (acknowledge env .atMostOnce packetId state answer).Moves Aside := by
  rw [acknowledge, Prog.when, if_neg (not_not.mpr rfl)]
  exact (refuse_moves _ _).bind fun _ => .pure _

theorem handleIncomingPublish_answered (total : ℕ) (s : Sys W) :
    Answered env (askingPublish total s) s (handleIncomingPublish env total s).2 := by
  have haside : Aside s (receivePublish total s).2 := receivePublish_aside total s
  rw [handleIncomingPublish_eq]
  unfold askingPublish
  rcases h : receivePublish total s with ⟨e | p, t⟩
  · rw [h] at haside
    rw [Prog.bind_of_error h]
    exact answered_aside haside
  rw [h] at haside
  rw [Prog.bind_of_ok h]
  dsimp only at haside ⊢
  by_cases hqos : p.publish.qos = .atMostOnce
  · have hsilent : (QoS.atMostOnce != .atMostOnce) = false := rfl
    rw [if_neg fun h => h.2 hqos, hqos, hsilent]
    exact answered_aside (trans_of Aside haside
      (Prog.Moves.bind (.ite (dispatch_aside _) (.pure _)) (acknowledge_atMostOnce_aside _ _) t))
  rw [acknowledge_eq_respond hqos]
  have hwants : (p.publish.qos != .atMostOnce) = true := by simpa using hqos
  by_cases htell : tell p.duplicate p.publish.qos = true
  · rw [if_pos ⟨htell, hqos⟩, if_pos htell, hwants]
    exact answered_event haside
  · rw [if_neg fun h => htell h.1, if_neg htell]
    exact answered_respond haside

theorem handlePublishAcks_answered (total : ℕ) (s : Sys W) :
    Answered env (askingAck env total s) s (handlePublishAcks env total s).2 := by
  have haside : Aside s (receiveAck env total s).2 := receiveAck_aside total s
  rw [handlePublishAcks_eq]
  unfold askingAck
  rcases h : receiveAck env total s with ⟨e | p, t⟩
  · rw [h] at haside
    rw [Prog.bind_of_error h]
    exact answered_aside haside
  rw [h] at haside
  rw [Prog.bind_of_ok h]
  dsimp only at haside ⊢
  cases hends : endsSequence p.ack with
  | true =>
    rw [if_pos rfl]
    refine answered_aside (trans_of Aside haside
      (Prog.rel_bind (dispatch_aside _ t) fun answer => ?_))
    rw [concludeAck, hends]
    exact (refuse_moves _ _).bind fun _ => checkSectionLength_moves.bind fun _ => .pure _
  | false =>
    have hrespond : concludeAck env p.ack (p.info.packetId.getD 0) p.state =
        respond env (p.info.packetId.getD 0) p.state := by
      funext answer
      rw [concludeAck, respond, hends, Prog.when, if_pos rfl]
    rw [hrespond]
    exact answered_event haside

theorem handlePingresp_aside (total : ℕ) (manageKeepAlive : Bool) :
    (handlePingresp env total manageKeepAlive).Moves Aside := by
  dsimp only [handlePingresp]
  exact context_moves.bind fun _ => (orFail_moves _ _).bind fun _ => (check_moves _ _).bind fun _ =>
    .ite (fun s => ⟨.same rfl, rfl, rfl⟩) ((dispatch_aside _).bind fun _ => refuse_moves _ _)

theorem handleSubUnsubAck_aside (total : ℕ) : (handleSubUnsubAck env total).Moves Aside := by
  dsimp only [handleSubUnsubAck]
  exact context_moves.bind fun _ => (orFail_moves _ _).bind fun _ => (check_moves _ _).bind fun _ =>
    (dispatch_aside _).bind fun _ => refuse_moves _ _

variable (env) in
theorem disconnect_puts (reasonCode : Option UInt8) (properties : List UInt8) (s : Sys W) :
    ∃ packet, packet.head? = some Packet.disconnect ∧
      Puts packet s (disconnect env reasonCode properties s).2 := by
  rcases disconnect_cases env reasonCode properties s with ⟨-, h⟩ | ⟨size, -, -, hrun⟩
  · rw [h.snd]
    exact ⟨[Packet.disconnect], rfl, (refl_of Mute s).puts⟩
  · rw [hrun]
    refine ⟨(disconnectParts reasonCode properties size.remainingLength).flatten, ?_, ?_⟩
    · rw [flatten_disconnectParts]
      rfl
    · have hclosed : Mute s (disconnected s) := .same rfl
      exact (puts_bind (sendVectors_puts _ _) fun _ => sentWhole_moves _ _).after hclosed

theorem disconnect_sameBuilt (reasonCode : Option UInt8) (properties : List UInt8) :
    (disconnect env reasonCode properties).Moves SameBuilt := by
  intro s
  rcases disconnect_snd env reasonCode properties s with ⟨-, h⟩ | ⟨-, h⟩
  · have hclosed : SameBuilt s (disconnected s) := ⟨rfl, rfl⟩
    exact trans_of SameBuilt hclosed h.sameBuilt
  · rw [h]
    exact refl_of SameBuilt s

theorem handleIncomingDisconnect_answered (total : ℕ) (s : Sys W) :
    Answered env none s (handleIncomingDisconnect env total s).2 := by
  rw [handleIncomingDisconnect, Prog.bind_of_ok (context_apply s)]
  cases hview : s.context.packetView total with
  | none => exact answered_aside (refl_of Aside s)
  | some view =>
  rw [orFail_bind_of_some rfl]
  have hrest (status : Except ClientError Unit) : Prog.Moves Aside (do
      update fun c => { c with connectStatus := .notConnected }
      check id status : Client W Unit) :=
    Prog.Moves.bind (fun s => ⟨.same rfl, rfl, rfl⟩) fun _ => check_moves _ _
  unfold answerDisconnect
  cases hread : deserializeDisconnect view s.context.properties.client.maxPacketSize with
  | ok incoming =>
    exact answered_aside ((attempt_moves ((dispatch_aside _).bind fun _ => refuse_moves _ _)).bind
      hrest s)
  | error e =>
    have hsame : (disconnect env (some malformedPacket) [] >>= fun _ =>
        fail .notConnected : Client W Unit).Moves SameBuilt :=
      (disconnect_sameBuilt _ _).bind fun _ => fail_moves _
    obtain ⟨packet, htype, hputs⟩ := disconnect_puts env (some malformedPacket) [] s
    constructor
    · refine ⟨packet, puts_bind ?_ fun status => (hrest status).mono Aside.mute, .inl htype⟩
      rw [attempt_snd]
      exact puts_bind hputs fun _ => fail_moves _
    · intro hnone
      have hbuilt := (attempt_moves hsame).bind (fun status => (hrest status).mono Aside.same) s
      exact iff_of_true (hbuilt.used.trans hnone) unasked_spent

variable (env) in
theorem handlePacket_answered (total : ℕ) (manageKeepAlive : Bool) (s : Sys W) :
    Answered env (asking env total s) s (handlePacket env total manageKeepAlive s).2 := by
  rw [handlePacket, Prog.bind_of_ok (context_apply s)]
  unfold asking
  cases hhead : s.context.network.head? with
  | none => exact answered_aside (refl_of Aside s)
  | some packetType =>
  rw [orFail_bind_of_some rfl]
  dsimp only
  by_cases hpublish : packetType &&& 0xF0 = Packet.publish
  · rw [if_pos hpublish, if_pos hpublish]
    exact handleIncomingPublish_answered total s
  rw [if_neg hpublish, if_neg hpublish]
  by_cases hdisconnect : packetType = Packet.disconnect
  · have hno : isPublishAck packetType = false := by rw [hdisconnect]; rfl
    rw [if_pos hdisconnect, hno, if_neg Bool.false_ne_true]
    exact handleIncomingDisconnect_answered total s
  rw [if_neg hdisconnect, handleIncomingAck]
  by_cases hack : isPublishAck packetType = true
  · rw [if_pos hack, if_pos hack]
    exact handlePublishAcks_answered total s
  · rw [if_neg hack, if_neg hack]
    exact answered_aside ((Prog.Moves.ite (handlePingresp_aside _ _)
      (.ite (handleSubUnsubAck_aside _) (fail_moves _))) s)

end Client

end RtosMqtt
