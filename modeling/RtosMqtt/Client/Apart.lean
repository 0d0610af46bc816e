import RtosMqtt.Client.Fragments

/-! # Two clients that differ in their buffers

Two clients are one but for their receive buffers and for the reads that filled them. A handler
looks at the packet it is handed and at nothing behind it, so over the same packet the two end
alike and are as alike as before.
-/

namespace RtosMqtt

variable {W W₁ W₂ α : Type}

def Observation.isRead : Observation → Bool
  | .received _ _ => true
  | _ => false

def told (log : List Observation) : List Observation := log.filter fun o => !o.isRead

theorem told_append (log more : List Observation) : told (log ++ more) = told log ++ told more :=
  List.filter_append _ _

/-- In worlds that are related, two environments answer alike, and whatever either hands over the
worlds stay related. -/
structure Mirrors (env₁ : Environment W₁) (env₂ : Environment W₂) (R : W₁ → W₂ → Prop) : Prop where
  patience : env₂.patience = env₁.patience
  storing : env₂.storing = env₁.storing
  clock : ∀ {w w'}, R w w' → (env₂.nowMs w').1 = (env₁.nowMs w).1 ∧
    R (env₁.nowMs w).2 (env₂.nowMs w').2
  send : ∀ {w w'} bytes, R w w' → (env₂.send bytes w').1 = (env₁.send bytes w).1 ∧
    R (env₁.send bytes w).2 (env₂.send bytes w').2
  writev : ∀ {w w'} parts, R w w' → (env₂.writev parts w').1 = (env₁.writev parts w).1 ∧
    R (env₁.writev parts w).2 (env₂.writev parts w').2
  store : ∀ {w w'} key parts, R w w' → (env₂.store key parts w').1 = (env₁.store key parts w).1 ∧
    R (env₁.store key parts w).2 (env₂.store key parts w').2
  clear : ∀ {w w'} key, R w w' → R (env₁.clear key w) (env₂.clear key w')
  event : ∀ {w w'} e reply, R w w' → (env₂.onEvent e reply w').1 = (env₁.onEvent e reply w).1 ∧
    R (env₁.onEvent e reply w).2 (env₂.onEvent e reply w').2

theorem Mirrors.storing_iff {env₁ : Environment W₁} {env₂ : Environment W₂} {R : W₁ → W₂ → Prop}
    (h : Mirrors env₁ env₂ R) : env₁.storing = true ↔ env₂.storing = true := by rw [h.storing]

/-- The two are one but for their buffers and their reads. -/
structure Apart (R : W₁ → W₂ → Prop) (s : Sys W₁) (t : Sys W₂) : Prop where
  context : ∃ network index, t.context = { s.context with network := network, index := index }
  present : t.sessionPresent = s.sessionPresent
  told : told t.log = told s.log
  world : R s.world t.world

theorem Apart.standing {R : W₁ → W₂ → Prop} {s : Sys W₁} {t : Sys W₂} (h : Apart R s t) :
    t.context.standing = s.context.standing := by
  obtain ⟨network, index, hcontext⟩ := h.context
  rw [hcontext]
  rfl

/-- Two runs end alike and leave clients that are as alike. -/
structure EndApart (R : W₁ → W₂ → Prop) (run₁ : Except Stop α × Sys W₁)
    (run₂ : Except Stop α × Sys W₂) : Prop where
  result : run₂.1 = run₁.1
  apart : Apart R run₁.2 run₂.2

theorem endApart_of_agree {R : W₁ → W₂ → Prop} {p : Client W₁ α} {q : Client W₂ α} {s : Sys W₁}
    {t : Sys W₂} (h : Prog.Agree (Apart R) Eq p q) (hst : Apart R s t) :
    EndApart R (p s) (q t) := by
  obtain ⟨hended, hapart⟩ := h s t hst
  exact ⟨(Prog.agreed_eq_iff.mp hended).symm, hapart⟩

/-- The packet at the front of one buffer is the packet at the front of another. -/
structure SameFront (total : ℕ) (c d : MqttContext) : Prop where
  head : d.network.head? = c.network.head?
  view : d.packetView total = c.packetView total

namespace Client

/-- What a handler makes of the packet it is handed. -/
def viewing (total : ℕ) (f : MqttContext → PacketInfo → Client W α) : Client W α := do
  let c ← context
  let view ← orFail .recvFailed (c.packetView total)
  f c view

open Prog (Agree agree_get agree_pure agree_throw agree_lift agree_refuse agree_modify agree_answer
  agree_loop agreed_eq_iff)

section Apart

variable {env₁ : Environment W₁} {env₂ : Environment W₂} {R : W₁ → W₂ → Prop}

theorem context_apart : Agree (Apart R)
    (fun c c' => ∃ network index, c' = { c with network := network, index := index })
    (context : Client W₁ MqttContext) (context : Client W₂ MqttContext) :=
  agree_answer fun _ _ h => ⟨h.context, h⟩

theorem update_apart {f : MqttContext → MqttContext} (h : ∀ c network index,
    ∃ network' index', f { c with network := network, index := index } =
      { f c with network := network', index := index' }) :
    Agree (Apart R) Eq (update f : Client W₁ Unit) (update f : Client W₂ Unit) := by
  apply agree_modify
  rintro s t ⟨⟨network, index, hcontext⟩, hpresent, htold, hworld⟩
  refine ⟨?_, hpresent, htold, hworld⟩
  dsimp only
  rw [hcontext]
  exact h s.context network index

theorem check_apart {ε : Type} (f : ε → ClientError) (r : Except ε α) :
    Agree (Apart R) Eq (check f r : Client W₁ α) (check f r : Client W₂ α) :=
  agree_lift (agreed_eq_iff.mpr rfl)

theorem orFail_apart (e : ClientError) (a : Option α) :
    Agree (Apart R) Eq (orFail e a : Client W₁ α) (orFail e a : Client W₂ α) := by
  cases a with
  | none => exact agree_throw _
  | some a => exact agree_pure rfl

theorem attempt_apart {p : Client W₁ α} {q : Client W₂ α} (h : Agree (Apart R) Eq p q) :
    Agree (Apart R) Eq (attempt p) (attempt q) := by
  intro s t hst
  obtain ⟨hended, hleft⟩ := h s t hst
  rw [agreed_eq_iff] at hended
  unfold attempt
  rcases hp : p s with ⟨r, s'⟩
  rcases hq : q t with ⟨r', t'⟩
  rw [hp, hq] at hended hleft
  obtain rfl : r = r' := hended
  rcases r with (e | _) | a
  · exact ⟨.ok rfl, hleft⟩
  · exact ⟨.error _, hleft⟩
  · exact ⟨.ok rfl, hleft⟩

theorem connected_apart :
    Agree (Apart R) Eq (connected : Client W₁ Unit) (connected : Client W₂ Unit) := by
  apply context_apart.bind
  rintro c _ ⟨network, index, rfl⟩
  exact check_apart _ _

theorem connectionLost_apart :
    Agree (Apart R) Eq (connectionLost : Client W₁ Unit) (connectionLost : Client W₂ Unit) := by
  apply update_apart
  intro c network index
  by_cases hstatus : c.connectStatus = .connected
  · exact ⟨network, index, by rw [if_pos hstatus, if_pos hstatus]⟩
  · exact ⟨network, index, by rw [if_neg hstatus, if_neg hstatus]⟩

theorem sentWhole_apart (total : ℕ) (outcome : SendOutcome) :
    Agree (Apart R) Eq (sentWhole total outcome : Client W₁ Unit) (sentWhole total outcome) :=
  agree_refuse _ _

theorem onRecords_apart (call : Call)
    (f : PublishRecords → Except StateError α × PublishRecords) :
    Agree (Apart R) Eq (onRecords call f : Client W₁ _) (onRecords call f : Client W₂ _) := by
  apply agree_answer
  rintro s t h
  obtain ⟨⟨network, index, hcontext⟩, hpresent, htold, hworld⟩ := h
  have hrecords : t.context.records = s.context.records := by rw [hcontext]
  rw [hrecords]
  cases s.context.records with
  | none => exact ⟨rfl, ⟨network, index, hcontext⟩, hpresent, htold, hworld⟩
  | some r =>
    refine ⟨rfl, ⟨network, index, ?_⟩, hpresent, ?_, hworld⟩
    · dsimp only
      rw [hcontext]
    · dsimp only
      rw [told_append, told_append, htold]

theorem accepted_apart (answer : Option (Except StateError α)) :
    Agree (Apart R) Eq (accepted answer : Client W₁ _) (accepted answer : Client W₂ _) := by
  rcases answer with _ | ⟨e | a⟩
  · exact agree_pure rfl
  · exact agree_throw _
  · exact agree_pure rfl

theorem ackSent_apart (packetId : UInt16) (ack : AckType) :
    Agree (Apart R) Eq (ackSent packetId ack : Client W₁ Unit) (ackSent packetId ack) := by
  apply (update_apart fun _ network index => ⟨network, index, rfl⟩).bind_eq
  intro _
  apply (onRecords_apart _ _).bind_eq
  intro answer
  exact (accepted_apart answer).bind_eq fun _ => agree_pure rfl

theorem checkSectionLength_apart :
    Agree (Apart R) Eq (checkSectionLength : Client W₁ Unit) checkSectionLength := by
  apply context_apart.bind
  rintro c _ ⟨network, index, rfl⟩
  exact agree_refuse _ _

theorem receivedState_apart (answer : Option (Except StateError PublishState)) (qos : QoS) :
    Agree (Apart R) Eq (receivedState answer qos : Client W₁ _) (receivedState answer qos) := by
  rcases answer with _ | ⟨e | state⟩
  · exact agree_pure rfl
  · cases e with
    | stateCollision => exact agree_pure rfl
    | _ => exact agree_throw _
  · exact agree_pure rfl

variable (hmirrors : Mirrors env₁ env₂ R)

include hmirrors

theorem nowMs_apart : Agree (Apart R) Eq (nowMs env₁) (nowMs env₂) := by
  apply agree_answer
  intro s t h
  obtain ⟨hnow, hworld⟩ := hmirrors.clock h.world
  refine ⟨hnow.symm, h.context, h.present, ?_, hworld⟩
  dsimp only
  rw [told_append, told_append, h.told, hnow]

theorem send_apart (bytes : List UInt8) :
    Agree (Apart R) Eq (send env₁ bytes) (send env₂ bytes) := by
  apply agree_answer
  intro s t h
  obtain ⟨hsent, hworld⟩ := hmirrors.send bytes h.world
  refine ⟨hsent.symm, h.context, h.present, ?_, hworld⟩
  dsimp only
  rw [told_append, told_append, h.told, hsent, h.standing]

theorem writev_apart (parts : List (List UInt8)) :
    Agree (Apart R) Eq (writev env₁ parts) (writev env₂ parts) := by
  apply agree_answer
  intro s t h
  obtain ⟨hsent, hworld⟩ := hmirrors.writev parts h.world
  refine ⟨hsent.symm, h.context, h.present, ?_, hworld⟩
  dsimp only
  rw [told_append, told_append, h.told, hsent, h.standing]

theorem store_apart (key : UInt32) (parts : List (List UInt8)) :
    Agree (Apart R) Eq (store env₁ key parts) (store env₂ key parts) := by
  apply agree_answer
  intro s t h
  obtain ⟨hstored, hworld⟩ := hmirrors.store key parts h.world
  refine ⟨hstored.symm, h.context, h.present, ?_, hworld⟩
  dsimp only
  rw [told_append, told_append, h.told, hstored]

theorem clearStored_apart (key : UInt32) :
    Agree (Apart R) Eq (clearStored env₁ key) (clearStored env₂ key) := by
  refine Agree.ite hmirrors.storing_iff (agree_modify ?_) (agree_pure rfl)
  intro s t h
  refine ⟨h.context, h.present, ?_, hmirrors.clear key h.world⟩
  dsimp only
  rw [told_append, told_append, h.told]

theorem keep_apart (key : UInt32) (parts : List (List UInt8)) :
    Agree (Apart R) Eq (keep env₁ key parts) (keep env₂ key parts) :=
  .ite hmirrors.storing_iff ((store_apart hmirrors key parts).bind_eq fun _ => agree_refuse _ _)
    (agree_pure rfl)

theorem keepAck_apart (packetType : UInt8) (packetId : UInt16) (parts : List (List UInt8)) :
    Agree (Apart R) Eq (keepAck env₁ packetType packetId parts)
      (keepAck env₂ packetType packetId parts) := .when .rfl (keep_apart hmirrors _ _)

theorem dispatch_apart (e : Event) (wantsReply : Bool) :
    Agree (Apart R) Eq (dispatch env₁ e wantsReply) (dispatch env₂ e wantsReply) := by
  apply agree_answer
  rintro s t h
  obtain ⟨⟨network, index, hcontext⟩, hpresent, htold, hworld⟩ := h
  rw [hcontext]
  obtain ⟨hanswer, hworld'⟩ := hmirrors.event e
    { accepted := wantsReply, buffer := s.context.ackProperties, used := s.context.ackUsed } hworld
  refine ⟨?_, ⟨network, index, ?_⟩, hpresent, ?_, hworld'⟩
  · dsimp only
    rw [hanswer]
  · dsimp only
    rw [hanswer]
  · dsimp only
    rw [told_append, told_append, htold, hanswer]

theorem stampTx_apart : Agree (Apart R) Eq (stampTx env₁) (stampTx env₂) :=
  (nowMs_apart hmirrors).bind_eq fun _ => update_apart fun _ network index => ⟨network, index, rfl⟩

theorem bufferTurn_apart (buffer : List UInt8) (start : UInt32) (sent : ℕ) :
    Agree (Apart R) Eq (bufferTurn env₁ buffer start sent) (bufferTurn env₂ buffer start sent) := by
  apply Agree.ite .rfl (agree_pure rfl)
  apply (send_apart hmirrors _).bind_eq
  intro outcome
  cases outcome with
  | failed =>
    apply connectionLost_apart.bind_eq
    intro _
    exact (nowMs_apart hmirrors).bind_eq fun _ => agree_pure rfl
  | nothing => exact (nowMs_apart hmirrors).bind_eq fun _ => agree_pure rfl
  | bytes count =>
    apply (stampTx_apart hmirrors).bind_eq
    intro _
    exact (nowMs_apart hmirrors).bind_eq fun _ => agree_pure rfl

theorem sendBuffer_apart (buffer : List UInt8) :
    Agree (Apart R) Eq (sendBuffer env₁ buffer) (sendBuffer env₂ buffer) := by
  apply (nowMs_apart hmirrors).bind_eq
  intro start
  rw [hmirrors.patience]
  exact agree_loop (bufferTurn_apart hmirrors buffer start) _ _ _

theorem vectorsTurn_apart (total : ℕ) (start : UInt32) (place : ℕ × List (List UInt8)) :
    Agree (Apart R) Eq (vectorsTurn env₁ total start place)
      (vectorsTurn env₂ total start place) := by
  apply Agree.ite .rfl (agree_pure rfl)
  apply (writev_apart hmirrors _).bind_eq
  intro outcome
  cases outcome with
  | failed => exact connectionLost_apart.bind_eq fun _ => agree_pure rfl
  | nothing => exact (nowMs_apart hmirrors).bind_eq fun _ => agree_pure rfl
  | bytes count =>
    apply (stampTx_apart hmirrors).bind_eq
    intro _
    exact .ite .rfl ((nowMs_apart hmirrors).bind_eq fun _ => agree_pure rfl) (agree_pure rfl)

theorem sendVectors_apart (vectors : List (List UInt8)) :
    Agree (Apart R) Eq (sendVectors env₁ vectors) (sendVectors env₂ vectors) := by
  apply (nowMs_apart hmirrors).bind_eq
  intro start
  rw [hmirrors.patience]
  exact agree_loop (vectorsTurn_apart hmirrors _ start) _ _ _

theorem disconnect_apart (reasonCode : Option UInt8) (properties : List UInt8) :
    Agree (Apart R) Eq (disconnect env₁ reasonCode properties)
      (disconnect env₂ reasonCode properties) := by
  apply (agree_refuse _ _).bind_eq
  intro _
  apply context_apart.bind
  rintro c _ ⟨network, index, rfl⟩
  apply (Agree.when .rfl (check_apart _ _)).bind_eq
  intro _
  apply (agree_refuse _ _).bind_eq
  intro _
  apply (check_apart _ _).bind_eq
  intro size
  apply (agree_refuse _ _).bind_eq
  intro _
  apply (update_apart fun _ _ _ => ⟨_, _, rfl⟩).bind_eq
  intro _
  apply (agree_refuse _ _).bind_eq
  intro _
  exact (sendVectors_apart hmirrors _).bind_eq fun _ => sentWhole_apart _ _

theorem sendPublishAcksWithoutProperty_apart (packetId : UInt16) (state : PublishState) :
    Agree (Apart R) Eq (sendPublishAcksWithoutProperty env₁ packetId state)
      (sendPublishAcksWithoutProperty env₂ packetId state) := by
  unfold sendPublishAcksWithoutProperty
  split
  · exact agree_pure rfl
  apply (check_apart _ _).bind_eq
  intro written
  apply context_apart.bind
  rintro c _ ⟨network, index, rfl⟩
  apply (agree_refuse _ _).bind_eq
  intro _
  apply connected_apart.bind_eq
  intro _
  apply (keepAck_apart hmirrors _ _ _).bind_eq
  intro _
  apply (sendBuffer_apart hmirrors _).bind_eq
  intro outcome
  exact (sentWhole_apart _ _).bind_eq fun _ => ackSent_apart _ _

theorem buildAndSendAckWithProps_apart (packetType : UInt8) (packetId : UInt16) (reasonCode : UInt8)
    (remainingLength propertyLength : ℕ) :
    Agree (Apart R) Eq
      (buildAndSendAckWithProps env₁ packetType packetId reasonCode remainingLength propertyLength)
      (buildAndSendAckWithProps env₂ packetType packetId reasonCode remainingLength
        propertyLength) := by
  apply (agree_refuse _ _).bind_eq
  intro _
  apply (Agree.when .rfl (update_apart fun _ network index => ⟨network, index, rfl⟩)).bind_eq
  intro _
  apply (agree_refuse _ _).bind_eq
  intro _
  apply context_apart.bind
  rintro c _ ⟨network, index, rfl⟩
  apply (orFail_apart _ _).bind_eq
  intro properties
  apply (keepAck_apart hmirrors _ _ _).bind_eq
  intro _
  exact (sendVectors_apart hmirrors _).bind_eq fun _ => sentWhole_apart _ _

theorem sendPublishAcksWithProperty_apart (packetId : UInt16) (state : PublishState)
    (reply : Reply) : Agree (Apart R) Eq (sendPublishAcksWithProperty env₁ packetId state reply)
      (sendPublishAcksWithProperty env₂ packetId state reply) := by
  apply context_apart.bind
  rintro c _ ⟨network, index, rfl⟩
  apply (Agree.when .rfl (check_apart _ _)).bind_eq
  intro _
  apply connected_apart.bind_eq
  intro _
  cases ackFromPacketType (ackTypeToSend state) with
  | none => exact agree_pure rfl
  | some ack =>
    apply (check_apart _ _).bind_eq
    intro size
    exact (buildAndSendAckWithProps_apart hmirrors _ _ _ _ _).bind_eq fun _ => ackSent_apart _ _

theorem replyWith_apart (packetId : UInt16) (state : PublishState) (reasonCode : Option UInt8) :
    Agree (Apart R) Eq (replyWith env₁ packetId state reasonCode)
      (replyWith env₂ packetId state reasonCode) := by
  apply context_apart.bind
  rintro c _ ⟨network, index, rfl⟩
  exact .ite .rfl (sendPublishAcksWithoutProperty_apart hmirrors _ _)
    (sendPublishAcksWithProperty_apart hmirrors _ _ _)

omit hmirrors in
theorem viewing_apart {total : ℕ} {s : Sys W₁} {t : Sys W₂} (h : Apart R s t)
    (hview : t.context.packetView total = s.context.packetView total)
    {f : MqttContext → PacketInfo → Client W₁ α} {g : MqttContext → PacketInfo → Client W₂ α}
    (hf : ∀ c network index view, Agree (Apart R) Eq (f c view)
      (g { c with network := network, index := index } view)) :
    EndApart R (viewing total f s) (viewing total g t) := by
  obtain ⟨network, index, hcontext⟩ := h.context
  rw [viewing, viewing, Prog.bind_of_ok (context_apply s), Prog.bind_of_ok (context_apply t), hview]
  cases hseen : s.context.packetView total with
  | none => exact ⟨rfl, h⟩
  | some view =>
    rw [orFail_bind_of_some rfl, orFail_bind_of_some rfl, hcontext]
    exact endApart_of_agree (hf s.context network index view) h

section View

variable {total : ℕ} {s : Sys W₁} {t : Sys W₂} (h : Apart R s t)
  (hview : t.context.packetView total = s.context.packetView total)

include h hview

theorem handleIncomingPublish_apart :
    EndApart R (handleIncomingPublish env₁ total s) (handleIncomingPublish env₂ total t) := by
  refine viewing_apart h hview fun c network index view => ?_
  apply (check_apart _ _).bind_eq
  intro publish
  apply (agree_refuse _ _).bind_eq
  intro _
  apply (onRecords_apart _ _).bind_eq
  intro answer
  apply (receivedState_apart _ _).bind_eq
  rintro ⟨duplicate, ackState⟩
  apply (Agree.ite .rfl (dispatch_apart hmirrors _ _) (agree_pure rfl)).bind_eq
  rintro ⟨accepted, reasonCode⟩
  apply (agree_refuse _ _).bind_eq
  intro _
  exact .when .rfl (checkSectionLength_apart.bind_eq fun _ => replyWith_apart hmirrors _ _ _)

theorem handlePublishAcks_apart :
    EndApart R (handlePublishAcks env₁ total s) (handlePublishAcks env₂ total t) := by
  refine viewing_apart h hview fun c network index view => ?_
  apply (orFail_apart _ _).bind_eq
  intro ack
  apply (check_apart _ _).bind_eq
  intro info
  apply (onRecords_apart _ _).bind_eq
  intro answer
  apply (accepted_apart _).bind_eq
  intro state
  apply (clearStored_apart hmirrors _).bind_eq
  intro _
  apply (dispatch_apart hmirrors _ _).bind_eq
  rintro ⟨accepted, reasonCode⟩
  apply (agree_refuse _ _).bind_eq
  intro _
  apply checkSectionLength_apart.bind_eq
  intro _
  exact .when .rfl (replyWith_apart hmirrors _ _ _)

theorem handlePingresp_apart (manageKeepAlive : Bool) :
    EndApart R (handlePingresp env₁ total manageKeepAlive s)
      (handlePingresp env₂ total manageKeepAlive t) := by
  refine viewing_apart h hview fun c network index view => ?_
  apply (check_apart _ _).bind_eq
  intro info
  apply Agree.ite .rfl (update_apart fun _ network index => ⟨network, index, rfl⟩)
  apply (dispatch_apart hmirrors _ _).bind_eq
  rintro ⟨accepted, reasonCode⟩
  exact agree_refuse _ _

theorem handleSubUnsubAck_apart :
    EndApart R (handleSubUnsubAck env₁ total s) (handleSubUnsubAck env₂ total t) := by
  refine viewing_apart h hview fun c network index view => ?_
  apply (check_apart _ _).bind_eq
  intro info
  apply (dispatch_apart hmirrors _ _).bind_eq
  rintro ⟨accepted, reasonCode⟩
  exact agree_refuse _ _

theorem handleIncomingDisconnect_apart :
    EndApart R (handleIncomingDisconnect env₁ total s) (handleIncomingDisconnect env₂ total t) := by
  refine viewing_apart h hview fun c network index view => ?_
  have hanswer : Agree (Apart R) Eq (answerDisconnect env₁ view c)
      (answerDisconnect env₂ view { c with network := network, index := index }) := by
    unfold answerDisconnect
    cases deserializeDisconnect view c.properties.client.maxPacketSize with
    | error e => exact (disconnect_apart hmirrors _ _).bind_eq fun _ => agree_throw _
    | ok incoming =>
      apply (dispatch_apart hmirrors _ _).bind_eq
      rintro ⟨accepted, reasonCode⟩
      exact agree_refuse _ _
  apply (attempt_apart hanswer).bind_eq
  intro status
  exact (update_apart fun _ network index => ⟨network, index, rfl⟩).bind_eq fun _ => check_apart _ _

end View

theorem handlePacket_apart {total : ℕ} (manageKeepAlive : Bool) {s : Sys W₁} {t : Sys W₂}
    (h : Apart R s t) (hfront : SameFront total s.context t.context) :
    EndApart R (handlePacket env₁ total manageKeepAlive s)
      (handlePacket env₂ total manageKeepAlive t) := by
  rw [handlePacket, handlePacket, Prog.bind_of_ok (context_apply s),
    Prog.bind_of_ok (context_apply t), hfront.head]
  cases hhead : s.context.network.head? with
  | none => exact ⟨rfl, h⟩
  | some packetType =>
  rw [orFail_bind_of_some rfl, orFail_bind_of_some rfl]
  by_cases hpublish : packetType &&& 0xF0 = Packet.publish
  · rw [if_pos hpublish, if_pos hpublish]
    exact handleIncomingPublish_apart hmirrors h hfront.view
  rw [if_neg hpublish, if_neg hpublish]
  by_cases hdisconnect : packetType = Packet.disconnect
  · rw [if_pos hdisconnect, if_pos hdisconnect]
    exact handleIncomingDisconnect_apart hmirrors h hfront.view
  rw [if_neg hdisconnect, if_neg hdisconnect, handleIncomingAck, handleIncomingAck]
  split_ifs
  · exact handlePublishAcks_apart hmirrors h hfront.view
  · exact handlePingresp_apart hmirrors h hfront.view manageKeepAlive
  · exact handleSubUnsubAck_apart hmirrors h hfront.view
  · exact ⟨rfl, h⟩

theorem processPacket_apart {total : ℕ} (manageKeepAlive : Bool) {s : Sys W₁} {t : Sys W₂}
    (h : Apart R s t) (hfront : SameFront total s.context t.context) :
    EndApart R (processPacket env₁ total manageKeepAlive s)
      (processPacket env₂ total manageKeepAlive t) := by
  obtain ⟨hresult, hapart⟩ := handlePacket_apart hmirrors manageKeepAlive h hfront
  rw [processPacket, processPacket]
  rcases hs : handlePacket env₁ total manageKeepAlive s with ⟨r, s'⟩
  rcases ht : handlePacket env₂ total manageKeepAlive t with ⟨r', t'⟩
  rw [hs, ht] at hresult hapart
  obtain rfl : r' = r := hresult
  cases r' with
  | error e =>
    rw [Prog.bind_of_error hs, Prog.bind_of_error ht]
    exact ⟨rfl, hapart⟩
  | ok _ =>
    rw [Prog.bind_of_ok hs, Prog.bind_of_ok ht]
    refine endApart_of_agree ?_ hapart
    apply (update_apart fun _ _ _ => ⟨_, _, rfl⟩).bind_eq
    intro _
    apply (nowMs_apart hmirrors).bind_eq
    exact fun _ => update_apart fun _ network index => ⟨network, index, rfl⟩

end Apart

end Client

end RtosMqtt
