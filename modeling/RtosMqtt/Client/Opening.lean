import RtosMqtt.Client.Course

/-! # The course of a connect

Until the CONNACK is accepted nothing but a CONNECT is offered, and the status
stays as it is. Once the connection is open, a resumed session offers what the
records say was under way, and stops at the first packet that does not go out
whole.
-/

namespace RtosMqtt

/-- What a `connect` does until the connection is open. -/
def Act.opening : Act → Bool
  | .note | .adjust | .read | .lose | .replace | .send .connect => true
  | _ => false

def Act.resuming : Act → Bool
  | .note | .mark | .call | .send .stored | .send .bare => true
  | _ => false

def Act.connecting : Act → Bool
  | .establish => true
  | act => act.opening || act.resuming

theorem connecting_of_opening {act : Act} (h : act.opening = true) : act.connecting = true := by
  unfold Act.connecting
  split
  · rfl
  · rw [h, Bool.true_or]

theorem connecting_of_resuming {act : Act} (h : act.resuming = true) : act.connecting = true := by
  unfold Act.connecting
  split
  · rfl
  · rw [h, Bool.or_true]

variable {W α β : Type}

/-- A status only changes when an open connection is lost. -/
def Wanes (s t : Sys W) : Prop :=
  t.context.connectStatus = s.context.connectStatus ∨
    s.context.connectStatus = .connected ∧ t.context.connectStatus = .disconnectPending

instance : IsPreorder (Sys W) Wanes where
  refl _ := .inl rfl
  trans s t u h h' := by
    rcases h with h | ⟨hs, ht⟩
    · rcases h' with h' | ⟨ht, hu⟩
      · exact .inl (h'.trans h)
      · exact .inr ⟨h ▸ ht, hu⟩
    · rcases h' with h' | ⟨ht', -⟩
      · exact .inr ⟨hs, h'.trans ht⟩
      · rw [ht] at ht'
        cases ht'

theorem Wanes.notConnected {s t : Sys W} (h : Wanes s t)
    (hs : s.context.connectStatus = .notConnected) : t.context.connectStatus = .notConnected := by
  rcases h with h | ⟨hs', -⟩
  · exact h.trans hs
  · rw [hs] at hs'
    cases hs'

def Unopened (env : Environment W) (may : Act → Prop) (s t : Sys W) : Prop :=
  s.context.connectStatus = .notConnected →
    Course env may s t ∧ t.context.connectStatus = .notConnected

instance (env : Environment W) (may : Act → Prop) : IsPreorder (Sys W) (Unopened env may) where
  refl _ hs := ⟨.refl, hs⟩
  trans _ _ _ h h' hs := by
    obtain ⟨hc, ht⟩ := h hs
    obtain ⟨hc', hu⟩ := h' ht
    exact ⟨hc.trans hc', hu⟩

namespace Client

variable {env : Environment W} {may : Act → Prop}

theorem connectionLost_wanes : (connectionLost : Client W Unit).Moves Wanes := by
  intro s
  by_cases h : s.context.connectStatus = .connected
  · exact .inr ⟨h, by simp [connectionLost, h]⟩
  · exact .inl (by simp [connectionLost, h])

theorem passes_wanes : Passes env Wanes :=
  ⟨fun _ => .inl rfl, fun _ _ => .inl rfl, connectionLost_wanes⟩

theorem sendVectors_wanes (vectors : List (List UInt8)) : (sendVectors env vectors).Moves Wanes :=
  sendVectors_moves passes_wanes fun _ _ _ => .inl rfl

variable (env) in
def readConnack (timeoutMs : UInt32) : Client W ConnAck := do
  let entry ← nowMs env
  let header ← readConnackHeader env entry timeoutMs env.patience 0
  let packet ← check id header
  refuse (packet.packetType ≠ Packet.connack) .badResponse
  receiveConnackPacket env packet.remainingLength
  let c ← context
  check .ofParse (deserializeConnack
    { packetType := packet.packetType
      remainingLength := packet.remainingLength
      remainingData := c.network.take packet.remainingLength }
    { maxPacketSize := c.properties.client.maxPacketSize
      requestResponseInfo := c.properties.client.requestResponseInfo })

theorem receiveConnack_eq (timeoutMs : UInt32) (cleanSession : Bool) :
    receiveConnack env timeoutMs cleanSession = (do
      let connack ← readConnack env timeoutMs
      Prog.modify fun s => { s with sessionPresent := connack.sessionPresent }
      update fun c => { c with properties := applyConnack c.properties connack }
      refuse (cleanSession ∧ connack.sessionPresent) .badResponse
      refuse connack.refused .serverRefused) := by
  simp only [readConnack, Prog.bind_assoc]
  rfl

section Reads

variable {R : Sys W → Sys W → Prop} [IsPreorder (Sys W) R]

variable (env) in
/-- Reading the clock and the transport, writing the buffer and losing a connection keep a
relation. -/
structure Reads (R : Sys W → Sys W → Prop) : Prop where
  clock : (nowMs env).Moves R
  recv : ∀ into, (recv env into).Moves R
  write : ∀ f : List UInt8 → List UInt8,
    (update fun c => { c with network := f c.network } : Client W Unit).Moves R
  lost : (connectionLost : Client W Unit).Moves R

theorem recvOne_moves (hrecv : ∀ into, (recv env into).Moves R) (nothing failed : ClientError) :
    (recvOne env nothing failed).Moves R := by
  refine (hrecv _).bind fun answer => ?_
  obtain ⟨outcome, byte⟩ := answer
  cases outcome with
  | failed => exact fail_moves _
  | nothing => exact fail_moves _
  | bytes count => exact .ite (fail_moves _) (orFail_moves _ _)

theorem decodeFrom_moves {arith : Arithmetic} {next : ℕ → Client W UInt8} {outOfRange : ℕ → Bool}
    {bad : Client W (ℕ × ℕ)} (hnext : ∀ n, (next n).Moves R) (hbad : bad.Moves R)
    (turns value multiplier decoded : ℕ) :
    (decodeFrom arith next outOfRange bad turns value multiplier decoded).Moves R := by
  induction turns generalizing value multiplier decoded with
  | zero => exact hbad
  | succ turns ih =>
    exact .ite hbad ((hnext _).bind fun _ => .ite hbad (.ite (.pure _) (ih _ _ _)))

theorem readHeader_moves (hrecv : ∀ into, (recv env into).Moves R) : (readHeader env).Moves R :=
  (recvOne_moves hrecv _ _).bind fun _ => (refuse_moves _ _).bind fun _ =>
    Prog.Moves.bind ((decodeFrom_moves (fun _ => recvOne_moves hrecv _ _) (fail_moves _) _ _ _
      _).bind fun _ => (refuse_moves _ _).bind fun _ => (refuse_moves _ _).bind fun _ => .pure _)
        fun _ => .pure _

theorem recvExactFrom_moves (h : Reads env R) (wanted turns total : ℕ) (lastData : UInt32) :
    (recvExactFrom env wanted turns total lastData).Moves R := by
  induction turns generalizing total lastData with
  | zero => exact .throw _
  | succ turns ih =>
    refine .ite (.pure _) (context_moves.bind fun c => ?_)
    cases slice? c.network total wanted with
    | none => exact .pure _
    | some into =>
      refine (h.recv into).bind fun answer => ?_
      obtain ⟨outcome, data⟩ := answer
      refine (h.write fun network => network.take total ++ data ++ network.drop wanted).bind
        fun _ => ?_
      cases outcome with
      | failed => exact h.lost.bind fun _ => .pure _
      | nothing => exact h.clock.bind fun _ => .ite (.pure _) (ih _ _)
      | bytes count => exact h.clock.bind fun _ => .ite (.ite (.pure _) (ih _ _)) (ih _ _)

theorem recvExact_moves (h : Reads env R) (wanted : ℕ) : (recvExact env wanted).Moves R :=
  h.clock.bind fun _ => recvExactFrom_moves h _ _ _ _

theorem readConnackHeader_moves (h : Reads env R) (entry timeoutMs : UInt32)
    (turns loopCount : ℕ) : (readConnackHeader env entry timeoutMs turns loopCount).Moves R := by
  induction turns generalizing loopCount with
  | zero => exact .throw _
  | succ turns ih =>
    refine (attempt_moves (readHeader_moves h.recv)).bind fun header => ?_
    refine Prog.Moves.bind (.ite (h.clock.bind fun _ => .pure _) (.pure _)) fun giveUp => ?_
    split
    · exact .ite (.pure _) (ih _)
    · exact .pure _

theorem readConnack_moves (h : Reads env R) (timeoutMs : UInt32) :
    (readConnack env timeoutMs).Moves R := by
  dsimp only [readConnack]
  exact h.clock.bind fun _ => (readConnackHeader_moves h _ _ _ _).bind fun _ =>
    (check_moves _ _).bind fun _ => (refuse_moves _ _).bind fun _ =>
      Prog.Moves.bind (context_moves.bind fun _ => (refuse_moves _ _).bind fun _ =>
        (recvExact_moves h _).bind fun _ => refuse_moves _ _) fun _ =>
          context_moves.bind fun _ => check_moves _ _

end Reads

theorem unopened_of_course {p : Client W α} (h : p.Moves (Course env may)) (hw : p.Moves Wanes) :
    p.Moves (Unopened env may) := fun s hs => ⟨h s, (hw s).notConnected hs⟩

theorem note_unopened {p : Client W α} (h : p.Moves (Course env may))
    (hcontext : ∀ s, (p s).2.context = s.context) : p.Moves (Unopened env may) :=
  fun s hs => ⟨h s, by rw [hcontext]; exact hs⟩

section Unopened

variable (hmay : ∀ act, act.opening = true → may act)

include hmay

theorem nowMs_unopened : (nowMs env).Moves (Unopened env may) :=
  note_unopened (nowMs_course (hmay .note rfl)) fun _ => rfl

theorem recv_unopened (into : List UInt8) : (recv env into).Moves (Unopened env may) :=
  note_unopened (recv_course (hmay .read rfl) into) fun _ => rfl

theorem update_unopened {f : MqttContext → MqttContext} (hf : ∀ c, (f c).records = c.records ∧
    (f c).connectStatus = c.connectStatus) : (update f : Client W Unit).Moves (Unopened env may) :=
  fun s hs => ⟨Piece.course (.adjust (hf s.context).1 (hf s.context).2 rfl) (hmay .adjust rfl),
    (hf s.context).2.trans hs⟩

theorem connectionLost_unopened : (connectionLost : Client W Unit).Moves (Unopened env may) :=
  unopened_of_course (fun s => Piece.course (.lose s) (hmay .lose rfl)) connectionLost_wanes

theorem reads_unopened : Reads env (Unopened env may) :=
  ⟨nowMs_unopened hmay, recv_unopened hmay, fun _ => update_unopened hmay fun _ => ⟨by rfl, by rfl⟩,
    connectionLost_unopened hmay⟩

theorem receiveConnack_unopened (timeoutMs : UInt32) (cleanSession : Bool) :
    (receiveConnack env timeoutMs cleanSession).Moves (Unopened env may) := by
  rw [receiveConnack_eq]
  refine (readConnack_moves (reads_unopened hmay) timeoutMs).bind fun _ =>
    Prog.Moves.bind ?_ fun _ => (update_unopened hmay fun _ => ⟨by rfl, by rfl⟩).bind fun _ =>
      (refuse_moves _ _).bind fun _ => refuse_moves _ _
  exact fun s hs => ⟨Piece.course (.adjust rfl rfl rfl) (hmay .adjust rfl), hs⟩

theorem announce_unopened (properties : List UInt8) :
    (announce properties : Client W Unit).Moves (Unopened env may) :=
  fun _ hs => ⟨Piece.course (.adjust rfl rfl rfl) (hmay .adjust rfl), hs⟩

theorem sendConnect_unopened (connect : Connect) (remainingLength : ℕ) :
    (sendConnect env connect remainingLength).Moves (Unopened env may) := by
  intro s
  dsimp only [sendConnect]
  generalize hfixed : serializeConnectFixedHeader (List.replicate 15 0) connect.info
    (connect.will.map Will.info) remainingLength = fixed
  refine Prog.rel_bind_of (refuse_moves _ _ s) ?_
  intro _ t h
  have hwritten : fixed.1 ≠ 0 := by
    rw [Client.refuse, Prog.refuse_apply] at h
    split_ifs at h with hzero
    · cases h
    · exact hzero
  refine Prog.rel_bind (update_unopened hmay (fun _ => ⟨by rfl, by rfl⟩) t) fun _ =>
    (refuse_moves _ _).bind fun _ => (refuse_moves _ _).bind fun _ =>
      (Prog.Moves.when (announce_unopened hmay _)).bind fun _ => ?_
  intro u
  refine Prog.rel_bind_of ((checks_pushConnect _ _).moves u) ?_
  intro v w hv
  have hparts := pushConnect_eq_ok hv
  have hhead : v.parts.flatten.head? = some Packet.connect := by
    have htype := serializeConnectFixedHeader_head (List.replicate 15 0) connect.info
      (connect.will.map Will.info) remainingLength (by rwa [hfixed])
    rw [hfixed] at htype
    rw [hparts, List.flatten_cons, List.head?_append, htype]
    rfl
  refine Prog.rel_bind (?_ : Unopened env may w _) fun _ => sentWhole_moves _ _
  exact fun hy => ⟨sendVectors_course .connect (hmay _ rfl) ⟨hy, hhead⟩
    (List.infix_refl _) (by decide), (sendVectors_wanes v.parts w).notConnected hy⟩

theorem capRecords_unopened : (capRecords : Client W Unit).Moves (Unopened env may) := by
  intro s hs
  refine ⟨?_, hs⟩
  cases hr : s.context.records with
  | none =>
    refine Piece.course (.adjust ?_ rfl rfl) (hmay .adjust rfl)
    simp [capRecords, hr]
  | some r =>
    have hcapped : Replaces s.context.records (r.cap s.context.properties.server.receiveMax.toNat
        s.context.properties.client.receiveMax.toNat) := by
      rw [hr]
      exact .capped r _ _
    refine Piece.course (.replace hcapped ?_ rfl) (hmay .replace rfl)
    simp only [capRecords, update_apply, hr, Option.map_some]

theorem clearAll_course (key : UInt16 → UInt32) (ids : List UInt16) :
    (clearAll env key ids).Moves (Course env may) := by
  induction ids with
  | nil => exact .pure _
  | cons packetId ids ih => exact (clear_course (hmay .note rfl) _).bind fun _ => ih

omit hmay in
theorem clearAll_eq_ok (key : UInt16 → UInt32) (ids : List UInt16) (s : Sys W) :
    ∃ t, clearAll env key ids s = (.ok (), t) ∧ t.context = s.context := by
  induction ids generalizing s with
  | nil => exact ⟨s, rfl, rfl⟩
  | cons packetId ids ih => exact ih _

theorem handleCleanSession_unopened :
    (handleCleanSession env).Moves (Unopened env may) := by
  refine (update_unopened hmay fun _ => ⟨by rfl, by rfl⟩).bind fun _ => ?_
  intro s
  rw [Prog.bind_of_ok (context_apply s)]
  cases hr : s.context.records with
  | none => exact refl_of (Unopened env may) s
  | some r =>
    intro hs
    have hwhen (key : UInt16 → UInt32) (ids : List UInt16) (t : Sys W) :
        ∃ u, Prog.when (env.storing = true) (clearAll env key ids) t = (.ok (), u) ∧
          u.context = t.context := by
      unfold Prog.when
      split_ifs
      · exact clearAll_eq_ok key ids t
      · exact ⟨t, rfl, rfl⟩
    have hcleared (key : UInt16 → UInt32) (ids : List UInt16) :
        (Prog.when (env.storing = true) (clearAll env key ids)).Moves (Course env may) :=
      .when (clearAll_course hmay key ids)
    obtain ⟨t, ht, htc⟩ := hwhen UInt16.toUInt32
      (PublishRecords.resends r.publishToResend (r.outgoing.length + 1) 0) s
    obtain ⟨u, hu, huc⟩ := hwhen incomingKey (PublishRecords.resends
      r.clearOutgoing.pubrelToResend (r.clearOutgoing.outgoing.length + 1) 0) t
    have hst := hcleared UInt16.toUInt32
      (PublishRecords.resends r.publishToResend (r.outgoing.length + 1) 0) s
    have htu := hcleared incomingKey (PublishRecords.resends
      r.clearOutgoing.pubrelToResend (r.clearOutgoing.outgoing.length + 1) 0) t
    rw [ht] at hst
    rw [hu] at htu
    have hsame : u.context = s.context := huc.trans htc
    dsimp only
    rw [Prog.bind_of_ok ht, Prog.bind_of_ok hu, update_apply]
    have hreplaces : Replaces u.context.records r.clearOutgoing.clearIncoming := by
      rw [hsame, hr]
      exact .cleared r
    refine ⟨hst.trans (htu.trans (Piece.course (.replace hreplaces rfl rfl) (hmay .replace rfl))), ?_⟩
    rw [hsame]
    exact hs

end Unopened

/-- From an open connection: a course, and a connection still open when it comes to its end. -/
def Safely (env : Environment W) (may : Act → Prop) (p : Client W α) : Prop :=
  ∀ s, s.context.connectStatus = .connected → Course env may s (p s).2 ∧
    ∀ a t, p s = (.ok a, t) → t.context.connectStatus = .connected

theorem Safely.pure (a : α) : Safely env may (Pure.pure a : Client W α) := by
  intro s hs
  refine ⟨refl_of (Course env may) s, ?_⟩
  intro a t h
  obtain ⟨-, rfl⟩ := Prod.mk.inj h
  exact hs

theorem Safely.bind {p : Client W α} {f : α → Client W β} (hp : Safely env may p)
    (hf : ∀ a, Safely env may (f a)) : Safely env may (p >>= f) := by
  intro s hs
  obtain ⟨hcourse, hopen⟩ := hp s hs
  constructor
  · exact Prog.rel_bind_of hcourse fun a t h => (hf a t (hopen a t h)).1
  · intro b u h
    obtain ⟨a, t, hpt, hft⟩ := Prog.bind_eq_ok.mp h
    exact (hf a t (hopen a t hpt)).2 b u hft

theorem resendStored_safely (hmay : ∀ act, act.resuming = true → may act) (key : UInt32) :
    Safely env may (resendStored env key) := by
  intro s hs
  have hretrieved : retrieve env key s = (.ok (env.retrieve key s.world).1,
    { s with world := (env.retrieve key s.world).2
             log := s.log ++ [.retrieved key (env.retrieve key s.world).1] }) := rfl
  have hnoted : Course env may s (retrieve env key s).2 := retrieve_course (hmay .note rfl) key s
  rw [hretrieved] at hnoted
  rw [resendStored, Prog.bind_of_ok hretrieved]
  cases hpacket : (env.retrieve key s.world).1 with
  | none =>
    rw [orFail_bind_of_none rfl]
    rw [hpacket] at hnoted
    exact ⟨hnoted, fun _ _ h => by cases h⟩
  | some packet =>
    rw [orFail_bind_of_some rfl]
    rw [hpacket] at hnoted
    by_cases hsize : maxPacketSizeLimit < packet.length
    · rw [Client.refuse, Prog.refuse_bind_apply, if_pos hsize]
      exact ⟨hnoted, fun _ _ h => by cases h⟩
    rw [Client.refuse, Prog.refuse_bind_of_not hsize]
    constructor
    · refine Prog.rel_bind (hnoted.trans (sendBuffer_course .stored (hmay _ rfl) ?_))
        fun _ => sentWhole_moves _ _
      exact ⟨hs, key, by simp⟩
    · intro _ t h
      obtain ⟨outcome, u, hsend, h⟩ := Prog.bind_eq_ok.mp h
      obtain ⟨rfl, rfl⟩ := sentWhole_eq_ok.mp h
      rw [(sendBuffer_smooth hsend).still.status]
      exact hs

theorem sendPublishAcks_course (hsend : may (.send .bare)) (hmark : may .mark) (hcall : may .call)
    (packetId : UInt16) (state : PublishState) :
    (sendPublishAcks env packetId state).Moves (Course env may) := by
  unfold sendPublishAcks
  split
  · exact .pure _
  rename_i ack hack
  intro s
  refine Prog.rel_bind_of (check_moves _ _ s) ?_
  intro written t h
  obtain ⟨hwritten, rfl⟩ := check_eq_ok.mp h
  obtain ⟨rfl, hpacket⟩ := serializeAck_bare_eq_ok (isPublishAck_of_ackFromPacketType hack) hwritten
  rw [hpacket]
  refine connected_course ?_
  intro hconnected
  refine Prog.rel_bind (sendBuffer_course .bare hsend ⟨hconnected, rfl⟩)
    fun _ => (sentWhole_moves _ _).bind fun _ => Prog.Moves.bind ?_ fun _ =>
      (updateAck_course hcall _ _ _).bind fun _ => (accepted_moves _).bind fun _ =>
        .pure _
  exact fun s => Piece.course (.mark ⟨_, _, _, _, rfl⟩) hmark

section Resend

variable {next : PublishRecords → ℕ → Option UInt16 × ℕ} {resend : UInt16 → Client W Unit}

theorem resendAll_safely (h : ∀ packetId, Safely env may (resend packetId)) :
    Safely env may (resendAll next resend) := by
  have hfrom (turns cursor : ℕ) : Safely env may (resendFrom next resend turns cursor) := by
    induction turns generalizing cursor with
    | zero => exact .pure _
    | succ turns ih =>
      intro s hs
      rw [resendFrom, Prog.bind_of_ok (context_apply s)]
      rcases (s.context.records.map fun r => next r cursor).getD (none, cursor) with
        ⟨_ | packetId, cursor'⟩
      · exact Safely.pure _ s hs
      · exact ((h packetId).bind fun _ => ih cursor') s hs
  intro s hs
  exact hfrom _ _ s hs

variable {R : Sys W → Sys W → Prop} [IsPreorder (Sys W) R]

theorem resendAll_moves (h : ∀ packetId, (resend packetId).Moves R) :
    (resendAll next resend).Moves R := by
  have hfrom (turns cursor : ℕ) : (resendFrom next resend turns cursor).Moves R := by
    induction turns generalizing cursor with
    | zero => exact .pure _
    | succ turns ih =>
      refine context_moves.bind fun c => ?_
      rcases (c.records.map fun r => next r cursor).getD (none, cursor) with
        ⟨_ | packetId, cursor'⟩
      · exact .pure _
      · exact (h packetId).bind fun _ => ih cursor'
  exact context_moves.bind fun _ => hfrom _ _

end Resend

theorem handleUncleanSession_course (hmay : ∀ act, act.resuming = true → may act) {s : Sys W}
    (hs : s.context.connectStatus = .connected) :
    Course env may s (handleUncleanSession env s).2 := by
  by_cases hstoring : env.storing = true
  · refine (Safely.bind (resendAll_safely fun packetId => ?_) fun _ => ?_ :
      Safely env may _) s hs |>.1
    · rw [if_pos hstoring]
      exact resendStored_safely hmay _
    · rw [Prog.when, if_pos hstoring]
      exact resendAll_safely fun packetId => resendStored_safely hmay _
  · refine (Prog.Moves.bind (resendAll_moves fun packetId => ?_) fun _ => ?_ :
      Prog.Moves (Course env may) _) s
    · rw [if_neg hstoring]
      exact sendPublishAcks_course (hmay _ rfl) (hmay _ rfl) (hmay _ rfl) _ _
    · rw [Prog.when, if_neg hstoring]
      exact .pure _

section Connecting

variable {R : Sys W → Sys W → Prop} [IsPreorder (Sys W) R]
  (hopening : ∀ s t, Course env (fun act => act.opening = true) s t → R s t)
  (hestablish : ∀ s t, Piece env .establish s t → R s t)
  (hresuming : ∀ s, s.context.connectStatus = .connected → R s (handleUncleanSession env s).2)

include hopening hestablish hresuming

theorem connectInner_moves (connect : Connect) (timeoutMs : UInt32) (size : PacketSize) {s : Sys W}
    (hs : s.context.connectStatus = .notConnected) :
    R s (connectInner env connect timeoutMs size s).2 := by
  have hmay (act : Act) (h : act.opening = true) : act.opening = true := h
  have hsent := (sendConnect_unopened hmay connect size.remainingLength :
    Prog.Moves (Unopened env _) _) s hs
  refine Prog.rel_bind_of (hopening _ _ hsent.1) ?_
  intro _ t h
  rw [h] at hsent
  have hreceived := (receiveConnack_unopened hmay timeoutMs connect.info.cleanSession :
    Prog.Moves (Unopened env _) _) t hsent.2
  refine Prog.rel_bind_of (hopening _ _ hreceived.1) ?_
  intro _ u h
  rw [h] at hreceived
  have hcapped := (capRecords_unopened hmay : Prog.Moves (Unopened env _) _) u hreceived.2
  refine Prog.rel_bind_of (hopening _ _ hcapped.1) ?_
  intro _ v h
  rw [h] at hcapped
  rw [Prog.get_bind_apply]
  have hcleaned := Prog.Moves.when (c := v.sessionPresent = false)
    (handleCleanSession_unopened hmay : Prog.Moves (Unopened env _) _) v hcapped.2
  refine Prog.rel_bind_of (hopening _ _ hcleaned.1) ?_
  intro _ w h
  rw [h] at hcleaned
  rw [Prog.bind_of_ok (update_apply _ w)]
  have hopened : Piece env .establish w { w with context := { w.context with
      connectStatus := .connected
      keepAliveSeconds := w.context.properties.server.keepAlive
      waitingForPingResp := false
      pingReqSendTime := 0 } } := .establish rfl hcleaned.2 rfl rfl
  refine trans_of R (hestablish _ _ hopened) ?_
  unfold Prog.when
  split_ifs
  · exact hresuming _ rfl
  · exact refl_of R _

theorem connect_moves (options : Connect) (timeoutMs : UInt32) :
    (connect env options timeoutMs).Moves R := by
  have hpiece {act : Act} {s t : Sys W} (h : Piece env act s t) (hact : act.opening = true) :
      R s t := hopening s t (h.course hact)
  have hcheck : (checkConnectProperties options : Client W Unit).Moves R := by
    refine context_moves.bind fun c => .ite ?_ ((check_moves _ _).bind fun found =>
      Prog.Moves.bind ?_ fun _ => refuse_moves _ _)
    · exact fun s => hpiece (.adjust rfl rfl rfl) rfl
    · exact fun s => hpiece (.adjust rfl rfl rfl) rfl
  refine (Prog.Moves.when (check_moves _ _)).bind fun _ => hcheck.bind fun _ => ?_
  intro s
  rw [Prog.bind_of_ok (context_apply s)]
  refine Prog.rel_bind_of (check_moves _ _ s) ?_
  intro size t h
  obtain ⟨-, rfl⟩ := check_eq_ok.mp h
  refine Prog.rel_bind_of (check_moves _ _ t) ?_
  intro _ u h
  obtain ⟨hnot, rfl⟩ := check_eq_ok.mp h
  have hs : u.context.connectStatus = .notConnected := by
    unfold notYetConnected at hnot
    cases hstatus : u.context.connectStatus with
    | notConnected => rfl
    | connected => rw [hstatus] at hnot; cases hnot
    | disconnectPending => rw [hstatus] at hnot; cases hnot
  have hinner : R u (connectInner env { options with
      properties := outgoingSection options (min u.context.network.length u32Max) } timeoutMs size
        u).2 := connectInner_moves hopening hestablish hresuming _ timeoutMs size hs
  rw [← attempt_snd] at hinner
  refine Prog.rel_bind hinner fun _ => (Prog.Moves.when ?_).bind fun _ => check_moves _ _
  exact fun s => hpiece (.lose s) rfl

end Connecting

theorem connect_course (hmay : ∀ act, act.connecting = true → may act) (options : Connect)
    (timeoutMs : UInt32) : (connect env options timeoutMs).Moves (Course env may) := by
  refine connect_moves ?_ ?_ ?_ options timeoutMs
  · exact fun s t h => h.mono fun act hact => hmay act (connecting_of_opening hact)
  · exact fun s t h => h.course (hmay .establish rfl)
  · exact fun s hs =>
      handleUncleanSession_course (fun act hact => hmay act (connecting_of_resuming hact)) hs

end Client

end RtosMqtt
