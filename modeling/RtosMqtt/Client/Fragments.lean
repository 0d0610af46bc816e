import RtosMqtt.Client.Reading
import RtosMqtt.Library.Relational

/-! # Two connects over one stream

Two transports hand over the same stream, each cut in its own way, and are otherwise alike: they
take the same bytes, and their clocks run apart by a time that only reading changes. Then two
connects over them end alike, and each has read the CONNACK and nothing behind it.
-/

namespace RtosMqtt

variable {W W₁ W₂ α : Type}

def Unread (pending : W → List UInt8) (s t : Sys W) : Prop :=
  pending t.world = pending s.world ∧ Logs (fun o => ∀ into outcome, o ≠ .received into outcome) s t

instance (pending : W → List UInt8) : IsPreorder (Sys W) (Unread pending) where
  refl _ := ⟨rfl, refl_of (Logs _) _⟩
  trans _ _ _ h h' := ⟨h'.1.trans h.1, trans_of (Logs _) h.2 h'.2⟩

theorem Unread.grows {pending : W → List UInt8} {s t : Sys W} (h : Unread pending s t) : Grows s t :=
  h.2.mono fun _ _ => trivial

theorem Unread.hears {pending : W → List UInt8} {s t : Sys W} (h : Unread pending s t) {g : Hearing}
    (hempty : g.empty = false) : ∃ g', Hears g s g' t ∧ g'.empty = false := by
  obtain ⟨-, log, ht, hlog⟩ := h
  refine ⟨_, hears_of_log ht, ?_⟩
  clear ht
  induction log generalizing g with
  | nil => exact hempty
  | cons o log ih =>
    apply ih _ fun o ho => hlog o (List.mem_cons_of_mem _ ho)
    cases o with
    | received into outcome => exact absurd rfl (hlog _ List.mem_cons_self into outcome)
    | clock now => simp [Hearing.note, hempty]
    | _ => exact hempty

def Holding (P : W → Prop) (s t : Sys W) : Prop := P s.world → P t.world

instance (P : W → Prop) : IsPreorder (Sys W) (Holding P) where
  refl _ := id
  trans _ _ _ h h' := h' ∘ h

namespace Client

variable (env : Environment W) in
/-- What a connect does with the CONNACK. -/
def resume (cleanSession : Bool) (connack : ConnAck) : Client W Unit := do
  Prog.modify fun s => { s with sessionPresent := connack.sessionPresent }
  update fun c => { c with properties := applyConnack c.properties connack }
  refuse (cleanSession ∧ connack.sessionPresent) .badResponse
  refuse connack.refused .serverRefused
  settle env

theorem connectInner_eq (env : Environment W) (connect : Connect) (timeoutMs : UInt32)
    (size : PacketSize) : connectInner env connect timeoutMs size = (do
      sendConnect env connect size.remainingLength
      let connack ← readConnack env timeoutMs
      resume env connect.info.cleanSession connack) := by
  rw [connectInner]
  simp only [receiveConnack_eq, Prog.bind_assoc]
  rfl

/-- What a connect looks at before it sends anything. -/
def preparing (options : Connect) : Client W (Connect × PacketSize) := do
  Prog.when (options.will.any (·.properties ≠ []))
    (check (fun _ => .badParameter)
      (validateWillProperties ((options.will.map Will.properties).getD [])))
  checkConnectProperties options
  let c ← context
  let size ← check (fun _ => .badParameter) (connectPacketSize (options.outgoing c))
  check id (notYetConnected c)
  pure (options.outgoing c, size)

def closing (p : Client W Unit) : Client W Unit := do
  let outcome ← attempt p
  Prog.when (outcome ≠ .ok ()) connectionLost
  check id outcome

theorem connect_eq (env : Environment W) (options : Connect) (timeoutMs : UInt32) :
    connect env options timeoutMs = (do
      let (options, size) ← preparing options
      closing (connectInner env options timeoutMs size)) := by
  simp only [preparing, Prog.bind_assoc, Prog.pure_bind]
  rfl

theorem closing_apply (p : Client W Unit) (s : Sys W) : closing p s = ((p s).1,
    match (p s).1 with
    | .error (.error _) => (connectionLost (p s).2).2
    | _ => (p s).2) := by
  rcases hp : p s with ⟨(e | _) | ⟨⟩, t⟩
  · have hcaught : attempt p s = (.ok (.error e), t) := by
      rw [attempt, hp]
    rw [closing, Prog.bind_of_ok hcaught, Prog.when_bind_of (by simp)]
    rfl
  · have hcaught : attempt p s = (.error .blocked, t) := by
      rw [attempt, hp]
    rw [closing, Prog.bind_of_error hcaught]
  · have hcaught : attempt p s = (.ok (.ok ()), t) := by
      rw [attempt, hp]
    rw [closing, Prog.bind_of_ok hcaught, Prog.when_bind_of_not (by simp)]
    rfl

theorem closing_fst (p : Client W Unit) (s : Sys W) : (closing p s).1 = (p s).1 := by
  rw [closing_apply]

theorem closing_snd (p : Client W Unit) (s : Sys W) :
    (closing p s).2.world = (p s).2.world ∧ (closing p s).2.log = (p s).2.log := by
  rw [closing_apply]
  rcases (p s).1 with (e | _) | -
  · exact ⟨rfl, rfl⟩
  · exact ⟨rfl, rfl⟩
  · exact ⟨rfl, rfl⟩

theorem hears_closing {h h' : Hearing} {s t : Sys W} {p : Client W Unit} (hears : Hears h s h' (p t).2) :
    Hears h s h' (closing p t).2 := by
  obtain ⟨log, ht, hlog⟩ := hears
  exact ⟨log, (closing_snd p t).2.trans ht, hlog⟩

theorem holding_reads {env : Environment W} {P : W → Prop} (hclock : ∀ w, P w → P (env.nowMs w).2)
    (hrecv : ∀ into w, P w → P (env.recv into w).2) : Reads env (Holding P) :=
  ⟨fun s => hclock s.world, fun into s => hrecv into s.world, fun _ _ => id, fun _ => id⟩

section Unread

variable {env : Environment W} {pending : W → List UInt8} {late : ℕ}

theorem own_unread {p : Client W α} (h : ∀ s, (p s).2.world = s.world ∧ (p s).2.log = s.log) :
    p.Moves (Unread pending) := fun s => ⟨congrArg pending (h s).1, .same (h s).2⟩

theorem preparing_unread (options : Connect) :
    (preparing options : Client W _).Moves (Unread pending) := by
  have hchecks : (checkConnectProperties options : Client W Unit).Moves (Unread pending) :=
    context_moves.bind fun _ => .ite (own_unread fun _ => ⟨rfl, rfl⟩) ((check_moves _ _).bind
      fun _ => Prog.Moves.bind (own_unread fun _ => ⟨rfl, rfl⟩) fun _ => refuse_moves _ _)
  exact (Prog.Moves.when (check_moves _ _)).bind fun _ => hchecks.bind fun _ =>
    context_moves.bind fun _ => (check_moves _ _).bind fun _ => (check_moves _ _).bind fun _ =>
      .pure _

theorem update_unread (f : MqttContext → MqttContext) :
    (update f : Client W Unit).Moves (Unread pending) := own_unread fun _ => ⟨rfl, rfl⟩

theorem onRecords_unread (call : Call) (f : PublishRecords → Except StateError α × PublishRecords) :
    (onRecords call f : Client W _).Moves (Unread pending) := by
  intro s
  cases hr : s.context.records with
  | none =>
    rw [onRecords_none hr]
    exact refl_of (Unread pending) s
  | some r =>
    rw [onRecords_some hr]
    exact ⟨rfl, .one rfl (by simp)⟩

variable (hfeeds : Feeds env pending late)

include hfeeds

theorem nowMs_unread : (nowMs env).Moves (Unread pending) :=
  fun s => ⟨hfeeds.clock s.world, .one rfl (by simp)⟩

theorem passes_unread : Passes env (Unread pending) :=
  ⟨nowMs_unread hfeeds, fun _ => update_unread _, update_unread _⟩

theorem sendBuffer_unread (buffer : List UInt8) : (sendBuffer env buffer).Moves (Unread pending) :=
  sendBuffer_moves (passes_unread hfeeds) fun _ s => ⟨hfeeds.send _ s.world, .one rfl (by simp)⟩

theorem sendVectors_unread (vectors : List (List UInt8)) :
    (sendVectors env vectors).Moves (Unread pending) :=
  sendVectors_moves (passes_unread hfeeds) fun _ _ s => ⟨hfeeds.writev _ s.world, .one rfl (by simp)⟩

theorem sendConnect_unread (connect : Connect) (remainingLength : ℕ) :
    (sendConnect env connect remainingLength).Moves (Unread pending) := by
  dsimp only [sendConnect]
  exact (refuse_moves _ _).bind fun _ => (update_unread _).bind fun _ =>
    (refuse_moves _ _).bind fun _ => (refuse_moves _ _).bind fun _ =>
      (Prog.Moves.when (own_unread fun _ => ⟨rfl, rfl⟩)).bind fun _ =>
        (checks_pushConnect _ _).moves.bind fun _ =>
          (sendVectors_unread hfeeds _).bind fun _ => sentWhole_moves _ _

theorem clearAll_unread (key : UInt16 → UInt32) (ids : List UInt16) :
    (clearAll env key ids).Moves (Unread pending) := by
  induction ids with
  | nil => exact .pure _
  | cons packetId ids ih =>
    refine Prog.Moves.bind ?_ fun _ => ih
    exact fun s => ⟨hfeeds.clear _ s.world, .one rfl (by simp)⟩

theorem handleCleanSession_unread : (handleCleanSession env).Moves (Unread pending) := by
  refine (update_unread _).bind fun _ => context_moves.bind fun c => ?_
  cases c.records with
  | none => exact .pure _
  | some r =>
    exact (Prog.Moves.when (clearAll_unread hfeeds _ _)).bind fun _ =>
      (Prog.Moves.when (clearAll_unread hfeeds _ _)).bind fun _ => update_unread _

theorem resendStored_unread (key : UInt32) : (resendStored env key).Moves (Unread pending) := by
  refine Prog.Moves.bind ?_ fun _ => (orFail_moves _ _).bind fun _ => (refuse_moves _ _).bind
    fun _ => (sendBuffer_unread hfeeds _).bind fun _ => sentWhole_moves _ _
  exact fun s => ⟨hfeeds.retrieve key s.world, .one rfl (by simp)⟩

theorem sendPublishAcks_unread (packetId : UInt16) (state : PublishState) :
    (sendPublishAcks env packetId state).Moves (Unread pending) := by
  unfold sendPublishAcks
  split
  · exact .pure _
  · exact (check_moves _ _).bind fun _ => connected_moves.bind fun _ =>
      (sendBuffer_unread hfeeds _).bind fun _ => (sentWhole_moves _ _).bind fun _ =>
        (update_unread _).bind fun _ => (onRecords_unread _ _).bind fun _ =>
          (accepted_moves _).bind fun _ => .pure _

theorem handleUncleanSession_unread : (handleUncleanSession env).Moves (Unread pending) :=
  (resendAll_moves fun _ => .ite (resendStored_unread hfeeds _)
    (sendPublishAcks_unread hfeeds _ _)).bind fun _ =>
      .when (resendAll_moves fun _ => resendStored_unread hfeeds _)

theorem settle_unread : (settle env).Moves (Unread pending) := by
  refine (update_unread _).bind fun _ => Prog.Moves.get.bind fun s => ?_
  exact (Prog.Moves.when (handleCleanSession_unread hfeeds)).bind fun _ =>
    (update_unread _).bind fun _ => .when (handleUncleanSession_unread hfeeds)

theorem resume_unread (cleanSession : Bool) (connack : ConnAck) :
    (resume env cleanSession connack).Moves (Unread pending) :=
  Prog.Moves.bind (own_unread fun _ => ⟨rfl, rfl⟩) fun _ => (update_unread _).bind fun _ =>
    (refuse_moves _ _).bind fun _ => (refuse_moves _ _).bind fun _ => settle_unread hfeeds

end Unread

end Client

/-- Apart from what they hand over, two environments are alike in worlds that are related: they
answer alike, and one clock is ahead of the other by a time that only reading changes. -/
structure Alike (env₁ : Environment W₁) (env₂ : Environment W₂) (R : UInt32 → W₁ → W₂ → Prop) :
    Prop where
  patience : env₂.patience = env₁.patience
  storing : env₂.storing = env₁.storing
  clock : ∀ {d w w'}, R d w w' → (env₂.nowMs w').1 = (env₁.nowMs w).1 + d ∧
    R d (env₁.nowMs w).2 (env₂.nowMs w').2
  send : ∀ {d w w'} bytes, R d w w' → (env₂.send bytes w').1 = (env₁.send bytes w).1 ∧
    R d (env₁.send bytes w).2 (env₂.send bytes w').2
  writev : ∀ {d w w'} parts, R d w w' → (env₂.writev parts w').1 = (env₁.writev parts w).1 ∧
    R d (env₁.writev parts w).2 (env₂.writev parts w').2
  retrieve : ∀ {d w w'} key, R d w w' → (env₂.retrieve key w').1 = (env₁.retrieve key w).1 ∧
    R d (env₁.retrieve key w).2 (env₂.retrieve key w').2
  clear : ∀ {d w w'} key, R d w w' → R d (env₁.clear key w) (env₂.clear key w')
  clock₁ : ∀ {d w w'}, R d w w' → ∃ d', R d' (env₁.nowMs w).2 w'
  clock₂ : ∀ {d w w'}, R d w w' → ∃ d', R d' w (env₂.nowMs w').2
  recv₁ : ∀ {d w w'} into, R d w w' → ∃ d', R d' (env₁.recv into w).2 w'
  recv₂ : ∀ {d w w'} into, R d w w' → ∃ d', R d' w (env₂.recv into w').2

theorem Alike.storing_iff {env₁ : Environment W₁} {env₂ : Environment W₂}
    {R : UInt32 → W₁ → W₂ → Prop} (h : Alike env₁ env₂ R) :
    env₁.storing = true ↔ env₂.storing = true := by rw [h.storing]

/-- The contexts are one but for the time of the last packet, and the worlds are related. -/
structure Twins (R : UInt32 → W₁ → W₂ → Prop) (d : UInt32) (s : Sys W₁) (t : Sys W₂) : Prop where
  context : ∃ now, t.context = { s.context with lastPacketTxTime := now }
  present : t.sessionPresent = s.sessionPresent
  world : R d s.world t.world

theorem elapsedMs_add (later start d : UInt32) :
    elapsedMs (later + d) (start + d) = elapsedMs later start := by
  unfold elapsedMs
  grind

namespace Client

section Twins

open Prog (Agree agree_get agree_pure agree_throw agree_lift agree_refuse agree_modify agree_answer agree_loop
  agree_get agreed_eq_iff)

variable {env₁ : Environment W₁} {env₂ : Environment W₂} {R : UInt32 → W₁ → W₂ → Prop} {d : UInt32}

theorem context_twins : Agree (Twins R d) (fun c c' => ∃ now, c' = { c with lastPacketTxTime := now })
    (context : Client W₁ MqttContext) (context : Client W₂ MqttContext) :=
  agree_answer fun _ _ h => ⟨h.context, h⟩

theorem update_twins {f g : MqttContext → MqttContext} (h : ∀ c now,
    ∃ now', g { c with lastPacketTxTime := now } = { f c with lastPacketTxTime := now' }) :
    Agree (Twins R d) Eq (update f : Client W₁ Unit) (update g : Client W₂ Unit) := by
  apply agree_modify
  rintro s t ⟨⟨now, hcontext⟩, hpresent, hworld⟩
  refine ⟨?_, hpresent, hworld⟩
  dsimp only
  rw [hcontext]
  exact h s.context now

theorem check_twins {ε : Type} (f : ε → ClientError) (r : Except ε α) :
    Agree (Twins R d) Eq (check f r : Client W₁ α) (check f r : Client W₂ α) :=
  agree_lift (agreed_eq_iff.mpr rfl)

theorem orFail_twins (e : ClientError) (a : Option α) :
    Agree (Twins R d) Eq (orFail e a : Client W₁ α) (orFail e a : Client W₂ α) := by
  cases a with
  | none => exact agree_throw _
  | some a => exact agree_pure rfl

theorem connectionLost_twins :
    Agree (Twins R d) Eq (connectionLost : Client W₁ Unit) (connectionLost : Client W₂ Unit) := by
  apply update_twins
  intro c now
  refine ⟨now, ?_⟩
  dsimp only
  split_ifs
  · rfl
  · rfl

theorem sentWhole_twins (total : ℕ) (outcome : SendOutcome) :
    Agree (Twins R d) Eq (sentWhole total outcome : Client W₁ Unit)
      (sentWhole total outcome : Client W₂ Unit) := agree_refuse _ _

theorem onRecords_twins (call : Call) (f : PublishRecords → Except StateError α × PublishRecords) :
    Agree (Twins R d) Eq (onRecords call f : Client W₁ _) (onRecords call f : Client W₂ _) := by
  apply agree_answer
  rintro s t ⟨⟨now, hcontext⟩, hpresent, hworld⟩
  have hrecords : t.context.records = s.context.records := by rw [hcontext]
  rw [hrecords]
  cases s.context.records with
  | none => exact ⟨rfl, ⟨now, hcontext⟩, hpresent, hworld⟩
  | some r =>
    refine ⟨rfl, ⟨now, ?_⟩, hpresent, hworld⟩
    dsimp only
    rw [hcontext]

theorem accepted_twins (answer : Option (Except StateError α)) :
    Agree (Twins R d) Eq (accepted answer : Client W₁ _) (accepted answer : Client W₂ _) := by
  rcases answer with _ | ⟨e | a⟩
  · exact agree_pure rfl
  · exact agree_throw _
  · exact agree_pure rfl

theorem announce_twins (properties : List UInt8) :
    Agree (Twins R d) Eq (announce properties : Client W₁ Unit) (announce properties : Client W₂ Unit) := by
  rintro s t ⟨⟨now, hcontext⟩, hpresent, hworld⟩
  unfold announce
  rw [hcontext]
  exact ⟨agreed_eq_iff.mpr rfl, ⟨now, rfl⟩, hpresent, hworld⟩

theorem pushConnect_twins (head : List UInt8) (connect : Connect) :
    Agree (Twins R d) Eq (pushConnect head connect : Client W₁ _) (pushConnect head connect) := by
  have hstring (v : ConnectVectors) (body : List UInt8) :
      Agree (Twins R d) Eq (pushString v body : Client W₁ _) (pushString v body) :=
    (agree_refuse _ _).bind_eq fun _ => agree_pure rfl
  have hoption (v : ConnectVectors) (body : Option (List UInt8)) :
      Agree (Twins R d) Eq (pushOption v body : Client W₁ _) (pushOption v body) := by
    cases body with
    | none => exact agree_pure rfl
    | some body => exact hstring v body
  have hwill (v : ConnectVectors) (will : Option Will) :
      Agree (Twins R d) Eq (pushWill v will : Client W₁ _) (pushWill v will) := by
    cases will with
    | none => exact agree_pure rfl
    | some will => exact (hstring _ _).bind_eq fun _ => hstring _ _
  exact (hstring _ _).bind_eq fun _ => (hwill _ _).bind_eq fun _ =>
    (hoption _ _).bind_eq fun _ => hoption _ _

theorem resendAll_twins {next : PublishRecords → ℕ → Option UInt16 × ℕ}
    {resend₁ : UInt16 → Client W₁ Unit} {resend₂ : UInt16 → Client W₂ Unit}
    (h : ∀ packetId, Agree (Twins R d) Eq (resend₁ packetId) (resend₂ packetId)) :
    Agree (Twins R d) Eq (resendAll next resend₁) (resendAll next resend₂) := by
  have hfrom (turns cursor : ℕ) : Agree (Twins R d) Eq (resendFrom next resend₁ turns cursor)
      (resendFrom next resend₂ turns cursor) := by
    induction turns generalizing cursor with
    | zero => exact agree_pure rfl
    | succ turns ih =>
      apply context_twins.bind
      rintro c _ ⟨now, rfl⟩
      dsimp only
      rcases (c.records.map fun r => next r cursor).getD (none, cursor) with
        ⟨_ | packetId, cursor'⟩
      · exact agree_pure rfl
      · exact (h packetId).bind_eq fun _ => ih cursor'
  apply context_twins.bind
  rintro c _ ⟨now, rfl⟩
  exact hfrom _ _

variable (halike : Alike env₁ env₂ R)

include halike

theorem nowMs_twins : Agree (Twins R d) (fun now now' => now' = now + d) (nowMs env₁) (nowMs env₂) :=
  agree_answer fun _ _ h => ⟨(halike.clock h.world).1, h.context, h.present, (halike.clock h.world).2⟩

theorem send_twins (bytes : List UInt8) : Agree (Twins R d) Eq (send env₁ bytes) (send env₂ bytes) :=
  agree_answer fun _ _ h => ⟨(halike.send bytes h.world).1.symm, h.context, h.present,
    (halike.send bytes h.world).2⟩

theorem writev_twins (parts : List (List UInt8)) :
    Agree (Twins R d) Eq (writev env₁ parts) (writev env₂ parts) :=
  agree_answer fun _ _ h => ⟨(halike.writev parts h.world).1.symm, h.context, h.present,
    (halike.writev parts h.world).2⟩

theorem retrieve_twins (key : UInt32) :
    Agree (Twins R d) Eq (retrieve env₁ key) (retrieve env₂ key) :=
  agree_answer fun _ _ h => ⟨(halike.retrieve key h.world).1.symm, h.context, h.present,
    (halike.retrieve key h.world).2⟩

theorem clear_twins (key : UInt32) : Agree (Twins R d) Eq (clear env₁ key) (clear env₂ key) :=
  agree_modify fun _ _ h => ⟨h.context, h.present, halike.clear key h.world⟩

theorem stampTx_twins : Agree (Twins R d) Eq (stampTx env₁) (stampTx env₂) := by
  apply (nowMs_twins halike).bind
  rintro now _ rfl
  exact update_twins fun _ _ => ⟨_, rfl⟩

theorem bufferTurn_twins (buffer : List UInt8) (start : UInt32) (sent : ℕ) :
    Agree (Twins R d) Eq (bufferTurn env₁ buffer start sent)
      (bufferTurn env₂ buffer (start + d) sent) := by
  have hwait (sent : ℕ) : Agree (Twins R d) Eq
      (nowMs env₁ >>= fun now => pure (if sendTimeoutMs ≤ elapsedMs now start then
        .inr (.sent sent) else .inl sent) : Client W₁ (ℕ ⊕ SendOutcome))
      (nowMs env₂ >>= fun now => pure (if sendTimeoutMs ≤ elapsedMs now (start + d) then
        .inr (.sent sent) else .inl sent)) := by
    apply (nowMs_twins halike).bind
    rintro now _ rfl
    rw [elapsedMs_add]
    exact agree_pure rfl
  apply Agree.ite .rfl (agree_pure rfl)
  apply (send_twins halike _).bind_eq
  intro outcome
  cases outcome with
  | failed =>
    apply connectionLost_twins.bind_eq
    intro _
    apply (nowMs_twins halike).bind
    exact fun _ _ _ => agree_pure rfl
  | nothing => exact hwait sent
  | bytes count => exact (stampTx_twins halike).bind_eq fun _ => hwait _

theorem sendBuffer_twins (buffer : List UInt8) :
    Agree (Twins R d) Eq (sendBuffer env₁ buffer) (sendBuffer env₂ buffer) := by
  apply (nowMs_twins halike).bind
  rintro start _ rfl
  rw [halike.patience]
  exact agree_loop (bufferTurn_twins halike buffer start) _ _ _

theorem vectorsTurn_twins (total : ℕ) (start : UInt32) (place : ℕ × List (List UInt8)) :
    Agree (Twins R d) Eq (vectorsTurn env₁ total start place)
      (vectorsTurn env₂ total (start + d) place) := by
  have hwait (next : ℕ × List (List UInt8)) : Agree (Twins R d) Eq
      (nowMs env₁ >>= fun now => pure (if sendTimeoutMs < elapsedMs now start then
        .inr (.sent next.1) else .inl next) : Client W₁ (ℕ × List (List UInt8) ⊕ SendOutcome))
      (nowMs env₂ >>= fun now => pure (if sendTimeoutMs < elapsedMs now (start + d) then
        .inr (.sent next.1) else .inl next)) := by
    apply (nowMs_twins halike).bind
    rintro now _ rfl
    rw [elapsedMs_add]
    exact agree_pure rfl
  apply Agree.ite .rfl (agree_pure rfl)
  apply (writev_twins halike _).bind_eq
  intro outcome
  cases outcome with
  | failed => exact connectionLost_twins.bind_eq fun _ => agree_pure rfl
  | nothing => exact hwait (place.1, advance 0 place.2)
  | bytes count =>
    exact (stampTx_twins halike).bind_eq fun _ => .ite .rfl (hwait (_, _)) (agree_pure rfl)

theorem sendVectors_twins (vectors : List (List UInt8)) :
    Agree (Twins R d) Eq (sendVectors env₁ vectors) (sendVectors env₂ vectors) := by
  apply (nowMs_twins halike).bind
  rintro start _ rfl
  rw [halike.patience]
  exact agree_loop (vectorsTurn_twins halike _ start) _ _ _

theorem sendConnect_twins (connect : Connect) (remainingLength : ℕ) :
    Agree (Twins R d) Eq (sendConnect env₁ connect remainingLength)
      (sendConnect env₂ connect remainingLength) := by
  dsimp only [sendConnect]
  apply (agree_refuse _ _).bind_eq
  intro _
  apply (update_twins fun _ _ => ⟨_, rfl⟩).bind_eq
  intro _
  apply (agree_refuse _ _).bind_eq
  intro _
  apply (agree_refuse _ _).bind_eq
  intro _
  apply (Agree.when .rfl (announce_twins _)).bind_eq
  intro _
  apply (pushConnect_twins _ _).bind_eq
  intro v
  exact (sendVectors_twins halike _).bind_eq fun _ => sentWhole_twins _ _

theorem clearAll_twins (key : UInt16 → UInt32) (ids : List UInt16) :
    Agree (Twins R d) Eq (clearAll env₁ key ids) (clearAll env₂ key ids) := by
  induction ids with
  | nil => exact agree_pure rfl
  | cons packetId ids ih => exact (clear_twins halike _).bind_eq fun _ => ih

theorem handleCleanSession_twins :
    Agree (Twins R d) Eq (handleCleanSession env₁) (handleCleanSession env₂) := by
  unfold handleCleanSession
  apply (update_twins fun _ now => ⟨now, rfl⟩).bind_eq
  intro _
  apply context_twins.bind
  rintro c _ ⟨now, rfl⟩
  dsimp only
  cases c.records with
  | none => exact agree_pure rfl
  | some r =>
    apply (Agree.when halike.storing_iff (clearAll_twins halike _ _)).bind_eq
    intro _
    apply (Agree.when halike.storing_iff (clearAll_twins halike _ _)).bind_eq
    exact fun _ => update_twins fun _ now => ⟨now, rfl⟩

theorem resendStored_twins (key : UInt32) :
    Agree (Twins R d) Eq (resendStored env₁ key) (resendStored env₂ key) := by
  apply (retrieve_twins halike key).bind_eq
  intro packet
  apply (orFail_twins _ _).bind_eq
  intro packet
  apply (agree_refuse _ _).bind_eq
  intro _
  exact (sendBuffer_twins halike _).bind_eq fun _ => sentWhole_twins _ _

theorem sendPublishAcks_twins (packetId : UInt16) (state : PublishState) :
    Agree (Twins R d) Eq (sendPublishAcks env₁ packetId state)
      (sendPublishAcks env₂ packetId state) := by
  unfold sendPublishAcks
  split
  · exact agree_pure rfl
  apply (check_twins _ _).bind_eq
  intro written
  have hconnected :
      Agree (Twins R d) Eq (connected : Client W₁ Unit) (connected : Client W₂ Unit) := by
    apply context_twins.bind
    rintro c _ ⟨now, rfl⟩
    exact check_twins _ _
  apply hconnected.bind_eq
  intro _
  apply (sendBuffer_twins halike _).bind_eq
  intro outcome
  apply (sentWhole_twins _ _).bind_eq
  intro _
  apply (update_twins fun _ now => ⟨now, rfl⟩).bind_eq
  intro _
  apply (onRecords_twins _ _).bind_eq
  intro answer
  exact (accepted_twins answer).bind_eq fun _ => agree_pure rfl

theorem handleUncleanSession_twins :
    Agree (Twins R d) Eq (handleUncleanSession env₁) (handleUncleanSession env₂) := by
  unfold handleUncleanSession
  refine (resendAll_twins fun packetId => ?_).bind_eq fun _ =>
    .when halike.storing_iff (resendAll_twins fun _ => ?_)
  · exact .ite halike.storing_iff (resendStored_twins halike _) (sendPublishAcks_twins halike _ _)
  · exact resendStored_twins halike _

theorem settle_twins : Agree (Twins R d) Eq (settle env₁) (settle env₂) := by
  apply (update_twins fun _ now => ⟨now, rfl⟩).bind_eq
  intro _
  apply agree_get.bind
  intro s t h
  rw [h.present]
  apply (Agree.when .rfl (handleCleanSession_twins halike)).bind_eq
  intro _
  apply (update_twins fun _ now => ⟨now, rfl⟩).bind_eq
  exact fun _ => .when .rfl (handleUncleanSession_twins halike)

theorem resume_twins (cleanSession : Bool) (connack : ConnAck) :
    Agree (Twins R d) Eq (resume env₁ cleanSession connack) (resume env₂ cleanSession connack) := by
  have hpresent : Agree (Twins R d) Eq
      (Prog.modify fun s => { s with sessionPresent := connack.sessionPresent } : Client W₁ Unit)
      (Prog.modify fun s => { s with sessionPresent := connack.sessionPresent }) :=
    agree_modify fun _ _ h => ⟨h.context, rfl, h.world⟩
  apply hpresent.bind_eq
  intro _
  apply (update_twins fun _ now => ⟨now, rfl⟩).bind_eq
  intro _
  apply (agree_refuse _ _).bind_eq
  intro _
  exact (agree_refuse _ _).bind_eq fun _ => settle_twins halike

theorem readConnack_alike (timeoutMs : UInt32) {s : Sys W₁} {t : Sys W₂} (h : R d s.world t.world) :
    ∃ d', R d' (readConnack env₁ timeoutMs s).2.world (readConnack env₂ timeoutMs t).2.world := by
  have h₁ := readConnack_moves (holding_reads (P := fun w => ∃ d, R d w t.world)
    (fun w ⟨_, hw⟩ => halike.clock₁ hw) fun into w ⟨_, hw⟩ => halike.recv₁ into hw)
    timeoutMs s ⟨d, h⟩
  exact readConnack_moves (holding_reads
    (P := fun w => ∃ d, R d (readConnack env₁ timeoutMs s).2.world w)
    (fun w ⟨_, hw⟩ => halike.clock₂ hw) fun into w ⟨_, hw⟩ => halike.recv₂ into hw) timeoutMs t h₁

end Twins

end Client

end RtosMqtt
