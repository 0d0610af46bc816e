import RtosMqtt.Client.Loop
import RtosMqtt.Client.Publish
import RtosMqtt.Client.Session

/-! # What passing bytes leaves alone

The senders and the store touch the connection status and the time of the last
packet, and nothing else of the context: not the records, not the buffers. What
a sender reports sent is what the transport took.
-/

namespace RtosMqtt

namespace Observation

/-- Anything but an event and a change of the records. -/
def isIo : Observation → Bool
  | .event _ _ => false
  | .recorded _ _ _ => false
  | _ => true

def taken : Observation → List UInt8
  | .sent parts (.bytes count) _ => parts.flatten.take count
  | _ => []

end Observation

def wire (log : List Observation) : List UInt8 := log.flatMap Observation.taken

@[simp] theorem wire_nil : wire [] = [] := rfl

@[simp] theorem wire_append (log log' : List Observation) :
    wire (log ++ log') = wire log ++ wire log' := List.flatMap_append

@[simp] theorem wire_singleton (o : Observation) : wire [o] = o.taken := List.flatMap_singleton ..

structure Extends (log log' : List Observation) : Prop where
  exists_io : ∃ io, log' = log ++ io ∧ ∀ o ∈ io, o.isIo = true

theorem Extends.refl (log : List Observation) : Extends log log := ⟨[], by simp⟩

theorem Extends.trans {l l' l'' : List Observation} (h : Extends l l') (h' : Extends l' l'') :
    Extends l l'' := by
  obtain ⟨io, rfl, hio⟩ := h
  obtain ⟨io', rfl, hio'⟩ := h'
  exact ⟨io ++ io', by simp, fun o ho => (List.mem_append.mp ho).elim (hio o) (hio' o)⟩

theorem Extends.note {log : List Observation} {o : Observation} (h : o.isIo = true) :
    Extends log (log ++ [o]) := ⟨[o], rfl, by simpa using h⟩

variable {W : Type}

/-- Bytes passed: the context is the same but for its status and the time of the last packet. -/
structure Io (s t : Sys W) : Prop where
  context : ∃ status now, t.context =
    { s.context with connectStatus := status, lastPacketTxTime := now }
  log : Extends s.log t.log
  sessionPresent : t.sessionPresent = s.sessionPresent

/-- The records and the out-parameter stay, and the log notes only input and output. -/
structure Quiet (s t : Sys W) : Prop where
  records : t.context.records = s.context.records
  log : Extends s.log t.log

/-- The session's limits, the receive buffer and what counts its bytes stay. -/
structure Steady (s t : Sys W) : Prop where
  properties : t.context.properties = s.context.properties
  network : t.context.network = s.context.network
  index : t.context.index = s.context.index
  keepAliveSeconds : t.context.keepAliveSeconds = s.context.keepAliveSeconds
  sessionPresent : t.sessionPresent = s.sessionPresent

instance : IsPreorder (Sys W) Io where
  refl s := ⟨⟨s.context.connectStatus, s.context.lastPacketTxTime, rfl⟩, .refl _, rfl⟩
  trans _ _ _ h h' := by
    obtain ⟨⟨status, now, hc⟩, hl, hp⟩ := h
    obtain ⟨⟨status', now', hc'⟩, hl', hp'⟩ := h'
    exact ⟨⟨status', now', by rw [hc', hc]⟩, hl.trans hl', hp'.trans hp⟩

instance : IsPreorder (Sys W) Quiet where
  refl _ := ⟨rfl, .refl _⟩
  trans _ _ _ h h' := ⟨h'.records.trans h.records, h.log.trans h'.log⟩

instance : IsPreorder (Sys W) Steady where
  refl _ := ⟨rfl, rfl, rfl, rfl, rfl⟩
  trans _ _ _ h h' := ⟨h'.properties.trans h.properties, h'.network.trans h.network,
    h'.index.trans h.index, h'.keepAliveSeconds.trans h.keepAliveSeconds,
    h'.sessionPresent.trans h.sessionPresent⟩

theorem Io.quiet {s t : Sys W} (h : Io s t) : Quiet s t := by
  obtain ⟨⟨status, now, hc⟩, hl, -⟩ := h
  exact ⟨by rw [hc], hl⟩

theorem Io.steady {s t : Sys W} (h : Io s t) : Steady s t := by
  obtain ⟨⟨status, now, hc⟩, -, hp⟩ := h
  exact ⟨by rw [hc], by rw [hc], by rw [hc], by rw [hc], hp⟩

def Logs (P : Observation → Prop) (s t : Sys W) : Prop :=
  ∃ more, t.log = s.log ++ more ∧ ∀ o ∈ more, P o

instance (P : Observation → Prop) : IsPreorder (Sys W) (Logs P) where
  refl s := ⟨[], (List.append_nil _).symm, by simp⟩
  trans _ _ _ h h' := by
    obtain ⟨more, hlog, hmore⟩ := h
    obtain ⟨more', hlog', hmore'⟩ := h'
    refine ⟨more ++ more', by rw [hlog', hlog, List.append_assoc], ?_⟩
    intro o ho
    rcases List.mem_append.mp ho with ho | ho
    · exact hmore o ho
    · exact hmore' o ho

theorem Logs.same {P : Observation → Prop} {s t : Sys W} (h : t.log = s.log) : Logs P s t :=
  ⟨[], by rw [h, List.append_nil], by simp⟩

theorem Logs.one {P : Observation → Prop} {s t : Sys W} {o : Observation}
    (h : t.log = s.log ++ [o]) (ho : P o) : Logs P s t := ⟨[o], h, by simpa using ho⟩

theorem Logs.mono {P Q : Observation → Prop} {s t : Sys W} (h : Logs P s t)
    (hPQ : ∀ o, P o → Q o) : Logs Q s t := by
  obtain ⟨more, hlog, hmore⟩ := h
  exact ⟨more, hlog, fun o ho => hPQ o (hmore o ho)⟩

theorem Quiet.logs {s t : Sys W} (h : Quiet s t) : Logs (fun _ => True) s t := by
  obtain ⟨io, hlog, -⟩ := h.log.exists_io
  exact ⟨io, hlog, fun _ _ => trivial⟩

def Observation.fails : Observation → Bool
  | .received _ .failed | .sent _ .failed _ => true
  | _ => false

/-- Nothing but the receive buffer and the time of the last packet changed, and the transport did
not fail. -/
structure Smooth (s t : Sys W) : Prop where
  context : ∃ network now, network.length = s.context.network.length ∧
    t.context = { s.context with network, lastPacketTxTime := now }
  sessionPresent : t.sessionPresent = s.sessionPresent
  log : Logs (fun o => o.fails = false) s t

instance : IsPreorder (Sys W) Smooth where
  refl s := ⟨⟨_, _, rfl, rfl⟩, rfl, refl_of (Logs _) s⟩
  trans _ _ _ h h' := by
    obtain ⟨⟨network, now, hlength, hc⟩, hp, hl⟩ := h
    obtain ⟨⟨network', now', hlength', hc'⟩, hp', hl'⟩ := h'
    refine ⟨⟨network', now', hlength'.trans ?_, by rw [hc', hc]⟩, hp'.trans hp,
      trans_of (Logs _) hl hl'⟩
    rw [hc]
    exact hlength

structure Still (s t : Sys W) : Prop where
  status : t.context.connectStatus = s.context.connectStatus
  properties : t.context.properties = s.context.properties

instance : IsPreorder (Sys W) Still where
  refl _ := ⟨rfl, rfl⟩
  trans _ _ _ h h' := ⟨h'.status.trans h.status, h'.properties.trans h.properties⟩

theorem Still.standing {s t : Sys W} (h : Still s t) : t.context.standing = s.context.standing := by
  rw [MqttContext.standing, h.status, h.properties]
  rfl

theorem Smooth.still {s t : Sys W} (h : Smooth s t) : Still s t := by
  obtain ⟨⟨network, now, -, hc⟩, -, -⟩ := h
  exact ⟨by rw [hc], by rw [hc]⟩

namespace Client

variable {α ε : Type} {R : Sys W → Sys W → Prop} (env : Environment W)

section Parts

variable [IsPreorder (Sys W) R]

theorem context_moves : (context : Client W MqttContext).Moves R := fun s => refl_of R s

theorem fail_moves (e : ClientError) : (fail e : Client W α).Moves R := Prog.Moves.throw _

theorem refuse_moves (c : Prop) [Decidable c] (e : ClientError) :
    (refuse c e : Client W Unit).Moves R := Prog.Moves.refuse _ _

theorem check_moves (f : ε → ClientError) (r : Except ε α) :
    (check f r : Client W α).Moves R := Prog.Moves.lift _

theorem orFail_moves (e : ClientError) (a : Option α) : (orFail e a : Client W α).Moves R := by
  cases a with
  | none => exact fail_moves e
  | some a => exact Prog.Moves.pure a

theorem connected_moves : (connected : Client W Unit).Moves R :=
  context_moves.bind fun _ => check_moves _ _

theorem accepted_moves (a : Option (Except StateError α)) :
    (accepted a : Client W (Option α)).Moves R := by
  match a with
  | none => exact Prog.Moves.pure _
  | some (.ok a) => exact Prog.Moves.pure _
  | some (.error e) => exact fail_moves _

theorem sentWhole_moves (total : ℕ) (outcome : SendOutcome) :
    (sentWhole total outcome : Client W Unit).Moves R := refuse_moves _ _

theorem receivedState_moves (answer : Option (Except StateError PublishState)) (qos : QoS) :
    (receivedState answer qos : Client W _).Moves R := by
  unfold receivedState
  split
  · exact .pure _
  · exact .pure _
  · exact .pure _
  · exact fail_moves _

theorem checkSectionLength_moves :
    (checkSectionLength : Client W Unit).Moves R :=
  context_moves.bind fun _ => refuse_moves _ _

omit [IsPreorder (Sys W) R] in
theorem attempt_moves {p : Client W α} (h : p.Moves R) : (attempt p).Moves R := by
  intro s
  have hs := h s
  unfold attempt
  rcases hp : p s with ⟨(_ | _) | _, t⟩ <;> rw [hp] at hs <;> exact hs

end Parts

section Peel

variable {β : Type} {f : ε → ClientError} {r : Except ε α} {e : ClientError} {a : α} {o : Option α}
  {g : α → Client W β} {s t : Sys W}

theorem check_bind_of_ok (h : r = .ok a) : (check f r : Client W α) >>= g = g a := by rw [h]; rfl

theorem check_bind_of_error {x : ε} (h : r = .error x) :
    (check f r : Client W α) >>= g = fail (f x) := by rw [h]; rfl

theorem orFail_bind_of_some (h : o = some a) : (orFail e o : Client W α) >>= g = g a := by
  rw [h]; rfl

theorem orFail_bind_of_none (h : o = none) : (orFail e o : Client W α) >>= g = fail e := by
  rw [h]; rfl

theorem check_eq_ok : check f r s = (.ok a, t) ↔ r = .ok a ∧ t = s := by
  cases r <;> simp [check, Except.mapError, eq_comm]

theorem connected_eq_ok {c : MqttContext} : c.connected = .ok () ↔ c.connectStatus = .connected := by
  unfold MqttContext.connected
  cases c.connectStatus <;> simp

theorem connected_run_eq_ok {s t : Sys W} {a : Unit} :
    connected s = (.ok a, t) ↔ s.context.connectStatus = .connected ∧ t = s := by
  have hcontext : (context : Client W MqttContext) s = (.ok s.context, s) := rfl
  rw [connected, Prog.bind_of_ok hcontext, check_eq_ok, connected_eq_ok]

theorem orFail_eq_ok : orFail e o s = (.ok a, t) ↔ o = some a ∧ t = s := by
  cases o <;> simp [orFail, fail, eq_comm]

theorem sentWhole_eq_ok {total : ℕ} {outcome : SendOutcome} :
    sentWhole total outcome s = (.ok (), t) ↔ outcome = .sent total ∧ t = s := by
  rw [sentWhole, Client.refuse, Prog.refuse_apply]
  split_ifs with h <;> simp_all [eq_comm]

end Peel

def Refuses (p : Client W α) (s : Sys W) : Prop := ∃ e, p s = (.error (.error e), s)

theorem Refuses.snd {p : Client W α} {s : Sys W} (h : Refuses p s) : (p s).2 = s := by
  obtain ⟨e, he⟩ := h
  rw [he]

def Checks (p : Client W α) : Prop := ∀ s, Refuses p s ∨ ∃ a, p s = (.ok a, s)

section Checks

variable {β : Type} {p : Client W α}

theorem Checks.moves [IsPreorder (Sys W) R] (h : Checks p) : p.Moves R := by
  intro s
  rcases h s with ⟨e, he⟩ | ⟨a, ha⟩
  · rw [he]
    exact refl_of R s
  · rw [ha]
    exact refl_of R s

theorem Checks.same (h : Checks p) {a : α} {s t : Sys W} (hp : p s = (.ok a, t)) : t = s := by
  rcases h s with ⟨e, he⟩ | ⟨b, hb⟩
  · rw [he] at hp
    cases hp
  · rw [hb] at hp
    exact (Prod.mk.inj hp).2.symm

theorem Checks.bind_cases (h : Checks p) (f : α → Client W β) (s : Sys W) :
    Refuses (p >>= f) s ∨ ∃ a, p s = (.ok a, s) ∧ (p >>= f) s = f a s := by
  rcases h s with ⟨e, he⟩ | ⟨a, ha⟩
  · exact .inl ⟨e, Prog.bind_of_error he⟩
  · exact .inr ⟨a, ha, Prog.bind_of_ok ha⟩

theorem Checks.bind {f : α → Client W β} (hp : Checks p) (hf : ∀ a, Checks (f a)) :
    Checks (p >>= f) := by
  intro s
  rcases hp.bind_cases f s with hrefused | ⟨a, -, heq⟩
  · exact .inl hrefused
  · rw [Refuses, heq]
    exact hf a s

theorem checks_context : Checks (context : Client W MqttContext) := fun _ => .inr ⟨_, rfl⟩

theorem checks_check (f : ε → ClientError) (r : Except ε α) : Checks (check f r : Client W α) := by
  intro s
  cases r with
  | error e => exact .inl ⟨f e, rfl⟩
  | ok a => exact .inr ⟨a, rfl⟩

theorem checks_refuse (c : Prop) [Decidable c] (e : ClientError) :
    Checks (refuse c e : Client W Unit) := by
  intro s
  rw [Refuses, Client.refuse, Prog.refuse_apply]
  split_ifs
  · exact .inl ⟨e, rfl⟩
  · exact .inr ⟨(), rfl⟩

theorem checks_connected : Checks (connected : Client W Unit) :=
  checks_context.bind fun _ => checks_check _ _

theorem Checks.when {c : Prop} [Decidable c] {p : Client W Unit} (h : Checks p) :
    Checks (Prog.when c p) := by
  unfold Prog.when
  split_ifs
  · exact h
  · exact fun s => .inr ⟨(), rfl⟩

def willParts (will : Will) : List (List UInt8) :=
  sectionParts will.properties ++ (stringParts will.topicName ++ stringParts will.payload)

def connectParts (connect : Connect) : List (List UInt8) :=
  sectionParts connect.properties ++ (stringParts connect.clientIdentifier ++
    (connect.will.elim [] willParts ++ (connect.info.username.elim [] stringParts ++
      connect.info.password.elim [] stringParts)))

theorem length_stringParts_le (body : List UInt8) : (stringParts body).length ≤ 2 := by
  unfold stringParts
  split_ifs
  · exact Nat.le_succ 1
  · exact le_rfl

theorem length_sectionParts_le (properties : List UInt8) : (sectionParts properties).length ≤ 2 := by
  unfold sectionParts
  split_ifs
  · exact Nat.le_succ 1
  · exact le_rfl

theorem length_connectParts (connect : Connect) :
    (connectParts connect).length + 1 ≤ maxConnectVectors := by
  have hproperties := length_sectionParts_le connect.properties
  have hidentifier := length_stringParts_le connect.clientIdentifier
  have hwill : (connect.will.elim [] willParts).length ≤ 6 := by
    cases connect.will with
    | none => exact Nat.zero_le _
    | some will =>
      have hsection := length_sectionParts_le will.properties
      have htopic := length_stringParts_le will.topicName
      have hpayload := length_stringParts_le will.payload
      rw [Option.elim_some, willParts, List.length_append, List.length_append]
      omega
  have hoption (body : Option (List UInt8)) : (body.elim [] stringParts).length ≤ 2 := by
    cases body with
    | none => exact Nat.zero_le _
    | some body => exact length_stringParts_le body
  have husername := hoption connect.info.username
  have hpassword := hoption connect.info.password
  rw [connectParts, maxConnectVectors]
  simp only [List.length_append]
  omega

theorem checks_pushString (v : ConnectVectors) (body : List UInt8) :
    Checks (pushString v body : Client W _) :=
  (checks_refuse _ _).bind fun _ _ => .inr ⟨_, rfl⟩

theorem pushString_eq_ok {v v' : ConnectVectors} {body : List UInt8} {s t : Sys W}
    (h : pushString v body s = (.ok v', t)) : v' = v.pushAll (stringParts body) := by
  rw [pushString, Client.refuse, Prog.refuse_bind_eq_ok] at h
  exact (Except.ok.inj (Prod.mk.inj h.2).1).symm

theorem checks_pushWill (v : ConnectVectors) (will : Option Will) :
    Checks (pushWill v will : Client W _) := by
  cases will with
  | none => exact fun s => .inr ⟨v, rfl⟩
  | some will => exact (checks_pushString _ _).bind fun _ => checks_pushString _ _

theorem pushWill_eq_ok {v v' : ConnectVectors} {will : Option Will} {s t : Sys W}
    (h : pushWill v will s = (.ok v', t)) : v' = v.pushAll (will.elim [] willParts) := by
  cases will with
  | none => exact (Except.ok.inj (Prod.mk.inj h).1).symm
  | some will =>
    obtain ⟨topic, u, htopic, hpayload⟩ := Prog.bind_eq_ok.mp h
    rw [pushString_eq_ok hpayload, pushString_eq_ok htopic, Option.elim_some, willParts,
      ConnectVectors.pushAll_append, ConnectVectors.pushAll_append]

theorem checks_pushOption (v : ConnectVectors) (body : Option (List UInt8)) :
    Checks (pushOption v body : Client W _) := by
  cases body with
  | none => exact fun s => .inr ⟨v, rfl⟩
  | some body => exact checks_pushString _ _

theorem pushOption_eq_ok {v v' : ConnectVectors} {body : Option (List UInt8)} {s t : Sys W}
    (h : pushOption v body s = (.ok v', t)) : v' = v.pushAll (body.elim [] stringParts) := by
  cases body with
  | none => exact (Except.ok.inj (Prod.mk.inj h).1).symm
  | some body => exact pushString_eq_ok h

theorem checks_pushConnect (head : List UInt8) (connect : Connect) :
    Checks (pushConnect head connect : Client W _) :=
  (checks_pushString _ _).bind fun _ => (checks_pushWill _ _).bind fun _ =>
    (checks_pushOption _ _).bind fun _ => checks_pushOption _ _

theorem pushConnect_eq_ok {head : List UInt8} {connect : Connect} {v : ConnectVectors} {s t : Sys W}
    (h : pushConnect head connect s = (.ok v, t)) : v.parts = head :: connectParts connect := by
  rw [pushConnect] at h
  obtain ⟨first, u, hfirst, h⟩ := Prog.bind_eq_ok.mp h
  obtain ⟨second, w, hsecond, h⟩ := Prog.bind_eq_ok.mp h
  obtain ⟨third, x, hthird, hlast⟩ := Prog.bind_eq_ok.mp h
  have hroom : ConnectVectors.empty.parts.length + (head :: connectParts connect).length ≤
      maxConnectVectors := by
    rw [List.length_cons]
    exact (Nat.zero_add _).trans_le (length_connectParts connect)
  rw [pushOption_eq_ok hlast, pushOption_eq_ok hthird, pushWill_eq_ok hsecond,
    pushString_eq_ok hfirst, ← ConnectVectors.pushAll_append, ← ConnectVectors.pushAll_append,
    ← ConnectVectors.pushAll_append, ← ConnectVectors.pushAll_append, List.cons_append,
    ← connectParts, ConnectVectors.parts_pushAll hroom]
  rfl

end Checks

section Attempt

variable {p : Client W α} {s t : Sys W}

theorem attempt_snd : (attempt p s).2 = (p s).2 := by
  unfold attempt
  rcases p s with ⟨(_ | _) | _, t⟩
  · rfl
  · rfl
  · rfl

theorem attempt_eq_ok {r : Except ClientError α}
    (h : attempt p s = (.ok r, t)) : p s = (r.mapError Stop.error, t) := by
  unfold attempt at h
  rcases hp : p s with ⟨(e | _) | a, u⟩ <;> rw [hp] at h
  · obtain ⟨hr, rfl⟩ := Prod.mk.inj h
    rw [← Except.ok.inj hr]
    rfl
  · cases h
  · obtain ⟨hr, rfl⟩ := Prod.mk.inj h
    rw [← Except.ok.inj hr]
    rfl

theorem attempt_eq_error {stop : Stop}
    (h : attempt p s = (.error stop, t)) : stop = .blocked := by
  unfold attempt at h
  rcases hp : p s with ⟨(_ | _) | _, u⟩ <;> rw [hp] at h
  · cases h
  · exact (Except.error.inj (Prod.mk.inj h).1).symm
  · cases h

end Attempt

section Records

variable {call : Call} {f : PublishRecords → Except StateError α × PublishRecords} {s : Sys W}

theorem onRecords_none (h : s.context.records = none) : onRecords call f s = (.ok none, s) := by
  simp [onRecords, h]

theorem onRecords_some {r : PublishRecords} (h : s.context.records = some r) :
    onRecords call f s = (.ok (some (f r).1),
      { s with
        context := { s.context with records := some (f r).2 }
        log := s.log ++ [.recorded r call ((f r).1.map fun _ => ())] }) := by
  simp [onRecords, h]

theorem onRecords_frame (call : Call) (f : PublishRecords → Except StateError α × PublishRecords)
    (s : Sys W) : (onRecords call f s).2.world = s.world ∧
      (onRecords call f s).2.context = { s.context with
        records := (onRecords call f s).2.context.records } := by
  cases hr : s.context.records with
  | none => rw [onRecords_none hr]; exact ⟨rfl, rfl⟩
  | some r => rw [onRecords_some hr]; exact ⟨rfl, rfl⟩

end Records

theorem dispatch_log (e : Event) (wantsReply : Bool) (s : Sys W) : ∃ accepted,
    (dispatch env e wantsReply s).2.log = s.log ++ [.event e accepted] ∧
      (dispatch env e wantsReply s).2.context.records = s.context.records := ⟨_, rfl, rfl⟩

theorem update_io {f : MqttContext → MqttContext}
    (h : ∀ c, ∃ status now, f c = { c with connectStatus := status, lastPacketTxTime := now }) :
    (update f : Client W Unit).Moves Io := fun s => ⟨h s.context, .refl _, rfl⟩

theorem nowMs_io : (nowMs env).Moves Io := fun _ => ⟨⟨_, _, rfl⟩, .note rfl, rfl⟩

theorem recv_io (into : List UInt8) : (recv env into).Moves Io :=
  fun _ => ⟨⟨_, _, rfl⟩, .note rfl, rfl⟩

theorem send_io (bytes : List UInt8) : (send env bytes).Moves Io :=
  fun _ => ⟨⟨_, _, rfl⟩, .note rfl, rfl⟩

theorem writev_io (parts : List (List UInt8)) : (writev env parts).Moves Io :=
  fun _ => ⟨⟨_, _, rfl⟩, .note rfl, rfl⟩

theorem store_io (key : UInt32) (parts : List (List UInt8)) : (store env key parts).Moves Io :=
  fun _ => ⟨⟨_, _, rfl⟩, .note rfl, rfl⟩

theorem retrieve_io (key : UInt32) : (retrieve env key).Moves Io :=
  fun _ => ⟨⟨_, _, rfl⟩, .note rfl, rfl⟩

theorem clear_io (key : UInt32) : (clear env key).Moves Io :=
  fun _ => ⟨⟨_, _, rfl⟩, .note rfl, rfl⟩

theorem connectionLost_io : (connectionLost : Client W Unit).Moves Io :=
  update_io fun c => by split_ifs <;> exact ⟨_, _, rfl⟩

theorem clearStored_io (key : UInt32) : (clearStored env key).Moves Io :=
  .ite (clear_io env key) (.pure _)

theorem keep_io (key : UInt32) (parts : List (List UInt8)) : (keep env key parts).Moves Io :=
  .ite ((store_io env key parts).bind fun _ => refuse_moves _ _) (.pure _)

theorem keepAck_io (packetType : UInt8) (packetId : UInt16) (parts : List (List UInt8)) :
    (keepAck env packetType packetId parts).Moves Io := .when (keep_io env _ _)

theorem flatten_advance (taken : ℕ) (parts : List (List UInt8)) :
    (advance taken parts).flatten = parts.flatten.drop taken := by
  induction parts generalizing taken with
  | nil => simp [advance]
  | cons part rest ih =>
    rw [advance]
    split_ifs with hlt
    · rw [List.flatten_cons, List.flatten_cons, List.drop_append_of_le_length hlt.le]
    · rw [ih, List.flatten_cons, List.drop_append, List.drop_eq_nil_of_le (Nat.le_of_not_lt hlt),
        List.nil_append]

/-- Reading the clock, noting the time of a packet and losing a connection keep a relation. -/
structure Passes (R : Sys W → Sys W → Prop) : Prop where
  clock : (nowMs env).Moves R
  stamp : ∀ now, (update fun c => { c with lastPacketTxTime := now } : Client W Unit).Moves R
  lost : (connectionLost : Client W Unit).Moves R

variable {env}

section Passes

variable [IsPreorder (Sys W) R]

theorem Passes.stampTx (h : Passes env R) : (stampTx env).Moves R := h.clock.bind fun _ => h.stamp _

theorem bufferTurn_moves {buffer : List UInt8} (h : Passes env R) (start : UInt32) {sent : ℕ}
    (hsend : (send env (buffer.drop sent)).Moves R) : (bufferTurn env buffer start sent).Moves R := by
  refine .ite (.pure _) (hsend.bind fun outcome => ?_)
  cases outcome with
  | failed => exact h.lost.bind fun _ => h.clock.bind fun _ => .pure _
  | nothing => exact h.clock.bind fun _ => .pure _
  | bytes count => exact h.stampTx.bind fun _ => h.clock.bind fun _ => .pure _

theorem sendBuffer_moves {buffer : List UInt8} (h : Passes env R)
    (hsend : ∀ sent, (send env (buffer.drop sent)).Moves R) : (sendBuffer env buffer).Moves R :=
  h.clock.bind fun start => .loop (fun sent _ => bufferTurn_moves h start (hsend sent))
    (fun _ _ _ _ _ _ => trivial) trivial env.patience

theorem vectorsTurn_moves {place : ℕ × List (List UInt8)} (h : Passes env R) (total : ℕ)
    (start : UInt32) (hwritev : (writev env place.2).Moves R) :
    (vectorsTurn env total start place).Moves R := by
  refine .ite (.pure _) (hwritev.bind fun outcome => ?_)
  cases outcome with
  | failed => exact h.lost.bind fun _ => .pure _
  | nothing => exact h.clock.bind fun _ => .pure _
  | bytes count => exact h.stampTx.bind fun _ => .ite (h.clock.bind fun _ => .pure _) (.pure _)

omit [IsPreorder (Sys W) R] in
theorem advance_of_vectorsTurn {total : ℕ} {start : UInt32} {place place' : ℕ × List (List UInt8)}
    {s t : Sys W} (h : vectorsTurn env total start place s = (.ok (.inl place'), t)) :
    ∃ taken, place'.2 = advance taken place.2 := by
  rw [vectorsTurn] at h
  split_ifs at h
  · cases h
  obtain ⟨outcome, u, -, h⟩ := Prog.bind_eq_ok.mp h
  cases outcome with
  | failed => cases h
  | nothing =>
    obtain ⟨now, v, -, h⟩ := Prog.bind_eq_ok.mp h
    obtain ⟨hplace, -⟩ := Prod.mk.inj h
    split_ifs at hplace
    · cases hplace
    · cases hplace
      exact ⟨0, rfl⟩
  | bytes count =>
    obtain ⟨_, v, -, h⟩ := Prog.bind_eq_ok.mp h
    split_ifs at h
    · obtain ⟨now, w, -, h⟩ := Prog.bind_eq_ok.mp h
      obtain ⟨hplace, -⟩ := Prod.mk.inj h
      split_ifs at hplace
      · cases hplace
      · cases hplace
        exact ⟨_, rfl⟩
    · cases h

theorem vectorsLoop_moves {packet : List UInt8} (h : Passes env R)
    (hwritev : ∀ parts, parts.flatten <:+ packet → (writev env parts).Moves R) (total : ℕ)
    (start : UInt32) (turns sent : ℕ) {outstanding : List (List UInt8)}
    (htail : outstanding.flatten <:+ packet) :
    (Prog.loop (vectorsTurn env total start) .blocked turns (sent, outstanding)).Moves R := by
  refine .loop (I := fun place => place.2.flatten <:+ packet) ?_ ?_ htail turns
  · exact fun place hplace => vectorsTurn_moves h total start (hwritev place.2 hplace)
  · intro place s place' t hplace hturn
    obtain ⟨taken, htaken⟩ := advance_of_vectorsTurn hturn
    rw [htaken, flatten_advance]
    exact (List.drop_suffix _ _).trans hplace

theorem sendVectors_moves {vectors : List (List UInt8)} (h : Passes env R)
    (hwritev : ∀ parts, parts.flatten <:+ vectors.flatten → (writev env parts).Moves R) :
    (sendVectors env vectors).Moves R :=
  h.clock.bind fun _ => vectorsLoop_moves h hwritev _ _ _ _ List.suffix_rfl

end Passes

variable (env)

theorem passes_io : Passes env Io := ⟨nowMs_io env, fun _ _ => ⟨⟨_, _, rfl⟩, .refl _, rfl⟩,
  connectionLost_io⟩

theorem sendBuffer_io (buffer : List UInt8) : (sendBuffer env buffer).Moves Io :=
  sendBuffer_moves (passes_io env) fun _ => send_io env _

theorem sendVectors_io (vectors : List (List UInt8)) : (sendVectors env vectors).Moves Io :=
  sendVectors_moves (passes_io env) fun _ _ => writev_io env _

theorem resendStored_io (key : UInt32) : (resendStored env key).Moves Io :=
  (retrieve_io env key).bind fun _ => (orFail_moves _ _).bind fun _ =>
    (refuse_moves _ _).bind fun _ => (sendBuffer_io env _).bind fun _ => sentWhole_moves _ _

/-- Bytes went out while nothing but input and output was noted. -/
def WentOut (bytes : List UInt8) (log log' : List Observation) : Prop :=
  ∃ io, log' = log ++ io ∧ (∀ o ∈ io, o.isIo = true) ∧ wire io = bytes

section WentOut

variable {bytes bytes' : List UInt8} {l l' l'' : List Observation}

theorem WentOut.nothing : WentOut [] l l := ⟨[], by simp, by simp, rfl⟩

theorem WentOut.note {o : Observation} (ho : o.isIo = true) : WentOut o.taken l (l ++ [o]) :=
  ⟨[o], rfl, by simpa using ho, by simp⟩

theorem WentOut.trans (h : WentOut bytes l l') (h' : WentOut bytes' l' l'') :
    WentOut (bytes ++ bytes') l l'' := by
  obtain ⟨io, rfl, hio, rfl⟩ := h
  obtain ⟨io', rfl, hio', rfl⟩ := h'
  exact ⟨io ++ io', by rw [List.append_assoc],
    fun o ho => (List.mem_append.mp ho).elim (hio o) (hio' o), wire_append _ _⟩

theorem WentOut.clock {now : UInt32} (h : WentOut bytes (l ++ [.clock now]) l') :
    WentOut bytes l l' := (WentOut.note (o := .clock now) rfl).trans h

theorem WentOut.untaken {parts : List (List UInt8)} {standing : Standing}
    (h : WentOut bytes (l ++ [.sent parts .nothing standing]) l') : WentOut bytes l l' :=
  (WentOut.note (o := .sent parts .nothing standing) rfl).trans h

theorem WentOut.stop (h : WentOut bytes l l') (h' : WentOut [] l' l'') : WentOut bytes l l'' := by
  have := h.trans h'
  rwa [List.append_nil] at this

end WentOut

@[simp] theorem nowMs_apply (s : Sys W) :
    nowMs env s = (.ok (env.nowMs s.world).1,
      { s with world := (env.nowMs s.world).2, log := s.log ++ [.clock (env.nowMs s.world).1] }) :=
  rfl

@[simp] theorem send_apply (bytes : List UInt8) (s : Sys W) :
    send env bytes s = (.ok (env.send bytes s.world).1,
      { s with world := (env.send bytes s.world).2
               log := s.log ++
                 [.sent [bytes] (env.send bytes s.world).1 s.context.standing] }) := rfl

@[simp] theorem writev_apply (parts : List (List UInt8)) (s : Sys W) :
    writev env parts s = (.ok (env.writev parts s.world).1,
      { s with world := (env.writev parts s.world).2
               log := s.log ++
                 [.sent parts (env.writev parts s.world).1 s.context.standing] }) := rfl

@[simp] theorem store_apply (key : UInt32) (parts : List (List UInt8)) (s : Sys W) :
    store env key parts s = (.ok (env.store key parts s.world).1,
      { s with world := (env.store key parts s.world).2
               log := s.log ++ [.stored key parts (env.store key parts s.world).1] }) := rfl

@[simp] theorem update_apply (f : MqttContext → MqttContext) (s : Sys W) :
    (update f : Client W Unit) s = (.ok (), { s with context := f s.context }) := rfl

@[simp] theorem context_apply (s : Sys W) :
    (context : Client W MqttContext) s = (.ok s.context, s) := rfl

@[simp] theorem stampTx_apply (s : Sys W) :
    stampTx env s = (.ok (),
      { s with context := { s.context with lastPacketTxTime := (env.nowMs s.world).1 }
               world := (env.nowMs s.world).2
               log := s.log ++ [.clock (env.nowMs s.world).1] }) := rfl

variable {env} in
theorem of_send {bytes : List UInt8} {outcome : Sent} {s t : Sys W}
    (h : send env bytes s = (.ok outcome, t)) :
    t = { s with world := (env.send bytes s.world).2
                 log := s.log ++ [.sent [bytes] outcome s.context.standing] } := by
  obtain ⟨houtcome, rfl⟩ := Prod.mk.inj h
  rw [← Except.ok.inj houtcome]

variable {env} in
theorem of_writev {parts : List (List UInt8)} {outcome : Sent} {s t : Sys W}
    (h : writev env parts s = (.ok outcome, t)) :
    t = { s with world := (env.writev parts s.world).2
                 log := s.log ++ [.sent parts outcome s.context.standing] } := by
  obtain ⟨houtcome, rfl⟩ := Prod.mk.inj h
  rw [← Except.ok.inj houtcome]

/-- Everything that one turn of `send_buffer` can do. -/
inductive BufferTurned (buffer : List UInt8) (start : UInt32) (sent : ℕ) (s : Sys W) :
    Except Stop (ℕ ⊕ SendOutcome) × Sys W → Prop
  | whole (hlen : buffer.length ≤ sent) :
      BufferTurned buffer start sent s (.ok (.inr (.sent sent)), s)
  | failed {u : Sys W} (hlen : sent < buffer.length)
      (hsend : send env (buffer.drop sent) s = (.ok .failed, u)) :
      BufferTurned buffer start sent s
        (.ok (.inr .failed), (nowMs env (connectionLost u).2).2)
  | nothing {u : Sys W} (hlen : sent < buffer.length)
      (hsend : send env (buffer.drop sent) s = (.ok .nothing, u)) :
      BufferTurned buffer start sent s
        (.ok (if sendTimeoutMs ≤ elapsedMs (env.nowMs u.world).1 start then .inr (.sent sent)
          else .inl sent), (nowMs env u).2)
  | bytes {u : Sys W} {count n : ℕ} (hlen : sent < buffer.length)
      (hsend : send env (buffer.drop sent) s = (.ok (.bytes count), u))
      (hn : n = sent + min count (buffer.length - sent)) :
      BufferTurned buffer start sent s
        (.ok (if sendTimeoutMs ≤ elapsedMs (env.nowMs (stampTx env u).2.world).1 start then
          .inr (.sent n) else .inl n), (nowMs env (stampTx env u).2).2)

theorem bufferTurn_cases (buffer : List UInt8) (start : UInt32) (sent : ℕ) (s : Sys W) :
    BufferTurned env buffer start sent s (bufferTurn env buffer start sent s) := by
  rw [bufferTurn]
  by_cases hlen : buffer.length ≤ sent
  · rw [if_pos hlen]
    exact .whole hlen
  rcases hsend : send env (buffer.drop sent) s with ⟨e | outcome, u⟩
  · cases hsend
  rw [if_neg hlen, Prog.bind_of_ok hsend]
  have hless := Nat.not_le.mp hlen
  cases outcome with
  | failed => exact .failed hless hsend
  | nothing => exact .nothing hless hsend
  | bytes count => exact .bytes hless hsend (by rw [List.length_drop])

/-- Everything that one turn of `send_vectors` can do. -/
inductive VectorsTurned (total : ℕ) (start : UInt32) (place : ℕ × List (List UInt8)) (s : Sys W) :
    Except Stop (ℕ × List (List UInt8) ⊕ SendOutcome) × Sys W → Prop
  | whole (hlen : total ≤ place.1 ∨ place.2 = []) :
      VectorsTurned total start place s (.ok (.inr (.sent place.1)), s)
  | failed {u : Sys W} (hlen : place.1 < total)
      (hsend : writev env place.2 s = (.ok .failed, u)) :
      VectorsTurned total start place s
        (.ok (.inr .failed), (connectionLost u).2)
  | nothing {u : Sys W} (hlen : place.1 < total)
      (hsend : writev env place.2 s = (.ok .nothing, u)) :
      VectorsTurned total start place s
        (.ok (if sendTimeoutMs < elapsedMs (env.nowMs u.world).1 start then .inr (.sent place.1)
          else .inl (place.1, advance 0 place.2)), (nowMs env u).2)
  | bytes {u : Sys W} {count taken : ℕ} (hless : place.1 + taken < total)
      (hsend : writev env place.2 s = (.ok (.bytes count), u))
      (htaken : taken = min count (total - place.1)) :
      VectorsTurned total start place s
        (.ok (if sendTimeoutMs < elapsedMs (env.nowMs (stampTx env u).2.world).1 start then
          .inr (.sent (place.1 + taken)) else .inl (place.1 + taken, advance taken place.2)),
          (nowMs env (stampTx env u).2).2)
  | last {u : Sys W} {count taken : ℕ} (hlen : place.1 < total) (hless : ¬ place.1 + taken < total)
      (hsend : writev env place.2 s = (.ok (.bytes count), u))
      (htaken : taken = min count (total - place.1)) :
      VectorsTurned total start place s (.ok (.inr (.sent (place.1 + taken))), (stampTx env u).2)

theorem vectorsTurn_cases (total : ℕ) (start : UInt32) (place : ℕ × List (List UInt8))
    (s : Sys W) : VectorsTurned env total start place s (vectorsTurn env total start place s) := by
  rw [vectorsTurn]
  by_cases hlen : total ≤ place.1 ∨ place.2 = []
  · rw [if_pos hlen]
    exact .whole hlen
  rcases hsend : writev env place.2 s with ⟨e | outcome, u⟩
  · cases hsend
  rw [if_neg hlen, Prog.bind_of_ok hsend]
  have hmore : place.1 < total := Nat.not_le.mp fun h => hlen (.inl h)
  cases outcome with
  | failed => exact .failed hmore hsend
  | nothing => exact .nothing hmore hsend
  | bytes count =>
    dsimp only
    rw [Prog.bind_of_ok (stampTx_apply env u)]
    by_cases hless : place.1 + min count (total - place.1) < total
    · rw [if_pos hless]
      exact .bytes hless hsend rfl
    · rw [if_neg hless]
      exact .last hmore hless hsend rfl

/-- A stage of a sender took the bytes of its packet from one place up to another, and reports
that one when it reports any. -/
def Took (packet : List UInt8) (k : ℕ) (s : Sys W) (run : Except Stop SendOutcome × Sys W) : Prop :=
  ∃ n, k ≤ n ∧ n ≤ packet.length ∧ WentOut ((packet.take n).drop k) s.log run.2.log ∧
    ∀ m, run.1 = .ok (.sent m) → m = n

structure Upto (packet : List UInt8) (n : ℕ) (s t : Sys W) : Prop where
  inside : n ≤ packet.length
  out : WentOut (packet.take n) s.log t.log

/-- How a sender ends: it reports how far it came, or it failed before the end of its packet. -/
def Ended (packet : List UInt8) (s : Sys W) : Except Stop SendOutcome → Sys W → Prop
  | .ok (.sent n), t => Upto packet n s t
  | .ok .failed, t => ∃ n < packet.length, Upto packet n s t
  | .error _, _ => False

section Upto

variable {packet : List UInt8} {n : ℕ} {s t u : Sys W}

theorem upto_zero (h : WentOut [] s.log t.log) : Upto packet 0 s t := by
  refine ⟨Nat.zero_le _, ?_⟩
  rwa [List.take_zero]

theorem Upto.still (h : Upto packet n s t) (hnone : WentOut [] t.log u.log) : Upto packet n s u :=
  ⟨h.inside, h.out.stop hnone⟩

theorem Upto.more {count : ℕ} (h : Upto packet n s t) (hroom : n + count ≤ packet.length)
    (hout : WentOut ((packet.drop n).take count) t.log u.log) : Upto packet (n + count) s u := by
  refine ⟨hroom, ?_⟩
  rw [List.take_add]
  exact h.out.trans hout

theorem Upto.took {run : Except Stop SendOutcome × Sys W} (h : Upto packet n s run.2)
    (hsent : ∀ m, run.1 = .ok (.sent m) → m = n) : Took packet 0 s run :=
  ⟨n, Nat.zero_le n, h.inside, h.out, hsent⟩

theorem Ended.took {run : Except Stop SendOutcome × Sys W} (h : Ended packet s run.1 run.2) :
    Took packet 0 s run := by
  rcases run with ⟨stop | n | -, t⟩
  · exact h.elim
  · exact Upto.took h fun m hm => (SendOutcome.sent.inj (Except.ok.inj hm)).symm
  · obtain ⟨n, -, hn⟩ := h
    exact hn.took nofun

theorem took_of_loop {κ : Type} {turn : κ → Client W (κ ⊕ SendOutcome)}
    {I : κ → Sys W → Prop} {k : κ} (hupto : ∀ k t, I k t → ∃ n, Upto packet n s t)
    (hturn : ∀ k t, I k t → Prog.Turned I (Ended packet s) (turn k t)) (h : I k t) (turns : ℕ) :
    Took packet 0 s (Prog.loop turn .blocked turns k t) := by
  rcases Prog.loop_cases hturn h turns with ⟨hended, -⟩ | ⟨k', u, hcut, hrun, -⟩
  · exact hended.took
  · obtain ⟨n, hn⟩ := hupto k' u hcut
    rw [hrun]
    exact hn.took nofun

end Upto

/-- A turn takes some of what is left. -/
theorem bufferTurn_turned {buffer : List UInt8} {n : ℕ} {s t : Sys W} (start : UInt32)
    (h : Upto buffer n s t) : Prog.Turned (fun n t => Upto buffer n s t) (Ended buffer s)
      (bufferTurn env buffer start n t) := by
  have hturn := bufferTurn_cases env buffer start n t
  generalize bufferTurn env buffer start n t = run at hturn ⊢
  cases hturn with
  | whole => exact h
  | failed hlen hsend =>
    obtain rfl := of_send hsend
    have hout : WentOut [] t.log
        (t.log ++ [.sent [buffer.drop n] .failed t.context.standing]) := .note rfl
    exact ⟨n, hlen, h.still (hout.stop (.clock .nothing))⟩
  | @nothing u hlen hsend =>
    have hstill : Upto buffer n s (nowMs env u).2 := by
      obtain rfl := of_send hsend
      exact h.still (.untaken (.clock .nothing))
    exact .ite hstill hstill
  | @bytes u count m hlen hsend hm =>
    have hout : WentOut ((buffer.drop n).take (min count (buffer.length - n))) t.log
        (t.log ++ [.sent [buffer.drop n] (.bytes count) t.context.standing]) := by
      have hnote := WentOut.note (l := t.log)
        (o := .sent [buffer.drop n] (.bytes count) t.context.standing) rfl
      rwa [Observation.taken, List.flatten_singleton, List.take_eq_take_min, List.length_drop]
        at hnote
    have hmore : Upto buffer m s (nowMs env (stampTx env u).2).2 := by
      obtain rfl := of_send hsend
      rw [hm]
      exact h.more (by omega) (hout.stop (.clock (.clock .nothing)))
    exact .ite hmore hmore

theorem sendBuffer_took (buffer : List UInt8) (s : Sys W) :
    Took buffer 0 s (sendBuffer env buffer s) := by
  rw [sendBuffer, Prog.bind_of_ok (nowMs_apply env s)]
  exact took_of_loop (fun n t h => ⟨n, h⟩) (fun n t h => bufferTurn_turned env _ h)
    (upto_zero (.clock .nothing)) _

/-- The vectors that are left are the rest of the packet. -/
structure Outstanding (whole : List UInt8) (s : Sys W) (place : ℕ × List (List UInt8)) (t : Sys W) :
    Prop where
  upto : Upto whole place.1 s t
  rest : place.2.flatten = whole.drop place.1

theorem vectorsTurn_turned {whole : List UInt8} {place : ℕ × List (List UInt8)} {s t : Sys W}
    (start : UInt32) (h : Outstanding whole s place t) :
    Prog.Turned (Outstanding whole s) (Ended whole s)
      (vectorsTurn env whole.length start place t) := by
  have hrest := h.rest
  have hturn := vectorsTurn_cases env whole.length start place t
  generalize vectorsTurn env whole.length start place t = run at hturn ⊢
  have htakes {count taken : ℕ} (htaken : taken = min count (whole.length - place.1)) :
      WentOut ((whole.drop place.1).take taken) t.log
        (t.log ++ [.sent place.2 (.bytes count) t.context.standing]) := by
    have hnote := WentOut.note (l := t.log)
      (o := .sent place.2 (.bytes count) t.context.standing) rfl
    rwa [Observation.taken, hrest, List.take_eq_take_min, List.length_drop, ← htaken] at hnote
  cases hturn with
  | whole => exact h.upto
  | failed hlen hsend =>
    obtain rfl := of_writev hsend
    have hout : WentOut [] t.log
        (t.log ++ [.sent place.2 .failed t.context.standing]) := .note rfl
    exact ⟨place.1, hlen, h.upto.still hout⟩
  | @nothing u hlen hsend =>
    have hstill : Upto whole place.1 s (nowMs env u).2 := by
      obtain rfl := of_writev hsend
      exact h.upto.still (.untaken (.clock .nothing))
    refine .ite ⟨hstill, ?_⟩ hstill
    rw [flatten_advance, hrest, List.drop_zero]
  | @bytes u count taken hless hsend htaken =>
    have hmore : Upto whole (place.1 + taken) s (nowMs env (stampTx env u).2).2 := by
      obtain rfl := of_writev hsend
      exact h.upto.more (Nat.le_of_lt hless) ((htakes htaken).stop (.clock (.clock .nothing)))
    refine .ite ⟨hmore, ?_⟩ hmore
    rw [flatten_advance, hrest, List.drop_drop]
  | last hlen hless hsend htaken =>
    obtain rfl := of_writev hsend
    exact h.upto.more (by omega) ((htakes htaken).stop (.clock .nothing))

theorem stops_of_loop {κ : Type} {turn : κ → Client W (κ ⊕ SendOutcome)} {I : κ → Sys W → Prop}
    {packet : List UInt8} {k : κ} {s t : Sys W}
    (hturn : ∀ k t, I k t → Prog.Turned I (Ended packet s) (turn k t)) (h : I k t) (turns : ℕ)
    {e : Stop} (he : (Prog.loop turn .blocked turns k t).1 = .error e) : e = .blocked := by
  rcases Prog.loop_cases hturn h turns with ⟨hended, -⟩ | ⟨_, _, -, hcut, -⟩
  · rw [he] at hended
    exact hended.elim
  · rw [hcut] at he
    exact (Except.error.inj he).symm

variable {env} in
theorem sendBuffer_stops {buffer : List UInt8} {s : Sys W} {stop : Stop}
    (h : (sendBuffer env buffer s).1 = .error stop) : stop = .blocked := by
  rw [sendBuffer, Prog.bind_of_ok (nowMs_apply env s)] at h
  exact stops_of_loop (fun n t hn => bufferTurn_turned env _ hn) (upto_zero (.clock .nothing)) _ h

variable {env} in
theorem sendVectors_stops {vectors : List (List UInt8)} {s : Sys W} {stop : Stop}
    (h : (sendVectors env vectors s).1 = .error stop) : stop = .blocked := by
  rw [sendVectors, Prog.bind_of_ok (nowMs_apply env s)] at h
  exact stops_of_loop (fun place t hn => vectorsTurn_turned env _ hn)
    ⟨upto_zero (.clock .nothing), rfl⟩ _ h

theorem sendVectors_took (vectors : List (List UInt8)) (s : Sys W) :
    Took vectors.flatten 0 s (sendVectors env vectors s) := by
  rw [sendVectors, Prog.bind_of_ok (nowMs_apply env s)]
  exact took_of_loop (fun place t h => ⟨place.1, h.upto⟩)
    (fun place t h => vectorsTurn_turned env _ h) ⟨upto_zero (.clock .nothing), rfl⟩ _

theorem sendBuffer_sent {buffer : List UInt8} {n : ℕ} {s t : Sys W}
    (h : sendBuffer env buffer s = (.ok (.sent n), t)) : WentOut (buffer.take n) s.log t.log := by
  obtain ⟨m, -, -, hout, hm⟩ := sendBuffer_took env buffer s
  rw [h] at hout hm
  obtain rfl := hm n rfl
  exact hout

theorem sendVectors_sent {vectors : List (List UInt8)} {n : ℕ} {s t : Sys W}
    (h : sendVectors env vectors s = (.ok (.sent n), t)) :
    WentOut (vectors.flatten.take n) s.log t.log := by
  obtain ⟨m, -, -, hout, hm⟩ := sendVectors_took env vectors s
  rw [h] at hout hm
  obtain rfl := hm n rfl
  exact hout

end Client

end RtosMqtt
