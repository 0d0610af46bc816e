import RtosMqtt.Client.Waiting

/-! # Late PINGRESPs

A call that answers that the PINGRESP is late speaks of the PINGREQ that went out
last. Two things make it wrong: a PINGRESP that the other loop showed to the
application, and one that is still in the buffer when the check is made. Where
neither comes up, the flag is set exactly while the last PINGREQ is unanswered.
-/

namespace RtosMqtt

variable {W α β : Type}

/-- What keep alive is about: the application asks for a PINGREQ, a pass makes its check, or a
packet was handled and dropped. -/
inductive Moment (W : Type) where
  | asked (env : Environment W) (s : Sys W)
  | checked (env : Environment W) (s : Sys W)
  | handled (manageKeepAlive : Bool) (s : Sys W)

namespace Client

variable (env : Environment W)

def MakesCheck (manageKeepAlive : Bool) (received : Recv) (status : Except ClientError ℕ) : Prop :=
  arrivedNothing received ∧ manageKeepAlive ∧
    (status = .error .noDataAvailable ∨ status = .error .needMoreBytes ∨ status.isOk)

instance (manageKeepAlive : Bool) (received : Recv) (status : Except ClientError ℕ) :
    Decidable (MakesCheck manageKeepAlive received status) :=
  inferInstanceAs (Decidable (_ ∧ _))

def checkMoments (manageKeepAlive : Bool) (received : Recv) (s : Sys W) : List (Moment W) :=
  match (arrival received : Client W _) s with
  | (.error _, _) => []
  | (.ok status, t) => if MakesCheck manageKeepAlive received status then [.checked env t] else []

def turnMoments (manageKeepAlive : Bool) : (turns : ℕ) → Recv → Sys W → List (Moment W)
  | 0, _, _ => []
  | turns + 1, received, s => checkMoments env manageKeepAlive received s ++
    match nextPacket env manageKeepAlive received s with
    | (.error _, _) => []
    | (.ok total, t) =>
      match processPacket env total manageKeepAlive t with
      | (.error _, _) => []
      | (.ok (), u) => .handled manageKeepAlive t ::
        if u.context.index = 0 then []
        else turnMoments manageKeepAlive turns
          (if arrivedNothing received then received else .bytes 0) u

def passMoments (manageKeepAlive : Bool) (s : Sys W) : List (Moment W) :=
  match readIn env s with
  | (.error _, _) => []
  | (.ok received, t) => turnMoments env manageKeepAlive env.patience received t

def callMoments (call : Environment W × Traffic) (s : Sys W) : List (Moment W) :=
  match call.2 with
  | .ping => [.asked call.1 s]
  | .processLoop => passMoments call.1 true
      { s with context := { s.context with controlPacketSent := false } }
  | .receiveLoop => passMoments call.1 false s
  | _ => []

def runMoments : List (Environment W × Traffic) → Sys W → List (Moment W)
  | [], _ => []
  | call :: calls, s => callMoments call s ++ runMoments calls (call.2.perform call.1 s).2

end Client

def Traffic.keepsAlive : Traffic → Bool
  | .ping | .processLoop | .receiveLoop => true
  | _ => false

/-- A call of keep alive while the connection is there. -/
def OnConnection (call : Environment W × Traffic) (s : Sys W) : Prop :=
  call.2.keepsAlive = true ∧ s.context.connectStatus ≠ .notConnected

/-- Calls that all return, each of them on the connection. -/
def OnOneConnection : List (Environment W × Traffic) → Sys W → Prop
  | [], _ => True
  | call :: calls, s => OnConnection call s ∧ (call.2.perform call.1 s).1 ≠ .error .blocked ∧
      OnOneConnection calls (call.2.perform call.1 s).2

instance (call : Environment W × Traffic) (s : Sys W) : Decidable (OnConnection call s) :=
  inferInstanceAs (Decidable (_ ∧ _))

instance decidableOnOneConnection : (calls : List (Environment W × Traffic)) → (s : Sys W) →
    Decidable (OnOneConnection calls s)
  | [], _ => .isTrue trivial
  | call :: calls, s =>
    have := decidableOnOneConnection calls (call.2.perform call.1 s).2
    inferInstanceAs (Decidable (_ ∧ _))

def pingrespsFrom : (turns : ℕ) → List UInt8 → ℕ
  | 0, _ => 0
  | turns + 1, bytes =>
    match processIncomingPacketTypeAndLength bytes bytes.length with
    | .error _ => 0
    | .ok header =>
      let total := header.remainingLength + header.headerLength
      if bytes.length < total then 0
      else (if pingrespPacket <+: bytes then 1 else 0) + pingrespsFrom turns (bytes.drop total)

def MqttContext.pingresps (c : MqttContext) : ℕ := pingrespsFrom c.received.length c.received

/-- When the last PINGREQ went out, how many PINGRESPs of the buffer are older, and whether a
younger one was handled. -/
structure Watch where
  askedAt : Option UInt32 := none
  stale : ℕ := 0
  answered : Bool := false

namespace Watch

/-- From one state to another a PINGREQ may have gone out. -/
def sent (w : Watch) (s t : Sys W) : Watch :=
  if SentPingreq s t then
    { askedAt := offeredAt t.log, stale := s.context.pingresps, answered := false }
  else w

def took (w : Watch) : Watch :=
  if w.stale = 0 then { w with answered := true } else { w with stale := w.stale - 1 }

def next (w : Watch) : Moment W → Watch
  | .asked env s => w.sent s (Client.ping env s).2
  | .checked env s => w.sent s (Client.handleKeepAlive env s).2
  | .handled _ s => if s.context.AtPingresp then w.took else w

def after (w : Watch) (moments : List (Moment W)) : Watch := moments.foldl next w

/-- No PINGRESP was delivered since the last PINGREQ: none was handled, and none is in the buffer
but older ones. -/
def Unanswered (w : Watch) (s : Sys W) : Prop :=
  w.askedAt ≠ none ∧ w.answered = false ∧ s.context.pingresps ≤ w.stale

/-- The last PINGREQ went out longer ago than a PINGRESP may take, and is unanswered. -/
def Overdue (w : Watch) (s : Sys W) : Prop :=
  w.Unanswered s ∧ ∃ asked now, w.askedAt = some asked ∧ lastReading s.log = some now ∧
    pingrespTimeoutMs < elapsedMs now asked

/-- No check sends a PINGREQ while one is unanswered. -/
def Truthful (w : Watch) (moments : List (Moment W)) : Prop :=
  ∀ before env s later, moments = before ++ .checked env s :: later →
    SentPingreq s (Client.handleKeepAlive env s).2 → ¬ (w.after before).Unanswered s

end Watch

/-- A PINGREQ goes out while no PINGRESP is in the buffer; no check is made after the time of an
awaited PINGRESP while one is there; and the loop that leaves keep alive to the caller handles a
PINGRESP only when none is awaited. -/
def Moment.Straight : Moment W → Prop
  | .asked env s => SentPingreq s (Client.ping env s).2 → s.context.pingresps = 0
  | .checked env s =>
    (s.context.waitingForPingResp = true →
      pingrespTimeoutMs < elapsedMs (env.nowMs s.world).1 s.context.pingReqSendTime →
        s.context.pingresps = 0) ∧
    (SentPingreq s (Client.handleKeepAlive env s).2 → s.context.pingresps = 0)
  | .handled manageKeepAlive s => manageKeepAlive = false → s.context.AtPingresp →
      s.context.waitingForPingResp = false

instance (m : Moment W) : Decidable m.Straight :=
  match m with
  | .asked _ _ => inferInstanceAs (Decidable (_ → _))
  | .checked _ _ => inferInstanceAs (Decidable (_ ∧ _))
  | .handled _ _ => inferInstanceAs (Decidable (_ → _))

/-- The flag is set exactly while the last PINGREQ is unanswered. -/
structure Accurate (w : Watch) (s : Sys W) : Prop where
  fresh : w.stale = 0
  owed : s.context.waitingForPingResp = true →
    w.askedAt = some s.context.pingReqSendTime ∧ w.answered = false
  idle : s.context.waitingForPingResp = false → w.askedAt = none ∨ w.answered = true

section Accurate

variable {w : Watch} {s t : Sys W}

theorem Accurate.same (h : Accurate w s) (hsame : SameWait s t) : Accurate w t where
  fresh := h.fresh
  owed hwaiting := by
    rw [hsame.sendTime]
    exact h.owed (hsame.waiting.symm.trans hwaiting)
  idle hwaiting := h.idle (hsame.waiting.symm.trans hwaiting)

theorem Accurate.took (h : Accurate w s) (hwaiting : t.context.waitingForPingResp = false) :
    Accurate w.took t := by
  have htook : w.took = { w with answered := true } := if_pos h.fresh
  rw [htook]
  refine ⟨h.fresh, ?_, fun _ => .inr rfl⟩
  intro hset
  rw [hwaiting] at hset
  cases hset

theorem Accurate.not_unanswered (h : Accurate w s) (hwaiting : s.context.waitingForPingResp = false) :
    ¬ w.Unanswered s := by
  rintro ⟨hasked, hanswered, -⟩
  obtain hnone | hyes := h.idle hwaiting
  · exact hasked hnone
  · rw [hanswered] at hyes
    cases hyes

theorem Accurate.unsent (h : Accurate w s) (hsame : SameWait s t) (hnot : ¬ SentPingreq s t) :
    Accurate (w.sent s t) t := by
  rw [Watch.sent, if_neg hnot]
  exact h.same hsame

theorem Accurate.sent (hsent : SentPingreq s t) (hwaiting : t.context.waitingForPingResp = true)
    (hnone : s.context.pingresps = 0) (hat : offeredAt t.log = some t.context.pingReqSendTime) :
    Accurate (w.sent s t) t := by
  rw [Watch.sent, if_pos hsent]
  refine ⟨hnone, fun _ => ⟨hat, rfl⟩, ?_⟩
  intro hunset
  rw [hwaiting] at hunset
  cases hunset

end Accurate

/-- What a part of a run does: its checks are truthful, the invariant is kept unless it is cut
short, and it answers that a PINGRESP is late only when one is. -/
structure Vouched (w : Watch) (moments : List (Moment W)) (run : Except Stop α × Sys W) : Prop where
  truthful : w.Truthful moments
  kept : run.1 ≠ .error .blocked → Accurate (w.after moments) run.2
  due : run.1 = .error (.error .keepAliveTimeout) → (w.after moments).Overdue run.2

theorem Watch.truthful_nil (w : Watch) : w.Truthful ([] : List (Moment W)) := by
  intro before env s later h
  simp at h

theorem Watch.after_append (w : Watch) (first last : List (Moment W)) :
    w.after (first ++ last) = (w.after first).after last := List.foldl_append

theorem Watch.truthful_append {w : Watch} {first last : List (Moment W)} (h : w.Truthful first)
    (h' : (w.after first).Truthful last) : w.Truthful (first ++ last) := by
  intro before env s later hsplit hsent
  obtain ⟨rest, rfl, hrest⟩ | ⟨rest, hfirst, hrest⟩ := List.append_eq_append_iff.mp hsplit
  · have hafter := h' rest env s later hrest hsent
    rwa [← Watch.after_append] at hafter
  · cases rest with
    | nil =>
      have hafter := h' [] env s later (by simpa using hrest.symm) hsent
      rw [hfirst, List.append_nil] at hafter
      exact hafter
    | cons m rest =>
      obtain ⟨rfl, rfl⟩ := List.cons.inj hrest
      exact h before env s rest hfirst hsent

theorem Watch.truthful_other {w : Watch} {m : Moment W} (h : ∀ env s, m ≠ .checked env s) :
    w.Truthful [m] := by
  intro before env s later hsplit _
  have hmem : Moment.checked env s ∈ [m] := by
    rw [hsplit]
    simp
  exact absurd (List.mem_singleton.mp hmem).symm (h env s)

theorem Watch.truthful_check {w : Watch} {env : Environment W} {s : Sys W}
    (h : SentPingreq s (Client.handleKeepAlive env s).2 → ¬ w.Unanswered s) :
    w.Truthful [.checked env s] := by
  intro before env' s' later hsplit hsent
  cases before with
  | nil =>
    obtain ⟨rfl, rfl⟩ : env = env' ∧ s = s' := by simpa using (List.cons.inj hsplit).1
    exact h hsent
  | cons m before => simp at hsplit

theorem Vouched.append {w : Watch} {first last : List (Moment W)} {run : Except Stop α × Sys W}
    (h : w.Truthful first) (h' : Vouched (w.after first) last run) :
    Vouched w (first ++ last) run where
  truthful := Watch.truthful_append h h'.truthful
  kept := by
    rw [Watch.after_append]
    exact h'.kept
  due := by
    rw [Watch.after_append]
    exact h'.due

theorem Vouched.handled {w : Watch} {manageKeepAlive : Bool} {s : Sys W} {moments : List (Moment W)}
    {run : Except Stop α × Sys W} (h : Vouched (w.next (.handled manageKeepAlive s)) moments run) :
    Vouched w (.handled manageKeepAlive s :: moments) run :=
  Vouched.append (Watch.truthful_other (m := .handled manageKeepAlive s) (by simp)) h

theorem Vouched.stopped {w : Watch} {moments : List (Moment W)} {stop : Stop} {s : Sys W}
    (h : Vouched w moments ((.error stop, s) : Except Stop α × Sys W)) :
    Vouched w moments ((.error stop, s) : Except Stop β × Sys W) where
  truthful := h.truthful
  kept hnot := h.kept fun he => hnot (congrArg Except.error (Except.error.inj he))
  due he := h.due (congrArg Except.error (Except.error.inj he))

theorem Accurate.vouched {w : Watch} {s : Sys W} {run : Except Stop α × Sys W} (h : Accurate w s)
    (hrun : SameWait s run.2 ∧ run.1 ≠ .error (.error .keepAliveTimeout)) :
    Vouched w ([] : List (Moment W)) run where
  truthful := w.truthful_nil
  kept _ := h.same hrun.1
  due hlate := absurd hlate hrun.2

namespace Client

variable {env : Environment W} {w : Watch}

theorem wire_nowMs (s : Sys W) : wire (nowMs env s).2.log = wire s.log := by
  simp [Observation.taken]

theorem not_sentPingreq {s t : Sys W} (h : wire t.log = wire s.log) : ¬ SentPingreq s t := by
  intro hsent
  have hlength := congrArg List.length (h.symm.trans hsent)
  rw [List.length_append] at hlength
  have htwo : pingreqPacket.length = 2 := rfl
  omega

variable (env) in
theorem handleKeepAlive_cases (s : Sys W) :
    (s.context.waitingForPingResp = true ∧
        pingrespTimeoutMs < elapsedMs (env.nowMs s.world).1 s.context.pingReqSendTime ∧
        handleKeepAlive env s = (.error (.error .keepAliveTimeout), (nowMs env s).2)) ∨
      handleKeepAlive env s = (.ok (), (nowMs env s).2) ∨
      s.context.waitingForPingResp = false ∧
        handleKeepAlive env s = ping env (nowMs env s).2 := by
  rw [handleKeepAlive, Prog.bind_of_ok (nowMs_apply env s), Prog.bind_of_ok (context_apply _)]
  dsimp only
  cases hwaiting : s.context.waitingForPingResp with
  | true =>
    rw [if_pos rfl, Client.refuse, Prog.refuse_apply]
    split_ifs with hlate
    · exact .inl ⟨rfl, hlate, rfl⟩
    · exact .inr (.inl rfl)
  | false =>
    rw [if_neg Bool.false_ne_true, Prog.when]
    split_ifs
    · exact .inr (.inr ⟨rfl, rfl⟩)
    · exact .inr (.inr ⟨rfl, rfl⟩)
    · exact .inr (.inl rfl)

theorem ping_accurate {s t : Sys W} (h : Accurate w t) (hwire : wire t.log = wire s.log)
    (hstraight : SentPingreq s (ping env t).2 → s.context.pingresps = 0) :
    ((ping env t).1 ≠ .error .blocked → Accurate (w.sent s (ping env t).2) (ping env t).2) ∧
      (ping env t).1 ≠ .error (.error .keepAliveTimeout) := by
  have hiff (u : Sys W) : SentPingreq t u ↔ SentPingreq s u := by
    rw [SentPingreq, SentPingreq, hwire]
  obtain ⟨hok, hsent, hwaiting, hat⟩ | ⟨hsame, hnot, hend⟩ := ping_cases env t
  · rw [hiff] at hsent
    exact ⟨fun _ => .sent hsent hwaiting (hstraight hsent) hat, by rw [hok]; simp⟩
  · refine ⟨fun hblocked => ?_, hnot⟩
    obtain hcut | hunsent := hend
    · exact absurd hcut hblocked
    · rw [hiff] at hunsent
      rw [Watch.sent, if_neg hunsent]
      exact h.same hsame

theorem asked_vouched {s : Sys W} (h : Accurate w s)
    (hstraight : (Moment.asked env s).Straight) : Vouched w [.asked env s] (ping env s) := by
  obtain ⟨hkept, hnot⟩ := ping_accurate h rfl hstraight
  exact ⟨Watch.truthful_other (by simp), hkept, fun hlate => absurd hlate hnot⟩

theorem checked_vouched {s : Sys W} (h : Accurate w s)
    (hstraight : (Moment.checked env s).Straight) :
    Vouched w [.checked env s] (handleKeepAlive env s) := by
  obtain ⟨hlate, hsend⟩ := hstraight
  have hnoted : SameWait s (nowMs env s).2 := (Aloof.nowMs s).1
  have hunsent : ¬ SentPingreq s (nowMs env s).2 := not_sentPingreq (wire_nowMs s)
  obtain ⟨hwaiting, helapsed, hrun⟩ | hrun | ⟨hidle, hrun⟩ := handleKeepAlive_cases env s
  · obtain ⟨hasked, hanswered⟩ := h.owed hwaiting
    have hafter : w.after [.checked env s] = w := by
      rw [Watch.after, List.foldl_cons, List.foldl_nil, Watch.next, Watch.sent, hrun,
        if_neg hunsent]
    refine ⟨Watch.truthful_check fun hsent => ?_, fun _ => ?_, fun _ => ?_⟩
    · rw [hrun] at hsent
      exact absurd hsent hunsent
    · rw [hafter, hrun]
      exact h.same hnoted
    · rw [hafter, hrun]
      refine ⟨⟨by rw [hasked]; simp, hanswered, ?_⟩, _, _, hasked, lastReading_clock _ _, helapsed⟩
      exact le_of_eq_of_le (hlate hwaiting helapsed) (Nat.zero_le _)
  · refine ⟨Watch.truthful_check fun hsent => ?_, fun _ => ?_, fun hanswer => ?_⟩
    · rw [hrun] at hsent
      exact absurd hsent hunsent
    · rw [Watch.after, List.foldl_cons, List.foldl_nil, Watch.next, hrun]
      exact h.unsent hnoted hunsent
    · rw [hrun] at hanswer
      cases hanswer
  · rw [hrun] at hsend
    obtain ⟨hkept, hnot⟩ := ping_accurate (h.same hnoted) (wire_nowMs s) hsend
    refine ⟨Watch.truthful_check fun _ => h.not_unanswered hidle, ?_, ?_⟩
    · rw [Watch.after, List.foldl_cons, List.foldl_nil, Watch.next, hrun]
      exact hkept
    · rw [hrun]
      exact fun hanswer => absurd hanswer hnot

theorem vouched_attempt {moments : List (Moment W)} {p : Client W α}
    {f : Except ClientError α → Client W β} {s : Sys W} (h : Vouched w moments (p s))
    (hstays : ∀ outcome t, (f outcome t).2 = t)
    (hlate : ∀ outcome t, (f outcome t).1 = .error (.error .keepAliveTimeout) →
      outcome = .error .keepAliveTimeout) : Vouched w moments ((attempt p >>= f) s) := by
  obtain ⟨htruthful, hkept, hdue⟩ := h
  rw [Prog.bind_apply]
  unfold attempt
  rcases hrun : p s with ⟨(e | _) | a, t⟩
  · rw [hrun] at hkept hdue
    refine ⟨htruthful, fun _ => ?_, fun he => ?_⟩
    · dsimp only
      rw [hstays]
      exact hkept (by simp)
    · dsimp only
      rw [hstays]
      exact hdue (by rw [Except.error.inj (hlate _ _ he)])
  · exact ⟨htruthful, fun hnot => absurd rfl hnot, fun he => by cases he⟩
  · rw [hrun] at hkept
    refine ⟨htruthful, fun _ => ?_, fun he => ?_⟩
    · dsimp only
      rw [hstays]
      exact hkept (by simp)
    · cases hlate _ _ he

theorem arrival_spec (received : Recv) (s : Sys W) : ∃ status t,
    (arrival received : Client W _) s = (.ok status, t) ∧ SameWait s t ∧
      status ≠ .error .keepAliveTimeout := by
  have hmeasure (c : MqttContext) : c.measure ≠ .error .keepAliveTimeout := by
    unfold MqttContext.measure
    cases processIncomingPacketTypeAndLength c.network c.index with
    | error e => cases e <;> decide
    | ok header => simp
  rw [arrival, Prog.bind_of_ok (context_apply s)]
  cases received with
  | failed =>
    exact ⟨_, _, rfl, (Aloof.connectionLost s).1, by simp⟩
  | nothing =>
    refine ⟨_, _, rfl, refl_of SameWait s, ?_⟩
    split_ifs
    · simp
    · exact hmeasure _
  | bytes count =>
    dsimp only
    split_ifs
    · exact ⟨_, _, rfl, refl_of SameWait s, by simp⟩
    · exact ⟨_, _, rfl, ⟨rfl, rfl⟩, hmeasure _⟩

theorem sized_spec (status : Except ClientError ℕ) (s : Sys W) :
    let run := (check id status >>= fun total => context >>= fun c =>
      refuse (c.network.length < total) .recvFailed >>= fun _ =>
        refuse (c.index < total) .needMoreBytes >>= fun _ => pure total : Client W ℕ) s
    run.2 = s ∧ (run.1 = .error (.error .keepAliveTimeout) → status = .error .keepAliveTimeout) := by
  intro run
  cases status with
  | error e =>
    refine ⟨rfl, fun h => ?_⟩
    exact congrArg Except.error (Stop.error.inj (Except.error.inj h))
  | ok total =>
    have hrun : run = (context >>= fun c => refuse (c.network.length < total) .recvFailed >>=
        fun _ => refuse (c.index < total) .needMoreBytes >>= fun _ => pure total :
          Client W ℕ) s := rfl
    rw [hrun, Prog.bind_of_ok (context_apply s), Client.refuse, Prog.refuse_bind_apply]
    split_ifs
    · exact ⟨rfl, by simp⟩
    · rw [Client.refuse, Prog.refuse_bind_apply]
      split_ifs
      · exact ⟨rfl, by simp⟩
      · exact ⟨rfl, by simp⟩

theorem keepAliveTurn_of_check {manageKeepAlive : Bool} {received : Recv}
    {status : Except ClientError ℕ} (h : MakesCheck manageKeepAlive received status) :
    keepAliveTurn env manageKeepAlive received status =
      (attempt (handleKeepAlive env) >>= fun outcome => pure (outcome >>= fun _ => status)) := by
  unfold keepAliveTurn
  refine (if_pos h).trans (Prog.bind_congr fun outcome => ?_)
  cases outcome with
  | error e => rfl
  | ok => rfl

theorem keepAliveTurn_of_not {manageKeepAlive : Bool} {received : Recv}
    {status : Except ClientError ℕ} (h : ¬ MakesCheck manageKeepAlive received status) :
    keepAliveTurn env manageKeepAlive received status = pure status := by
  unfold keepAliveTurn
  exact if_neg h

theorem nextPacket_vouched {manageKeepAlive : Bool} {received : Recv} {s : Sys W}
    (h : Accurate w s)
    (hstraight : ∀ m ∈ checkMoments env manageKeepAlive received s, m.Straight) :
    Vouched w (checkMoments env manageKeepAlive received s)
      (nextPacket env manageKeepAlive received s) := by
  obtain ⟨status, t, harrival, hsame, hnot⟩ := arrival_spec received s
  unfold checkMoments at hstraight ⊢
  rw [harrival] at hstraight ⊢
  dsimp only at hstraight ⊢
  rw [nextPacket, Prog.bind_of_ok harrival]
  by_cases hcheck : MakesCheck manageKeepAlive received status
  · rw [if_pos hcheck] at hstraight ⊢
    rw [keepAliveTurn_of_check hcheck, Prog.bind_assoc]
    apply vouched_attempt (checked_vouched (h.same hsame) (hstraight _ List.mem_cons_self))
    · exact fun outcome u => (sized_spec _ u).1
    · intro outcome u hlate
      have hlast := (sized_spec _ u).2 hlate
      cases outcome with
      | error e =>
        have he : (.error e : Except ClientError ℕ) = .error .keepAliveTimeout := hlast
        rw [Except.error.inj he]
      | ok => exact absurd hlast hnot
  · rw [if_neg hcheck, keepAliveTurn_of_not hcheck, Prog.pure_bind]
    obtain ⟨hstays, hlate⟩ := sized_spec status t
    refine h.vouched ⟨?_, fun he => hnot (hlate he)⟩
    rw [hstays]
    exact hsame

theorem processPacket_wait {total : ℕ} {manageKeepAlive : Bool} {s t : Sys W} {stop : Stop}
    (h : processPacket env total manageKeepAlive s = (.error stop, t)) :
    SameWait s t ∧ stop ≠ .error .keepAliveTimeout := by
  have hrest : Aloof (update (fun c => c.consume total) >>= fun _ => nowMs env >>= fun now =>
      update fun c => { c with lastPacketRxTime := now } : Client W Unit) :=
    Aloof.bind (.update fun _ => ⟨by rfl, by rfl⟩) fun _ => Aloof.nowMs.bind fun _ =>
      .update fun _ => ⟨by rfl, by rfl⟩
  rw [processPacket, Prog.bind_eq_error] at h
  obtain ⟨hsame, hnot, -⟩ | ⟨-, -, hdone⟩ := @handlePacket_wait _ env total manageKeepAlive s
  · obtain hfailed | ⟨_, u, hok, hlast⟩ := h
    · rw [hfailed] at hsame hnot
      exact ⟨hsame, fun he => hnot (by rw [he])⟩
    · rw [hok] at hsame
      obtain ⟨hnext, hlate⟩ := hrest u
      rw [hlast] at hnext hlate
      exact ⟨trans_of SameWait hsame hnext, fun he => hlate (by rw [he])⟩
  · obtain hfailed | ⟨_, u, hok, hlast⟩ := h
    · rw [hdone] at hfailed
      cases hfailed
    · obtain ⟨_, hended⟩ : ∃ a : Unit, ((update (fun c => c.consume total) >>= fun _ =>
          nowMs env >>= fun now => update fun c => { c with lastPacketRxTime := now } :
            Client W Unit) u).1 = .ok a := ⟨(), rfl⟩
      rw [hlast] at hended
      cases hended

theorem processPacket_accurate {total : ℕ} {manageKeepAlive : Bool} {s t : Sys W}
    (h : Accurate w s) (hstraight : (Moment.handled manageKeepAlive s).Straight)
    (hrun : processPacket env total manageKeepAlive s = (.ok (), t)) :
    Accurate (w.next (.handled manageKeepAlive s)) t := by
  obtain ⟨u, hhandled, hrest⟩ : ∃ u, handlePacket env total manageKeepAlive s = (.ok (), u) ∧
      SameWait u t := by
    rw [processPacket, Prog.bind_eq_ok] at hrun
    obtain ⟨_, u, hhandled, hlast⟩ := hrun
    obtain ⟨-, rfl⟩ := Prod.mk.inj hlast
    exact ⟨u, hhandled, rfl, rfl⟩
  rw [Watch.next]
  obtain ⟨hsame, -, hother⟩ | ⟨-, hat, hdone⟩ := @handlePacket_wait _ env total manageKeepAlive s
  · rw [hhandled] at hsame hother
    have hst : SameWait s t := trans_of SameWait hsame hrest
    by_cases hat : s.context.AtPingresp
    · rw [if_pos hat]
      apply h.took
      rw [hst.waiting]
      cases manageKeepAlive with
      | true => exact absurd hat (hother rfl rfl)
      | false => exact hstraight rfl hat
    · rw [if_neg hat]
      exact h.same hst
  · rw [if_pos hat]
    apply h.took
    rw [hrest.waiting]
    rw [hhandled] at hdone
    rw [(Prod.mk.inj hdone).2]

theorem turnsFrom_vouched {manageKeepAlive : Bool} {turns : ℕ} {received : Recv} {s : Sys W}
    (h : Accurate w s)
    (hstraight : ∀ m ∈ turnMoments env manageKeepAlive turns received s, m.Straight) :
    Vouched w (turnMoments env manageKeepAlive turns received s)
      (turnsFrom env manageKeepAlive turns received s) := by
  induction turns generalizing w received s with
  | zero => exact h.vouched (Aloof.blocked s)
  | succ turns ih =>
    rw [turnMoments] at hstraight ⊢
    have hnext := nextPacket_vouched h fun m hm => hstraight m (List.mem_append_left _ hm)
    rw [turnsFrom]
    rcases hpacket : nextPacket env manageKeepAlive received s with ⟨stop | total, t⟩
    · rw [Prog.bind_of_error hpacket]
      rw [hpacket] at hnext
      dsimp only
      rw [List.append_nil]
      exact hnext.stopped
    rw [hpacket] at hnext hstraight
    dsimp only at hstraight ⊢
    rw [Prog.bind_of_ok hpacket]
    apply Vouched.append hnext.truthful
    have ht := hnext.kept (by simp)
    rcases hdone : processPacket env total manageKeepAlive t with ⟨stop | _, u⟩
    · rw [Prog.bind_of_error hdone]
      obtain ⟨hsame, hnot⟩ := processPacket_wait hdone
      exact ht.vouched ⟨hsame, fun he => hnot (Except.error.inj he)⟩
    rw [hdone] at hstraight
    dsimp only at hstraight ⊢
    rw [Prog.bind_of_ok hdone, Prog.bind_of_ok (context_apply u)]
    have hu := processPacket_accurate ht
      (hstraight _ (List.mem_append_right _ List.mem_cons_self)) hdone
    apply Vouched.handled
    by_cases hempty : u.context.index = 0
    · rw [if_pos hempty, if_pos hempty]
      exact hu.vouched (Aloof.pure () u)
    · rw [if_neg hempty, if_neg hempty]
      apply ih hu
      intro m hm
      apply hstraight
      rw [if_neg hempty]
      exact List.mem_append_right _ (List.mem_cons_of_mem _ hm)

theorem Aloof.readIn : Aloof (readIn env) := by
  refine Aloof.context.bind fun c => ?_
  cases slice? c.network c.index c.network.length with
  | none => exact .pure _
  | some into =>
    exact Aloof.bind (.answer fun _ => ⟨rfl, rfl⟩) fun _ =>
      Aloof.bind (.update fun _ => ⟨by rfl, by rfl⟩) fun _ => .pure _

theorem receiveSingleIteration_vouched {manageKeepAlive : Bool} {s : Sys W} (h : Accurate w s)
    (hstraight : ∀ m ∈ passMoments env manageKeepAlive s, m.Straight) :
    Vouched w (passMoments env manageKeepAlive s)
      (receiveSingleIteration env manageKeepAlive s) := by
  have hread := @Aloof.readIn _ env s
  unfold passMoments at hstraight ⊢
  rw [receiveSingleIteration]
  rcases hrun : readIn env s with ⟨stop | received, t⟩
  · rw [hrun] at hread
    rw [Prog.bind_of_error hrun]
    exact h.vouched ⟨hread.1, fun he => hread.2 (congrArg Except.error (Except.error.inj he))⟩
  · rw [hrun] at hread hstraight
    rw [Prog.bind_of_ok hrun]
    apply vouched_attempt (turnsFrom_vouched (h.same hread.1) hstraight)
    · intro outcome t
      rfl
    · intro outcome t hlate
      unfold finish at hlate
      split_ifs at hlate
      · cases hlate
      · cases outcome with
        | error e => exact congrArg Except.error (Stop.error.inj (Except.error.inj hlate))
        | ok => cases hlate

theorem call_vouched {call : Environment W × Traffic} {s : Sys W} (h : Accurate w s)
    (hkeeps : call.2.keepsAlive = true) (hstraight : ∀ m ∈ callMoments call s, m.Straight) :
    Vouched w (callMoments call s) (call.2.perform call.1 s) := by
  obtain ⟨env, traffic⟩ := call
  cases traffic with
  | ping => exact asked_vouched h (hstraight _ List.mem_cons_self)
  | processLoop => exact receiveSingleIteration_vouched (h.same ⟨rfl, rfl⟩) hstraight
  | receiveLoop => exact receiveSingleIteration_vouched h hstraight
  | _ => cases hkeeps

theorem runMoments_append (calls : List (Environment W × Traffic)) (call : Environment W × Traffic)
    (s : Sys W) : runMoments (calls ++ [call]) s =
      runMoments calls s ++ callMoments call (afterTraffic s calls) := by
  induction calls generalizing s with
  | nil => exact (List.append_nil _)
  | cons c calls ih =>
    rw [List.cons_append, runMoments, runMoments, ih, List.append_assoc]
    rfl

theorem run_accurate {calls : List (Environment W × Traffic)} {s : Sys W} (h : Accurate w s)
    (hcalls : OnOneConnection calls s) (hstraight : ∀ m ∈ runMoments calls s, m.Straight) :
    w.Truthful (runMoments calls s) ∧ Accurate (w.after (runMoments calls s)) (afterTraffic s calls) := by
  induction calls generalizing w s with
  | nil => exact ⟨w.truthful_nil, h⟩
  | cons call calls ih =>
    obtain ⟨hcall, hreturned, hcalls⟩ := hcalls
    obtain ⟨htruthful, hkept, -⟩ := call_vouched h hcall.1
      fun m hm => hstraight m (List.mem_append_left _ hm)
    obtain ⟨hrest, hlast⟩ := ih (hkept hreturned) hcalls
      fun m hm => hstraight m (List.mem_append_right _ hm)
    rw [runMoments, Watch.after_append]
    exact ⟨Watch.truthful_append htruthful hrest, hlast⟩

theorem accurate_of_connect {options : Connect} {timeoutMs : UInt32} {s t : Sys W}
    (h : connect env options timeoutMs s = (.ok (), t)) : Accurate {} t := by
  obtain ⟨u, connack, -, -, hsettled⟩ := connect_opened h
  obtain ⟨v, -, hresent⟩ := settle_eq_ok hsettled
  have hstored (key : UInt32) : (resendStored env key).Moves SameWait :=
    (resendStored_io env key).mono Io.sameWait
  have hacks (packetId : UInt16) (state : PublishState) :
      (sendPublishAcks env packetId state).Moves SameWait := by
    unfold sendPublishAcks
    split
    · exact .pure _
    · exact (check_moves _ _).bind fun _ => connected_moves.bind fun _ =>
        (Aloof.sendBuffer _).moves.bind fun _ => (sentWhole_moves _ _).bind fun _ =>
          Prog.Moves.bind (fun _ => ⟨rfl, rfl⟩) fun _ => Aloof.onRecords.moves.bind fun _ =>
            (accepted_moves _).bind fun _ => .pure _
  have hunclean : (handleUncleanSession env).Moves SameWait :=
    (resendAll_moves fun _ => .ite (hstored _) (hacks _ _)).bind fun _ =>
      .when (resendAll_moves fun _ => hstored _)
  have hopened : Accurate {} v.opened := ⟨rfl, by simp [Sys.opened], fun _ => .inl rfl⟩
  exact hopened.same ((Prog.Moves.when hunclean).yields v.opened () t hresent)

/-- In a run on one connection of calls that ping and of both loops, in which no PINGREQ goes out
while a PINGRESP is in the buffer, no check is made late while one is there, and no PINGRESP that is
awaited goes to the application instead, a call answers that the PINGRESP is late only when the last
PINGREQ is overdue, and no check sends another while one is unanswered. -/
theorem timeouts_overdue {options : Connect} {timeoutMs : UInt32} {s₀ s : Sys W}
    (hconnected : connect env options timeoutMs s₀ = (.ok (), s))
    {calls : List (Environment W × Traffic)} {call : Environment W × Traffic}
    (hcalls : OnOneConnection calls s) (hcall : OnConnection call (afterTraffic s calls))
    (hstraight : ∀ m ∈ runMoments (calls ++ [call]) s, m.Straight) :
    ((call.2.perform call.1 (afterTraffic s calls)).1 = .error (.error .keepAliveTimeout) →
      (Watch.after {} (runMoments (calls ++ [call]) s)).Overdue
        (call.2.perform call.1 (afterTraffic s calls)).2) ∧
    Watch.Truthful {} (runMoments (calls ++ [call]) s) := by
  rw [runMoments_append] at hstraight ⊢
  obtain ⟨htruthful, hafter⟩ := run_accurate (accurate_of_connect hconnected) hcalls
    fun m hm => hstraight m (List.mem_append_left _ hm)
  have hlast := (call_vouched hafter hcall.1
    fun m hm => hstraight m (List.mem_append_right _ hm))
  rw [Watch.after_append]
  exact ⟨hlast.due, Watch.truthful_append htruthful hlast.truthful⟩

/-- A connection on which the transport will deliver these. -/
def listening (reads : List (List UInt8)) : Except Stop Unit × Sys Script :=
  connect (Script.environment false) (Script.connect true []) 0
    (start (List.replicate 64 0) { reads := Script.connack false [] :: reads })

/-- The clock of a script, once it has moved on. -/
def sixSecondsOn : Environment Script :=
  { Script.environment false with nowMs := fun w => (6000, w) }

/-- A `ping`, and a pass of the loop that leaves keep alive to the caller. -/
def pinged : List (Environment Script × Traffic) :=
  [(Script.environment false, .ping), (Script.environment false, .receiveLoop)]

/-- The transport stays silent. -/
theorem timeouts_overdue_of_silence :
    (Traffic.perform sixSecondsOn .processLoop (afterTraffic (listening []).2 pinged)).1 =
        .error (.error .keepAliveTimeout) ∧
      (Watch.after {} (runMoments (pinged ++ [(sixSecondsOn, .processLoop)])
        (listening []).2)).Overdue
          (Traffic.perform sixSecondsOn .processLoop (afterTraffic (listening []).2 pinged)).2 := by
  have hlate : (Traffic.perform sixSecondsOn .processLoop
      (afterTraffic (listening []).2 pinged)).1 = .error (.error .keepAliveTimeout) := by
    decide +kernel
  have hconnected : connect (Script.environment false) (Script.connect true []) 0
      (start (List.replicate 64 0) { reads := [Script.connack false []] }) =
        (.ok (), (listening []).2) := Prog.eq_of_fst_ok (by decide +kernel)
  have hcalls : OnOneConnection pinged (listening []).2 := by decide +kernel
  have hcall : OnConnection ((sixSecondsOn, .processLoop) : Environment Script × Traffic)
      (afterTraffic (listening []).2 pinged) := by decide +kernel
  have hstraight : ∀ m ∈ runMoments (pinged ++ [(sixSecondsOn, .processLoop)]) (listening []).2,
      m.Straight := by decide +kernel
  exact ⟨hlate, (timeouts_overdue hconnected hcalls hcall hstraight).1 hlate⟩

/-- A PINGRESP that the application was shown, and one behind a PUBLISH that arrived with it, are
both said to be late. -/
theorem answered_ping_late :
    (∃ calls : List (Environment Script × Traffic), ∃ s : Sys Script,
      listening [pingrespPacket] = (.ok (), s) ∧ OnOneConnection calls s ∧
        OnConnection ((sixSecondsOn, .processLoop) : Environment Script × Traffic)
          (afterTraffic s calls) ∧
        (Traffic.perform sixSecondsOn .processLoop (afterTraffic s calls)).1 =
          .error (.error .keepAliveTimeout) ∧
        ¬ (Watch.after {} (runMoments (calls ++ [(sixSecondsOn, .processLoop)]) s)).Overdue
          (Traffic.perform sixSecondsOn .processLoop (afterTraffic s calls)).2) ∧
    ∃ calls : List (Environment Script × Traffic), ∃ s : Sys Script,
      listening [[0x30, 4, 0, 1, 97, 0] ++ pingrespPacket] = (.ok (), s) ∧ OnOneConnection calls s ∧
        OnConnection ((sixSecondsOn, .processLoop) : Environment Script × Traffic)
          (afterTraffic s calls) ∧
        (Traffic.perform sixSecondsOn .processLoop (afterTraffic s calls)).1 =
          .error (.error .keepAliveTimeout) ∧
        ¬ (Watch.after {} (runMoments (calls ++ [(sixSecondsOn, .processLoop)]) s)).Overdue
          (Traffic.perform sixSecondsOn .processLoop (afterTraffic s calls)).2 := by
  constructor
  · refine ⟨pinged, (listening [pingrespPacket]).2, Prog.eq_of_fst_ok (by decide +kernel),
      by decide +kernel, by decide +kernel, by decide +kernel, ?_⟩
    rintro ⟨⟨-, hanswered, -⟩, -⟩
    have hshown : (Watch.after {} (runMoments (pinged ++ [(sixSecondsOn, .processLoop)])
        (listening [pingrespPacket]).2)).answered = true := by decide +kernel
    rw [hshown] at hanswered
    cases hanswered
  · refine ⟨[(Script.environment false, .ping)],
      (listening [[0x30, 4, 0, 1, 97, 0] ++ pingrespPacket]).2,
      Prog.eq_of_fst_ok (by decide +kernel), by decide +kernel, by decide +kernel,
      by decide +kernel, ?_⟩
    rintro ⟨⟨-, -, hnone⟩, -⟩
    revert hnone
    decide +kernel

end Client

end RtosMqtt
