import RtosMqtt.Client.Ending
import RtosMqtt.Client.Fragments
import RtosMqtt.Library.Patience

/-! # Connects that come to an end

A connect waits in its senders, for the header of the CONNACK and for its body. Where only so many
sends in a row take nothing, and only so many reads in a row come back empty, a caller with enough
patience has its answer, and more patience does not change it.
-/

namespace RtosMqtt

variable {W α : Type}

/-- As long as the stream has bytes left, only so many reads in a row come back empty: `gap` bounds
how many. -/
structure Stirs (env : Environment W) (pending : W → List UInt8) (gap : W → ℕ) : Prop where
  recv : ∀ {into w}, into ≠ [] → pending w ≠ [] →
    (env.recv into w).1.1 = .nothing ∨ (env.recv into w).1.1 = .bytes 0 →
      gap (env.recv into w).2 < gap w
  clock : ∀ w, gap (env.nowMs w).2 ≤ gap w

theorem Feeds.patient {env : Environment W} {pending : W → List UInt8} {late : ℕ}
    (h : Feeds env pending late) (patience : ℕ) : Feeds (env.patient patience) pending late :=
  ⟨h.bytes, h.nothing, h.failed, h.prompt, h.clock, h.send, h.writev, h.store, h.retrieve, h.clear⟩

/-- Only so many sends in a row take nothing of what they are offered: `slack` bounds how many. -/
structure Drains (env : Environment W) (slack : W → ℕ) : Prop where
  send : ∀ {bytes w}, bytes ≠ [] →
    (env.send bytes w).1 = .nothing ∨ (env.send bytes w).1 = .bytes 0 →
      slack (env.send bytes w).2 < slack w
  writev : ∀ {parts w}, parts.flatten ≠ [] →
    (env.writev parts w).1 = .nothing ∨ (env.writev parts w).1 = .bytes 0 →
      slack (env.writev parts w).2 < slack w
  clock : ∀ w, slack (env.nowMs w).2 ≤ slack w

namespace Client

open Prog (Ends)

/-- A call that comes to an end, however long it waits. -/
abbrev Comes (p : ℕ → Client W α) (s : Sys W) : Prop := Ends .blocked p s

variable {env : Environment W} {s : Sys W}

theorem Returns.comes {p : Client W α} (h : Returns p) : Comes (fun _ => p) s :=
  Prog.ends_of_ne (h s)

theorem Checks.returns {p : Client W α} (h : Checks p) : Returns p := by
  intro s
  rcases h s with ⟨e, he⟩ | ⟨a, ha⟩
  · rw [he]
    simp
  · rw [ha]
    simp

theorem returns_get : Returns (Prog.get : Client W _) := fun _ => nofun

theorem returns_modify (f : Sys W → Sys W) : Returns (Prog.modify f : Client W Unit) :=
  fun _ => nofun

theorem returns_update (f : MqttContext → MqttContext) : Returns (update f : Client W Unit) :=
  returns_modify _

theorem returns_onRecords (call : Call) (f : PublishRecords → Except StateError α × PublishRecords) :
    Returns (onRecords call f : Client W _) := by
  intro s
  cases hr : s.context.records with
  | none =>
    rw [onRecords_none hr]
    exact nofun
  | some r =>
    rw [onRecords_some hr]
    exact nofun

theorem returns_accepted (answer : Option (Except StateError α)) :
    Returns (accepted answer : Client W (Option α)) := by
  rcases answer with _ | e | a
  · exact returns_pure _
  · exact returns_fail _
  · exact returns_pure _

theorem comes_nowMs {p : ℕ → UInt32 → Client W α}
    (h : Comes (fun turns => p turns (env.nowMs s.world).1) (nowMs env s).2) :
    Comes (fun turns => nowMs env >>= p turns) s := by
  refine Ends.bind (p := fun _ => nowMs env) (Prog.ends_of_ne nofun) ?_
  rintro now t ⟨-, hnow⟩
  obtain ⟨hok, rfl⟩ := Prod.mk.inj hnow
  obtain rfl := Except.ok.inj hok
  exact h

theorem clearAll_returns (key : UInt16 → UInt32) (ids : List UInt16) :
    Returns (clearAll env key ids) := by
  induction ids with
  | nil => exact returns_pure _
  | cons packetId ids ih => exact Returns.bind (fun _ => nofun) fun _ => ih

theorem handleCleanSession_returns : Returns (handleCleanSession env) := by
  refine (returns_update _).bind fun _ => checks_context.returns.bind fun c => ?_
  cases c.records with
  | none => exact returns_pure _
  | some r =>
    exact Returns.bind (.ite (clearAll_returns _ _) (returns_pure _)) fun _ =>
      Returns.bind (.ite (clearAll_returns _ _) (returns_pure _)) fun _ => returns_update _

theorem clearAll_patient (patience : ℕ) (key : UInt16 → UInt32) (ids : List UInt16) :
    clearAll (env.patient patience) key ids = clearAll env key ids := by
  induction ids with
  | nil => rfl
  | cons packetId ids ih =>
    rw [clearAll, clearAll, ih]
    rfl

theorem handleCleanSession_patient (patience : ℕ) :
    handleCleanSession (env.patient patience) = handleCleanSession env := by
  simp only [handleCleanSession, clearAll_patient]
  rfl

theorem resendFrom_comes {next : PublishRecords → ℕ → Option UInt16 × ℕ}
    {resend : ℕ → UInt16 → Client W Unit}
    (hresend : ∀ packetId s, Comes (fun patience => resend patience packetId) s) (turns cursor : ℕ)
    (s : Sys W) : Comes (fun patience => resendFrom next (resend patience) turns cursor) s := by
  induction turns generalizing cursor s with
  | zero => exact (returns_pure ()).comes
  | succ turns ih =>
    refine Ends.bind checks_context.returns.comes fun c t _ => ?_
    rcases (c.records.map fun r => next r cursor).getD (none, cursor) with ⟨_ | packetId, cursor⟩
    · exact (returns_pure ()).comes
    · exact Ends.bind (hresend packetId t) fun _ u _ => ih cursor u

theorem resendAll_comes {next : PublishRecords → ℕ → Option UInt16 × ℕ}
    {resend : ℕ → UInt16 → Client W Unit}
    (hresend : ∀ packetId s, Comes (fun patience => resend patience packetId) s) (s : Sys W) :
    Comes (fun patience => resendAll next (resend patience)) s :=
  Ends.bind checks_context.returns.comes fun _ t _ => resendFrom_comes hresend _ _ t

theorem preparing_returns (options : Connect) : Returns (preparing options : Client W _) := by
  have hchecks : Returns (checkConnectProperties options : Client W Unit) :=
    checks_context.returns.bind fun _ => .ite (returns_update _)
      ((checks_check _ _).returns.bind fun _ => (returns_update _).bind fun _ => returns_refuse _ _)
  exact (checks_check _ _).when.returns.bind fun _ => hchecks.bind fun _ =>
    checks_context.returns.bind fun _ => (checks_check _ _).returns.bind fun _ =>
      (checks_check _ _).returns.bind fun _ => returns_pure _

theorem comes_closing {p : ℕ → Client W Unit} (h : Comes p s) :
    Comes (fun patience => closing (p patience)) s := by
  obtain ⟨run, hended, hcut, enough, hsoon⟩ := h
  have henough : p enough s = run := hsoon enough le_rfl
  subst henough
  have hclosing {patience : ℕ} (hrun : p patience s = p enough s) :
      closing (p patience) s = closing (p enough) s := by
    rw [closing_apply, closing_apply, hrun]
  refine ⟨closing (p enough) s, ?_, fun patience => ?_, enough, fun patience hmore => ?_⟩
  · rw [closing_fst]
    exact hended
  · rcases hcut patience with hrun | hout
    · exact .inl (hclosing hrun)
    · exact .inr ((closing_fst _ _).trans hout)
  · exact hclosing (hsoon patience hmore)

section Sends

variable {slack : W → ℕ} (h : Drains env slack)

include h

theorem bufferTurn_falls (buffer : List UInt8) (start : UInt32) (sent : ℕ) (s : Sys W) :
    Prog.Turned (fun sent' t => True ∧ (buffer.length - sent' < buffer.length - sent ∨
        buffer.length - sent' = buffer.length - sent ∧ slack t.world < slack s.world))
      (fun answer _ => ∃ outcome, answer = .ok outcome) (bufferTurn env buffer start sent s) := by
  have hstalls {outcome : Sent} {u : Sys W} (hlen : sent < buffer.length)
      (hsend : send env (buffer.drop sent) s = (.ok outcome, u))
      (h' : outcome = .nothing ∨ outcome = .bytes 0) : slack u.world < slack s.world := by
    have hsome : buffer.drop sent ≠ [] := fun hnone => hlen.not_ge (List.drop_eq_nil_iff.mp hnone)
    obtain ⟨houtcome, rfl⟩ := Prod.mk.inj hsend
    exact h.send hsome (Except.ok.inj houtcome ▸ h')
  have hturn := bufferTurn_cases env buffer start sent s
  generalize bufferTurn env buffer start sent s = run at hturn ⊢
  cases hturn with
  | whole => exact ⟨_, rfl⟩
  | failed => exact ⟨_, rfl⟩
  | nothing hlen hsend =>
    refine .ite ⟨trivial, .inr ⟨rfl, ?_⟩⟩ ⟨_, rfl⟩
    exact (h.clock _).trans_lt (hstalls hlen hsend (.inl rfl))
  | @bytes u count n hlen hsend hn =>
    refine .ite ⟨trivial, ?_⟩ ⟨_, rfl⟩
    rcases Nat.eq_zero_or_pos count with rfl | hcount
    · refine .inr ⟨by rw [hn, Nat.zero_min, Nat.add_zero], ?_⟩
      exact ((h.clock _).trans (h.clock _)).trans_lt (hstalls hlen hsend (.inr rfl))
    · exact .inl (by omega)

theorem vectorsTurn_falls {vectors : List (List UInt8)} (start : UInt32)
    {place : ℕ × List (List UInt8)} (hplace : place.2.flatten = vectors.flatten.drop place.1)
    (s : Sys W) :
    Prog.Turned (fun place' t => place'.2.flatten = vectors.flatten.drop place'.1 ∧
        (vectors.flatten.length - place'.1 < vectors.flatten.length - place.1 ∨
          vectors.flatten.length - place'.1 = vectors.flatten.length - place.1 ∧
            slack t.world < slack s.world))
      (fun answer _ => ∃ outcome, answer = .ok outcome)
      (vectorsTurn env vectors.flatten.length start place s) := by
  have hadvance (taken : ℕ) :
      (advance taken place.2).flatten = vectors.flatten.drop (place.1 + taken) := by
    rw [flatten_advance, hplace, List.drop_drop]
  have hstalls {outcome : Sent} {u : Sys W} (hlen : place.1 < vectors.flatten.length)
      (hsend : writev env place.2 s = (.ok outcome, u))
      (h' : outcome = .nothing ∨ outcome = .bytes 0) : slack u.world < slack s.world := by
    have hsome : place.2.flatten ≠ [] := by
      rw [hplace]
      exact fun hnone => hlen.not_ge (List.drop_eq_nil_iff.mp hnone)
    obtain ⟨houtcome, rfl⟩ := Prod.mk.inj hsend
    exact h.writev hsome (Except.ok.inj houtcome ▸ h')
  have hturn := vectorsTurn_cases env vectors.flatten.length start place s
  generalize vectorsTurn env vectors.flatten.length start place s = run at hturn ⊢
  cases hturn with
  | whole => exact ⟨_, rfl⟩
  | failed => exact ⟨_, rfl⟩
  | nothing hlen hsend =>
    refine .ite ⟨hadvance 0, .inr ⟨rfl, ?_⟩⟩ ⟨_, rfl⟩
    exact (h.clock _).trans_lt (hstalls hlen hsend (.inl rfl))
  | @bytes u count taken hless hsend htaken =>
    have hlen : place.1 < vectors.flatten.length := Nat.lt_of_le_of_lt (Nat.le_add_right _ _) hless
    refine .ite ⟨hadvance taken, ?_⟩ ⟨_, rfl⟩
    rcases Nat.eq_zero_or_pos count with rfl | hcount
    · refine .inr ⟨by rw [htaken, Nat.zero_min, Nat.add_zero], ?_⟩
      exact ((h.clock _).trans (h.clock _)).trans_lt (hstalls hlen hsend (.inr rfl))
    · exact .inl (by dsimp only; omega)
  | last => exact ⟨_, rfl⟩

theorem sendBuffer_comes (buffer : List UInt8) (s : Sys W) :
    Comes (fun patience => sendBuffer (env.patient patience) buffer) s := by
  have hfinishes : ∃ turns, (Prog.loop (bufferTurn env buffer (env.nowMs s.world).1) .blocked turns
      0).Finishes (nowMs env s).2 :=
    Prog.finishes_of_falling (fun _ _ => True) (fun sent _ => buffer.length - sent)
      (fun _ t => slack t.world) (fun _ => bufferTurn_falls h buffer _ _ _) trivial
  obtain ⟨turns, hfinishes⟩ := hfinishes
  exact comes_nowMs (Prog.ends_loop hfinishes)

theorem sendVectors_comes (vectors : List (List UInt8)) (s : Sys W) :
    Comes (fun patience => sendVectors (env.patient patience) vectors) s := by
  have hfinishes : ∃ turns, (Prog.loop (vectorsTurn env vectors.flatten.length (env.nowMs s.world).1)
      .blocked turns (0, vectors)).Finishes (nowMs env s).2 :=
    Prog.finishes_of_falling (fun place _ => place.2.flatten = vectors.flatten.drop place.1)
      (fun place _ => vectors.flatten.length - place.1) (fun _ t => slack t.world)
      (fun hplace => vectorsTurn_falls h _ hplace _) rfl
  obtain ⟨turns, hfinishes⟩ := hfinishes
  exact comes_nowMs (Prog.ends_loop hfinishes)

theorem resendStored_comes (key : UInt32) (s : Sys W) :
    Comes (fun patience => resendStored (env.patient patience) key) s := by
  refine Ends.bind (p := fun _ => retrieve env key) (Prog.ends_of_ne nofun) fun packet t _ => ?_
  refine Ends.bind (p := fun _ => orFail .publishRetrieveFailed packet) ?_ fun packet u _ => ?_
  · cases packet with
    | none => exact (returns_fail _).comes
    | some packet => exact (returns_pure _).comes
  refine Ends.bind (p := fun _ => refuse _ _) (returns_refuse _ _).comes fun _ v _ => ?_
  exact Ends.bind (sendBuffer_comes h packet v) fun outcome w _ => (returns_refuse _ _).comes

theorem sendPublishAcks_comes (packetId : UInt16) (state : PublishState) (s : Sys W) :
    Comes (fun patience => sendPublishAcks (env.patient patience) packetId state) s := by
  unfold sendPublishAcks
  cases ackFromPacketType (ackTypeToSend state) with
  | none => exact (returns_pure _).comes
  | some ack =>
    refine Ends.bind (checks_check _ _).returns.comes fun written t _ => ?_
    refine Ends.bind checks_connected.returns.comes fun _ u _ => ?_
    refine Ends.bind (sendBuffer_comes h _ u) fun outcome v _ => ?_
    exact Returns.comes ((returns_refuse _ _).bind fun _ => (returns_update _).bind fun _ =>
      (returns_onRecords _ _).bind fun _ => (returns_accepted _).bind fun _ => returns_pure _)

theorem handleUncleanSession_comes (s : Sys W) :
    Comes (fun patience => handleUncleanSession (env.patient patience)) s := by
  refine Ends.bind (resendAll_comes (fun packetId s => ?_) s) fun _ t _ => ?_
  · exact Ends.ite (c := env.storing = true) (fun _ => resendStored_comes h (incomingKey packetId) s)
      fun _ => sendPublishAcks_comes h packetId .pubRelSend s
  · exact Ends.when (c := env.storing = true) fun _ =>
      resendAll_comes (fun packetId s => resendStored_comes h packetId.toUInt32 s) t

theorem resume_comes (cleanSession : Bool) (connack : ConnAck) (s : Sys W) :
    Comes (fun patience => resume (env.patient patience) cleanSession connack) s := by
  refine Ends.bind (returns_modify _).comes fun _ t _ => ?_
  refine Ends.bind (returns_update _).comes fun _ u _ => ?_
  refine Ends.bind (returns_refuse _ _).comes fun _ v _ => ?_
  refine Ends.bind (returns_refuse _ _).comes fun _ w _ => ?_
  refine Ends.bind (returns_update _).comes fun _ x _ => ?_
  simp only [handleCleanSession_patient]
  refine Ends.bind (p := fun _ => Prog.get) returns_get.comes fun before y _ => ?_
  refine Ends.bind (p := fun _ => Prog.when (before.sessionPresent = false) (handleCleanSession env))
    (Returns.ite handleCleanSession_returns (returns_pure _)).comes fun _ z _ => ?_
  refine Ends.bind (returns_update _).comes fun _ z _ => ?_
  exact Ends.when fun _ => handleUncleanSession_comes h z

theorem sendConnect_comes (connect : Connect) (remainingLength : ℕ) (s : Sys W) :
    Comes (fun patience => sendConnect (env.patient patience) connect remainingLength) s := by
  refine Ends.bind (returns_refuse _ _).comes fun _ t _ => ?_
  refine Ends.bind (returns_update _).comes fun _ u _ => ?_
  refine Ends.bind (returns_refuse _ _).comes fun _ v _ => ?_
  refine Ends.bind (returns_refuse _ _).comes fun _ w _ => ?_
  refine Ends.bind (Ends.when (c := connect.properties ≠ []) fun _ => Returns.comes ?_)
    fun _ x _ => ?_
  · intro s
    unfold announce
    dsimp only
    rcases (updateWithConnectProps connect.properties s.context.properties).1 with e | _
    · simp [Except.mapError]
    · simp [Except.mapError]
  refine Ends.bind (checks_pushConnect _ _).returns.comes fun v y _ => ?_
  exact Ends.bind (sendVectors_comes h _ y) fun outcome z _ => (returns_refuse _ _).comes

end Sends

section Reads

variable {pending : W → List UInt8} {late : ℕ} {gap : W → ℕ} (hfeeds : Feeds env pending late)
  (hstirs : Stirs env pending gap)

include hfeeds hstirs

/-- Each turn has fewer bytes to go, or as many and fewer empty reads before the next of them. -/
theorem recvExactFrom_comes {wanted total : ℕ} (lastData : UInt32) {s : Sys W}
    (hstream : wanted ≤ total + (pending s.world).length) :
    Comes (fun turns => recvExactFrom env wanted turns total lastData) s := by
  induction hleft : wanted - total using Nat.strongRecOn generalizing total lastData s with
  | ind left ihLeft =>
  induction hgap : gap s.world using Nat.strongRecOn generalizing lastData s with
  | ind idle ihGap =>
    obtain ⟨outcome, hends⟩ | ⟨hmore, into, t, hinto, ht, hstep⟩ :=
      @recvExactFrom_cases _ env wanted total lastData s
    · exact Ends.later (q := fun _ => pure outcome) (t := s) rfl hends (Prog.ends_of_ne nofun)
    refine Ends.later rfl hstep ?_
    have hsome : into ≠ [] := by
      rintro rfl
      rw [List.length_nil] at hinto
      omega
    have hrest : pending s.world ≠ [] := by
      intro hnone
      rw [hnone, List.length_nil] at hstream
      omega
    rcases hrecv : env.recv into s.world with ⟨⟨outcome, data⟩, w⟩
    have hworld : (nowMs env t).2.world = (env.nowMs w).2 := by
      rw [hrecv] at ht
      exact congrArg (fun w => (env.nowMs w).2) ht
    have hempty (hnothing : outcome = .nothing ∨ outcome = .bytes 0)
        (hsame : pending w = pending s.world) (now : UInt32) :
        Comes (fun turns => if recvPollingTimeoutMs ≤ elapsedMs now lastData then
          pure (.bytes total) else recvExactFrom env wanted turns total lastData) (nowMs env t).2 := by
      refine .ite (fun _ => (returns_pure _).comes) fun _ => ?_
      have hless : gap (env.nowMs w).2 < gap s.world := by
        have hfewer := hstirs.recv hsome hrest (by rw [hrecv]; exact hnothing)
        rw [hrecv] at hfewer
        exact (hstirs.clock w).trans_lt hfewer
      refine ihGap (gap (env.nowMs w).2) (hgap ▸ hless) lastData ?_ (by rw [hworld])
      rw [hworld, hfeeds.clock, hsame]
      exact hstream
    cases outcome with
    | failed => exact Prog.ends_of_ne nofun
    | nothing => exact comes_nowMs (hempty (.inl rfl) (hfeeds.nothing hrecv) _)
    | bytes count =>
      obtain ⟨hcount, -, hw⟩ := hfeeds.bytes hrecv
      apply comes_nowMs
      by_cases hzero : count = 0
      · subst hzero
        exact hempty (.inr rfl) (by simpa using hw) _
      · simp only [if_neg hzero]
        refine ihLeft _ (by omega) _ ?_ rfl
        rw [hworld, hfeeds.clock, hw, List.length_drop]
        omega

theorem recvExact_comes {wanted : ℕ} {s : Sys W} (hstream : wanted ≤ (pending s.world).length) :
    Comes (fun patience => recvExact (env.patient patience) wanted) s := by
  apply comes_nowMs
  simp only [recvExactFrom_patient]
  apply recvExactFrom_comes hfeeds hstirs
  rw [Nat.zero_add]
  exact hstream.trans_eq (congrArg _ (hfeeds.clock s.world).symm)

variable {header : PacketHeader} {body rest : List UInt8} (hlate : late ≤ (body ++ rest).length)
  (hwf : header.WellFormed) (hbody : body.length = header.remainingLength)

include hlate hwf

omit hstirs in
theorem readConnackHeader_comes (hs : pending s.world = header.encoded ++ (body ++ rest))
    (entry timeoutMs : UInt32) (loopCount : ℕ) :
    Comes (fun turns => readConnackHeader env entry timeoutMs turns loopCount) s := by
  obtain ⟨u, hread, -, -⟩ := readHeader_fed hfeeds hlate hwf hs
  have hattempt : attempt (readHeader env) s = (.ok (.ok header), u) := by
    rw [attempt, hread]
  by_cases htimeout : 0 < timeoutMs
  · exact Ends.later (q := fun _ => pure (.ok header)) rfl
      (fun turns => readConnackHeader_of_timeout htimeout hattempt turns loopCount)
      (returns_pure _).comes
  · obtain rfl : timeoutMs = 0 := UInt32.le_zero_iff.mp (UInt32.not_lt.mp htimeout)
    exact Ends.later (q := fun _ => pure (.ok header)) rfl
      (fun turns => readConnackHeader_of_retries hattempt turns loopCount) (returns_pure _).comes

include hbody

theorem readConnack_comes (hs : pending s.world = header.encoded ++ (body ++ rest))
    (timeoutMs : UInt32) : Comes (fun patience => readConnack (env.patient patience) timeoutMs) s := by
  apply comes_nowMs
  have ht : pending (nowMs env s).2.world = header.encoded ++ (body ++ rest) :=
    (hfeeds.clock s.world).trans hs
  simp only [readConnackHeader_patient]
  refine Ends.bind (readConnackHeader_comes hfeeds hlate hwf ht _ timeoutMs 0) ?_
  rintro found u ⟨turns, hread⟩
  obtain ⟨hfound, -, -, hpending, -⟩ :=
    readConnackHeader_fed (h := {}) hfeeds hlate hwf ht hread (by simp) rfl
  obtain rfl := Except.ok.inj hfound
  refine Ends.bind (p := fun _ => pure header) (returns_pure _).comes ?_
  rintro _ _ ⟨-, hsame⟩
  obtain ⟨hheader, rfl⟩ := Prod.mk.inj hsame
  obtain rfl := Except.ok.inj hheader
  refine Ends.bind (returns_refuse _ _).comes ?_
  rintro _ v ⟨-, hv⟩
  obtain rfl := (checks_refuse _ _).same hv
  refine Ends.bind ?_ fun _ w _ => ?_
  · refine Ends.bind checks_context.returns.comes ?_
    rintro c _ ⟨-, hc⟩
    obtain rfl := checks_context.same hc
    refine Ends.bind (returns_refuse _ _).comes ?_
    rintro _ _ ⟨-, hroom⟩
    obtain rfl := (checks_refuse _ _).same hroom
    refine Ends.bind (recvExact_comes hfeeds hstirs ?_) fun _ x _ => (returns_refuse _ _).comes
    rw [hpending, List.length_append, hbody]
    exact Nat.le_add_right _ _
  · exact (checks_context.bind fun _ => checks_check _ _).returns.comes

theorem connect_comes {slack : W → ℕ} (hsends : Drains env slack) (options : Connect) (timeoutMs : UInt32)
    (hs : pending s.world = header.encoded ++ (body ++ rest)) :
    Comes (fun patience => connect (env.patient patience) options timeoutMs) s := by
  simp only [connect_eq]
  refine Ends.bind (preparing_returns options).comes ?_
  rintro ⟨outgoing, size⟩ t ⟨-, hprepared⟩
  have ht : Unread pending s t := (preparing_unread options).yields _ _ _ hprepared
  apply comes_closing
  simp only [connectInner_eq]
  refine Ends.bind (sendConnect_comes hsends outgoing size.remainingLength t) ?_
  rintro _ u ⟨patience, hsent⟩
  have hu : Unread pending t u :=
    (sendConnect_unread (hfeeds.patient patience) outgoing size.remainingLength).yields _ _ _ hsent
  refine Ends.bind ?_ fun connack v _ => resume_comes hsends _ connack v
  exact readConnack_comes hfeeds hstirs hlate hwf hbody (hu.1.trans (ht.1.trans hs)) timeoutMs

end Reads

end Client

end RtosMqtt
