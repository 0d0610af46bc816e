import RtosMqtt.Client.Connected
import RtosMqtt.Client.Opening
import RtosMqtt.Client.Scripted
import RtosMqtt.Client.Sweep
import RtosMqtt.Client.Unsent
import RtosMqtt.State.Positions

/-! # At most the Receive Maximum in flight

Each side announces how many messages it takes before it acknowledges the first.
A connect cuts the arrays of records to these numbers before it opens the
connection, and no call makes an array longer.
-/

namespace RtosMqtt

variable {W : Type}

/-- Neither array is longer than its Receive Maximum: the broker's for the messages that go out, the
client's own for those that arrive. -/
def Rationed (s : Sys W) : Prop := ∀ r, s.context.records = some r →
  r.outgoing.length ≤ s.context.properties.server.receiveMax.toNat ∧
    r.incoming.length ≤ s.context.properties.client.receiveMax.toNat

def Metered (s : Sys W) : Prop := s.context.connectStatus = .connected → Rationed s

section Rationed

variable {s t : Sys W}

theorem Rationed.congr (hs : Rationed s) (hrecords : t.context.records = s.context.records)
    (hproperties : t.context.properties = s.context.properties) : Rationed t := by
  intro r hr
  rw [hrecords] at hr
  rw [hproperties]
  exact hs r hr

theorem Rationed.sameLengths {r r' : PublishRecords} (hs : Rationed s)
    (hr : s.context.records = some r) (hout : r'.outgoing.length = r.outgoing.length)
    (hin : r'.incoming.length = r.incoming.length) (log : List Observation) :
    Rationed { s with context := { s.context with records := some r' }, log } := by
  intro r'' hr''
  obtain rfl := Option.some.inj hr''
  rw [hout, hin]
  exact hs r hr

theorem Metered.adjust (hs : Metered s) (h : Adjusts s.context t.context) : Metered t :=
  fun hopen => (hs (h.status hopen)).congr h.records h.properties

theorem metered_of_closed (hs : s.context.connectStatus ≠ .connected) : Metered s :=
  fun hopen => absurd hopen hs

end Rationed

theorem length_overwrite {α : Type} (new old : List α) :
    (overwrite new old).length = old.length := by
  simp only [overwrite, List.length_append, List.length_take, List.length_drop]
  omega

def Invocation.handsOver : Invocation → Bool
  | .request (.enableQos _ _ _) => true
  | _ => false

theorem Invocation.connects_of_handsOver {call : Invocation} (h : call.handsOver = true) :
    call.connects = false := by
  unfold Invocation.handsOver at h
  split at h
  · rfl
  · cases h

namespace Client

variable {env : Environment W}

theorem onRecords_metered {α : Type} {c : Call}
    {f : PublishRecords → Except StateError α × PublishRecords}
    (hf : ∀ r, r.call c = ((f r).1.map fun _ => (), (f r).2)) :
    (onRecords c f : Client W _).Moves (Keeping Metered) := by
  refine onRecords_moves hf ?_
  intro s r hr hs hopen
  obtain ⟨hout, hin⟩ := r.length_call c
  exact (hs hopen).sameLengths hr hout hin _

theorem keep_metered (key : UInt32) (parts : List (List UInt8)) :
    (keep env key parts).Moves (Keeping Metered) :=
  .ite (Prog.Moves.bind (fun _ hs => hs) fun _ => refuse_moves _ _) (.pure _)

theorem receiveAck_metered (total : ℕ) : (receiveAck env total).Moves (Keeping Metered) := by
  apply receiveAck_moves
  · exact fun packetId ack =>
      onRecords_metered (c := .updateAck packetId ack .receive) fun _ => rfl
  · exact fun _ => .ite (fun _ hs => hs) (.pure _)

theorem dispatch_metered (e : Event) (wantsReply : Bool) :
    (dispatch env e wantsReply).Moves (Keeping Metered) := fun _ hs => hs.adjust ⟨rfl, rfl, id⟩

variable (env) in
theorem metered_rounds : Rounds env (Keeping Metered) where
  clock _ hs := hs
  recv _ _ hs := hs
  send _ _ hs := hs
  writev _ _ hs := hs
  retrieve _ _ hs := hs
  keep _ parts := keep_metered _ parts
  receiveAck := receiveAck_metered
  adjust _ _ hc hs := hs.adjust hc
  call _ r c hr _ hs hopen :=
    (hs hopen).sameLengths hr (r.length_call c).1 (r.length_call c).2 _
  event e wantsReply s _ := dispatch_metered e wantsReply s

theorem updatePublish_metered (packetId : UInt16) (op : Operation) (qos : QoS) :
    (updatePublish packetId op qos : Client W _).Moves (Keeping Metered) :=
  onRecords_metered (c := .updatePublish packetId op qos) fun _ => rfl

theorem handleIncomingPublish_metered (total : ℕ) :
    (handleIncomingPublish env total).Moves (Keeping Metered) :=
  (metered_rounds env).handleIncomingPublish
    (receivePublish_moves fun packetId qos => updatePublish_metered packetId .receive qos)
    dispatch_metered total

theorem handleCleanSession_rationed :
    (handleCleanSession env).Moves (Keeping (Rationed (W := W))) := by
  apply handleCleanSession_moves
  · intro s t hio hs
    obtain ⟨⟨status, now, hcontext⟩, -, -⟩ := hio
    exact hs.congr (by rw [hcontext]) (by rw [hcontext])
  · exact fun s hs => hs.congr rfl rfl
  · intro s r hr hs
    exact hs.sameLengths hr (List.length_map _) (List.length_map _) s.log

theorem settle_metered (s : Sys W) : Metered (settle env s).2 := by
  have hcapped : Rationed (capRecords s).2 := by
    intro r hr
    rw [capRecords, update_apply] at hr
    obtain ⟨before, -, rfl⟩ := Option.map_eq_some_iff.mp hr
    rw [PublishRecords.cap_outgoing, PublishRecords.cap_incoming]
    exact ⟨List.length_take_le _ _, List.length_take_le _ _⟩
  rw [settle, Prog.bind_of_ok (show capRecords s = (.ok (), (capRecords s).2) from rfl),
    Prog.get_bind_apply]
  generalize (capRecords s).2 = u at hcapped
  have hcleaned : Rationed (Prog.when (u.sessionPresent = false) (handleCleanSession env) u).2 :=
    (Prog.Moves.when handleCleanSession_rationed : Prog.Moves (Keeping Rationed) _) u hcapped
  rcases hrun : Prog.when (u.sessionPresent = false) (handleCleanSession env) u with ⟨e | _, v⟩
  · rw [hrun] at hcleaned
    rw [Prog.bind_of_error hrun]
    exact fun _ => hcleaned
  · rw [hrun] at hcleaned
    rw [Prog.bind_of_ok hrun, Prog.bind_of_ok (update_apply _ v)]
    have hresumed : (Prog.when (u.sessionPresent = true) (handleUncleanSession env)).Moves
        (Keeping Metered) := .when (metered_rounds env).handleUncleanSession
    exact hresumed _ fun _ => hcleaned.congr rfl rfl

theorem preparing_metered (options : Connect) :
    (preparing options : Client W _).Moves (Keeping Metered) := by
  have hchecked : (checkConnectProperties options : Client W Unit).Moves (Keeping Metered) := by
    refine context_moves.bind fun _ => .ite (fun _ hs hopen => hs hopen) ?_
    exact (check_moves _ _).bind fun _ => Prog.Moves.bind (fun _ hs hopen => hs hopen) fun _ =>
      refuse_moves _ _
  exact (Prog.Moves.when (check_moves _ _)).bind fun _ => hchecked.bind fun _ =>
    context_moves.bind fun _ => (check_moves _ _).bind fun _ => (check_moves _ _).bind fun _ =>
      .pure _

theorem preparing_notConnected {options : Connect} {p : Connect × PacketSize} {s t : Sys W}
    (h : preparing options s = (.ok p, t)) : t.context.connectStatus = .notConnected := by
  rw [preparing, Prog.bind_eq_ok] at h
  obtain ⟨_, u, -, h⟩ := h
  rw [Prog.bind_eq_ok] at h
  obtain ⟨_, v, -, h⟩ := h
  rw [Prog.bind_of_ok (context_apply v), Prog.bind_eq_ok] at h
  obtain ⟨size, w, hsize, h⟩ := h
  obtain ⟨-, rfl⟩ := check_eq_ok.mp hsize
  rw [Prog.bind_eq_ok] at h
  obtain ⟨_, x, hclosed, h⟩ := h
  obtain ⟨hstatus, rfl⟩ := check_eq_ok.mp hclosed
  obtain ⟨-, rfl⟩ := Prod.mk.inj h
  unfold notYetConnected at hstatus
  split at hstatus
  · assumption
  · cases hstatus
  · cases hstatus

theorem connectInner_metered (options : Connect) (timeoutMs : UInt32) (size : PacketSize)
    {s : Sys W} (hs : s.context.connectStatus = .notConnected) :
    Metered (connectInner env options timeoutMs size s).2 := by
  have hclosed {t : Sys W} (ht : t.context.connectStatus = .notConnected) : Metered t :=
    metered_of_closed (by rw [ht]; decide)
  have hall : ∀ act : Act, act.opening = true → True := fun _ _ => trivial
  have hreads : Reads env (Unopened env fun _ => True) := reads_unopened hall
  have hsending : (sendConnect env options size.remainingLength).Moves
      (Unopened env fun _ => True) := sendConnect_unopened hall options size.remainingLength
  rw [connectInner_eq]
  have hsent := (hsending s hs).2
  rcases hsend : sendConnect env options size.remainingLength s with ⟨e | _, t⟩
  · rw [hsend] at hsent
    rw [Prog.bind_of_error hsend]
    exact hclosed hsent
  rw [hsend] at hsent
  have hheard := (readConnack_moves hreads timeoutMs t hsent).2
  rw [Prog.bind_of_ok hsend]
  rcases hread : readConnack env timeoutMs t with ⟨e | connack, u⟩
  · rw [hread] at hheard
    rw [Prog.bind_of_error hread]
    exact hclosed hheard
  rw [hread] at hheard
  rw [Prog.bind_of_ok hread, resume, Prog.modify_bind_apply, Prog.bind_of_ok (update_apply _ _),
    Client.refuse, Prog.refuse_bind_apply]
  split_ifs
  · exact hclosed hheard
  rw [Client.refuse, Prog.refuse_bind_apply]
  split_ifs
  · exact hclosed hheard
  · exact settle_metered _

theorem connect_metered (options : Connect) (timeoutMs : UInt32) :
    (connect env options timeoutMs).Moves (Keeping Metered) := by
  intro s hs
  have hprepared := preparing_metered options s hs
  rw [connect_eq]
  rcases hrun : preparing options s with ⟨e | p, t⟩
  · rw [hrun] at hprepared
    rw [Prog.bind_of_error hrun]
    exact hprepared
  · rw [Prog.bind_of_ok hrun]
    have hinner : Metered (connectInner env p.1 timeoutMs p.2 t).2 :=
      connectInner_metered p.1 timeoutMs p.2 (preparing_notConnected hrun)
    dsimp only
    rw [closing_apply]
    dsimp only
    split
    · exact (metered_rounds env).connectionLost _ hinner
    · exact hinner

/-- A message without a free record is refused before a byte of it goes out. -/
theorem publish_of_full {message : OutgoingPublish} {packetId : UInt16} {s : Sys W}
    (hqos : message.qos ≠ .atMostOnce) (hfresh : packetId ∉ inFlightIds s.context.outgoing)
    (hfull : s.context.outgoing.length ≤ (inFlight s.context.outgoing).length) :
    ∃ e t, publish env message packetId s = (.error (.error e), t) ∧ ¬ Offers s t ∧
      inFlight t.context.outgoing = inFlight s.context.outgoing := by
  rw [publish_eq, Prog.bind_apply, preparePublish_apply]
  cases hcheck : checkPublish s.context message packetId with
  | error e =>
    refine ⟨_, s, rfl, ?_, rfl⟩
    rintro ⟨parts, outcome, standing, hmem, -⟩
    rw [noted, List.drop_length] at hmem
    cases hmem
  | ok size =>
    obtain ⟨hid, r, hr⟩ := records_of_checkPublish hcheck hqos
    rw [outgoing_eq hr] at hfresh hfull
    have hreserved : ∃ e, (r.reserve packetId message.qos).1 = .error e ∧ e ≠ .stateCollision ∧
        inFlight (r.reserve packetId message.qos).2.outgoing = inFlight r.outgoing := by
      have heff := r.reserve_spec packetId message.qos
      generalize r.reserve packetId message.qos = result at heff ⊢
      cases heff with
      | unrecorded hq => exact absurd hq hqos
      | zero _ hzero => exact absurd hzero hid
      | recorded _ _ result hadded =>
        cases hadded with
        | collision hmem => exact absurd hmem hfresh
        | full => exact ⟨_, rfl, by decide, inFlight_settled _⟩
        | appended array hmem hroom => exact absurd hfull (Nat.not_le.mpr hroom)
    obtain ⟨e, hanswer, hother, hsame⟩ := hreserved
    have hstate := (reservePublish_apply message packetId hr).1
    have hrefused : ∃ e, (reservePublish message packetId s).1 = .error (.error e) := by
      rw [reservePublish, reserve, Prog.bind_of_ok (onRecords_some hr), hanswer, Prog.when,
        if_pos fun h => hother (Except.error.inj (Option.some.inj h.1))]
      exact ⟨_, rfl⟩
    obtain ⟨e, hstop⟩ := hrefused
    dsimp only
    rw [registerPublish, Prog.when_bind_of hqos, Prog.bind_of_error (Prod.ext hstop hstate)]
    refine ⟨e, asked s r message packetId, rfl, ?_, ?_⟩
    · rintro ⟨parts, outcome, standing, hmem, -⟩
      have hnoted : noted s (asked s r message packetId) = [.recorded r
          (.reserve packetId message.qos) ((r.reserve packetId message.qos).1.map fun _ => ())] :=
        noted_eq rfl
      rw [hnoted] at hmem
      cases List.mem_singleton.mp hmem
    · rw [outgoing_eq hr]
      exact hsame

theorem perform_metered {call : Invocation} {s : Sys W}
    (hhands : call.handsOver = true → s.context.connectStatus ≠ .connected) (hs : Metered s) :
    Metered (call.perform env s).2 := by
  cases hrestores : call.restores with
  | false =>
    by_cases hcall : call.handsOver = true
    · apply metered_of_closed
      exact perform_closed (call.connects_of_handsOver hcall) (hhands hcall)
    apply (metered_rounds env).invocation handleIncomingPublish_metered hrestores ?_ ?_ ?_ s hs
    · rintro outgoing incoming ackProperties rfl
      exact absurd rfl hcall
    · exact fun options timeoutMs _ => connect_metered options timeoutMs
    · intro message packetId _
      exact (metered_rounds env).publish keep_metered
        (fun packetId qos => updatePublish_metered packetId .send qos) message packetId
  | true =>
    rcases call with _ | _ | _ | _ | _ | setting
    all_goals try cases hrestores
    cases setting with
    | records outgoing incoming =>
      intro hopen r hr
      obtain ⟨before, hbefore, rfl⟩ := Option.map_eq_some_iff.mp hr
      rw [length_overwrite, length_overwrite]
      exact hs hopen before hbefore
    | _ => cases hrestores

theorem run_metered {calls : List (Environment W × Invocation)} {s : Sys W}
    (hhands : ∀ before call after, calls = before ++ call :: after → call.2.handsOver = true →
      (afterAll s before).context.connectStatus ≠ .connected) (hs : Metered s) :
    Metered (afterAll s calls) := by
  induction calls generalizing s with
  | nil => exact hs
  | cons call calls ih =>
    have hnext : Metered (call.2.perform call.1 s).2 :=
      perform_metered (hhands [] call calls rfl) hs
    refine ih ?_ hnext
    rintro before other after rfl hother
    exact hhands (call :: before) other after rfl hother

/-- Whatever is called on a client that has no connection, if its arrays are handed over while none
is open: on an open connection no more messages are in flight, in either direction, than the
Receive Maximum of the side that takes them. With the broker's used up, a publish of a further
message is refused before a byte of it goes out, and those in flight stay. -/
theorem receiveMax_respected {calls : List (Environment W × Invocation)} {s t : Sys W}
    (hhands : ∀ before call after, calls = before ++ call :: after → call.2.handsOver = true →
      (afterAll s before).context.connectStatus ≠ .connected)
    (hs : s.context.connectStatus ≠ .connected) (ht : t = afterAll s calls)
    (hopen : t.context.connectStatus = .connected) :
    (inFlight t.context.outgoing).length ≤ t.context.properties.server.receiveMax.toNat ∧
      (inFlight t.context.incoming).length ≤ t.context.properties.client.receiveMax.toNat ∧
      ∀ (env : Environment W) (message : OutgoingPublish) (packetId : UInt16),
        message.qos ≠ .atMostOnce → packetId ∉ inFlightIds t.context.outgoing →
        (inFlight t.context.outgoing).length = t.context.properties.server.receiveMax.toNat →
        ∃ e u, publish env message packetId t = (.error (.error e), u) ∧ ¬ Offers t u ∧
          inFlight u.context.outgoing = inFlight t.context.outgoing := by
  have hrationed : Rationed t := by
    subst ht
    exact run_metered hhands (metered_of_closed hs) hopen
  have hlengths : t.context.outgoing.length ≤ t.context.properties.server.receiveMax.toNat ∧
      t.context.incoming.length ≤ t.context.properties.client.receiveMax.toNat := by
    rw [MqttContext.outgoing, MqttContext.incoming]
    cases hr : t.context.records with
    | none => exact ⟨Nat.zero_le _, Nat.zero_le _⟩
    | some r => exact hrationed r hr
  refine ⟨(List.length_filter_le _ _).trans hlengths.1,
    (List.length_filter_le _ _).trans hlengths.2, ?_⟩
  intro env message packetId hqos hfresh hused
  apply publish_of_full hqos hfresh
  rw [hused]
  exact hlengths.1

/-- A message of one byte that is to arrive once. -/
def singleByte (byte : UInt8) : OutgoingPublish where
  dup := false
  qos := .exactlyOnce
  retain := false
  topicName := [97]
  payload := [byte]
  properties := []

def oneInFlight : List (Environment Script × Invocation) :=
  let env := Script.environment false
  [(env, .request (.enableQos (List.replicate 2 Record.default) [] [])),
    (env, .request (.connect (Script.connect true []) 0)),
    (env, .request (.traffic (.publish (singleByte 10) 1)))]

/-- A broker that takes one message at a time. -/
def grantsOne : Script where
  reads := [Script.connack false [0x21, 0, 1]]
  sends := [.bytes 64, .bytes 64]

/-- The second message has a record of its own, and is refused. -/
theorem oneInFlight_respected :
    let t := afterAll (start (List.replicate 64 0) grantsOne) oneInFlight
    (inFlight t.context.outgoing).length = 1 ∧
      ∃ e u, publish (Script.environment false) (singleByte 20) 2 t = (.error (.error e), u) ∧
        ¬ Offers t u ∧ inFlight u.context.outgoing = inFlight t.context.outgoing := by
  have hone : (inFlight (afterAll (start (List.replicate 64 0) grantsOne)
      oneInFlight).context.outgoing).length = 1 := by
    decide +kernel
  have hhands : ∀ before call after, oneInFlight = before ++ call :: after →
      call.2.handsOver = true →
      (afterAll (start (List.replicate 64 0) grantsOne) before).context.connectStatus ≠
        .connected := by
    rintro (_ | ⟨first, before⟩) call after hcalls hcall
    · decide
    · have hmem : call ∈ oneInFlight.tail := by
        rw [hcalls]
        exact List.mem_append_right before List.mem_cons_self
      have hnone : ∀ call ∈ oneInFlight.tail, call.2.handsOver = false := by decide +kernel
      rw [hnone call hmem] at hcall
      cases hcall
  obtain ⟨-, -, hrefused⟩ :=
    receiveMax_respected hhands (by decide) rfl (by decide +kernel)
  exact ⟨hone, hrefused _ _ 2 (by decide) (by decide +kernel) (hone.trans (by decide +kernel))⟩

end Client

end RtosMqtt
