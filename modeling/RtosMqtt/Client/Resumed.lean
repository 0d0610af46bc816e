import RtosMqtt.Client.Negotiated
import RtosMqtt.Client.Reachable
import RtosMqtt.State.Positions

/-! # What a resumed session sends again

A resumed session caps the records first and then walks them. With a store it
sends the stored packet of every message in flight and leaves the records as they
are; without one it sends a bare PUBREL for every message that owes one.
-/

namespace RtosMqtt

variable {W : Type}

/-- The key of the packet that is sent again for a message. -/
def Record.storedKey (x : Record) : UInt32 :=
  if x.owesPubRel then incomingKey x.packetId else x.packetId.toUInt32

/-- The store returned a packet, and the packet went out whole. -/
def Resent (key : UInt32) (s t : Sys W) : Prop :=
  ∃ earlier io later packet,
    t.log = s.log ++ earlier ++ .retrieved key (some packet) :: (io ++ later) ∧
      (∀ o ∈ io, o.isIo = true) ∧ wire io = packet

theorem Resent.widen {key : UInt32} {s t u v : Sys W} (h : Resent key t u)
    (hst : Logs (fun _ => True) s t) (huv : Logs (fun _ => True) u v) : Resent key s v := by
  obtain ⟨earlier, io, later, packet, hlog, hio, hwire⟩ := h
  obtain ⟨before, hbefore, -⟩ := hst
  obtain ⟨after, hafter, -⟩ := huv
  refine ⟨before ++ earlier, io, later ++ after, packet, ?_, hio, hwire⟩
  rw [hafter, hlog, hbefore]
  simp

/-- Every outgoing message is still recorded, and no less far. -/
def Carried (s t : Sys W) : Prop := ∀ r, s.context.records = some r → r.WellFormed →
  ∃ r', t.context.records = some r' ∧ r.Carries r'

instance : IsPreorder (Sys W) Carried where
  refl _ r hr hwf := ⟨r, hr, .refl hwf⟩
  trans _ _ _ h h' r hr hwf := by
    obtain ⟨r', hr', hcarries⟩ := h r hr hwf
    obtain ⟨r'', hr'', hcarries'⟩ := h' r' hr' hcarries.wellFormed
    exact ⟨r'', hr'', hcarries.trans hcarries'⟩

theorem Quiet.carried {s t : Sys W} (h : Quiet s t) : Carried s t :=
  fun r hr hwf => ⟨r, h.records.trans hr, .refl hwf⟩

namespace Client

variable {env : Environment W}

theorem resendStored_eq_ok {key : UInt32} {s t : Sys W}
    (h : resendStored env key s = (.ok (), t)) : Resent key s t := by
  rw [resendStored, Prog.bind_eq_ok] at h
  obtain ⟨found, u, hretrieve, h⟩ := h
  rw [Prog.bind_eq_ok] at h
  obtain ⟨packet, v, hfound, h⟩ := h
  obtain ⟨rfl, rfl⟩ := orFail_eq_ok.mp hfound
  rw [Client.refuse, Prog.refuse_bind_eq_ok] at h
  obtain ⟨outcome, w, hsend, hwhole⟩ := Prog.bind_eq_ok.mp h.2
  obtain ⟨rfl, rfl⟩ := sentWhole_eq_ok.mp hwhole
  obtain ⟨io, hlog, hio, hwire⟩ := sendBuffer_sent env hsend
  obtain ⟨hanswer, rfl⟩ := Prod.mk.inj hretrieve
  rw [List.take_length] at hwire
  refine ⟨[], io, [], packet, ?_, hio, hwire⟩
  rw [hlog, List.append_nil]
  dsimp only
  rw [Except.ok.inj hanswer, List.append_nil, List.append_assoc]
  rfl

def resendEach (resend : UInt16 → Client W Unit) : List UInt16 → Client W Unit
  | [] => pure ()
  | packetId :: ids => do
    resend packetId
    resendEach resend ids

theorem resendEach_moves {R : Sys W → Sys W → Prop} [IsPreorder (Sys W) R]
    {resend : UInt16 → Client W Unit} (h : ∀ packetId, (resend packetId).Moves R)
    (ids : List UInt16) : (resendEach resend ids).Moves R := by
  induction ids with
  | nil => exact .pure _
  | cons packetId ids ih => exact (h packetId).bind fun _ => ih

theorem resendAll_eq {next : PublishRecords → ℕ → Option UInt16 × ℕ}
    {resend : UInt16 → Client W Unit} (hresend : ∀ packetId, (resend packetId).Moves Quiet)
    {s : Sys W} {r : PublishRecords} (hr : s.context.records = some r) :
    resendAll next resend s =
      resendEach resend (PublishRecords.resends (next r) (r.outgoing.length + 1) 0) s := by
  have hfrom (turns cursor : ℕ) (s : Sys W) (hr : s.context.records = some r) :
      resendFrom next resend turns cursor s =
        resendEach resend (PublishRecords.resends (next r) turns cursor) s := by
    induction turns generalizing cursor s with
    | zero => rfl
    | succ turns ih =>
      rw [resendFrom, Prog.bind_of_ok (context_apply s), hr, PublishRecords.resends, Option.map_some,
        Option.getD_some]
      rcases next r cursor with ⟨_ | packetId, cursor'⟩
      · rfl
      · have hstays := (hresend packetId s).records
        dsimp only
        rw [resendEach, Prog.bind_apply, Prog.bind_apply]
        rcases hrun : resend packetId s with ⟨_ | _, t⟩
        · rfl
        · rw [hrun] at hstays
          exact ih cursor' t (hstays.trans hr)
  have hlength : s.context.outgoing.length = r.outgoing.length := by
    rw [MqttContext.outgoing, hr]
    rfl
  rw [resendAll, Prog.bind_of_ok (context_apply s), hlength]
  exact hfrom _ _ s hr

theorem resendStored_quiet (key : UInt32) : (resendStored env key).Moves Quiet :=
  (resendStored_io env key).mono Io.quiet

theorem resendEach_resent {key : UInt16 → UInt32} {ids : List UInt16} {s t : Sys W}
    (h : resendEach (fun packetId => resendStored env (key packetId)) ids s = (.ok (), t)) :
    ∀ packetId ∈ ids, Resent (key packetId) s t := by
  induction ids generalizing s with
  | nil => simp
  | cons first ids ih =>
    obtain ⟨_, u, hfirst, hrest⟩ := Prog.bind_eq_ok.mp h
    have hstored (packetId : UInt16) : (resendStored env (key packetId)).Moves Quiet :=
      resendStored_quiet _
    have hsu := hstored first s
    have hut := resendEach_moves hstored ids u
    dsimp only at hfirst
    rw [hfirst] at hsu
    rw [hrest] at hut
    intro packetId hid
    rcases List.mem_cons.mp hid with rfl | hid
    · exact (resendStored_eq_ok hfirst).widen (refl_of (Logs _) s) hut.logs
    · exact (ih hrest packetId hid).widen hsu.logs (refl_of (Logs _) t)

theorem handleUncleanSession_quiet (hstoring : env.storing = true) :
    (handleUncleanSession env).Moves Quiet := by
  simp only [handleUncleanSession, if_pos hstoring, Prog.when]
  exact (resendAll_moves fun _ => resendStored_quiet _).bind fun _ =>
    resendAll_moves fun _ => resendStored_quiet _

theorem handleUncleanSession_resent (hstoring : env.storing = true) {s t : Sys W}
    {r : PublishRecords} (hr : s.context.records = some r) (hwf : r.WellFormed)
    (h : handleUncleanSession env s = (.ok (), t)) :
    t.context.records = some r ∧ ∀ x ∈ inFlight r.outgoing, Resent x.storedKey s t := by
  have hpubrels : PublishRecords.resends r.pubrelToResend (r.outgoing.length + 1) 0 =
      r.pubrelIds := PublishRecords.resends_eq hwf.outgoing.free (by decide) (Nat.le_succ _)
  have hpublishes : PublishRecords.resends r.publishToResend (r.outgoing.length + 1) 0 =
      r.publishIds := PublishRecords.resends_eq hwf.outgoing.free (by decide) (Nat.le_succ _)
  have hpass (key : UInt16 → UInt32) (ids : List UInt16) :
      (resendEach (fun packetId => resendStored env (key packetId)) ids).Moves Quiet :=
    resendEach_moves (fun _ => resendStored_quiet _) ids
  simp only [handleUncleanSession, if_pos hstoring, Prog.when] at h
  obtain ⟨_, u, hfirst, hsecond⟩ := Prog.bind_eq_ok.mp h
  rw [resendAll_eq (fun _ => resendStored_quiet _) hr, hpubrels] at hfirst
  have hsu := hpass incomingKey r.pubrelIds s
  rw [hfirst] at hsu
  rw [resendAll_eq (fun _ => resendStored_quiet _) (hsu.records.trans hr), hpublishes] at hsecond
  have hut := hpass UInt16.toUInt32 r.publishIds u
  rw [hsecond] at hut
  refine ⟨hut.records.trans (hsu.records.trans hr), ?_⟩
  intro x hx
  have howed := PublishRecords.mem_resent hwf hx
  unfold Record.storedKey
  split_ifs at howed ⊢
  · exact (resendEach_resent hfirst _ howed).widen (refl_of (Logs _) s) hut.logs
  · exact (resendEach_resent hsecond _ howed).widen hsu.logs (refl_of (Logs _) t)

theorem updateAck_carried (packetId : UInt16) :
    (updateAck packetId .pubRel .send : Client W _).Moves Carried := by
  intro s r hr hwf
  refine ⟨_, ?_, PublishRecords.carries_pubRel hwf packetId⟩
  rw [updateAck, onRecords_some hr]

theorem sendPublishAcks_carried (packetId : UInt16) :
    (sendPublishAcks env packetId .pubRelSend).Moves Carried := by
  unfold sendPublishAcks
  split
  · exact .pure _
  · next ack hack =>
    obtain rfl : ack = .pubRel := Option.some.inj (hack.symm.trans (by decide))
    have hnoted : (update fun c => { c with controlPacketSent := true } : Client W Unit).Moves
        Carried := (update_quiet fun _ => rfl).mono Quiet.carried
    exact (check_moves _ _).bind fun _ => connected_moves.bind fun _ =>
      ((sendBuffer_io env _).mono fun h => h.quiet.carried).bind fun _ =>
        (sentWhole_moves _ _).bind fun _ => hnoted.bind fun _ =>
          (updateAck_carried packetId).bind fun _ => (accepted_moves _).bind fun _ => .pure _

theorem handleUncleanSession_carried : (handleUncleanSession env).Moves Carried := by
  have hstored (key : UInt32) : (resendStored env key).Moves Carried :=
    (resendStored_quiet key).mono Quiet.carried
  exact (resendAll_moves fun _ => .ite (hstored _) (sendPublishAcks_carried _)).bind fun _ =>
    .when (resendAll_moves fun _ => hstored _)

/-- A connect that resumed capped the records it found to what the two sides announced, and then
sent again. -/
theorem connect_resumed {options : Connect} {timeoutMs : UInt32} {s t : Sys W}
    (h : connect env options timeoutMs s = (.ok (), t)) (hpresent : t.sessionPresent = true) :
    ∃ a connack u v, Announcement.decode (options.outgoing s.context).properties = .ok a ∧
      opening env options timeoutMs s = (.ok connack, u) ∧
      v.context.records = s.context.records.map (fun r => r.cap
        (connack.announced .receiveMaximum connack.server.receiveMax
          s.context.properties.server.receiveMax).toNat
        (a.receiveMax.getD s.context.properties.client.receiveMax).toNat) ∧
      Logs (fun _ => True) s v ∧ handleUncleanSession env v = (.ok (), t) := by
  obtain ⟨-, u, connack, hopening, -, -, hsettled⟩ := connect_eq_ok h
  obtain ⟨-, -, hsettledPresent⟩ := settle_terms hsettled
  have hresumed : (u.acknowledged connack).sessionPresent = true :=
    hsettledPresent.symm.trans hpresent
  obtain ⟨w, hclean, hunclean⟩ := settle_eq_ok hsettled
  rw [Prog.when, if_neg (by rw [hresumed]; decide)] at hclean
  rw [Prog.when, if_pos hresumed] at hunclean
  obtain ⟨-, rfl⟩ := Prod.mk.inj hclean
  have hopened := hopening
  rw [opening, Prog.bind_eq_ok] at hopened
  obtain ⟨_, x, hsent, hread⟩ := hopened
  obtain ⟨a, hdecoded, hterms⟩ := sending_terms hsent
  obtain ⟨hsmooth, -⟩ := opening_eq_ok hopening
  have hproperties := (readConnack_eq_ok hread).1.still.properties.trans hterms
  refine ⟨a, connack, u, _, hdecoded, hopening, ?_, ?_, hunclean⟩
  · have hrecords : u.context.records = s.context.records := by
      obtain ⟨⟨network, now, -, hcontext⟩, -, -⟩ := hsmooth
      rw [hcontext]
      rfl
    have hclient : (checkedProperties options s.context).client.receiveMax =
        s.context.properties.client.receiveMax := by
      unfold checkedProperties
      split_ifs
      · rfl
      · split <;> rfl
    rw [← hrecords, ← hclient]
    simp only [Sys.opened, Sys.capped, Sys.acknowledged, applyConnack, hproperties,
      Announcement.writtenOver]
  · exact hsmooth.log.mono fun _ _ => trivial

/-- What is resumed is whole exactly when the cap before it cut off no message. -/
theorem handleUncleanSession_whole_iff {s v t : Sys W} {r : PublishRecords} {outgoing incoming : ℕ}
    (hwf : r.WellFormed) (hcapped : v.context.records = some (r.cap outgoing incoming))
    (hsv : Logs (fun _ => True) s v) (h : handleUncleanSession env v = (.ok (), t)) :
    ∃ r', t.context.records = some r' ∧
      ((Survive r.outgoing r'.outgoing ∧ Survive r.incoming r'.incoming ∧
          (env.storing = true → ∀ x ∈ inFlight r.outgoing, Resent x.storedKey s t)) ↔
        OccupiedBelow r.outgoing outgoing ∧ OccupiedBelow r.incoming incoming) := by
  have hcap := hwf.cap outgoing incoming
  have hcarried : Carried v t := handleUncleanSession_carried.yields v () t h
  obtain ⟨r', hr', hcarries⟩ := hcarried _ hcapped hcap
  have hincoming : r'.incoming = r.incoming.take incoming := by
    rw [hcarries.incoming, PublishRecords.cap_incoming]
  have hids : inFlightIds r'.outgoing = inFlightIds (r.outgoing.take outgoing) := by
    rw [hcarries.ids, PublishRecords.cap_outgoing]
  refine ⟨r', hr', ?_⟩
  rw [hincoming, survive_take_iff hwf.incoming.distinct]
  constructor
  · rintro ⟨hout, hin, -⟩
    refine ⟨occupiedBelow_of_ids hwf.outgoing.distinct ?_, hin⟩
    intro x hx
    obtain ⟨y, hy, hxy⟩ := hout x hx
    rw [← hids, ← hxy.packetId]
    exact List.mem_map_of_mem hy
  · rintro ⟨hout, hin⟩
    have hwhole : inFlight (r.cap outgoing incoming).outgoing = inFlight r.outgoing := by
      rw [PublishRecords.cap_outgoing, inFlight_take_eq_iff.mpr hout]
    refine ⟨?_, hin, ?_⟩
    · intro x hx
      exact hcarries.survives x (by rwa [hwhole])
    · intro hstoring x hx
      obtain ⟨-, hresent⟩ := handleUncleanSession_resent hstoring hcapped hcap h
      exact (hresent x (by rwa [hwhole])).widen hsv (refl_of (Logs _) t)

/-- In a connect that resumed from a reachable state, every message in flight of either direction
survives, and with a store every outgoing one is sent again, exactly when no message is recorded
beyond the first slots that the other side's Receive Maximum leaves. -/
theorem resumed_whole_iff {options : Connect} {timeoutMs : UInt32} {s t : Sys W}
    (hs : Reachable s) (h : connect env options timeoutMs s = (.ok (), t))
    (hpresent : t.sessionPresent = true) {r : PublishRecords}
    (hr : s.context.records = some r) :
    ∃ a connack u r', Announcement.decode (options.outgoing s.context).properties = .ok a ∧
      opening env options timeoutMs s = (.ok connack, u) ∧ t.context.records = some r' ∧
      ((Survive r.outgoing r'.outgoing ∧ Survive r.incoming r'.incoming ∧
          (env.storing = true → ∀ x ∈ inFlight r.outgoing, Resent x.storedKey s t)) ↔
        OccupiedBelow r.outgoing (connack.announced .receiveMaximum connack.server.receiveMax
            s.context.properties.server.receiveMax).toNat ∧
          OccupiedBelow r.incoming
            (a.receiveMax.getD s.context.properties.client.receiveMax).toNat) := by
  obtain ⟨a, connack, u, v, hdecoded, hopening, hcapped, hsv, hunclean⟩ :=
    connect_resumed h hpresent
  rw [hr, Option.map_some] at hcapped
  obtain ⟨r', hr', hwhole⟩ :=
    handleUncleanSession_whole_iff (hs.wellKept r hr) hcapped hsv hunclean
  exact ⟨a, connack, u, r', hdecoded, hopening, hr', hwhole⟩

/-- Three publishes, the first two acknowledged, and the connection closed. -/
def thirdInFlight : List (Environment Script × Invocation) :=
  let env := Script.environment true
  let publish (packetId : UInt16) : Environment Script × Invocation :=
    (env, .request (.traffic (.publish
      { dup := false, qos := .atLeastOnce, retain := false, topicName := [97], payload := [],
        properties := [] } packetId)))
  [(env, .request (.enableQos (List.replicate 3 Record.default) [Record.default] [])),
    (env, .request (.connect (Script.connect true []) 0)),
    publish 1, publish 2, publish 3,
    (env, .request (.traffic .processLoop)),
    (env, .request (.traffic (.disconnect none [])))]

/-- The broker of that session, and its CONNACK to the next CONNECT. -/
def afterThird (properties : List UInt8) : Sys Script :=
  afterAll (start (List.replicate 64 0)
    { reads := [Script.connack false [], [0x40, 2, 0, 1, 0x40, 2, 0, 2],
        Script.connack true properties] }) thirdInFlight

theorem afterThird_reachable (properties : List UInt8) : Reachable (afterThird properties) := by
  apply Reachable.afterAll (.start _ _)
  decide

def thirdPending : PublishRecords where
  outgoing := [Record.default, Record.default,
    { packetId := 3, qos := .atLeastOnce, state := .pubAckPending }]
  incoming := [Record.default]

/-- A broker that takes three messages at a time. -/
theorem third_is_resumed :
    let env := Script.environment true
    let options := Script.connect false []
    let s := afterThird [0x21, 0, 3]
    let t := (connect env options 0 s).2
    let r := thirdPending
    ∃ a connack u r',
      Announcement.decode (options.outgoing s.context).properties = .ok a ∧
      opening env options 0 s = (.ok connack, u) ∧ t.context.records = some r' ∧
      ((Survive r.outgoing r'.outgoing ∧ Survive r.incoming r'.incoming ∧
          (env.storing = true → ∀ x ∈ inFlight r.outgoing, Resent x.storedKey s t)) ↔
        OccupiedBelow r.outgoing (connack.announced .receiveMaximum connack.server.receiveMax
            s.context.properties.server.receiveMax).toNat ∧
          OccupiedBelow r.incoming
            (a.receiveMax.getD s.context.properties.client.receiveMax).toNat) := by
  intro env options s t r
  have hconnect : connect env options 0 s = (.ok (), t) := Prog.eq_of_fst_ok (by decide +kernel)
  have hrecords : s.context.records = some r := by decide +kernel
  have hpresent : t.sessionPresent = true := by decide +kernel
  have hreachable : Reachable s := afterThird_reachable _
  clear_value t s r
  exact resumed_whole_iff hreachable hconnect hpresent hrecords

/-- A broker that takes one at a time: the third message is still in flight and nowhere
recorded. -/
theorem third_is_cut_off :
    let s := afterThird [0x21, 0, 1]
    let answer := connect (Script.environment true) (Script.connect false []) 0 s
    answer.1 = .ok () ∧ answer.2.sessionPresent = true ∧
      s.context.records = some thirdPending ∧
      answer.2.context.records.map PublishRecords.outgoing = some [Record.default] ∧
      (answer.2.log.drop s.log.length).filterMap Observation.offered =
        [[0x10, 19, 0, 4, 77, 81, 84, 84, 5, 0, 0, 0, 5, 0x27, 0, 0, 0, 64, 0, 1, 97]] := by
  decide +kernel

/-- After a connect that resumed with a store from a reachable state, the stored packet of every
recorded message was sent again, and the answer the broker owes it is accepted exactly when the
first sending of that packet had succeeded. -/
theorem resumed_answer_iff {options : Connect} {timeoutMs : UInt32} {s t : Sys W}
    (hs : Reachable s) (hstoring : env.storing = true)
    (h : connect env options timeoutMs s = (.ok (), t)) (hpresent : t.sessionPresent = true)
    {r : PublishRecords} (hr : t.context.records = some r) :
    ∀ x ∈ inFlight r.outgoing, Resent x.storedKey s t ∧
      (∃ before, s.context.records = some before ∧ x ∈ inFlight before.outgoing) ∧
      ((∃ state, (r.updateAck x.packetId x.awaited .receive).1 = .ok state) ↔
        x.state ≠ .publishSend ∧ x.state ≠ .pubRelSend) := by
  obtain ⟨a, connack, u, v, -, -, hcapped, hsv, hunclean⟩ := connect_resumed h hpresent
  cases hbefore : s.context.records with
  | none =>
    rw [hbefore, Option.map_none] at hcapped
    have hquiet : Quiet v t := (handleUncleanSession_quiet hstoring).yields v () t hunclean
    cases hr.symm.trans (hquiet.records.trans hcapped)
  | some before =>
    rw [hbefore, Option.map_some] at hcapped
    have hcap := (hs.wellKept before hbefore).cap
      (connack.announced .receiveMaximum connack.server.receiveMax
        s.context.properties.server.receiveMax).toNat
      (a.receiveMax.getD s.context.properties.client.receiveMax).toNat
    obtain ⟨hstays, hresent⟩ := handleUncleanSession_resent hstoring hcapped hcap hunclean
    obtain rfl := Option.some.inj (hr.symm.trans hstays)
    intro x hx
    refine ⟨(hresent x hx).widen hsv (refl_of (Logs _) t), ⟨before, rfl, ?_⟩,
      PublishRecords.awaited_accepted_iff hcap hx⟩
    rw [PublishRecords.cap_outgoing] at hx
    obtain ⟨hmem, hid⟩ := mem_inFlight.mp hx
    exact mem_inFlight.mpr ⟨List.mem_of_mem_take hmem, hid⟩

/-- A publish whose sending went as given, and the connection closed. -/
def afterPublish (outcome : Sent) : Sys Script :=
  let env := Script.environment true
  afterAll (start (List.replicate 64 0)
    { reads := [Script.connack false [], Script.connack true []], sends := [.bytes 21, outcome] })
    [(env, .request (.enableQos [Record.default] [Record.default] [])),
      (env, .request (.connect (Script.connect true []) 0)),
      (env, .request (.traffic (.publish
        { dup := false, qos := .atLeastOnce, retain := false, topicName := [97], payload := [],
          properties := [] } 1))),
      (env, .request (.traffic (.disconnect none [])))]

def publishRecorded (state : PublishState) : PublishRecords where
  outgoing := [{ packetId := 1, qos := .atLeastOnce, state }]
  incoming := [Record.default]

/-- A publish that had gone out. -/
theorem sent_publish_is_answered :
    let env := Script.environment true
    let s := afterPublish (.bytes 8)
    let t := (connect env (Script.connect false []) 0 s).2
    let r := publishRecorded .pubAckPending
    ∀ x ∈ inFlight r.outgoing, Resent x.storedKey s t ∧
      (∃ before, s.context.records = some before ∧ x ∈ inFlight before.outgoing) ∧
      ((∃ state, (r.updateAck x.packetId x.awaited .receive).1 = .ok state) ↔
        x.state ≠ .publishSend ∧ x.state ≠ .pubRelSend) := by
  intro env s t r
  have hconnect : connect env (Script.connect false []) 0 s = (.ok (), t) :=
    Prog.eq_of_fst_ok (by decide +kernel)
  have hpresent : t.sessionPresent = true := by decide +kernel
  have hrecords : t.context.records = some r := by decide +kernel
  have hreachable : Reachable s := by
    apply Reachable.afterAll (.start _ _)
    decide
  clear_value t s r
  exact resumed_answer_iff hreachable rfl hconnect hpresent hrecords

/-- A publish whose sending failed goes out again from the store, and its PUBACK is illegal. -/
theorem unsent_publish_answer_illegal :
    let s := afterPublish .failed
    let answer := connect (Script.environment true) (Script.connect false []) 0 s
    let r := publishRecorded .publishSend
    answer.1 = .ok () ∧ answer.2.sessionPresent = true ∧ answer.2.context.records = some r ∧
      ((answer.2.log.filterMap Observation.offered).getLast? =
        some [0x3A, 6, 0, 1, 97, 0, 1, 0]) ∧
      (r.updateAck 1 .pubAck .receive).1 = .error .illegalState := by
  decide +kernel

end Client

end RtosMqtt
