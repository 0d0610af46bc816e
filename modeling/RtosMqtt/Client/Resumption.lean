import RtosMqtt.Client.Framed
import RtosMqtt.Client.Resumed
import RtosMqtt.Client.Stored

/-! # What a resumed session sends

With a store that is a table, the bytes of a connect that resumes are known: the
CONNECT, then the stored packet of every message that owes a PUBREL, and then the
PUBLISH of every message that awaits its first acknowledgement, in the order of the
records.
-/

namespace RtosMqtt

variable {W : Type}

/-- The transport took certain bytes, and the store holds what it held. -/
structure Resends (contents : W → UInt32 → Option (List UInt8)) (bytes : List UInt8)
    (s t : Sys W) : Prop where
  log : ∃ more, t.log = s.log ++ more ∧ wire more = bytes
  world : contents t.world = contents s.world

section Resends

variable {contents : W → UInt32 → Option (List UInt8)} {bytes bytes' : List UInt8} {s t u : Sys W}

theorem Resends.nothing (hmute : Mute s t) (hworld : SameContents contents s t) :
    Resends contents [] s t := by
  obtain ⟨more, hlog, hnone⟩ := hmute
  exact ⟨⟨more, hlog, wire_of_mute hnone⟩, hworld⟩

theorem Resends.trans (h : Resends contents bytes s t) (h' : Resends contents bytes' t u) :
    Resends contents (bytes ++ bytes') s u := by
  obtain ⟨⟨more, hlog, hwire⟩, hworld⟩ := h
  obtain ⟨⟨more', hlog', hwire'⟩, hworld'⟩ := h'
  refine ⟨⟨more ++ more', ?_, ?_⟩, hworld'.trans hworld⟩
  · rw [hlog', hlog, List.append_assoc]
  · rw [wire_append, hwire, hwire']

end Resends

theorem PublishRecords.wantedIds_cap (r : PublishRecords) (wanted : List PublishState)
    (outgoing incoming : ℕ) : wantedIds wanted (inFlight (r.cap outgoing incoming).outgoing) <+:
      wantedIds wanted (inFlight r.outgoing) := by
  rw [PublishRecords.cap_outgoing]
  exact (((List.take_prefix outgoing r.outgoing).filter _).filter _).map _

namespace Client

variable {env : Environment W} {contents : W → UInt32 → Option (List UInt8)}
  (h : KeyValue env contents)

include h

theorem sendBuffer_contents (buffer : List UInt8) :
    (sendBuffer env buffer).Moves (SameContents contents) := by
  apply sendBuffer_moves
  · exact ⟨fun s => h.clock s.world, fun _ _ => rfl, fun _ => rfl⟩
  · exact fun _ s => h.send _ s.world

theorem resendStored_resends {key : UInt32} {s t : Sys W}
    (hrun : resendStored env key s = (.ok (), t)) :
    ∃ packet, contents s.world key = some packet ∧ Resends contents packet s t := by
  have hretrieve : retrieve env key s =
      (.ok (contents s.world key), (retrieve env key s).2) := by
    rw [← h.returned key s.world]
    rfl
  rw [resendStored, Prog.bind_of_ok hretrieve, Prog.bind_eq_ok] at hrun
  obtain ⟨packet, u, hfound, hrun⟩ := hrun
  obtain ⟨hheld, rfl⟩ := orFail_eq_ok.mp hfound
  rw [Client.refuse, Prog.refuse_bind_eq_ok] at hrun
  obtain ⟨outcome, v, hsend, hwhole⟩ := Prog.bind_eq_ok.mp hrun.2
  obtain ⟨rfl, rfl⟩ := sentWhole_eq_ok.mp hwhole
  obtain ⟨io, hlog, -, hwire⟩ := sendBuffer_sent env hsend
  have hworld := sendBuffer_contents h packet (retrieve env key s).2
  rw [hsend] at hworld
  rw [List.take_length] at hwire
  have hasked : Resends contents [] s (retrieve env key s).2 :=
    .nothing (.one rfl rfl) (h.retrieve key s.world)
  exact ⟨packet, hheld, hasked.trans ⟨⟨io, hlog, hwire⟩, hworld⟩⟩

theorem resendEach_resends {key : UInt16 → UInt32} {ids : List UInt16} {s t : Sys W}
    (hrun : resendEach (fun packetId => resendStored env (key packetId)) ids s = (.ok (), t)) :
    ∃ packets, List.Forall₂ (fun packetId packet =>
        contents s.world (key packetId) = some packet) ids packets ∧
      Resends contents packets.flatten s t := by
  induction ids generalizing s with
  | nil =>
    obtain ⟨-, rfl⟩ := Prod.mk.inj hrun
    exact ⟨[], .nil, .nothing (refl_of Mute s) rfl⟩
  | cons packetId ids ih =>
    obtain ⟨_, u, hfirst, hrest⟩ := Prog.bind_eq_ok.mp hrun
    obtain ⟨packet, hheld, hsu⟩ := resendStored_resends h hfirst
    obtain ⟨packets, hall, hut⟩ := ih hrest
    rw [hsu.world] at hall
    exact ⟨packet :: packets, .cons hheld hall, hsu.trans hut⟩

theorem handleUncleanSession_resends {s t : Sys W} {r : PublishRecords}
    (hr : s.context.records = some r) (hwf : r.WellFormed)
    (hrun : handleUncleanSession env s = (.ok (), t)) :
    ∃ pubrels publishes,
      List.Forall₂ (fun packetId packet => contents s.world (incomingKey packetId) = some packet)
        r.pubrelIds pubrels ∧
      List.Forall₂ (fun (packetId : UInt16) packet =>
        contents s.world packetId.toUInt32 = some packet) r.publishIds publishes ∧
      Resends contents (pubrels.flatten ++ publishes.flatten) s t := by
  have hpubrels : PublishRecords.resends r.pubrelToResend (r.outgoing.length + 1) 0 =
      r.pubrelIds := PublishRecords.resends_eq hwf.outgoing.free (by decide) (Nat.le_succ _)
  have hpublishes : PublishRecords.resends r.publishToResend (r.outgoing.length + 1) 0 =
      r.publishIds := PublishRecords.resends_eq hwf.outgoing.free (by decide) (Nat.le_succ _)
  simp only [handleUncleanSession, if_pos h.storing, Prog.when] at hrun
  obtain ⟨_, u, hfirst, hsecond⟩ := Prog.bind_eq_ok.mp hrun
  rw [resendAll_eq (fun _ => resendStored_quiet _) hr, hpubrels] at hfirst
  have hsu : Quiet s u := (resendEach_moves (fun _ => resendStored_quiet _) _).yields _ _ _ hfirst
  rw [resendAll_eq (fun _ => resendStored_quiet _) (hsu.records.trans hr), hpublishes] at hsecond
  obtain ⟨pubrels, hall, hout⟩ := resendEach_resends h hfirst
  obtain ⟨publishes, hall', hout'⟩ := resendEach_resends h hsecond
  rw [hout.world] at hall'
  exact ⟨pubrels, publishes, hall, hall', hout.trans hout'⟩

theorem sendConnect_resends {connect : Connect} {size : PacketSize} {s t : Sys W}
    (hsize : connectPacketSize connect = .ok size)
    (hrun : sendConnect env connect size.remainingLength s = (.ok (), t)) :
    Resends contents (connectPacket connect) s t := by
  obtain ⟨head, heq, hparts⟩ := sendConnect_eq hsize
  rw [heq, Prog.bind_of_ok (update_apply _ s), Prog.bind_eq_ok] at hrun
  obtain ⟨_, u, hannounced, hrun⟩ := hrun
  rw [Prog.bind_eq_ok] at hrun
  obtain ⟨v, w, hpushed, hrun⟩ := hrun
  obtain rfl := (checks_pushConnect _ _).same hpushed
  obtain ⟨outcome, x, hsend, hwhole⟩ := Prog.bind_eq_ok.mp hrun
  obtain ⟨rfl, rfl⟩ := sentWhole_eq_ok.mp hwhole
  obtain ⟨io, hlog, -, hwire⟩ := sendVectors_sent env hsend
  have hworld := sendVectors_contents h v.parts w
  rw [hsend] at hworld
  rw [v.total_eq, List.take_length, hparts _ _ _ hpushed] at hwire
  have hsilent : w.log = s.log ∧ w.world = s.world := by
    unfold Prog.when at hannounced
    split_ifs at hannounced
    · obtain ⟨-, rfl⟩ := Prod.mk.inj hannounced
      exact ⟨rfl, rfl⟩
    · obtain ⟨-, rfl⟩ := Prod.mk.inj hannounced
      exact ⟨rfl, rfl⟩
  refine ⟨⟨io, hlog.trans (by rw [hsilent.1]), hwire⟩, ?_⟩
  rw [← hsilent.2]
  exact hworld

theorem opening_resends {options : Connect} {timeoutMs : UInt32} {connack : ConnAck} {s t : Sys W}
    (hrun : opening env options timeoutMs s = (.ok connack, t)) :
    Resends contents (connectPacket (options.outgoing s.context)) s t := by
  obtain ⟨_, u, hsending, hread⟩ := Prog.bind_eq_ok.mp hrun
  have hsent : Resends contents (connectPacket (options.outgoing s.context)) s u := by
    rw [sending, Prog.bind_eq_ok] at hsending
    obtain ⟨_, v, hwill, hsending⟩ := hsending
    obtain rfl := (checks_check _ _).when.same hwill
    rw [Prog.bind_eq_ok] at hsending
    obtain ⟨_, w, hchecked, hsending⟩ := hsending
    obtain ⟨rfl, -⟩ := checkConnectProperties_eq_ok hchecked
    rw [Prog.bind_of_ok (context_apply _), Prog.bind_eq_ok] at hsending
    obtain ⟨size, x, hsize, hsending⟩ := hsending
    obtain ⟨hsized, rfl⟩ := check_eq_ok.mp hsize
    rw [Prog.bind_eq_ok] at hsending
    obtain ⟨_, y, hclosed, hsending⟩ := hsending
    obtain ⟨-, rfl⟩ := check_eq_ok.mp hclosed
    obtain ⟨hlog, hworld⟩ := sendConnect_resends h hsized hsending
    exact ⟨hlog, hworld⟩
  have hmute : Reads env (Mute : Sys W → Sys W → Prop) :=
    ⟨nowMs_mute, recv_mute, fun _ => update_mute _, update_mute _⟩
  have hcontents : Reads env (SameContents contents) :=
    ⟨fun s => h.clock s.world, fun into s => h.recv into s.world, fun _ _ => rfl, fun _ => rfl⟩
  have hquiet : Resends contents [] u t :=
    .nothing ((readConnack_moves hmute timeoutMs).yields _ _ _ hread)
      ((readConnack_moves hcontents timeoutMs).yields _ _ _ hread)
  rw [← List.append_nil (connectPacket _)]
  exact hsent.trans hquiet

/-- A connect that resumes sends its CONNECT, and then what the store holds for the records. -/
theorem connect_resends {options : Connect} {timeoutMs : UInt32} {s t : Sys W}
    (hwell : s.context.WellKept) (hrun : connect env options timeoutMs s = (.ok (), t))
    (hpresent : t.sessionPresent = true) {r : PublishRecords} (hr : t.context.records = some r) :
    (∃ before, s.context.records = some before ∧
        r = before.cap t.context.properties.server.receiveMax.toNat
          t.context.properties.client.receiveMax.toNat) ∧
      ∃ pubrels publishes,
        List.Forall₂ (fun packetId packet =>
          contents s.world (incomingKey packetId) = some packet) r.pubrelIds pubrels ∧
        List.Forall₂ (fun (packetId : UInt16) packet =>
          contents s.world packetId.toUInt32 = some packet) r.publishIds publishes ∧
        Resends contents (connectPacket (options.outgoing s.context) ++
          (pubrels.flatten ++ publishes.flatten)) s t := by
  obtain ⟨-, u, connack, hopening, -, -, hsettled⟩ := connect_eq_ok hrun
  obtain ⟨hterms, -, hstays⟩ := settle_terms hsettled
  have hresumed : (u.acknowledged connack).sessionPresent = true := hstays.symm.trans hpresent
  obtain ⟨w, hclean, hunclean⟩ := settle_eq_ok hsettled
  rw [Prog.when, if_neg (by rw [hresumed]; decide)] at hclean
  rw [Prog.when, if_pos hresumed] at hunclean
  obtain ⟨-, rfl⟩ := Prod.mk.inj hclean
  have hsent := opening_resends h hopening
  have hrecords : u.context.records = s.context.records := by
    obtain ⟨⟨⟨network, now, -, hcontext⟩, -, -⟩, -⟩ := opening_eq_ok hopening
    rw [hcontext]
    rfl
  have hquiet : Quiet (u.acknowledged connack).capped.opened t :=
    (handleUncleanSession_quiet h.storing).yields _ _ _ hunclean
  have hcapped := hquiet.records.symm.trans hr
  have hbefore : (u.acknowledged connack).capped.opened.context.records =
      s.context.records.map fun r => r.cap
        (u.acknowledged connack).context.properties.server.receiveMax.toNat
        (u.acknowledged connack).context.properties.client.receiveMax.toNat := by
    rw [← hrecords]
    rfl
  obtain ⟨before, hs, rfl⟩ := Option.map_eq_some_iff.mp (hbefore.symm.trans hcapped)
  have hwf := (hwell before hs).cap
    (u.acknowledged connack).context.properties.server.receiveMax.toNat
    (u.acknowledged connack).context.properties.client.receiveMax.toNat
  obtain ⟨pubrels, publishes, hpubrels, hpublishes, hout⟩ :=
    handleUncleanSession_resends h hcapped hwf hunclean
  have hworld : contents (u.acknowledged connack).capped.opened.world = contents s.world :=
    hsent.world
  rw [hworld] at hpubrels hpublishes
  have hopened : Resends contents [] u (u.acknowledged connack).capped.opened :=
    .nothing (.same rfl) rfl
  refine ⟨⟨before, hs, by rw [hterms]⟩, pubrels, publishes, hpubrels, hpublishes, ?_⟩
  have hall := (hsent.trans hopened).trans hout
  rwa [List.append_nil] at hall

omit h in
theorem exists_messages {asked : UInt16 → OutgoingPublish → Prop} {R : UInt16 → List UInt8 → Prop}
    (hcopy : ∀ packetId packet, R packetId packet →
      ∃ message, asked packetId message ∧ packet = copyOf message packetId)
    {ids : List UInt16} {packets : List (List UInt8)} (hall : List.Forall₂ R ids packets) :
    ∃ messages : List (OutgoingPublish × UInt16), messages.map Prod.snd = ids ∧
      packets = messages.map (fun m => copyOf m.1 m.2) ∧ ∀ m ∈ messages, asked m.2 m.1 := by
  induction hall with
  | nil => exact ⟨[], rfl, rfl, fun m hm => absurd hm List.not_mem_nil⟩
  | @cons packetId packet ids packets hfirst _ ih =>
    obtain ⟨messages, rfl, rfl, hasked⟩ := ih
    obtain ⟨message, hmessage, rfl⟩ := hcopy packetId packet hfirst
    refine ⟨(message, packetId) :: messages, rfl, rfl, ?_⟩
    rw [List.forall_mem_cons]
    exact ⟨hmessage, hasked⟩

/-- After any run with a store that is a table, a connect that resumes puts exactly these bytes on
the wire: its CONNECT, the stored packet of every message that owes a PUBREL, and for every other
message in flight its PUBLISH with the DUP flag set, each in the order of the records; and the
records are those before with both arrays cut to the Receive Maximum in force for each. -/
theorem session_resumed {calls : List (Environment W × Invocation)}
    (hstore : ∀ call ∈ calls, KeyValue call.1 contents)
    (hcalls : ∀ call ∈ calls, call.2.restores = false) {network : List UInt8} {world : W}
    (hempty : ∀ packetId : UInt16, contents world packetId.toUInt32 = none) {options : Connect}
    {timeoutMs : UInt32} {s t : Sys W} (hs : s = afterAll (start network world) calls)
    (hrun : connect env options timeoutMs s = (.ok (), t)) (hpresent : t.sessionPresent = true)
    {r : PublishRecords} (hr : t.context.records = some r) :
    (∃ before, s.context.records = some before ∧
        r = before.cap t.context.properties.server.receiveMax.toNat
          t.context.properties.client.receiveMax.toNat ∧
        r.pubrelIds <+: before.pubrelIds ∧ r.publishIds <+: before.publishIds) ∧
      ∃ log pubrels, ∃ messages : List (OutgoingPublish × UInt16), t.log = s.log ++ log ∧
        wire log = connectPacket (options.outgoing s.context) ++ pubrels.flatten ++
          (messages.map fun m => publishPacket { m.1 with dup := true } m.2).flatten ∧
        List.Forall₂ (fun packetId packet =>
          contents s.world (incomingKey packetId) = some packet) r.pubrelIds pubrels ∧
        messages.map Prod.snd = r.publishIds ∧
        ∀ m ∈ messages,
          LastUnder (publications calls ((caller W).run calls (start network world)).1) m.2 m.1 := by
  have hbacked := run_backed hstore hcalls (backed_start network hempty)
  rw [List.nil_append] at hbacked
  subst hs
  obtain ⟨⟨before, hbefore, rfl⟩, pubrels, publishes, hpubrels, hpublishes, ⟨log, hlog, hwire⟩, -⟩ :=
    connect_resends h hbacked.wellKept hrun hpresent hr
  obtain ⟨messages, hids, rfl, hasked⟩ := exists_messages hbacked.copied hpublishes
  refine ⟨⟨before, hbefore, rfl, before.wantedIds_cap _ _ _, before.wantedIds_cap _ _ _⟩, log,
    pubrels, messages, hlog, ?_, hpubrels, hids, hasked⟩
  rw [hwire, List.append_assoc]
  rfl

end Client

namespace Client

/-- Two messages in flight, the second half sent, and the connection closed. -/
def closedAfterTwo : List (Environment Script × Invocation) :=
  twoPublished ++ [(Script.environment true, .request (.traffic (.disconnect none [])))]

/-- The broker of that session, and its CONNACK to the next CONNECT. -/
def remembering : Script where
  reads := [Script.connack false [], Script.connack true []]
  sends := [.bytes 64, .bytes 64, .failed]

/-- Both go out again, in order. -/
theorem closedAfterTwo_resumed :
    let s := afterAll (start (List.replicate 64 0) remembering) closedAfterTwo
    let options := Script.connect false []
    let t := (connect (Script.environment true) options 0 s).2
    ∃ log, ∃ messages : List (OutgoingPublish × UInt16), t.log = s.log ++ log ∧
      wire log = connectPacket (options.outgoing s.context) ++
        (messages.map fun m => publishPacket { m.1 with dup := true } m.2).flatten ∧
      messages.map Prod.snd = [1, 2] := by
  intro s options t
  have hstore : ∀ call ∈ closedAfterTwo, KeyValue call.1 scriptContents := by
    rintro call (_ | ⟨_, _ | ⟨_, _ | ⟨_, _ | ⟨_, _ | ⟨_, _ | _⟩⟩⟩⟩⟩) <;> exact keyValue_script
  have hcalls : ∀ call ∈ closedAfterTwo, call.2.restores = false := by decide +kernel
  have hrun : connect (Script.environment true) options 0 s = (.ok (), t) :=
    Prog.eq_of_fst_ok (by decide +kernel)
  have hpresent : t.sessionPresent = true := by decide +kernel
  have hr : t.context.records = some (.mk
      [{ packetId := 1, qos := .exactlyOnce, state := .pubRecPending },
        { packetId := 2, qos := .exactlyOnce, state := .publishSend }] []) := by decide +kernel
  have hs : s = afterAll (start (List.replicate 64 0) remembering) closedAfterTwo := rfl
  clear_value t s
  obtain ⟨-, log, pubrels, messages, hlog, hwire, hpubrels, hids, -⟩ :=
    session_resumed keyValue_script hstore hcalls (fun _ => rfl) hs hrun hpresent hr
  cases hpubrels
  rw [List.flatten_nil, List.append_nil] at hwire
  exact ⟨log, messages, hlog, hwire, hids⟩

end Client

end RtosMqtt
