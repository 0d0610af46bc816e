import RtosMqtt.Client.Once
import RtosMqtt.Client.Packets
import RtosMqtt.State.Positions

/-! # What a reason code changes

The records are told of an acknowledgement and never of its reason code. So a
QoS 2 handshake goes on after a PUBREC that says it failed, in both directions:
the PUBREL goes out, and the identifier stays in use until the PUBCOMP.
-/

namespace RtosMqtt

variable {W : Type}

def Lasts (array : PublishRecords → List Record) (s t : Sys W) : Prop :=
  ∀ r, s.context.records = some r → r.WellFormed →
    ∃ r', t.context.records = some r' ∧ r'.WellFormed ∧
      ∀ packetId ∈ inFlightIds (array r), packetId ∈ inFlightIds (array r')

instance (array : PublishRecords → List Record) : IsPreorder (Sys W) (Lasts array) where
  refl _ r hr hwf := ⟨r, hr, hwf, fun _ h => h⟩
  trans _ _ _ h h' r hr hwf := by
    obtain ⟨r', hr', hwf', hids⟩ := h r hr hwf
    obtain ⟨r'', hr'', hwf'', hids'⟩ := h' r' hr' hwf'
    exact ⟨r'', hr'', hwf'', fun packetId hid => hids' packetId (hids packetId hid)⟩

theorem lasts_of_records {array : PublishRecords → List Record} {s t : Sys W}
    (h : t.context.records = s.context.records) : Lasts array s t :=
  fun r hr hwf => ⟨r, h.trans hr, hwf, fun _ hid => hid⟩

def SentWithin (packet : List UInt8) (s t : Sys W) : Prop :=
  ∃ u v : Sys W, Logs (fun _ => True) s u ∧
    Client.WentOut packet u.log v.log ∧ Logs (fun _ => True) v t

theorem SentWithin.widen {packet : List UInt8} {s t u v : Sys W} (h : SentWithin packet t u)
    (hst : Logs (fun _ => True) s t) (huv : Logs (fun _ => True) u v) : SentWithin packet s v := by
  obtain ⟨w, x, hw, hout, hx⟩ := h
  exact ⟨w, x, trans_of (Logs _) hst hw, hout, trans_of (Logs _) hx huv⟩

def Observation.silent (o : Observation) : Prop := ∀ e accepted, o ≠ .event e accepted

theorem Observation.silent_of_isIo {o : Observation} (h : o.isIo = true) : o.silent := by
  rintro e accepted rfl
  cases h

theorem Quiet.logs_silent {s t : Sys W} (h : Quiet s t) : Logs Observation.silent s t := by
  obtain ⟨io, hlog, hio⟩ := h.log.exists_io
  exact ⟨io, hlog, fun o ho => Observation.silent_of_isIo (hio o ho)⟩

namespace Client

variable {env : Environment W} {array : PublishRecords → List Record}

theorem onRecords_logs {α : Type} {P : Observation → Prop} {c : Call}
    {f : PublishRecords → Except StateError α × PublishRecords}
    (h : ∀ before answer, P (.recorded before c answer)) :
    (onRecords c f : Client W _).Moves (Logs P) := by
  intro s
  cases hr : s.context.records with
  | none =>
    rw [onRecords_none hr]
    exact refl_of (Logs P) s
  | some r =>
    rw [onRecords_some hr]
    exact .one rfl (h _ _)

theorem updateAck_lasts {packetId : UInt16} {ack : AckType} {op : Operation}
    (h : ∀ r : PublishRecords, r.WellFormed → ∀ other ∈ inFlightIds (array r),
      other ∈ inFlightIds (array (r.updateAck packetId ack op).2)) :
    (updateAck packetId ack op : Client W _).Moves (Lasts array) := by
  intro s r hr hwf
  refine ⟨_, ?_, hwf.updateAck packetId ack op, h r hwf⟩
  rw [updateAck, onRecords_some hr]

theorem ackSent_logs {P : Observation → Prop} {packetId : UInt16} {ack : AckType}
    (h : ∀ before answer, P (.recorded before (.updateAck packetId ack .send) answer)) :
    (ackSent packetId ack : Client W Unit).Moves (Logs P) :=
  Prog.Moves.bind (fun _ => .same rfl) fun _ => (onRecords_logs h).bind fun _ =>
    (accepted_moves _).bind fun _ => .pure _

theorem updateAck_eq_ok {packetId : UInt16} {ack : AckType} {op : Operation} {s t u : Sys W}
    {answer : Option (Except StateError PublishState)} {state : Option PublishState}
    {r : PublishRecords} (hcall : updateAck packetId ack op s = (.ok answer, t))
    (haccepted : accepted answer t = (.ok state, u)) (hr : s.context.records = some r) :
    u = t ∧ Logs (fun _ => True) s t ∧
      t.context.records = some (r.updateAck packetId ack op).2 ∧
      ∃ new, (r.updateAck packetId ack op).1 = .ok new ∧ state = some new := by
  have hlogs : Logs (fun _ => True) s t :=
    (onRecords_logs fun _ _ => trivial).yields s answer t hcall
  rw [updateAck, onRecords_some hr] at hcall
  obtain ⟨htold, ht⟩ := Prod.mk.inj hcall
  obtain rfl := Except.ok.inj htold
  have hrecords : t.context.records = some (r.updateAck packetId ack op).2 := by rw [← ht]
  clear hcall ht
  cases hanswer : (r.updateAck packetId ack op).1 with
  | error e =>
    rw [hanswer] at haccepted
    cases haccepted
  | ok new =>
    rw [hanswer] at haccepted
    obtain ⟨hstate, rfl⟩ := Prod.mk.inj haccepted
    exact ⟨rfl, hlogs, hrecords, new, rfl, (Except.ok.inj hstate).symm⟩

theorem ackSent_eq_ok {packetId : UInt16} {ack : AckType} {s t : Sys W} {r : PublishRecords}
    (h : ackSent packetId ack s = (.ok (), t)) (hr : s.context.records = some r) :
    ∃ state, (r.updateAck packetId ack .send).1 = .ok state ∧
      t.context.records = some (r.updateAck packetId ack .send).2 := by
  rw [ackSent, Prog.bind_of_ok (update_apply _ s), Prog.bind_eq_ok] at h
  obtain ⟨answer, u, hcall, h⟩ := h
  rw [Prog.bind_eq_ok] at h
  obtain ⟨state, v, haccepted, hlast⟩ := h
  obtain ⟨-, rfl⟩ := Prod.mk.inj hlast
  obtain ⟨rfl, -, hrecords, new, hnew, -⟩ := updateAck_eq_ok hcall haccepted hr
  exact ⟨new, hnew, hrecords⟩

section Reply

variable {packetType : UInt8} {packetId : UInt16} {ack : AckType} {s : Sys W}
  {run : Except Stop Unit × Sys W}

theorem Replied.lasts (h : Replied packetType packetId ack s run)
    (hack : (updateAck packetId ack .send : Client W _).Moves (Lasts array)) :
    Lasts array s run.2 := by
  cases h with
  | unsent h => exact lasts_of_records h.records
  | @sent rest u h hout =>
    rw [ackSent_snd]
    exact trans_of (Lasts array) (lasts_of_records (t := { u with context :=
      { u.context with controlPacketSent := true } }) h.records) (hack _)

theorem Replied.logs_silent (h : Replied packetType packetId ack s run) :
    Logs Observation.silent s run.2 := by
  cases h with
  | unsent h => exact h.logs_silent
  | sent rest h hout =>
    refine trans_of (Logs _) h.logs_silent (ackSent_logs ?_ _)
    rintro before answer e accepted ⟨⟩

theorem Replied.eq_ok {t : Sys W} (h : Replied packetType packetId ack s run)
    (hok : run = (.ok (), t)) : ∃ rest, SentWithin (ackPacket packetType packetId rest) s t ∧
      ∀ r, s.context.records = some r → ∃ state, (r.updateAck packetId ack .send).1 = .ok state ∧
        t.context.records = some (r.updateAck packetId ack .send).2 := by
  cases h with
  | unsent h => cases hok
  | @sent rest u h hout =>
    have hlogs : Logs (fun _ => True) u (ackSent packetId ack u).2 :=
      ackSent_logs (fun _ _ => trivial) u
    rw [hok] at hlogs
    refine ⟨rest, ⟨s, u, refl_of (Logs _) s, hout, hlogs⟩, ?_⟩
    intro r hr
    exact ackSent_eq_ok hok (h.records.trans hr)

end Reply

theorem replyWith_lasts_outgoing (packetId : UInt16) (state : PublishState)
    (reasonCode : Option UInt8) :
    (replyWith env packetId state reasonCode).Moves (Lasts PublishRecords.outgoing) := by
  intro s
  cases hack : ackFromPacketType (ackTypeToSend state) with
  | none => exact lasts_of_records (replyWith_quiet env hack reasonCode s).records
  | some ack =>
    apply (replyWith_replied env hack reasonCode s).lasts
    apply updateAck_lasts
    intro r hwf
    apply PublishRecords.mem_outgoing_updateAck hwf
    intro hout qos
    cases ack <;> cases qos <;> revert hout <;> decide

theorem handlePublishAcks_pubRec_lasts {total : ℕ} {s : Sys W} {view : PacketInfo}
    (hview : s.context.packetView total = some view)
    (hack : ackFromPacketType view.packetType = some .pubRec) :
    Lasts PublishRecords.outgoing s (handlePublishAcks env total s).2 := by
  rw [handlePublishAcks, Prog.bind_of_ok (context_apply s), hview, orFail_bind_of_some rfl, hack,
    orFail_bind_of_some rfl]
  have hreceived (packetId : UInt16) : (updateAck packetId .pubRec .receive : Client W _).Moves
      (Lasts PublishRecords.outgoing) := by
    apply updateAck_lasts
    intro r hwf
    apply PublishRecords.mem_outgoing_updateAck hwf
    intro _ qos
    cases qos <;> decide
  exact ((check_moves _ _).bind fun _ => (hreceived _).bind fun _ => (accepted_moves _).bind fun _ =>
    ((clearStored_io env _).mono fun h => lasts_of_records h.quiet.records).bind fun _ =>
      Prog.Moves.bind (fun _ => lasts_of_records rfl) fun _ => (refuse_moves _ _).bind fun _ =>
        checkSectionLength_moves.bind fun _ => .when (replyWith_lasts_outgoing _ _ _) :
          Prog.Moves (Lasts PublishRecords.outgoing) _) s

/-- A PUBREC that was handled without an error was answered with a PUBREL, whatever it says. -/
theorem handlePublishAcks_pubRec_eq_ok {total : ℕ} {s t : Sys W} {view : PacketInfo}
    (hview : s.context.packetView total = some view)
    (hack : ackFromPacketType view.packetType = some .pubRec) {r : PublishRecords}
    (hr : s.context.records = some r) (hwf : r.WellFormed)
    (h : handlePublishAcks env total s = (.ok (), t)) :
    ∃ info rest r', deserializeAck view s.context.limits = .ok info ∧
      SentWithin (ackPacket Packet.pubrel (info.packetId.getD 0) rest) s t ∧
      t.context.records = some r' ∧
      ∃ x ∈ inFlight r'.outgoing, x.packetId = info.packetId.getD 0 ∧ x.state = .pubCompPending := by
  rw [handlePublishAcks, Prog.bind_of_ok (context_apply s), hview, orFail_bind_of_some rfl, hack,
    orFail_bind_of_some rfl, Prog.bind_eq_ok] at h
  obtain ⟨info, s₁, hinfo, h⟩ := h
  obtain ⟨hparsed, rfl⟩ := check_eq_ok.mp hinfo
  dsimp only at h
  rw [Prog.bind_eq_ok] at h
  obtain ⟨answer, s₂, hcall, h⟩ := h
  rw [Prog.bind_eq_ok] at h
  obtain ⟨state, s₃, haccepted, h⟩ := h
  obtain ⟨rfl, hcalled, hreleased, new, hnew, rfl⟩ := updateAck_eq_ok hcall haccepted hr
  obtain ⟨rfl, -⟩ := PublishRecords.updateAck_pubRec_received hwf hnew
  rw [Prog.bind_eq_ok] at h
  obtain ⟨_, s₄, hclear, h⟩ := h
  have hcleared : Io s₃ s₄ := (clearStored_io env _).yields _ _ _ hclear
  rw [Prog.bind_eq_ok] at h
  obtain ⟨⟨accepted, reasonCode⟩, s₅, hevent, h⟩ := h
  rw [dispatch_apply] at hevent
  obtain ⟨-, rfl⟩ := Prod.mk.inj hevent
  dsimp only at h
  rw [Client.refuse, Prog.refuse_bind_eq_ok, Prog.bind_eq_ok] at h
  obtain ⟨-, _, s₆, hsection, h⟩ := h
  obtain rfl : s₆ = shown env (ackEvent view info) true s₄ := by
    rw [checkSectionLength, Prog.bind_of_ok (context_apply _), Client.refuse,
      Prog.refuse_apply] at hsection
    exact (Prod.mk.inj hsection).2.symm
  rw [Prog.when, if_pos (show endsSequence .pubRec = false from rfl)] at h
  have hshown : Logs (fun _ => True) s₄ (shown env (ackEvent view info) true s₄) :=
    .one rfl trivial
  obtain ⟨rest, hsent, hupdated⟩ := (replyWith_replied env rfl reasonCode _).eq_ok h
  obtain ⟨state, hok, ht⟩ := hupdated _ (hcleared.quiet.records.trans hreleased)
  refine ⟨info, rest, _, hparsed, hsent.widen ?_ (refl_of (Logs _) t), ht,
    PublishRecords.updateAck_pubRel_sent (hwf.updateAck _ _ _) hok⟩
  exact trans_of (Logs _) hcalled (trans_of (Logs _) hcleared.quiet.logs hshown)

theorem acknowledge_replied {qos : QoS} (hqos : qos ≠ .atMostOnce) {packetId : UInt16}
    {state : PublishState} {ack : AckType} (hack : ackFromPacketType (ackTypeToSend state) = some ack)
    (answer : Bool × Option UInt8) (s : Sys W) :
    Replied (ackTypeToSend state) packetId ack s (acknowledge env qos packetId state answer s) := by
  rw [acknowledge]
  apply replied_bind_still rfl
  intro _ _
  rw [Prog.when, if_pos hqos]
  apply replied_bind_still rfl
  intro _ _
  exact replyWith_replied env hack answer.2 s

theorem updateAck_pubRec_sent_lasts (packetId : UInt16) :
    (updateAck packetId .pubRec .send : Client W _).Moves (Lasts PublishRecords.incoming) := by
  apply updateAck_lasts
  intro r hwf
  apply PublishRecords.mem_incoming_updateAck hwf
  intro _ qos
  cases qos <;> decide

section Received

variable {total : ℕ} {s : Sys W} {view : PacketInfo} {publish : PublishInfo} {r : PublishRecords}
  (hview : s.context.packetView total = some view)
  (hpublish : deserializePublish view s.context.properties.client.maxPacketSize
    s.context.properties.client.topicAliasMax = .ok publish)
  (hqos : publish.qos = .exactlyOnce) (hr : s.context.records = some r) (hwf : r.WellFormed)

include hview hpublish hqos hr hwf

/-- A QoS 2 PUBLISH that is handled without an error is recorded and answered with a PUBREC,
whatever the application answers. -/
theorem handleIncomingPublish_exactlyOnce_eq_ok {t : Sys W}
    (h : handleIncomingPublish env total s = (.ok (), t)) :
    ∃ rest r', SentWithin (ackPacket Packet.pubrec (publish.packetId.getD 0) rest) s t ∧
      t.context.records = some r' ∧ publish.packetId.getD 0 ∈ inFlightIds r'.incoming := by
  have hnot : publish.qos ≠ .atMostOnce := by rw [hqos]; decide
  have hcall : Logs (fun _ => True) s
      (updatePublish (publish.packetId.getD 0) .receive publish.qos s).2 :=
    onRecords_logs (fun _ _ => trivial) s
  have hrecords : (updatePublish (publish.packetId.getD 0) .receive publish.qos s).2.context.records =
      some (r.updatePublish (publish.packetId.getD 0) .receive publish.qos).2 := by
    rw [updatePublish, onRecords_some hr]
  have hwf' := hwf.updatePublish (publish.packetId.getD 0) .receive publish.qos
  have hreply {u : Sys W} {answer : Bool × Option UInt8}
      (hu : u.context.records = some (r.updatePublish (publish.packetId.getD 0) .receive
        publish.qos).2)
      (hsu : Logs (fun _ => True) s u)
      (hin : publish.packetId.getD 0 ∈ inFlightIds (r.updatePublish (publish.packetId.getD 0)
        .receive publish.qos).2.incoming)
      (hok : acknowledge env .exactlyOnce (publish.packetId.getD 0) .pubRecSend answer u =
        (.ok (), t)) :
      ∃ rest r', SentWithin (ackPacket Packet.pubrec (publish.packetId.getD 0) rest) s t ∧
        t.context.records = some r' ∧ publish.packetId.getD 0 ∈ inFlightIds r'.incoming := by
    have hreplied : Replied (ackTypeToSend .pubRecSend) (publish.packetId.getD 0) .pubRec u
        (acknowledge env .exactlyOnce (publish.packetId.getD 0) .pubRecSend answer u) :=
      acknowledge_replied (by decide) rfl answer u
    obtain ⟨rest, hsent, -⟩ := hreplied.eq_ok hok
    have hlasts := hreplied.lasts (updateAck_pubRec_sent_lasts _)
    rw [hok] at hlasts
    obtain ⟨r', hr', -, hids⟩ := hlasts _ hu hwf'
    exact ⟨rest, r', hsent.widen hsu (refl_of (Logs _) t), hr', hids _ hin⟩
  cases hanswer : (r.updatePublish (publish.packetId.getD 0) .receive publish.qos).1 with
  | ok state =>
    rw [handleIncomingPublish_of_ok env hview hpublish hr hnot hanswer, Prog.bind_eq_ok] at h
    obtain ⟨answer, u, hevent, hack⟩ := h
    rw [dispatch_apply] at hevent
    obtain ⟨-, rfl⟩ := Prod.mk.inj hevent
    rw [hqos] at hanswer
    obtain ⟨rfl, hin⟩ := PublishRecords.updatePublish_exactlyOnce_eq_ok hanswer
    rw [← hqos] at hin
    rw [hqos] at hack
    refine hreply ?_ ?_ hin hack
    · rw [← hqos]
      exact hrecords
    · rw [← hqos]
      exact trans_of (Logs _) hcall (.one rfl trivial)
  | error e =>
    by_cases he : e = .stateCollision
    · rw [he] at hanswer
      rw [handleIncomingPublish_of_again env hview hpublish hr hqos hanswer] at h
      exact hreply hrecords hcall (PublishRecords.mem_incoming_updatePublish hwf _ _ _
        ((PublishRecords.updatePublish_collision_iff hwf hnot).mp hanswer)) h
    · rw [handleIncomingPublish_of_refused env hview hpublish hr hnot hanswer he] at h
      cases h

theorem handleIncomingPublish_exactlyOnce_silent
    (hin : publish.packetId.getD 0 ∈ inFlightIds r.incoming) :
    Logs Observation.silent s (handleIncomingPublish env total s).2 := by
  have hnot : publish.qos ≠ .atMostOnce := by rw [hqos]; decide
  have hcollision := (PublishRecords.updatePublish_collision_iff hwf hnot).mpr hin
  rw [handleIncomingPublish_of_again env hview hpublish hr hqos hcollision]
  refine trans_of (Logs _) (onRecords_logs ?_ s)
    (acknowledge_replied (by decide) rfl (true, none) _).logs_silent
  rintro before answer e accepted ⟨⟩

end Received

theorem handlePacket_of_view {total : ℕ} {s : Sys W} {view : PacketInfo}
    (hview : s.context.packetView total = some view) (manageKeepAlive : Bool) :
    handlePacket env total manageKeepAlive s =
      if view.packetType &&& 0xF0 = Packet.publish then handleIncomingPublish env total s
      else if view.packetType = Packet.disconnect then handleIncomingDisconnect env total s
      else handleIncomingAck env view.packetType total manageKeepAlive s := by
  have hhead : s.context.network.head? = some view.packetType := head?_of_packetView hview
  rw [handlePacket, Prog.bind_of_ok (context_apply s), hhead, orFail_bind_of_some rfl]
  split_ifs <;> rfl

/-- In every run that leaves the records to the client, whatever reason code a PUBREC carries or an application answers with: a PUBREC
leaves its message recorded, and is answered with a PUBREL if it is handled without an error; a
QoS 2 PUBLISH that is handled without an error is recorded and answered with a PUBREC; and while
its identifier is in use, such a PUBLISH is not shown. -/
theorem reason_codes_change_nothing (calls : List (Environment W × Invocation))
    (hcalls : ∀ call ∈ calls, call.2.restores = false) (network : List UInt8) (world : W) :
    ∀ h ∈ handledInRun calls (start network world),
      ∀ view r, h.before.context.packetView h.total = some view →
        h.before.context.records = some r →
        let run := handlePacket h.env h.total h.manageKeepAlive h.before
        (view.packetType = Packet.pubrec →
          (∃ r', run.2.context.records = some r' ∧ ∀ packetId ∈ inFlightIds r.outgoing,
            packetId ∈ inFlightIds r'.outgoing) ∧
          (run.1 = .ok () → ∃ info rest r', deserializeAck view h.before.context.limits = .ok info ∧
            SentWithin (ackPacket Packet.pubrel (info.packetId.getD 0) rest) h.before run.2 ∧
            run.2.context.records = some r' ∧ ∃ x ∈ inFlight r'.outgoing,
              x.packetId = info.packetId.getD 0 ∧ x.state = .pubCompPending)) ∧
        ∀ publish, view.packetType &&& 0xF0 = Packet.publish →
          deserializePublish view h.before.context.properties.client.maxPacketSize
            h.before.context.properties.client.topicAliasMax = .ok publish →
          publish.qos = .exactlyOnce →
          (run.1 = .ok () → ∃ rest r',
            SentWithin (ackPacket Packet.pubrec (publish.packetId.getD 0) rest) h.before run.2 ∧
            run.2.context.records = some r' ∧
            publish.packetId.getD 0 ∈ inFlightIds r'.incoming) ∧
          (publish.packetId.getD 0 ∈ inFlightIds r.incoming →
            Logs Observation.silent h.before run.2) := by
  intro h hh view r hview hr
  dsimp only
  have hwf : r.WellFormed := handled_wellKept hcalls h hh r hr
  rw [handlePacket_of_view hview]
  constructor
  · intro htype
    have hack : ackFromPacketType view.packetType = some .pubRec := by rw [htype]; rfl
    rw [if_neg (by rw [htype]; decide), if_neg (by rw [htype]; decide), handleIncomingAck,
      if_pos (isPublishAck_of_ackFromPacketType hack)]
    constructor
    · obtain ⟨r', hr', -, hids⟩ := handlePublishAcks_pubRec_lasts hview hack r hr hwf
      exact ⟨r', hr', hids⟩
    · intro hok
      exact handlePublishAcks_pubRec_eq_ok hview hack hr hwf (Prog.eq_of_fst_ok hok)
  · intro publish htype hpublish hqos
    rw [if_pos htype]
    constructor
    · intro hok
      exact handleIncomingPublish_exactlyOnce_eq_ok hview hpublish hqos hr hwf
        (Prog.eq_of_fst_ok hok)
    · exact handleIncomingPublish_exactlyOnce_silent hview hpublish hqos hr hwf

/-- A QoS 2 publish, and the reading of what the broker sends then. -/
def publishThenRead : List (Environment Script × Invocation) :=
  let env := Script.environment true
  [(env, .request (.enableQos [Record.default] [Record.default] [0])),
    (env, .request (.connect (Script.connect true []) 0)),
    (env, .request (.traffic (.publish
      { dup := false, qos := .exactlyOnce, retain := false, topicName := [97], payload := [],
        properties := [] } 1))),
    (env, .request (.traffic .processLoop))]

def refusedPublish : Sys Script := start (List.replicate 64 0)
  { reads := [Script.connack false [], [0x50, 3, 0, 1, 0x87]] }

theorem refused_publish_handled :
    ∃ h ∈ handledInRun publishThenRead refusedPublish, ∃ view r,
      h.before.context.packetView h.total = some view ∧ h.before.context.records = some r ∧
        let run := handlePacket h.env h.total h.manageKeepAlive h.before
        (view.packetType = Packet.pubrec →
          (∃ r', run.2.context.records = some r' ∧ ∀ packetId ∈ inFlightIds r.outgoing,
            packetId ∈ inFlightIds r'.outgoing) ∧
          (run.1 = .ok () → ∃ info rest r', deserializeAck view h.before.context.limits = .ok info ∧
            SentWithin (ackPacket Packet.pubrel (info.packetId.getD 0) rest) h.before run.2 ∧
            run.2.context.records = some r' ∧ ∃ x ∈ inFlight r'.outgoing,
              x.packetId = info.packetId.getD 0 ∧ x.state = .pubCompPending)) ∧
        ∀ publish, view.packetType &&& 0xF0 = Packet.publish →
          deserializePublish view h.before.context.properties.client.maxPacketSize
            h.before.context.properties.client.topicAliasMax = .ok publish →
          publish.qos = .exactlyOnce →
          (run.1 = .ok () → ∃ rest r',
            SentWithin (ackPacket Packet.pubrec (publish.packetId.getD 0) rest) h.before run.2 ∧
            run.2.context.records = some r' ∧
            publish.packetId.getD 0 ∈ inFlightIds r'.incoming) ∧
          (publish.packetId.getD 0 ∈ inFlightIds r.incoming →
            Logs Observation.silent h.before run.2) := by
  have hpackets : (handledInRun publishThenRead refusedPublish).map
      (fun h => (h.before.context.packetView h.total, h.before.context.records)) =
      [(some { packetType := 0x50, remainingLength := 3, remainingData := [0, 1, 0x87] },
        some { outgoing := [{ packetId := 1, qos := .exactlyOnce, state := .pubRecPending }],
               incoming := [Record.default] })] := by decide +kernel
  obtain ⟨h, hmem, heq⟩ := List.mem_map.mp (hpackets ▸ List.mem_cons_self)
  obtain ⟨hview, hrecords⟩ := Prod.mk.inj heq
  exact ⟨h, hmem, _, _, hview, hrecords,
    reason_codes_change_nothing publishThenRead (by decide) _ _ h hmem _ _ hview hrecords⟩

/-- The PUBREC that refuses a publish is answered with a PUBREL. And the identifier of a PUBLISH
that the application refuses stays in use: the next message under it is acknowledged and not
shown. -/
theorem failed_handshakes_go_on :
    let s := afterAll refusedPublish publishThenRead
    let env := Script.environment true
    let t := after (start (List.replicate 64 0)
        { reads := [Script.connack false [], [0x34, 6, 0, 1, 97, 0, 1, 0],
            [0x34, 7, 0, 1, 97, 0, 1, 0, 9]]
          answers := [([.setReasonCode 0x87], true)] })
      [(env, .enableQos [Record.default] [Record.default] [0]),
        (env, .connect (Script.connect true []) 0),
        (env, .traffic .processLoop), (env, .traffic .processLoop)]
    (s.log.filterMap Observation.offered).getLast? = some [0x62, 2, 0, 1] ∧
      s.context.records.map PublishRecords.outgoing =
        some [{ packetId := 1, qos := .exactlyOnce, state := .pubCompPending }] ∧
      (t.log.filterMap Observation.offered).drop 1 =
        [[0x50, 4, 0, 1, 0x87, 0], [0x50, 2, 0, 1]] ∧
      (t.log.filterMap fun o => match o with
        | .event e _ => e.publish.map PublishInfo.payload
        | _ => none) = [[]] ∧
      t.context.records.map PublishRecords.incoming =
        some [{ packetId := 1, qos := .exactlyOnce, state := .pubRelPending }] := by
  decide +kernel

end Client

end RtosMqtt
