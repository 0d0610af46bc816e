import RtosMqtt.Client.Assembly
import RtosMqtt.Client.Belonging
import RtosMqtt.Client.Sweep

/-! # Nothing is acknowledged that was not shown

An array takes a PUBLISH right before the event of it, and what the array holds
is what it took last. So the acknowledgement of a PUBLISH follows its event: in
the handling that sends it or, when a QoS 2 PUBLISH comes again, in the one that
took the record.
-/

namespace RtosMqtt

/-- The identifiers and the qualities of service in flight. -/
def messages (records : List Record) : List (UInt16 × QoS) :=
  (inFlight records).map fun x => (x.packetId, x.qos)

theorem mem_messages {records : List Record} {message : UInt16 × QoS} :
    message ∈ messages records ↔ ∃ x ∈ inFlight records, (x.packetId, x.qos) = message :=
  List.mem_map

theorem fst_mem_of_mem_messages {records : List Record} {message : UInt16 × QoS}
    (h : message ∈ messages records) : message.1 ∈ inFlightIds records := by
  obtain ⟨x, hx, rfl⟩ := mem_messages.mp h
  exact List.mem_map_of_mem hx

theorem messages_congr {records array : List Record} (h : inFlight array = inFlight records) :
    messages array = messages records := congrArg (List.map _) h

theorem messages_cleared (records : List Record) :
    messages (records.map fun _ => Record.default) = [] := by
  rw [messages, inFlight_cleared, List.map_nil]

theorem messages_take (records : List Record) (n : ℕ) :
    messages (records.take n) ⊆ messages records :=
  (((List.take_sublist n records).filter _).map _).subset

theorem AckEffect.messages_subset {records : List Record} {packetId : UInt16} {ack : AckType}
    {op : Operation} {result : Except StateError PublishState × List Record}
    (h : AckEffect records packetId ack op result) (hin : isPublishOutgoing ack op = false) :
    messages result.2 ⊆ messages records := by
  cases h with
  | unknown _ => exact List.Subset.refl _
  | illegal _ _ _ _ => exact List.Subset.refl _
  | repeated _ _ _ _ _ => exact List.Subset.refl _
  | finished x array _ _ _ _ hlive _ _ =>
    rw [messages, hlive]
    exact List.map_subset _ (List.filter_sublist.subset)
  | released x array _ _ _ hnew _ _ _ =>
    obtain ⟨rfl, rfl, -⟩ := calculateStateAck_eq_pubRelSend hnew
    cases hin
  | moved x new array hx _ _ _ _ _ hlive _ _ =>
    rintro message hmessage
    obtain ⟨y, hy, rfl⟩ := mem_messages.mp hmessage
    rw [hlive] at hy
    rcases mem_amend hy with rfl | hy
    · exact mem_messages.mpr ⟨x, hx, rfl⟩
    · exact mem_messages.mpr ⟨y, hy, rfl⟩

namespace PublishRecords

theorem messages_call {r : PublishRecords} (h : r.WellFormed) {c : Call}
    (hc : c.receives = false) : messages (r.call c).2.incoming ⊆ messages r.incoming := by
  cases c with
  | reserve packetId qos =>
    have heff := reserve_spec r packetId qos
    dsimp only [call]
    generalize r.reserve packetId qos = result at heff ⊢
    cases heff <;> exact List.Subset.refl _
  | updatePublish packetId op qos =>
    have heff := updatePublish_spec h.outgoing.distinct packetId op qos
    dsimp only [call]
    generalize r.updatePublish packetId op qos = result at heff ⊢
    cases heff with
    | received => cases hc
    | _ => exact List.Subset.refl _
  | updateAck packetId ack op =>
    have heff := updateAck_spec h packetId ack op
    dsimp only [call]
    generalize r.updateAck packetId ack op = result at heff ⊢
    cases heff with
    | incoming _ hin _ heff => exact heff.messages_subset hin
    | _ => exact List.Subset.refl _
  | remove packetId =>
    have heff := remove_spec h packetId
    dsimp only [call]
    generalize r.remove packetId = result at heff ⊢
    cases heff <;> exact List.Subset.refl _

/-- A PUBLISH that arrives is taken under an identifier that is not in flight, or leaves the
incoming array as it is. -/
theorem messages_received {r : PublishRecords} (h : r.WellFormed) (packetId : UInt16) (qos : QoS) :
    let result := r.updatePublish packetId .receive qos
    (qos ≠ .atMostOnce ∧ (∃ state, result.1 = .ok state) ∧ packetId ∉ inFlightIds r.incoming ∧
        messages result.2.incoming = messages r.incoming ++ [(packetId, qos)]) ∨
      ((∃ e, result.1 = .error e) ∨ qos = .atMostOnce) ∧
        messages result.2.incoming = messages r.incoming := by
  intro result
  have heff := updatePublish_spec h.outgoing.distinct packetId .receive qos
  change PublishEffect r packetId qos .receive result at heff
  generalize result = result at heff
  cases heff with
  | unrecorded _ hq => exact .inr ⟨.inr hq, rfl⟩
  | zero _ _ _ => exact .inr ⟨.inl ⟨_, rfl⟩, rfl⟩
  | received hq _ result hadd =>
    cases hadd with
    | collision _ => exact .inr ⟨.inl ⟨_, rfl⟩, messages_congr (inFlight_settled _)⟩
    | full _ _ => exact .inr ⟨.inl ⟨_, rfl⟩, messages_congr (inFlight_settled _)⟩
    | appended array hnot _ hlive _ _ =>
      refine .inl ⟨hq, ⟨_, rfl⟩, hnot, ?_⟩
      dsimp only
      rw [messages, hlive, List.map_append]
      rfl

end PublishRecords

theorem Replaces.messages_subset {before : Option PublishRecords} {r : PublishRecords}
    (h : Replaces before r) :
    messages r.incoming ⊆ messages ((before.map PublishRecords.incoming).getD []) := by
  cases h with
  | fresh before outgoing incoming =>
    rw [PublishRecords.new, messages_cleared]
    exact List.nil_subset _
  | capped r outgoing incoming =>
    unfold PublishRecords.cap
    dsimp only
    split_ifs
    all_goals first | exact messages_take _ _ | exact List.Subset.refl _
  | cleared r =>
    rw [PublishRecords.clearIncoming, messages_cleared]
    exact List.nil_subset _

variable {W : Type}

def Observation.admitted : Observation → Option (UInt16 × QoS)
  | .recorded _ (.updatePublish packetId .receive qos) (.ok ()) =>
    if qos = .atMostOnce then none else some (packetId, qos)
  | _ => none

def Event.message (e : Event) : Option (UInt16 × QoS) :=
  e.publish.map fun publish => (publish.packetId.getD 0, publish.qos)

/-- An array took a message, its event came right after that, and nothing was taken under its
identifier since. -/
def ShownLast (message : UInt16 × QoS) (log : List Observation) : Prop :=
  ∃ earlier o e accepted later, log = earlier ++ o :: .event e accepted :: later ∧
    o.admitted = some message ∧ e.message = some message ∧
      ∀ o' ∈ later, ∀ other, o'.admitted = some other → other.1 ≠ message.1

theorem Observation.admitted_of_isIo {o : Observation} (h : o.isIo = true) : o.admitted = none := by
  cases o with
  | recorded => cases h
  | _ => rfl

theorem ShownLast.append {message : UInt16 × QoS} {log more : List Observation}
    (h : ShownLast message log)
    (hmore : ∀ o ∈ more, ∀ other, o.admitted = some other → other.1 ≠ message.1) :
    ShownLast message (log ++ more) := by
  obtain ⟨earlier, o, e, accepted, later, rfl, ho, he, hlater⟩ := h
  refine ⟨earlier, o, e, accepted, later ++ more, by simp, ho, he, ?_⟩
  intro o' ho'
  rcases List.mem_append.mp ho' with ho' | ho'
  · exact hlater o' ho'
  · exact hmore o' ho'

/-- The records are well formed, and what the incoming array holds was shown. -/
structure Witnessed (s : Sys W) : Prop where
  wellKept : s.context.WellKept
  shown : ∀ message ∈ messages s.context.incoming, ShownLast message s.log

theorem Witnessed.append {s t : Sys W} (hs : Witnessed s) {more : List Observation}
    (hlog : t.log = s.log ++ more) (hmore : ∀ o ∈ more, o.admitted = none)
    (hwell : t.context.WellKept)
    (hkept : messages t.context.incoming ⊆ messages s.context.incoming) : Witnessed t where
  wellKept := hwell
  shown message hmessage := by
    rw [hlog]
    apply (hs.shown message (hkept hmessage)).append
    intro o ho other hother
    rw [hmore o ho] at hother
    cases hother

theorem Witnessed.congr {s t : Sys W} (hs : Witnessed s) {more : List Observation}
    (hlog : t.log = s.log ++ more) (hmore : ∀ o ∈ more, o.admitted = none)
    (hrecords : t.context.records = s.context.records) : Witnessed t := by
  apply hs.append hlog hmore (hs.wellKept.congr hrecords)
  rw [MqttContext.incoming, hrecords]
  exact List.Subset.refl _

theorem Client.dispatch_witnessed (env : Environment W) (e : Event) (wantsReply : Bool) :
    (Client.dispatch env e wantsReply).Moves (Keeping Witnessed) := by
  have hnone (accepted : Bool) : ∀ o ∈ [Observation.event e accepted], o.admitted = none := by
    intro o ho
    rw [List.mem_singleton.mp ho]
    rfl
  exact fun s hs => hs.congr rfl (hnone _) rfl

theorem witnessed_sweep (env : Environment W) : Sweep env (Keeping Witnessed) where
  io h hs := by
    obtain ⟨more, hlog, hio⟩ := h.log.exists_io
    exact hs.congr hlog (fun o ho => Observation.admitted_of_isIo (hio o ho)) h.quiet.records
  update s c hc hs := hs.congr (List.append_nil _).symm (fun o ho => absurd ho List.not_mem_nil) hc
  present s sessionPresent hs :=
    hs.congr (List.append_nil _).symm (fun o ho => absurd ho List.not_mem_nil) rfl
  replace s r hr hs := by
    have hwell : MqttContext.WellKept { s.context with records := some r } := by
      intro r' hr'
      obtain rfl := Option.some.inj hr'
      exact hr.wellFormed hs.wellKept
    exact hs.append (List.append_nil _).symm (fun o ho => absurd ho List.not_mem_nil) hwell
      hr.messages_subset
  call s r c hr hc hs := by
    have hwell : r.WellFormed := hs.wellKept r hr
    refine hs.append rfl ?_ ?_ ?_
    · intro o ho
      rw [List.mem_singleton.mp ho]
      cases c with
      | updatePublish packetId op qos =>
        cases op with
        | send => rfl
        | receive => cases hc
      | _ => rfl
    · intro r' hr'
      obtain rfl := Option.some.inj hr'
      exact hwell.call c
    · rw [MqttContext.incoming, MqttContext.incoming, hr]
      exact PublishRecords.messages_call hwell hc
  event e wantsReply s _ hs := Client.dispatch_witnessed env e wantsReply s hs

theorem admitted_refused (r : PublishRecords) (packetId : UInt16) {qos : QoS}
    {answer : Except StateError PublishState}
    (h : (∃ e, answer = .error e) ∨ qos = .atMostOnce) :
    (Observation.recorded r (.updatePublish packetId .receive qos)
      (answer.map fun _ => ())).admitted = none := by
  rcases h with ⟨e, rfl⟩ | rfl
  · rfl
  · cases answer <;> rfl

theorem Witnessed.told {s t : Sys W} (hs : Witnessed s) {o : Observation} {message : UInt16 × QoS}
    {e : Event} {accepted : Bool} (hlog : t.log = s.log ++ [o, .event e accepted])
    (ho : o.admitted = some message) (he : e.message = some message)
    (hnot : message.1 ∉ inFlightIds s.context.incoming) (hwell : t.context.WellKept)
    (hkept : messages t.context.incoming = messages s.context.incoming ++ [message]) :
    Witnessed t where
  wellKept := hwell
  shown other hother := by
    rw [hlog]
    rw [hkept, List.mem_append, List.mem_singleton] at hother
    rcases hother with hold | rfl
    · apply (hs.shown other hold).append
      have hne : message.1 ≠ other.1 := fun hsame => hnot (hsame ▸ fst_mem_of_mem_messages hold)
      intro o' ho' message' hmessage'
      rw [List.mem_pair] at ho'
      rcases ho' with rfl | rfl
      · rw [← Option.some.inj (ho.symm.trans hmessage')]
        exact hne
      · cases hmessage'
    · exact ⟨s.log, o, e, accepted, [], rfl, ho, he, fun o' ho' => absurd ho' List.not_mem_nil⟩

namespace Client

variable (env : Environment W)

/-- A PUBLISH that arrives is taken, and its event leaves what was taken shown; or it is not. -/
theorem updatePublish_witnessed {packetId : UInt16} {qos : QoS} {s t : Sys W}
    {answer : Option (Except StateError PublishState)} (hs : Witnessed s)
    (hrun : updatePublish packetId .receive qos s = (.ok answer, t)) :
    Witnessed t ∨ (∃ state, answer = some (.ok state)) ∧ ∀ e wantsReply,
      e.message = some (packetId, qos) → Witnessed (dispatch env e wantsReply t).2 := by
  rw [updatePublish] at hrun
  cases hr : s.context.records with
  | none =>
    rw [onRecords_none hr] at hrun
    obtain ⟨-, rfl⟩ := Prod.mk.inj hrun
    exact .inl hs
  | some r =>
    have hwell : r.WellFormed := hs.wellKept r hr
    rw [onRecords_some hr] at hrun
    obtain ⟨hanswer, rfl⟩ := Prod.mk.inj hrun
    obtain rfl := Except.ok.inj hanswer
    have hincoming : s.context.incoming = r.incoming := by
      rw [MqttContext.incoming, hr]
      rfl
    have hwell' : MqttContext.WellKept { s.context with
        records := some (r.updatePublish packetId .receive qos).2 } := by
      intro r' hr'
      obtain rfl := Option.some.inj hr'
      exact hwell.updatePublish packetId .receive qos
    rcases PublishRecords.messages_received hwell packetId qos with
      ⟨hqos, ⟨state, hok⟩, hnot, hmessages⟩ | ⟨hnone, hmessages⟩
    · right
      refine ⟨⟨state, congrArg some hok⟩, ?_⟩
      intro e wantsReply he
      have hadmitted : (Observation.recorded r (.updatePublish packetId .receive qos)
          ((r.updatePublish packetId .receive qos).1.map fun _ => ())).admitted =
            some (packetId, qos) := by
        rw [hok]
        exact if_neg hqos
      rw [← hincoming] at hnot hmessages
      exact hs.told (List.append_assoc _ _ _) hadmitted he hnot hwell' hmessages
    · left
      refine hs.append rfl ?_ hwell' ?_
      · intro o ho
        rw [List.mem_singleton.mp ho]
        exact admitted_refused r packetId hnone
      · rw [hincoming]
        exact hmessages ▸ List.Subset.refl _

theorem receivePublish_witnessed (total : ℕ) {s : Sys W} (hs : Witnessed s) :
    Witnessed (receivePublish total s).2 ∨
      ∃ p, (receivePublish total s).1 = .ok p ∧ p.duplicate = false ∧ ∀ wantsReply, Witnessed
        (dispatch env (publishEvent p.view p.publish) wantsReply (receivePublish total s).2).2 := by
  rw [receivePublish, Prog.bind_of_ok (context_apply s)]
  cases hview : s.context.packetView total with
  | none =>
    rw [orFail_bind_of_none rfl]
    exact .inl hs
  | some view =>
  rw [orFail_bind_of_some rfl]
  cases hpublish : deserializePublish view s.context.properties.client.maxPacketSize
      s.context.properties.client.topicAliasMax with
  | error e =>
    rw [check_bind_of_error rfl]
    exact .inl hs
  | ok publish =>
  rw [check_bind_of_ok rfl, Client.refuse, Prog.refuse_bind_apply]
  split_ifs
  · exact .inl hs
  rcases hupdate : updatePublish (publish.packetId.getD 0) .receive publish.qos s with
    ⟨e | answer, t⟩
  · cases (Prod.mk.inj hupdate).1
  rw [Prog.bind_of_ok hupdate]
  rcases updatePublish_witnessed env hs hupdate with hkept | ⟨⟨state, rfl⟩, hshown⟩
  · exact .inl (Prog.Moves.bind (R := Keeping Witnessed) (receivedState_moves _ _)
      (fun _ => .pure _) t hkept)
  · exact .inr ⟨_, rfl, rfl, fun wantsReply => hshown _ wantsReply rfl⟩

theorem handleIncomingPublish_witnessed (total : ℕ) :
    (handleIncomingPublish env total).Moves (Keeping Witnessed) := by
  have hsweep := witnessed_sweep env
  have hafter (qos : QoS) (packetId : UInt16) (state : PublishState)
      (answer : Bool × Option UInt8) :
      (acknowledge env qos packetId state answer).Moves (Keeping Witnessed) :=
    hsweep.openings.toRounds.acknowledge _ _ _ _
  intro s hs
  have hreceived := receivePublish_witnessed env total hs
  rw [handleIncomingPublish_eq]
  rcases h : receivePublish total s with ⟨e | p, t⟩
  · rw [h] at hreceived
    rw [Prog.bind_of_error h]
    rcases hreceived with hkept | ⟨p, hp, -⟩
    · exact hkept
    · cases hp
  rw [h] at hreceived
  rw [Prog.bind_of_ok h]
  rcases hreceived with hkept | ⟨p', hp, hnew, hshown⟩
  · exact (Prog.Moves.bind (.ite (dispatch_witnessed env _ _) (.pure _)) fun _ => hafter _ _ _ _ :
      Prog.Moves (Keeping Witnessed) _) t hkept
  · obtain rfl := Except.ok.inj hp
    have htell : tell p.duplicate p.publish.qos = true := by rw [tell, hnew]; rfl
    rw [if_pos htell]
    exact Prog.rel_bind (R := Keeping Witnessed) (u := s) (fun _ => hshown _) (hafter _ _ _) hs

end Client

/-- A first part of a PUBACK or of a PUBREC went out. -/
def Acknowledged (s t : Sys W) : Prop :=
  (wire (noted s t)).head? = some Packet.puback ∨ (wire (noted s t)).head? = some Packet.pubrec

theorem Puts.head {packet : List UInt8} {s t : Sys W} (h : Puts packet s t)
    (hack : Acknowledged s t) :
    packet.head? = some Packet.puback ∨ packet.head? = some Packet.pubrec := by
  obtain ⟨more, hlog, rest, hpacket⟩ := h
  rw [Acknowledged, noted_eq hlog] at hack
  have hhead {byte : UInt8} (hbyte : (wire more).head? = some byte) :
      packet.head? = some byte := by
    rw [← hpacket, List.head?_append, hbyte]
    rfl
  exact hack.imp hhead hhead

theorem Mute.not_acknowledged {s t : Sys W} (h : Mute s t) : ¬ Acknowledged s t := by
  intro hack
  have hnone := (@Mute.puts W [] s t h).head hack
  cases hnone <;> contradiction

theorem head_replyPacket (packetType : UInt8) (packetId : UInt16) (reasonCode : Option UInt8)
    (properties : List UInt8) :
    (replyPacket packetType packetId reasonCode properties).head? = some packetType := by
  unfold replyPacket
  split_ifs <;> rfl

theorem AckEffect.answer {records : List Record} {packetId : UInt16} {ack : AckType}
    {op : Operation} {result : Except StateError PublishState × List Record} {state : PublishState}
    (h : AckEffect records packetId ack op result) (hok : result.1 = .ok state) :
    ∃ qos, state = calculateStateAck ack op qos := by
  cases h with
  | unknown _ => cases hok
  | illegal _ _ _ _ => cases hok
  | repeated x _ _ _ hnew => exact ⟨x.qos, (Except.ok.inj hok).symm.trans hnew.symm⟩
  | finished x _ _ _ _ hnew _ _ _ => exact ⟨x.qos, (Except.ok.inj hok).symm.trans hnew.symm⟩
  | released x _ _ _ _ hnew _ _ _ => exact ⟨x.qos, (Except.ok.inj hok).symm.trans hnew.symm⟩
  | moved x _ _ _ _ _ hnew _ _ _ _ _ => exact ⟨x.qos, (Except.ok.inj hok).symm.trans hnew.symm⟩

theorem PublishRecords.updateAck_answer {r : PublishRecords} (h : r.WellFormed)
    {packetId : UInt16} {ack : AckType} {op : Operation} {state : PublishState}
    (hok : (r.updateAck packetId ack op).1 = .ok state) :
    ∃ qos, state = calculateStateAck ack op qos := by
  have heff := updateAck_spec h packetId ack op
  generalize r.updateAck packetId ack op = result at heff hok
  cases heff with
  | zero _ => cases hok
  | outgoing _ _ _ heff => exact heff.answer hok
  | incoming _ _ _ heff => exact heff.answer hok

namespace Client

variable {env : Environment W}

theorem ackTypeToSend_received (ack : AckType) (qos : QoS) :
    ackTypeToSend (calculateStateAck ack .receive qos) ≠ Packet.puback ∧
      ackTypeToSend (calculateStateAck ack .receive qos) ≠ Packet.pubrec := by
  cases ack <;> cases qos <;> decide

theorem receiveAck_state {total : ℕ} {s t : Sys W} {p : ReceivedAck} (hs : s.context.WellKept)
    (hrun : receiveAck env total s = (.ok p, t)) :
    ackTypeToSend p.state ≠ Packet.puback ∧ ackTypeToSend p.state ≠ Packet.pubrec := by
  rw [receiveAck, Prog.bind_of_ok (context_apply s), Prog.bind_eq_ok] at hrun
  obtain ⟨view, u, hview, hrun⟩ := hrun
  obtain ⟨-, rfl⟩ := orFail_eq_ok.mp hview
  rw [Prog.bind_eq_ok] at hrun
  obtain ⟨ack, v, hack, hrun⟩ := hrun
  obtain ⟨-, rfl⟩ := orFail_eq_ok.mp hack
  rw [Prog.bind_eq_ok] at hrun
  obtain ⟨info, u, hinfo, hrun⟩ := hrun
  obtain ⟨-, rfl⟩ := check_eq_ok.mp hinfo
  rw [Prog.bind_eq_ok] at hrun
  obtain ⟨answer, v, hanswer, hrun⟩ := hrun
  rw [Prog.bind_eq_ok] at hrun
  obtain ⟨state, w, hstate, hrun⟩ := hrun
  rw [Prog.bind_eq_ok] at hrun
  obtain ⟨_, x, -, hrun⟩ := hrun
  obtain ⟨hp, -⟩ := Prod.mk.inj hrun
  obtain rfl := Except.ok.inj hp
  dsimp only
  rw [updateAck] at hanswer
  cases hr : u.context.records with
  | none =>
    rw [onRecords_none hr] at hanswer
    obtain ⟨hnone, -⟩ := Prod.mk.inj hanswer
    obtain rfl := Except.ok.inj hnone
    obtain ⟨hstate, -⟩ := Prod.mk.inj hstate
    obtain rfl := Except.ok.inj hstate
    decide
  | some r =>
    rw [onRecords_some hr] at hanswer
    obtain ⟨hanswer, -⟩ := Prod.mk.inj hanswer
    obtain rfl := Except.ok.inj hanswer
    cases hok : (r.updateAck (info.packetId.getD 0) ack .receive).1 with
    | error e =>
      rw [hok] at hstate
      cases (Prod.mk.inj hstate).1
    | ok new =>
      rw [hok] at hstate
      obtain ⟨hstate, -⟩ := Prod.mk.inj hstate
      obtain rfl := Except.ok.inj hstate
      obtain ⟨qos, rfl⟩ := PublishRecords.updateAck_answer (hs r hr) hok
      exact ackTypeToSend_received ack qos

variable (env) in
theorem concludeAck_puts (ack : AckType) (packetId : UInt16) (state : PublishState)
    (answer : Bool × Option UInt8) (s : Sys W) :
    Puts (replyPacket (ackTypeToSend state) packetId answer.2 s.context.built) s
      (concludeAck env ack packetId state answer s).2 := by
  cases hends : endsSequence ack with
  | true =>
    have hmute : (concludeAck env ack packetId state answer).Moves Mute := by
      rw [concludeAck, hends]
      exact (refuse_moves _ _).bind fun _ => checkSectionLength_moves.bind fun _ => .pure _
    exact Mute.puts (hmute s)
  | false =>
    have hrespond : concludeAck env ack packetId state answer =
        respond env packetId state answer := by
      rw [concludeAck, respond, hends, Prog.when, if_pos rfl]
    rw [hrespond]
    exact respond_puts env packetId state answer s

theorem handlePublishAcks_unacknowledged (total : ℕ) {s : Sys W} (hs : s.context.WellKept) :
    ¬ Acknowledged s (handlePublishAcks env total s).2 := by
  have haside : Aside s (receiveAck env total s).2 := receiveAck_aside total s
  rw [handlePublishAcks_eq]
  rcases h : receiveAck env total s with ⟨e | p, t⟩
  · rw [h] at haside
    rw [Prog.bind_of_error h]
    exact haside.mute.not_acknowledged
  rw [h] at haside
  obtain ⟨hack, hrec⟩ := receiveAck_state hs h
  rw [Prog.bind_of_ok h, Prog.bind_of_ok (dispatch_apply env _ _ t)]
  have hshown : Mute t (shown env (ackEvent p.view p.info) (!endsSequence p.ack) t) :=
    dispatch_mute _ _ _
  intro hacked
  have hhead := (((concludeAck_puts env _ _ _ _ _).after hshown).after haside.mute).head hacked
  rw [head_replyPacket] at hhead
  exact hhead.elim (fun h => hack (Option.some.inj h)) fun h => hrec (Option.some.inj h)

theorem handleIncomingDisconnect_unacknowledged (total : ℕ) (s : Sys W) :
    ¬ Acknowledged s (handleIncomingDisconnect env total s).2 := by
  rw [handleIncomingDisconnect, Prog.bind_of_ok (context_apply s)]
  cases hview : s.context.packetView total with
  | none => exact (refl_of Mute s).not_acknowledged
  | some view =>
  rw [orFail_bind_of_some rfl]
  have hrest (status : Except ClientError Unit) : Prog.Moves Mute (do
      update fun c => { c with connectStatus := .notConnected }
      check id status : Client W Unit) :=
    (update_mute _).bind fun _ => check_moves _ _
  unfold answerDisconnect
  cases hread : deserializeDisconnect view s.context.properties.client.maxPacketSize with
  | ok incoming =>
    have hmute := (attempt_moves ((@dispatch_mute W env (disconnectEvent view incoming)
      false).bind fun answer => refuse_moves (!answer.1) .eventCallbackFailed)).bind hrest s
    exact hmute.not_acknowledged
  | error e =>
    obtain ⟨packet, htype, hputs⟩ := disconnect_puts env (some malformedPacket) [] s
    have hall : Puts packet s ((attempt (disconnect env (some malformedPacket) [] >>= fun _ =>
        fail .notConnected : Client W Unit) >>= fun status => do
          update fun c => { c with connectStatus := .notConnected }
          check id status : Client W Unit) s).2 := by
      apply puts_bind _ hrest
      rw [attempt_snd]
      exact puts_bind hputs fun _ => fail_moves _
    intro hacked
    have hhead := hall.head hacked
    rw [htype] at hhead
    cases hhead <;> contradiction

/-- A PUBLISH that was received was at the front of the buffer, and what it repeats is in the
incoming array. -/
theorem receivePublish_eq_ok {total : ℕ} {s t : Sys W} {p : ReceivedPublish}
    (hs : s.context.WellKept) (hrun : receivePublish total s = (.ok p, t)) :
    s.context.packetView total = some p.view ∧
      deserializePublish p.view s.context.properties.client.maxPacketSize
        s.context.properties.client.topicAliasMax = .ok p.publish ∧
      (p.duplicate = true → p.publish.packetId.getD 0 ∈ inFlightIds s.context.incoming) := by
  rw [receivePublish, Prog.bind_of_ok (context_apply s), Prog.bind_eq_ok] at hrun
  obtain ⟨view, u, hview, hrun⟩ := hrun
  obtain ⟨hview, rfl⟩ := orFail_eq_ok.mp hview
  rw [Prog.bind_eq_ok] at hrun
  obtain ⟨publish, v, hpublish, hrun⟩ := hrun
  obtain ⟨hpublish, rfl⟩ := check_eq_ok.mp hpublish
  rw [Client.refuse, Prog.refuse_bind_eq_ok, Prog.bind_eq_ok] at hrun
  obtain ⟨-, answer, w, hanswer, hrun⟩ := hrun
  rw [Prog.bind_eq_ok] at hrun
  obtain ⟨⟨duplicate, state⟩, x, hstate, hrun⟩ := hrun
  obtain ⟨hp, -⟩ := Prod.mk.inj hrun
  obtain rfl := Except.ok.inj hp
  refine ⟨hview, hpublish, ?_⟩
  rintro rfl
  rw [updatePublish] at hanswer
  cases hr : v.context.records with
  | none =>
    rw [onRecords_none hr] at hanswer
    obtain rfl := Except.ok.inj (Prod.mk.inj hanswer).1
    cases (Prod.mk.inj hstate).1
  | some r =>
    rw [onRecords_some hr] at hanswer
    obtain rfl := Except.ok.inj (Prod.mk.inj hanswer).1
    rw [MqttContext.incoming, hr]
    have heff := PublishRecords.updatePublish_spec (hs r hr).outgoing.distinct
      (publish.packetId.getD 0) .receive publish.qos
    generalize r.updatePublish (publish.packetId.getD 0) .receive publish.qos = result
      at heff hstate
    cases heff with
    | unrecorded => cases (Prod.mk.inj hstate).1
    | zero => cases (Prod.mk.inj hstate).1
    | received _ _ _ hadd =>
      cases hadd with
      | collision h => exact h
      | full => cases (Prod.mk.inj hstate).1
      | appended => cases (Prod.mk.inj hstate).1

/-- A PUBLISH is acknowledged under its own identifier, and what is told is accepted first. -/
theorem handleIncomingPublish_acknowledged {total : ℕ} {s : Sys W}
    (hack : Acknowledged s (handleIncomingPublish env total s).2) :
    ∃ p t, receivePublish total s = (.ok p, t) ∧ p.publish.qos ≠ .atMostOnce ∧
      (∃ reasonCode properties, Puts (replyPacket (ackTypeToSend p.state)
        (p.publish.packetId.getD 0) reasonCode properties) s
          (handleIncomingPublish env total s).2) ∧
      (tell p.duplicate p.publish.qos = true → .event (publishEvent p.view p.publish) true ∈
        noted s (handleIncomingPublish env total s).2) := by
  have haside : Aside s (receivePublish total s).2 := receivePublish_aside total s
  rw [handleIncomingPublish_eq] at hack ⊢
  rcases h : receivePublish total s with ⟨e | p, t⟩
  · rw [h] at haside
    rw [Prog.bind_of_error h] at hack
    exact absurd hack haside.mute.not_acknowledged
  rw [h] at haside
  rw [Prog.bind_of_ok h] at hack ⊢
  refine ⟨p, t, rfl, ?_⟩
  by_cases hqos : p.publish.qos = .atMostOnce
  · have hmute : Mute t (((if tell p.duplicate p.publish.qos then
        dispatch env (publishEvent p.view p.publish) (p.publish.qos != .atMostOnce)
      else pure (true, none)) >>=
        acknowledge env p.publish.qos (p.publish.packetId.getD 0) p.state) t).2 := by
      rw [hqos]
      exact Prog.Moves.bind (.ite (dispatch_mute _ _) (.pure _))
        (fun answer => (acknowledge_atMostOnce_aside _ _ answer).mono Aside.mute) t
    exact absurd hack (trans_of Mute haside.mute hmute).not_acknowledged
  refine ⟨hqos, ?_⟩
  rw [acknowledge_eq_respond hqos] at hack ⊢
  by_cases htell : tell p.duplicate p.publish.qos = true
  · rw [if_pos htell, Prog.bind_of_ok (dispatch_apply env _ _ t)] at hack ⊢
    have hshown : Mute t (shown env (publishEvent p.view p.publish)
      (p.publish.qos != .atMostOnce) t) := dispatch_mute _ _ _
    have hputs := respond_puts env (p.publish.packetId.getD 0) p.state
      ((env.reply (publishEvent p.view p.publish) (p.publish.qos != .atMostOnce) t).2,
        (env.reply (publishEvent p.view p.publish) (p.publish.qos != .atMostOnce) t).1.reasonCode)
      (shown env (publishEvent p.view p.publish) (p.publish.qos != .atMostOnce) t)
    refine ⟨⟨_, _, (hputs.after hshown).after haside.mute⟩, fun _ => ?_⟩
    cases haccepted : (env.reply (publishEvent p.view p.publish)
        (p.publish.qos != .atMostOnce) t).2 with
    | false =>
      rw [haccepted] at hack
      exact absurd hack (trans_of Mute haside.mute hshown).not_acknowledged
    | true =>
      obtain ⟨before, hbefore, -⟩ := haside.mute
      obtain ⟨more, hmore, -⟩ := hputs
      rw [haccepted] at hmore
      have hevent : (shown env (publishEvent p.view p.publish) (p.publish.qos != .atMostOnce)
          t).log = s.log ++ before ++ [.event (publishEvent p.view p.publish) true] := by
        rw [← hbefore, ← haccepted]
        rfl
      rw [hevent, List.append_assoc, List.append_assoc] at hmore
      rw [noted_eq hmore]
      simp
  · rw [if_neg htell, Prog.pure_bind] at hack ⊢
    exact ⟨⟨_, _, (respond_puts env _ _ _ t).after haside.mute⟩, fun h => absurd h htell⟩

end Client

/-- A PUBLISH of QoS 1 or 2 is acknowledged, under its own identifier. Its event was just accepted,
or it repeats, at QoS 2, a message in the incoming array, which was shown when the array took it. -/
def AnswersShown (total : ℕ) (s t : Sys W) : Prop :=
  ∃ view publish, s.context.packetView total = some view ∧
    deserializePublish view s.context.properties.client.maxPacketSize
      s.context.properties.client.topicAliasMax = .ok publish ∧
    publish.qos ≠ .atMostOnce ∧
    (∃ state reasonCode properties, Puts (replyPacket (ackTypeToSend state)
      (publish.packetId.getD 0) reasonCode properties) s t) ∧
    (.event (Client.publishEvent view publish) true ∈ noted s t ∨
      publish.qos = .exactlyOnce ∧ ∃ qos, (publish.packetId.getD 0, qos) ∈
        messages s.context.incoming ∧ ShownLast (publish.packetId.getD 0, qos) s.log)

namespace Client

variable {env : Environment W}

theorem handlePacket_acknowledged {total : ℕ} {manageKeepAlive : Bool} {s : Sys W}
    (hs : Witnessed s) (hack : Acknowledged s (handlePacket env total manageKeepAlive s).2) :
    AnswersShown total s (handlePacket env total manageKeepAlive s).2 := by
  rw [handlePacket, Prog.bind_of_ok (context_apply s)] at hack ⊢
  cases hhead : s.context.network.head? with
  | none =>
    rw [hhead] at hack
    exact absurd hack (refl_of Mute s).not_acknowledged
  | some packetType =>
  rw [hhead, orFail_bind_of_some rfl] at hack
  rw [orFail_bind_of_some rfl]
  by_cases hpublish : packetType &&& 0xF0 = Packet.publish
  · rw [if_pos hpublish] at hack ⊢
    obtain ⟨p, t, hp, hqos, ⟨reasonCode, properties, hputs⟩, htold⟩ :=
      handleIncomingPublish_acknowledged hack
    obtain ⟨hview, hread, hduplicate⟩ := receivePublish_eq_ok hs.wellKept hp
    refine ⟨p.view, p.publish, hview, hread, hqos, ⟨_, reasonCode, properties, hputs⟩, ?_⟩
    by_cases htell : tell p.duplicate p.publish.qos = true
    · exact .inl (htold htell)
    · rw [tell, Bool.or_eq_true, not_or, Bool.not_eq_true', Bool.not_eq_false] at htell
      obtain ⟨hrepeats, hone⟩ := htell
      obtain ⟨x, hx, hid⟩ := List.mem_map.mp (hduplicate hrepeats)
      have hmem : (p.publish.packetId.getD 0, x.qos) ∈ messages s.context.incoming :=
        mem_messages.mpr ⟨x, hx, by rw [hid]⟩
      refine .inr ⟨?_, x.qos, hmem, hs.shown _ hmem⟩
      cases hq : p.publish.qos with
      | atMostOnce => exact absurd hq hqos
      | atLeastOnce =>
        rw [hq] at hone
        exact absurd rfl hone
      | exactlyOnce => rfl
  rw [if_neg hpublish] at hack
  by_cases hdisconnect : packetType = Packet.disconnect
  · rw [if_pos hdisconnect] at hack
    exact absurd hack (handleIncomingDisconnect_unacknowledged total s)
  rw [if_neg hdisconnect, handleIncomingAck] at hack
  by_cases hpublishAck : isPublishAck packetType = true
  · rw [if_pos hpublishAck] at hack
    exact absurd hack (handlePublishAcks_unacknowledged total hs.wellKept)
  · rw [if_neg hpublishAck] at hack
    have haside : Prog.Moves Aside (if packetType = Packet.pingresp then
        handlePingresp env total manageKeepAlive
      else if packetType = Packet.suback ∨ packetType = Packet.unsuback then
        handleSubUnsubAck env total
      else fail .badResponse : Client W Unit) :=
      .ite (handlePingresp_aside _ _) (.ite (handleSubUnsubAck_aside _) (fail_moves _))
    exact absurd hack (haside s).mute.not_acknowledged

/-- In every run that leaves the records to the client, a PUBACK or a PUBREC, be it only its first
byte, goes out only for a PUBLISH whose event was just accepted, or that repeats a message which was
shown. -/
theorem acknowledged_shown {calls : List (Environment W × Invocation)}
    (hcalls : ∀ call ∈ calls, call.2.restores = false) {network : List UInt8} {world : W}
    {h : Handled W} (hh : h ∈ handledInRun calls (start network world))
    (hack : Acknowledged h.before (handlePacket h.env h.total h.manageKeepAlive h.before).2) :
    AnswersShown h.total h.before (handlePacket h.env h.total h.manageKeepAlive h.before).2 := by
  have hstart : Witnessed (start network world) := by
    constructor
    · intro r hr
      cases hr
    · intro message hmessage
      cases hmessage
  exact handlePacket_acknowledged ((handledInRun_swept hcalls (fun call _ => witnessed_sweep call.1)
    (fun call _ => handleIncomingPublish_witnessed call.1) hstart).1 h hh) hack

/-- A QoS 2 message is shown and refused, and is still in the buffer when the loop runs again. -/
def refusedAndRepeated : List (Environment Script × Invocation) :=
  let env := Script.environment false
  [(env, .request (.enableQos [Record.default] [Record.default] (List.replicate 32 0))),
    (env, .request (.connect (Script.connect true []) 0)),
    (env, .request (.traffic .processLoop)), (env, .request (.traffic .processLoop))]

def refusingFirst : Sys Script :=
  start (List.replicate 64 0)
    { reads := [Script.connack false [], [0x34, 7, 0, 1, 97, 0, 1, 0, 42]]
      answers := [([], false)] }

/-- The PUBREC of a message whose only event was refused still answers a message that was shown. -/
theorem refused_acknowledged : ∃ h ∈ handledInRun refusedAndRepeated refusingFirst,
    wire (noted h.before (handlePacket h.env h.total h.manageKeepAlive h.before).2) =
      [0x50, 2, 0, 1] ∧
    AnswersShown h.total h.before (handlePacket h.env h.total h.manageKeepAlive h.before).2 := by
  have hfound : ∃ h ∈ handledInRun refusedAndRepeated refusingFirst,
      wire (noted h.before (handlePacket h.env h.total h.manageKeepAlive h.before).2) =
        [0x50, 2, 0, 1] := by
    decide +kernel
  obtain ⟨h, hh, hwire⟩ := hfound
  refine ⟨h, hh, hwire, acknowledged_shown (by decide) hh (.inr ?_)⟩
  rw [hwire]
  rfl

end Client

end RtosMqtt
