import RtosMqtt.Client.Belonging
import RtosMqtt.Client.Framed
import RtosMqtt.Client.Passes
import RtosMqtt.Client.Redelivery
import RtosMqtt.Client.Shipments
import RtosMqtt.Wire.Agreement

/-! # Messages from one client to another

A message at QoS 0 is a PUBLISH and nothing else. What one client publishes and a transport
carries, cut into reads of any size, the loop of another client shows to its application: every
message once, in order, with all of its fields.
-/

namespace RtosMqtt

variable {W W₁ W₂ : Type}

/-- The messages whose call answered that they went out. -/
def wentOut (messages : List (OutgoingPublish × UInt16)) (answers : List (Except Stop Unit)) :
    List OutgoingPublish :=
  (messages.zip answers).filterMap fun x => if x.2 = .ok () then some x.1.1 else none

/-- A message at QoS 0 that may be sent, and makes a packet no shorter than a PUBLISH is. -/
structure OutgoingPublish.Plain (publish : OutgoingPublish) : Prop where
  qos : publish.qos = .atMostOnce
  fits : publish.Fits
  floor : 4 ≤ publishLength publish
  sends : ∃ serverTopicAliasMax topicAlias ps, publish.properties = encodedSection ps ∧
    Sendable serverTopicAliasMax topicAlias ps

theorem publishPacket_of_zero {publish : OutgoingPublish} (h : publish.qos = .atMostOnce)
    (packetId other : UInt16) : publishPacket publish packetId = publishPacket publish other := by
  rw [publishPacket, publishPacket, sentId, sentId, if_pos h, if_pos h]

namespace Client

def publishing (env : Environment W) (messages : List (OutgoingPublish × UInt16)) :
    List (Environment W × Request) :=
  messages.map fun message => (env, .traffic (.publish message.1 message.2))

/-- Every call answers that its message went out, or puts no byte of it on the wire. -/
def Unbroken (env : Environment W) : List (OutgoingPublish × UInt16) → Sys W → Prop
  | [], _ => True
  | message :: messages, s =>
    ((publish env message.1 message.2 s).1 = .ok () ∨
        wire (noted s (publish env message.1 message.2 s).2) = []) ∧
      Unbroken env messages (publish env message.1 message.2 s).2

section Sender

variable {env : Environment W} {message : OutgoingPublish} {packetId : UInt16} {s t : Sys W}
  {r : Except Stop Unit}

theorem sends_of_sectionAlias {c : MqttContext} {properties : List UInt8}
    {topicAlias : Option UInt16} (h : sectionAlias c properties = .ok topicAlias) :
    ∃ serverTopicAliasMax topicAlias ps, properties = encodedSection ps ∧
      Sendable serverTopicAliasMax topicAlias ps := by
  rw [sectionAlias] at h
  split_ifs at h with hnone
  · exact ⟨0, none, [], hnone, by simp, by simp [aliasesIn], rfl⟩
  cases hvalid : validatePublishProperties c.properties.server.topicAliasMax properties with
  | error e =>
    rw [hvalid] at h
    cases h
  | ok found =>
    obtain ⟨-, ps, hps, hsends⟩ := validatePublishProperties_eq_ok.mp hvalid
    exact ⟨_, found, ps, hps, hsends⟩

/-- Without a name there is an alias, and it is not zero. -/
theorem plain_of_checkPublish {size : PacketSize} (hqos : message.qos = .atMostOnce)
    (h : checkPublish s.context message packetId = .ok size) : message.Plain := by
  obtain ⟨hfits, -, -⟩ := publishPacketSize_eq_ok_iff.mp (checkPublish_eq_ok h).1
  rw [checkPublish, except_bind_eq_ok] at h
  obtain ⟨_, -, h⟩ := h
  rw [except_bind_eq_ok] at h
  obtain ⟨topicAlias, halias, h⟩ := h
  refine ⟨hqos, hfits, ?_, sends_of_sectionAlias halias⟩
  have hnamed : message.topicName ≠ [] ∨ message.properties ≠ [] := by
    by_contra hnone
    rw [not_or, not_not, not_not] at hnone
    obtain ⟨htopic, hproperties⟩ := hnone
    rw [sectionAlias, if_pos hproperties] at halias
    obtain rfl := Except.ok.inj halias
    rw [except_bind_eq_ok] at h
    obtain ⟨_, hparams, -⟩ := h
    cases hvalid : validatePublishParams message s.context.properties.server.retainAvailable
      s.context.properties.server.maxQos ((none : Option UInt16).getD 0)
      s.context.properties.server.maxPacketSize with
    | error e =>
      rw [hvalid] at hparams
      cases hparams
    | ok _ =>
      rw [validatePublishParams, refuseIf_bind_eq_ok, refuseIf_bind_eq_ok, refuseIf_bind_eq_ok]
        at hvalid
      exact hvalid.2.2.1 ⟨rfl, htopic⟩
  have hpos := variableLengthEncodedSize_pos message.properties.length
  have hsum : message.topicName.length + message.properties.length ≠ 0 := by
    rintro hzero
    rw [Nat.add_eq_zero_iff, List.length_eq_zero_iff, List.length_eq_zero_iff] at hzero
    exact hnamed.elim (fun h => h hzero.1) fun h => h hzero.2
  rw [publishLength]
  omega

/-- At QoS 0 a call sent all of its packet, or nothing of it. -/
theorem publish_zero (hqos : message.qos = .atMostOnce)
    (h : publish env message packetId s = (r, t))
    (hwhole : r = .ok () ∨ wire (noted s t) = []) :
    ∃ more, t.log = s.log ++ more ∧
      (r = .ok () ∧ message.Plain ∧ wire more = publishPacket message 0 ∨
        r ≠ .ok () ∧ wire more = []) := by
  have hfailed (stop : Stop) : (.error stop : Except Stop Unit) ≠ .ok () := nofun
  rw [publish_eq, Prog.bind_apply, preparePublish_apply] at h
  cases hcheck : checkPublish s.context message packetId with
  | error e =>
    rw [hcheck] at h
    obtain ⟨rfl, rfl⟩ := Prod.mk.inj h
    exact ⟨[], (List.append_nil _).symm, .inr ⟨hfailed _, rfl⟩⟩
  | ok size =>
  have hplain := plain_of_checkPublish hqos hcheck
  have hparts : registerPublish env message packetId s = (.ok (partsOf message packetId), s) := by
    rw [registerPublish, Prog.when, if_neg (not_not.mpr hqos), Prog.pure_bind, Prog.when,
      if_neg (not_not.mpr hqos)]
    rfl
  rw [hcheck] at h
  dsimp only at h
  rw [hparts] at h
  dsimp only at h
  rw [deliverPublish, Prog.bind_apply] at h
  have hlog := (@sendVectors_told W env (partsOf message packetId) s).grows.noted.1
  rcases hsend : sendVectors env (partsOf message packetId) s with ⟨stop | outcome, u⟩
  · rw [hsend] at h hlog
    obtain ⟨rfl, rfl⟩ := Prod.mk.inj h
    exact ⟨_, hlog, .inr ⟨hfailed _, hwhole.resolve_left (hfailed _)⟩⟩
  rw [hsend] at h hlog
  dsimp only at h
  rw [sentWhole, Client.refuse, Prog.refuse_bind_apply, Prog.when, if_neg (not_not.mpr hqos)] at h
  split_ifs at h with hpart
  · obtain ⟨rfl, rfl⟩ := Prod.mk.inj h
    exact ⟨_, hlog, .inr ⟨hfailed _, hwhole.resolve_left (hfailed _)⟩⟩
  obtain ⟨rfl, rfl⟩ := Prod.mk.inj h
  rw [not_not.mp hpart] at hsend
  obtain ⟨more, hlog, -, hwire⟩ := sendVectors_sent env hsend
  rw [flatten_partsOf hplain.fits, List.take_length] at hwire
  exact ⟨more, hlog, .inl ⟨rfl, hplain, hwire.trans (publishPacket_of_zero hqos packetId 0)⟩⟩

theorem run_publishing_cons (m : OutgoingPublish × UInt16)
    (messages : List (OutgoingPublish × UInt16)) (h : publish env m.1 m.2 s = (r, t)) :
    (machine W).run (publishing env (m :: messages)) s =
      (r :: ((machine W).run (publishing env messages) t).1,
        ((machine W).run (publishing env messages) t).2) := by
  have hstep : (machine W).step (env, .traffic (.publish m.1 m.2)) s = (r, t) := h
  rw [publishing, List.map_cons, Machine.run_cons, hstep]
  rfl

theorem wentOut_cons (m : OutgoingPublish × UInt16) (messages : List (OutgoingPublish × UInt16))
    (answer : Except Stop Unit) (answers : List (Except Stop Unit)) :
    wentOut (m :: messages) (answer :: answers) =
      (if answer = .ok () then [m.1] else []) ++ wentOut messages answers := by
  rw [wentOut, List.zip_cons_cons, List.filterMap_cons]
  split_ifs <;> rfl

/-- What went out is the packets of the messages that went out. -/
theorem publishing_wire {messages : List (OutgoingPublish × UInt16)}
    (hqos : ∀ m ∈ messages, m.1.qos = .atMostOnce) (hwhole : Unbroken env messages s) :
    ∃ more, (after s (publishing env messages)).log = s.log ++ more ∧
      wire more = ((wentOut messages ((machine W).run (publishing env messages) s).1).map
        (publishPacket · 0)).flatten ∧
      ∀ m ∈ wentOut messages ((machine W).run (publishing env messages) s).1, m.Plain := by
  induction messages generalizing s with
  | nil =>
    refine ⟨[], (List.append_nil _).symm, rfl, ?_⟩
    intro m hm
    cases hm
  | cons m messages ih =>
    rw [List.forall_mem_cons] at hqos
    rcases hfirst : publish env m.1 m.2 s with ⟨answer, t⟩
    have hrun := run_publishing_cons m messages hfirst
    have hafter : after s (publishing env (m :: messages)) = after t (publishing env messages) := by
      rw [after, hrun, after]
    rw [Unbroken, hfirst] at hwhole
    rw [hafter, hrun]
    obtain ⟨more, hlog, hwire, hplain⟩ := ih hqos.2 hwhole.2
    dsimp only
    rw [wentOut_cons]
    obtain ⟨sent, hsent, hone⟩ := publish_zero hqos.1 hfirst hwhole.1
    refine ⟨sent ++ more, by rw [hlog, hsent, List.append_assoc], ?_⟩
    rw [wire_append]
    rcases hone with ⟨rfl, hm, hpacket⟩ | ⟨herror, hnone⟩
    · rw [if_pos rfl, List.singleton_append, List.forall_mem_cons, hpacket, hwire]
      exact ⟨rfl, hm, hplain⟩
    · rw [if_neg herror, hnone]
      exact ⟨hwire, hplain⟩

end Sender

def shownIn (log : List Observation) : List Event :=
  log.filterMap fun
    | .event e _ => some e
    | _ => none

theorem shownIn_append (log more : List Observation) :
    shownIn (log ++ more) = shownIn log ++ shownIn more := List.filterMap_append

def messageEvent (message : OutgoingPublish) : Event where
  packetType := publishFlags message
  packetId := 0
  publish := some (message.incoming 0)
  reasonCodes := []
  properties := message.properties

/-- The limits a client announced leave room for a message; of its properties only the user property
is repeated, its payload format is zero or one, and its topic alias is one of those announced. -/
structure Tolerates (client : ClientLimits) (message : OutgoingPublish) : Prop where
  size : wholePacketSize (publishLength message) ≤ client.maxPacketSize
  once : ∀ ps, message.properties = encodedSection ps →
    ps.Pairwise fun p q => p.id = q.id → p.id = PropertyId.userProperty
  format : ∀ ps, message.properties = encodedSection ps →
    ∀ p ∈ ps, p.id = PropertyId.payloadFormat → p.value.octet ≤ 1
  topicAlias : ∀ ps, message.properties = encodedSection ps →
    ∀ a ∈ aliasesIn ps, a ≠ 0 ∧ a ≤ client.topicAliasMax

theorem Tolerates.walk {client : ClientLimits} {message : OutgoingPublish}
    (h : Tolerates client message) (hplain : message.Plain) :
    walkPublishProperties message.properties message.properties.length client.topicAliasMax =
      .ok () := by
  obtain ⟨serverTopicAliasMax, topicAlias, ps, hps, hsends⟩ := hplain.sends
  refine walkPublishProperties_eq_ok.mpr ⟨ps, hps, ?_, ?_, fun a ha => (h.topicAlias ps hps a ha).2⟩
  · intro p hp
    refine ⟨List.mem_cons_of_mem _ (hsends.known p hp), h.format ps hps p hp, fun hid hzero => ?_⟩
    exact (h.topicAlias ps hps _ (mem_aliasesIn.mpr ⟨p, hp, hid, rfl⟩)).1 hzero
  · refine (h.once ps hps).imp fun hsame hid => ?_
    rw [hsame hid]
    decide

section Receiver

variable {env : Environment W} {message : OutgoingPublish} {s u : Sys W}

/-- A message is a packet that reads back. -/
theorem publishes_of_plain {client : ClientLimits} (hplain : message.Plain)
    (htolerates : Tolerates client message) :
    Publishes
      { packetType := publishFlags message
        remainingLength := publishLength message
        remainingData := publishBody message.topicName none message.properties message.payload }
      client.maxPacketSize client.topicAliasMax (message.incoming 0) := by
  have hid : sentId message.qos 0 = none := by rw [sentId, if_pos hplain.qos]
  have hfits : IdFits message.qos none := by rw [IdFits, if_pos hplain.qos]
  have hcost : packetIdCost message.qos = 0 := by rw [packetIdCost, if_pos hplain.qos]
  have hbody : (publishBody message.topicName none message.properties message.payload).length =
      publishLength message := length_publishBody hfits hplain.fits.properties_le
  constructor
  · rfl
  · exact hplain.fits.length
  · have hsize := htolerates.size
    rw [wholePacketSize_eq hplain.fits.length] at hsize
    exact hsize
  · show 4 + packetIdCost message.qos ≤ publishLength message
    rw [hcost]
    exact hplain.floor
  · exact hbody.ge
  · show _ = publishBody message.topicName (sentId message.qos 0) _ _
    rw [hid]
    exact List.take_of_length_le hbody.le
  · exact hplain.fits.topic
  · show IdFits message.qos (sentId message.qos 0)
    rw [hid]
    exact hfits
  · exact htolerates.walk hplain

theorem isWhole_publishPacket (hplain : message.Plain) :
    IsWhole (publishPacket message 0) ∧
      (publishPacket message 0).length = wholePacketSize (publishLength message) := by
  have hwf := wellFormed_publishHeader hplain.fits
  have hfits : IdFits message.qos (sentId message.qos 0) := by
    rw [IdFits, sentId, if_pos hplain.qos, if_pos hplain.qos]
  have hlength : (publishPacket message 0).length =
      publishLength message + (publishHeader message).headerLength := by
    rw [publishPacket_eq, List.length_append, ← hwf.width, Nat.add_comm,
      length_publishBody hfits hplain.fits.properties_le]
    rfl
  refine ⟨⟨publishHeader message, hwf, List.prefix_append _ _, hlength⟩, ?_⟩
  have hheader : (publishHeader message).headerLength =
      variableLengthEncodedSize (publishLength message) + 1 := rfl
  rw [hlength, wholePacketSize_eq hplain.fits.length, hheader]
  omega

theorem packetView_message (hplain : message.Plain)
    (hpacket : publishPacket message 0 <+: u.context.received) :
    u.context.packetView (publishPacket message 0).length = some
      { packetType := publishFlags message
        remainingLength := publishLength message
        remainingData :=
          publishBody message.topicName none message.properties message.payload } := by
  have hwf := wellFormed_publishHeader hplain.fits
  have hid : sentId message.qos 0 = none := by rw [sentId, if_pos hplain.qos]
  have hnetwork := hpacket.trans (List.take_prefix _ _)
  have hheader := MqttContext.header_of_received hwf ((List.prefix_append _ _).trans
    (publishPacket_eq message 0 ▸ hpacket))
  have hlength : (publishHeader message).headerLength ≤ (publishPacket message 0).length := by
    rw [publishPacket_eq, List.length_append, ← hwf.width]
    exact Nat.le_add_right _ _
  rw [MqttContext.packetView, hheader]
  dsimp only
  rw [slice?, if_pos ⟨hlength, hnetwork.length_le⟩, ← List.prefix_iff_eq_take.mp hnetwork,
    publishPacket_eq, List.drop_left' hwf.width.symm, hid]
  rfl

theorem dispatch_accepted (haccepts : ∀ e reply w, (env.onEvent e reply w).1.2 = true) (e : Event)
    (wantsReply : Bool) (s : Sys W) : ∃ reasonCode,
      dispatch env e wantsReply s = (.ok (true, reasonCode), shown env e wantsReply s) := by
  have hrun (accepted : Bool) (h : (env.onEvent e
      ⟨wantsReply, none, s.context.ackProperties, s.context.ackUsed⟩ s.world).1.2 = accepted) :
      ∃ reasonCode, dispatch env e wantsReply s =
        (.ok (accepted, reasonCode), shown env e wantsReply s) := by
    subst h
    exact ⟨_, rfl⟩
  exact hrun true (haccepts _ _ _)

theorem shownIn_shown (e : Event) (wantsReply : Bool) (s : Sys W) :
    shownIn (shown env e wantsReply s).log = shownIn s.log ++ [e] := shownIn_append _ _

structure ShownOne (message : OutgoingPublish) (s t : Sys W) : Prop where
  client : t.context.properties = s.context.properties
  shown : shownIn t.log = shownIn s.log ++ [messageEvent message]

theorem updatePublish_zero (packetId : UInt16) (s : Sys W) :
    ∃ answer t, updatePublish packetId .receive .atMostOnce s = (.ok answer, t) ∧
      (answer = none ∨ ∃ state, answer = some (.ok state)) ∧
      t.context.properties = s.context.properties ∧ shownIn t.log = shownIn s.log ∧
      t.world = s.world := by
  rw [updatePublish]
  cases hr : s.context.records with
  | none => exact ⟨_, _, onRecords_none hr, .inl rfl, rfl, rfl, rfl⟩
  | some r =>
    refine ⟨_, _, onRecords_some hr, .inr ⟨.publishDone, rfl⟩, rfl, ?_, rfl⟩
    rw [shownIn_append]
    exact List.append_nil _

theorem handlePacket_message (hplain : message.Plain)
    (htolerates : Tolerates u.context.properties.client message)
    (haccepts : ∀ e reply w, (env.onEvent e reply w).1.2 = true)
    (hpacket : publishPacket message 0 <+: u.context.received) :
    ∃ v, handlePacket env (publishPacket message 0).length false u = (.ok (), v) ∧
      ShownOne message u v ∧ ∃ e reply, v.world = (env.onEvent e reply u.world).2 := by
  have hid : (message.incoming 0).packetId.getD 0 = 0 := by
    show (sentId message.qos 0).getD 0 = 0
    rw [sentId, if_pos hplain.qos]
    rfl
  have hhead : u.context.network.head? = some (publishFlags message) := by
    obtain ⟨more, hmore⟩ := hpacket.trans (List.take_prefix _ _)
    rw [← hmore]
    rfl
  have hread := deserializePublish_of_publishes (publishes_of_plain hplain htolerates)
  obtain ⟨answer, t, hanswer, hkind, hproperties, hlog, hworld⟩ := updatePublish_zero 0 u
  have hstate : ∃ state, (receivedState answer .atMostOnce : Client W _) t =
      (.ok (false, state), t) := by
    rcases hkind with rfl | ⟨state, rfl⟩
    · exact ⟨_, rfl⟩
    · exact ⟨_, rfl⟩
  obtain ⟨state, hstate⟩ := hstate
  have hqos : (message.incoming 0).qos = .atMostOnce := hplain.qos
  rw [handlePacket, Prog.bind_of_ok (context_apply u), hhead, orFail_bind_of_some rfl,
    if_pos (publishFlags_and message), handleIncomingPublish, Prog.bind_of_ok (context_apply u),
    orFail_bind_of_some (packetView_message hplain hpacket), check_bind_of_ok hread]
  dsimp only
  rw [hqos, hid, Client.refuse, Prog.refuse_bind_of_not (fun h => h.2 rfl),
    Prog.bind_of_ok hanswer, Prog.bind_of_ok hstate]
  dsimp only
  have htell : tell false QoS.atMostOnce = true := rfl
  obtain ⟨reasonCode, hdispatch⟩ := dispatch_accepted haccepts (publishEvent
    { packetType := publishFlags message
      remainingLength := publishLength message
      remainingData := publishBody message.topicName none message.properties message.payload }
    (message.incoming 0)) (QoS.atMostOnce != .atMostOnce) t
  rw [if_pos htell, Prog.bind_of_ok hdispatch]
  refine ⟨_, rfl, ⟨hproperties, ?_⟩, _, _, congrArg (fun w => (env.onEvent _ _ w).2) hworld⟩
  rw [shownIn_shown, hlog, publishEvent, hid]
  rfl

theorem processPacket_message (hplain : message.Plain)
    (htolerates : Tolerates u.context.properties.client message)
    (haccepts : ∀ e reply w, (env.onEvent e reply w).1.2 = true)
    (hpacket : publishPacket message 0 <+: u.context.received) :
    ∃ v, processPacket env (publishPacket message 0).length false u = (.ok (), v) ∧
      ShownOne message u v ∧
        ∃ e reply, v.world = (env.nowMs (env.onEvent e reply u.world).2).2 := by
  obtain ⟨v, hhandled, ⟨hclient, hshown⟩, e, reply, hworld⟩ :=
    handlePacket_message hplain htolerates haccepts hpacket
  rw [processPacket, Prog.bind_of_ok hhandled]
  refine ⟨_, rfl, ⟨hclient, ?_⟩, e, reply, congrArg (fun w => (env.nowMs w).2) hworld⟩
  rw [← hshown]
  exact (shownIn_append _ _).trans (List.append_nil _)

/-- The messages that are left are all that was not shown yet. -/
def Awaiting (messages : List OutgoingPublish) (s : Sys W) (left : List (List UInt8))
    (u : Sys W) : Prop :=
  ∃ rest : List OutgoingPublish, left = rest.map (publishPacket · 0) ∧
    (∀ m ∈ rest, m.Plain ∧ Tolerates s.context.properties.client m) ∧
    u.context.properties = s.context.properties ∧
    shownIn u.log ++ rest.map messageEvent = shownIn s.log ++ messages.map messageEvent

theorem awaiting_takes {pending : W → List UInt8} (hsupplies : Supplies env pending)
    (haccepts : ∀ e reply w, (env.onEvent e reply w).1.2 = true) (messages : List OutgoingPublish)
    (s : Sys W) : Takes env pending (Awaiting messages s) where
  first {packet left u} h _ hpacket := by
    obtain ⟨_ | ⟨m, rest⟩, hleft, hall, hproperties, hshown⟩ := h
    · cases hleft
    obtain ⟨rfl, rfl⟩ := List.cons.inj hleft
    rw [List.forall_mem_cons] at hall
    have htolerates := hall.1.2
    rw [← hproperties] at htolerates
    obtain ⟨v, hdone, ⟨hclient, hone⟩, e, reply, hworld⟩ :=
      processPacket_message hall.1.1 htolerates haccepts hpacket
    refine ⟨v, hdone, ⟨rest, rfl, hall.2, hclient.trans hproperties, ?_⟩, ?_⟩
    · rw [hone, List.append_assoc]
      exact hshown
    · rw [hworld, hsupplies.clock, hsupplies.event]
  reads {left u} n h := by
    obtain ⟨rest, hleft, hall, hproperties, hshown⟩ := h
    refine ⟨rest, hleft, hall, hproperties, ?_⟩
    rw [← hshown]
    congr 1
    exact (shownIn_append _ _).trans (List.append_nil _)

/-- What one client publishes at QoS 0 and a transport carries, another client shows: as long as
none of the publishing calls stops inside a packet and the other client tolerates the messages that
went out, no pass of its loop fails, however the transport cuts the stream, and once all of it has
been read its application was shown every message that went out, once, in order, and nothing
else. -/
theorem messages_carried {env₁ : Environment W₁} {env₂ : Environment W₂}
    {pending : W₂ → List UInt8} (hsupplies : Supplies env₂ pending)
    (haccepts : ∀ e reply w, (env₂.onEvent e reply w).1.2 = true)
    {messages : List (OutgoingPublish × UInt16)} (hqos : ∀ m ∈ messages, m.1.qos = .atMostOnce)
    {s : Sys W₁} {t : Sys W₂}
    (hwhole : Unbroken env₁ messages s)
    (hcarries : pending t.world = wire (noted s (after s (publishing env₁ messages))))
    (hempty : t.context.index = 0) (hsize : t.context.network.length ≤ usizeMax)
    (hpatience : t.context.network.length / 2 < env₂.patience)
    (htolerates : ∀ m ∈ wentOut messages ((machine W₁).run (publishing env₁ messages) s).1,
      Tolerates t.context.properties.client m ∧
        wholePacketSize (publishLength m) ≤ t.context.network.length) (n : ℕ) :
    (∀ answer ∈ ((machine W₂).run (passes env₂ n) t).1,
        answer = .ok () ∨ answer = .error (.error .needMoreBytes)) ∧
      (0 < n → pending (after t (passes env₂ n)).world = [] →
        shownIn (after t (passes env₂ n)).log = shownIn t.log ++
          (wentOut messages ((machine W₁).run (publishing env₁ messages) s).1).map
            messageEvent) := by
  obtain ⟨more, hlog, hwire, hplain⟩ := publishing_wire hqos hwhole
  rw [noted_eq hlog, hwire] at hcarries
  generalize wentOut messages ((machine W₁).run (publishing env₁ messages) s).1 = out
    at hcarries hplain htolerates
  have hreceived : t.context.received = [] := by rw [MqttContext.received, hempty]; rfl
  have hqueued : Queued pending (Awaiting out t) [] (out.map (publishPacket · 0)) t := by
    refine ⟨?_, ?_, fun h => absurd rfl h, hempty ▸ Nat.zero_le _, out, rfl, ?_, rfl, rfl⟩
    · rw [hreceived, hcarries, List.nil_append, List.append_nil]
    · rw [List.forall_mem_map]
      intro m hm
      obtain ⟨hpacket, hlength⟩ := isWhole_publishPacket (hplain m hm)
      exact ⟨hpacket, hlength.trans_le (htolerates m hm).2⟩
    · exact fun m hm => ⟨hplain m hm, (htolerates m hm).1⟩
  have htakes := awaiting_takes hsupplies haccepts out t
  constructor
  · obtain ⟨_, hanswers, -⟩ := passes_queued htakes hsupplies n hsize hpatience hqueued
    exact hanswers
  · intro hn hread
    obtain ⟨-, rest, hnone, -, -, hshown⟩ := passes_read htakes hsupplies hsize hpatience hqueued hn
      hread
    obtain rfl := List.map_eq_nil_iff.mp hnone.symm
    rw [List.map_nil, List.append_nil] at hshown
    exact hshown

def agreeing : Environment Script :=
  { Script.environment false with onEvent := fun _ _ w => (([], true), w), patience := 16 }

def letter (topicName payload : List UInt8) (properties : List Property) : OutgoingPublish where
  qos := .atMostOnce
  dup := false
  retain := false
  topicName := topicName
  payload := payload
  properties := encodedSection properties

/-- A payload format, and the same user property twice. -/
def textNotes : List Property :=
  let note := Property.user [97] [] ⟨by decide, by decide⟩
  [⟨PropertyId.payloadFormat, .byte 1, rfl, trivial⟩, note, note]

/-- Two messages that go out, between them one that is refused for its name, and behind them one
that the transport fails. -/
def letters : List (OutgoingPublish × UInt16) :=
  [(letter [97] [1] [], 0), (letter [] [2] [], 0), (letter [98] [3] textNotes, 5),
    (letter [99] [4] [], 0)]

/-- A client whose transport takes the first packet in two pieces, and fails after the second. -/
def writer : Sys Script :=
  { readyScript with world := { sends := [.bytes 3, .nothing, .bytes 4, .bytes 21, .failed] } }

/-- A client whose transport delivers both packets in three pieces. -/
def reader : Sys Script where
  context := { MqttContext.new (List.replicate 24 0) with connectStatus := .connected }
  world := { reads := [[0x30, 5, 0, 1], [97, 0, 1, 0x30, 19, 0],
    [1, 98, 14, 1, 1, 38, 0, 1, 97, 0, 0, 38, 0, 1, 97, 0, 0, 3]] }

theorem tolerates_letter {client : ClientLimits} {topicName payload : List UInt8}
    {properties : List Property}
    (hsize : wholePacketSize (publishLength (letter topicName payload properties)) ≤
      client.maxPacketSize)
    (honce : properties.Pairwise fun p q => p.id = q.id → p.id = PropertyId.userProperty)
    (hformat : ∀ p ∈ properties, p.id = PropertyId.payloadFormat → p.value.octet ≤ 1)
    (halias : aliasesIn properties = []) :
    Tolerates client (letter topicName payload properties) where
  size := hsize
  once _ hps := encodedSection_injective hps ▸ honce
  format _ hps := encodedSection_injective hps ▸ hformat
  topicAlias _ hps a ha := by
    rw [← encodedSection_injective hps, halias] at ha
    exact absurd ha List.not_mem_nil

theorem letters_carried : shownIn (after reader (passes agreeing 3)).log =
    [messageEvent (letter [97] [1] []), messageEvent (letter [98] [3] textNotes)] := by
  have hsupplies : Supplies agreeing fun w => w.reads.flatten :=
    { supplies_script false with event := fun _ _ _ => rfl }
  have hanswers : ((machine Script).run (publishing agreeing letters) writer).1 =
      [.ok (), .error (.error .badParameter), .ok (), .error (.error .sendFailed)] := by
    decide +kernel
  have hcarries := @messages_carried Script Script agreeing agreeing _ hsupplies
    (fun _ _ _ => rfl) letters (by decide) writer reader ?_ (by decide +kernel) rfl (by decide)
    (by decide) ?_ 3
  · rw [hanswers] at hcarries
    exact hcarries.2 (by decide) (by decide +kernel)
  · exact ⟨.inl (by decide +kernel), .inr (by decide +kernel), .inl (by decide +kernel),
      .inr (by decide +kernel), trivial⟩
  · rw [hanswers]
    rintro m (_ | ⟨_, _ | ⟨_, _ | _⟩⟩)
    all_goals exact ⟨tolerates_letter (by decide) (by decide) (by decide) (by decide), by decide⟩

end Receiver

end Client

end RtosMqtt
