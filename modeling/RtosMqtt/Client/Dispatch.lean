import RtosMqtt.Client.Delivery

/-! # Deliveries across the calls of a client

Every part of every call keeps the order of deliveries, whichever of its exits
it takes. Two parts matter: a received PUBLISH, where the record is taken before
the event, and an acknowledgement, where the packet went out before the record
is released.
-/

namespace RtosMqtt

variable {W α : Type}

/-- What was noted since a given log is a log of deliveries. -/
def DeliveredSince (start : List Observation) (s : Sys W) : Prop :=
  ∃ log, s.log = start ++ log ∧ Delivered log s.context.records

def Orderly (s t : Sys W) : Prop := ∀ start, DeliveredSince start s → DeliveredSince start t

instance : IsPreorder (Sys W) Orderly where
  refl _ _ h := h
  trans _ _ _ h h' start hs := h' start (h start hs)

theorem orderly_of_append {s t : Sys W} (more : List Observation) (hlog : t.log = s.log ++ more)
    (hnone : ∀ o ∈ more, ∀ packetId, o.delivers packetId = false)
    (hkept : ∀ packetId, Kept s.context.records packetId →
      Completes packetId more ∨ Kept t.context.records packetId) : Orderly s t := by
  rintro start ⟨log, hs, h⟩
  exact ⟨log ++ more, by rw [hlog, hs, List.append_assoc], h.append hnone hkept⟩

theorem Quiet.orderly {s t : Sys W} (h : Quiet s t) : Orderly s t := by
  obtain ⟨io, hlog, hio⟩ := h.log.exists_io
  exact orderly_of_append _ hlog (fun o ho => Observation.delivers_of_isIo (hio o ho))
    fun packetId hkept => .inr (h.records ▸ hkept)

theorem Io.orderly {s t : Sys W} (h : Io s t) : Orderly s t := h.quiet.orderly

namespace Client

variable (env : Environment W)

theorem update_quiet {f : MqttContext → MqttContext} (h : ∀ c, (f c).records = c.records) :
    (update f : Client W Unit).Moves Quiet := fun s => ⟨h s.context, .refl _⟩

theorem update_orderly {f : MqttContext → MqttContext} (h : ∀ c, (f c).records = c.records) :
    (update f : Client W Unit).Moves Orderly := (update_quiet h).mono Quiet.orderly

section Records

variable {call : Call} {f : PublishRecords → Except StateError α × PublishRecords}

theorem onRecords_orderly
    (h : ∀ r packetId, packetId ≠ packetIdInvalid → Retains r.incoming packetId →
      Retains (f r).2.incoming packetId) : (onRecords call f : Client W _).Moves Orderly := by
  intro s
  cases hr : s.context.records with
  | none => rw [onRecords_none hr]; exact refl_of Orderly s
  | some r =>
    rw [onRecords_some hr]
    refine orderly_of_append _ rfl (by simp) fun packetId ⟨hid, r', hr', hretains⟩ => .inr ?_
    rw [hr, Option.some.injEq] at hr'
    exact ⟨hid, _, rfl, h r packetId hid (hr' ▸ hretains)⟩

end Records

theorem reserve_orderly (packetId : UInt16) (qos : QoS) :
    (reserve packetId qos : Client W _).Moves Orderly :=
  onRecords_orderly fun r other _ h => by
    have hincoming : (r.reserve packetId qos).2.incoming = r.incoming := by
      unfold PublishRecords.reserve; split_ifs <;> rfl
    rwa [hincoming]

theorem remove_orderly (packetId : UInt16) :
    (onRecords (.remove packetId) (·.remove packetId) : Client W _).Moves Orderly :=
  onRecords_orderly fun r other _ h => by
    have hincoming : (r.remove packetId).2.incoming = r.incoming := by
      unfold PublishRecords.remove
      split_ifs
      · rfl
      · split
        · rfl
        · split_ifs <;> rfl
    rwa [hincoming]

theorem updatePublish_orderly (packetId : UInt16) (op : Operation) (qos : QoS) :
    (updatePublish packetId op qos : Client W _).Moves Orderly :=
  onRecords_orderly fun _ _ hid h => PublishRecords.Retains.updatePublish hid h _ _ _

theorem updateAck_orderly {packetId : UInt16} {ack : AckType} {op : Operation}
    (h : ¬ (ack = .pubComp ∧ op = .send)) :
    (updateAck packetId ack op : Client W _).Moves Orderly :=
  onRecords_orderly fun _ _ hid hretains => by
    rcases PublishRecords.Retains.updateAck hid hretains packetId ack op with hkept | hdone
    · exact hkept
    · exact absurd ⟨hdone.2.1, hdone.2.2.1⟩ h

theorem eq_pubcomp_of_ackFromPacketType {packetType : UInt8}
    (h : ackFromPacketType packetType = some .pubComp) : packetType = Packet.pubcomp := by
  unfold ackFromPacketType at h
  split_ifs at h with hack hrec hrel hcomp
  · exact absurd h (by simp)
  · exact absurd h (by simp)
  · exact absurd h (by simp)
  · exact hcomp

theorem ackSent_snd (packetId : UInt16) (ack : AckType) (s : Sys W) :
    (ackSent packetId ack s).2 = (updateAck packetId ack .send
      { s with context := { s.context with controlPacketSent := true } }).2 := by
  rw [ackSent, Prog.bind_of_ok (update_apply _ s)]
  refine Prog.bind_snd_of_still fun answer t => ?_
  rcases answer with _ | _ | _ <;> rfl

/-- The record of a sent PUBCOMP is released after the PUBCOMP went out. -/
theorem updateAck_send_orderly {packetType : UInt8} {packetId : UInt16} {ack : AckType}
    {rest : List UInt8} {s t : Sys W} (hack : ackFromPacketType packetType = some ack)
    (hrecords : t.context.records = s.context.records)
    (hout : WentOut (ackPacket packetType packetId rest) s.log t.log) :
    Orderly s (updateAck packetId ack .send t).2 := by
  obtain ⟨io, hlog, hio, hwire⟩ := hout
  have hnone : ∀ o ∈ io, ∀ other, o.delivers other = false := fun o ho =>
    Observation.delivers_of_isIo (hio o ho)
  rw [updateAck]
  cases hr : s.context.records with
  | none =>
    rw [onRecords_none (hrecords.trans hr)]
    exact orderly_of_append _ hlog hnone fun other hkept => .inr (hrecords ▸ hkept)
  | some r =>
    rw [onRecords_some (hrecords.trans hr)]
    refine orderly_of_append (io ++ [.recorded r (.updateAck packetId ack .send)
      ((r.updateAck packetId ack .send).1.map fun _ => ())]) (by simp [hlog]) ?_ ?_
    · intro o ho other
      rcases List.mem_append.mp ho with ho | ho
      · exact hnone o ho other
      · rw [List.mem_singleton.mp ho]; rfl
    · rintro other ⟨hid, r', hr', hretains⟩
      rw [hr, Option.some.injEq] at hr'
      subst hr'
      rcases PublishRecords.Retains.updateAck hid hretains packetId ack .send with
        hkept | ⟨rfl, rfl, -, hanswer, hremoved⟩
      · exact .inr ⟨hid, _, rfl, hkept⟩
      · rw [eq_pubcomp_of_ackFromPacketType hack] at hwire
        exact .inl ⟨[], io, r, [], rest, by simp [hanswer, Except.map], hio, hwire,
          hretains.mem_inFlightIds hid, hremoved⟩

theorem ackSent_orderly {packetType : UInt8} {packetId : UInt16} {ack : AckType}
    {rest : List UInt8} {s t : Sys W} (hack : ackFromPacketType packetType = some ack)
    (hrecords : t.context.records = s.context.records)
    (hout : WentOut (ackPacket packetType packetId rest) s.log t.log) :
    Orderly s (ackSent packetId ack t).2 := by
  rw [ackSent_snd]
  exact updateAck_send_orderly hack hrecords hout

theorem keep_sent {key : UInt32} {parts : List (List UInt8)} {s t : Sys W}
    (h : keep env key parts s = (.ok (), t)) : WentOut [] s.log t.log := by
  unfold keep at h
  split_ifs at h
  · rw [Prog.bind_eq_ok] at h
    obtain ⟨stored, u, hstore, hrest⟩ := h
    obtain ⟨-, rfl⟩ := Prod.mk.inj hstore
    obtain ⟨-, rfl⟩ := Prod.mk.inj hrest
    exact .note (o := .stored key parts _) rfl
  · obtain ⟨-, rfl⟩ := Prod.mk.inj h
    exact .nothing

theorem keepAck_sent {packetType : UInt8} {packetId : UInt16} {parts : List (List UInt8)}
    {s t : Sys W} (h : keepAck env packetType packetId parts s = (.ok (), t)) :
    WentOut [] s.log t.log := by
  unfold keepAck Prog.when at h
  split_ifs at h
  · exact keep_sent env h
  · obtain ⟨-, rfl⟩ := Prod.mk.inj h
    exact .nothing

theorem isPublishAck_of_ackFromPacketType {packetType : UInt8} {ack : AckType}
    (h : ackFromPacketType packetType = some ack) : isPublishAck packetType = true := by
  unfold ackFromPacketType at h
  split_ifs at h <;> simp_all [isPublishAck]

/-- How an acknowledgement ends: the records were left alone, or it went out and they are told. -/
inductive Replied (packetType : UInt8) (packetId : UInt16) (ack : AckType) (s : Sys W) :
    Except Stop Unit × Sys W → Prop
  | unsent {e : Stop} {t : Sys W} (h : Quiet s t) : Replied packetType packetId ack s (.error e, t)
  | sent (rest : List UInt8) {u : Sys W} (h : Quiet s u)
      (hout : WentOut (ackPacket packetType packetId rest) s.log u.log) :
      Replied packetType packetId ack s (ackSent packetId ack u)

section Replied

variable {packetType : UInt8} {packetId : UInt16} {ack : AckType} {s : Sys W}

theorem Replied.after {t : Sys W} {run : Except Stop Unit × Sys W} (hquiet : Quiet s t)
    (hnone : WentOut [] s.log t.log) (h : Replied packetType packetId ack t run) :
    Replied packetType packetId ack s run := by
  cases h with
  | unsent h => exact .unsent (trans_of Quiet hquiet h)
  | sent rest h hout => exact .sent rest (trans_of Quiet hquiet h) (hnone.trans hout)

theorem replied_bind {p : Client W α} {f : α → Client W Unit} (hquiet : p.Moves Quiet)
    (hf : ∀ a t, p s = (.ok a, t) →
      WentOut [] s.log t.log ∧ Replied packetType packetId ack t (f a t)) :
    Replied packetType packetId ack s ((p >>= f) s) := by
  have hs := hquiet s
  rw [Prog.bind_apply]
  rcases hp : p s with ⟨e | a, t⟩
  · rw [hp] at hs
    exact .unsent hs
  · rw [hp] at hs
    obtain ⟨hnone, h⟩ := hf a t hp
    exact h.after hs hnone

theorem replied_bind_still {p : Client W α} {f : α → Client W Unit} (hstill : (p s).2 = s)
    (hf : ∀ a, p s = (.ok a, s) → Replied packetType packetId ack s (f a s)) :
    Replied packetType packetId ack s ((p >>= f) s) := by
  rw [Prog.bind_apply]
  rcases hp : p s with ⟨e | a, t⟩
  · rw [hp] at hstill
    exact .unsent (hstill ▸ refl_of Quiet s)
  · rw [hp] at hstill
    obtain rfl : t = s := hstill
    exact hf a hp

theorem Replied.orderly {run : Except Stop Unit × Sys W}
    (hack : ackFromPacketType packetType = some ack) (h : Replied packetType packetId ack s run) :
    Orderly s run.2 := by
  cases h with
  | unsent h => exact h.orderly
  | sent rest h hout => exact ackSent_orderly hack h.records hout

end Replied

theorem sent_ackSent_replied {sender : Client W SendOutcome} {total : ℕ} {packetType : UInt8}
    {packetId : UInt16} {ack : AckType} {s : Sys W} (rest : List UInt8) (hio : sender.Moves Io)
    (hsent : ∀ {t}, sender s = (.ok (.sent total), t) →
      WentOut (ackPacket packetType packetId rest) s.log t.log) :
    Replied packetType packetId ack s ((sender >>= fun outcome => sentWhole total outcome >>=
      fun _ => ackSent packetId ack) s) := by
  have hs := hio s
  rw [Prog.bind_apply]
  rcases h : sender s with ⟨e | outcome, t⟩
  · rw [h] at hs
    exact .unsent hs.quiet
  · rw [h] at hs
    dsimp only
    by_cases houtcome : outcome = .sent total
    · rw [houtcome] at h ⊢
      rw [sentWhole, Client.refuse, Prog.refuse_bind_of_not (not_not.mpr rfl)]
      exact .sent rest hs.quiet (hsent h)
    · rw [sentWhole, Client.refuse, Prog.refuse_bind_apply, if_pos houtcome]
      exact .unsent hs.quiet

theorem sendPublishAcksWithoutProperty_replied {packetId : UInt16} {state : PublishState}
    {ack : AckType} (hack : ackFromPacketType (ackTypeToSend state) = some ack) (s : Sys W) :
    Replied (ackTypeToSend state) packetId ack s
      (sendPublishAcksWithoutProperty env packetId state s) := by
  unfold sendPublishAcksWithoutProperty
  rw [hack]
  apply replied_bind_still rfl
  intro written h
  obtain ⟨hwritten, -⟩ := check_eq_ok.mp h
  obtain ⟨rfl, hpacket⟩ := serializeAck_bare_eq_ok (isPublishAck_of_ackFromPacketType hack) hwritten
  rw [Prog.bind_of_ok (context_apply s)]
  apply replied_bind_still rfl
  intro _ _
  apply replied_bind_still rfl
  intro _ _
  apply replied_bind ((keepAck_io env _ _ _).mono Io.quiet)
  intro _ t hkeep
  refine ⟨keepAck_sent env hkeep, sent_ackSent_replied [] (sendBuffer_io env _) ?_⟩
  intro u hsent
  have hout := sendBuffer_sent env hsent
  rw [hpacket] at hout
  exact hout

theorem buildAndSendAckWithProps_quiet (packetType : UInt8) (packetId : UInt16) (reasonCode : UInt8)
    (remainingLength propertyLength : ℕ) :
    (buildAndSendAckWithProps env packetType packetId reasonCode remainingLength
      propertyLength).Moves Quiet := by
  dsimp only [buildAndSendAckWithProps]
  exact (refuse_moves _ _).bind fun _ => (Prog.Moves.when (update_quiet fun _ => by rfl)).bind fun _ =>
    (refuse_moves _ _).bind fun _ => context_moves.bind fun _ => (orFail_moves _ _).bind fun _ =>
      ((keepAck_io env _ _ _).mono Io.quiet).bind fun _ =>
        ((sendVectors_io env _).mono Io.quiet).bind fun _ => sentWhole_moves _ _

theorem flatten_ackParts (packetType : UInt8) (packetId : UInt16) (reasonCode : UInt8)
    {remainingLength propertyLength : ℕ} {properties : List UInt8}
    (hlength : propertyLength ≤ maxRemainingLength)
    (htotal : remainingLength = 3 + variableLengthEncodedSize propertyLength + propertyLength)
    (hproperties : properties.length = propertyLength) :
    2 + ([reasonCode] ++ encodedLength propertyLength ++ properties).length = remainingLength ∧
      ([packetType :: encodedLength remainingLength ++ toBeBytes16 packetId ++ [reasonCode],
        encodedLength propertyLength] ++ if propertyLength = 0 then [] else [properties]).flatten =
      ackPacket packetType packetId
        ([reasonCode] ++ encodedLength propertyLength ++ properties) := by
  have hsection : (if propertyLength = 0 then [] else [properties]).flatten = properties := by
    split_ifs with hzero
    · exact (List.length_eq_zero_iff.mp (hproperties.trans hzero)).symm
    · simp
  have hrest : 2 + ([reasonCode] ++ encodedLength propertyLength ++ properties).length =
      remainingLength := by
    simp only [List.length_append, List.length_singleton, length_encodedLength hlength,
      hproperties, htotal]
    omega
  refine ⟨hrest, ?_⟩
  rw [List.flatten_append, hsection, ackPacket, hrest]
  simp

theorem buildAndSendAckWithProps_sent {packetType : UInt8} {packetId : UInt16} {reasonCode : UInt8}
    {remainingLength propertyLength : ℕ} {s t : Sys W}
    (hlength : propertyLength ≤ maxRemainingLength) (hremaining : remainingLength ≤ maxRemainingLength)
    (htotal : remainingLength = 3 + variableLengthEncodedSize propertyLength + propertyLength)
    (h : buildAndSendAckWithProps env packetType packetId reasonCode remainingLength propertyLength s =
      (.ok (), t)) : ∃ rest, WentOut (ackPacket packetType packetId rest) s.log t.log := by
  obtain ⟨hheadSize, hhead⟩ := serializeAckFixed_spec packetType packetId hremaining reasonCode
  obtain ⟨hprefixSize, hprefix⟩ := encodeVariableLength_spec hlength
  rw [buildAndSendAckWithProps] at h
  simp only [hhead, hprefix, hheadSize, hprefixSize, Client.refuse, Prog.refuse_bind_eq_ok] at h
  obtain ⟨-, h⟩ := h
  rw [Prog.bind_eq_ok] at h
  obtain ⟨_, u, hwhen, h⟩ := h
  have hu : u.log = s.log := by
    unfold Prog.when at hwhen
    split_ifs at hwhen <;> obtain ⟨-, rfl⟩ := Prod.mk.inj hwhen <;> rfl
  rw [Prog.refuse_bind_eq_ok, Prog.bind_of_ok (context_apply u), Prog.bind_eq_ok] at h
  obtain ⟨-, properties, v, hslice, h⟩ := h
  obtain ⟨hslice, rfl⟩ := orFail_eq_ok.mp hslice
  rw [Prog.bind_eq_ok] at h
  obtain ⟨_, w, hkeep, h⟩ := h
  rw [Prog.bind_eq_ok] at h
  obtain ⟨outcome, x, hsend, h⟩ := h
  obtain ⟨rfl, rfl⟩ := sentWhole_eq_ok.mp h
  refine ⟨[reasonCode] ++ encodedLength propertyLength ++ properties, hu ▸ ?_⟩
  have hproperties : properties.length = propertyLength := length_of_slice? hslice
  obtain ⟨hrest, hpacket⟩ := flatten_ackParts packetType packetId reasonCode hlength htotal
    hproperties
  have hout := (keepAck_sent env hkeep).trans (sendVectors_sent env hsend)
  rw [List.nil_append, List.take_of_length_le, hpacket] at hout
  · exact hout
  · have htwo : (toBeBytes16 packetId).length = 2 := rfl
    rw [hpacket, ackPacket, hrest]
    simp only [List.length_append, List.length_cons, List.length_nil, hproperties, htwo,
      length_encodedLength hlength, length_encodedLength hremaining]
    omega

theorem sendPublishAcksWithProperty_replied {packetId : UInt16} {state : PublishState}
    {ack : AckType} (hack : ackFromPacketType (ackTypeToSend state) = some ack) (reply : Reply)
    (s : Sys W) : Replied (ackTypeToSend state) packetId ack s
      (sendPublishAcksWithProperty env packetId state reply s) := by
  rw [sendPublishAcksWithProperty, Prog.bind_of_ok (context_apply s)]
  have hchecked : (Prog.when (ackTypeToSend state ≠ 0)
      (check id (checkReply s.context (ackTypeToSend state) reply)) s).2 = s := by
    unfold Prog.when
    split_ifs <;> rfl
  apply replied_bind_still hchecked
  intro _ _
  apply replied_bind_still rfl
  intro _ _
  rw [hack]
  apply replied_bind_still rfl
  intro size h
  obtain ⟨hsize, -⟩ := check_eq_ok.mp h
  obtain ⟨hlength, hremaining, htotal⟩ := ackPacketSize_eq_ok hsize
  have hquiet := buildAndSendAckWithProps_quiet env (ackTypeToSend state) packetId
    (reply.reasonCode.getD 0) size.remainingLength reply.propertyLength s
  rw [Prog.bind_apply]
  rcases hbuild : buildAndSendAckWithProps env (ackTypeToSend state) packetId
    (reply.reasonCode.getD 0) size.remainingLength reply.propertyLength s with ⟨e | _, t⟩
  · rw [hbuild] at hquiet
    exact .unsent hquiet
  · rw [hbuild] at hquiet
    obtain ⟨rest, hout⟩ := buildAndSendAckWithProps_sent env hlength hremaining htotal hbuild
    exact .sent rest hquiet hout

theorem replyWith_replied {packetId : UInt16} {state : PublishState} {ack : AckType}
    (hack : ackFromPacketType (ackTypeToSend state) = some ack) (reasonCode : Option UInt8)
    (s : Sys W) : Replied (ackTypeToSend state) packetId ack s
      (replyWith env packetId state reasonCode s) := by
  rw [replyWith, Prog.bind_of_ok (context_apply s), sendAckFor]
  split_ifs
  · exact sendPublishAcksWithoutProperty_replied env hack s
  · exact sendPublishAcksWithProperty_replied env hack _ s

theorem replyWith_quiet {packetId : UInt16} {state : PublishState}
    (hack : ackFromPacketType (ackTypeToSend state) = none) (reasonCode : Option UInt8) :
    (replyWith env packetId state reasonCode).Moves Quiet := by
  refine context_moves.bind fun c => .ite ?_ ?_
  · unfold sendPublishAcksWithoutProperty
    rw [hack]
    exact .pure _
  · refine context_moves.bind fun c => (Prog.Moves.when (check_moves _ _)).bind fun _ =>
      connected_moves.bind fun _ => ?_
    rw [hack]
    exact .pure _

theorem replyWith_orderly (packetId : UInt16) (state : PublishState) (reasonCode : Option UInt8) :
    (replyWith env packetId state reasonCode).Moves Orderly := by
  intro s
  cases hack : ackFromPacketType (ackTypeToSend state) with
  | none => exact (replyWith_quiet env hack reasonCode s).orderly
  | some ack => exact (replyWith_replied env hack reasonCode s).orderly hack

theorem dispatch_orderly {e : Event} (he : ∀ publish, e.publish = some publish →
    publish.qos ≠ .exactlyOnce) (wantsReply : Bool) : (dispatch env e wantsReply).Moves Orderly :=
  fun s => by
    refine orderly_of_append [.event e _] rfl ?_ fun _ hkept => .inr hkept
    intro o ho packetId
    rw [List.mem_singleton.mp ho]
    cases hp : e.publish with
    | none => simp [Observation.delivers, hp]
    | some publish => simp [Observation.delivers, hp, he publish hp]

theorem delivers_event {e : Event} {accepted : Bool} {packetId : UInt16}
    (h : (Observation.event e accepted).delivers packetId = true) : e.packetId = packetId := by
  simp only [Observation.delivers, Bool.and_eq_true, beq_iff_eq] at h
  exact h.1

theorem admit_dispatch_orderly {state : PublishState} (e : Event) (wantsReply : Bool)
    {s t : Sys W}
    (h : updatePublish e.packetId .receive .exactlyOnce s = (.ok (some (.ok state)), t)) :
    Orderly s (dispatch env e wantsReply t).2 := by
  rw [updatePublish] at h
  cases hr : s.context.records with
  | none => rw [onRecords_none hr] at h; simp at h
  | some r =>
    rw [onRecords_some hr, Prod.mk.injEq, Except.ok.injEq, Option.some.injEq] at h
    obtain ⟨hok, rfl⟩ := h
    obtain ⟨hid, hfresh, hretains⟩ := PublishRecords.retains_of_received hok
    rintro start ⟨log, hs, hlog⟩
    rw [hr] at hlog
    obtain ⟨accepted, hevent, hrecords⟩ := dispatch_log env e wantsReply _
    refine ⟨log ++ [.admission r e.packetId, .event e accepted], ?_, hlog.deliver hfresh
      (fun other ho => (delivers_event ho).symm) (fun other ⟨hother, r', hr', hkept⟩ => ?_)
      ⟨hid, _, hrecords, hretains⟩⟩
    · rw [hevent, hok, hs]
      simp [Observation.admission, Except.map]
    · rw [Option.some.injEq] at hr'
      exact ⟨hother, _, hrecords, PublishRecords.Retains.updatePublish hother (hr' ▸ hkept) _ _ _⟩

end Client

end RtosMqtt
