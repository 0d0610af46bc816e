import RtosMqtt.Client.Packets
import RtosMqtt.Client.Stream
import RtosMqtt.Wire.Built

/-! # Whose properties an acknowledgement carries

A handler builds the properties of its acknowledgement behind what the buffer
still holds. They leave the buffer when their acknowledgement is sent, and not
when it is refused, fails its checks, or is never owed.
-/

namespace RtosMqtt

namespace AckReply

def sectionBytes (r : AckReply) : List UInt8 := r.buffer.take r.used

/-- The properties that the adders of one call added. -/
def addedBy (r : AckReply) (calls : List (Adder × Option UInt8)) : List Adder :=
  if !r.accepted || r.buffer.isEmpty then []
  else
    match PropertyBuilder.resume r.buffer r.used with
    | .error _ => []
    | .ok builder => builder.succeeded calls

/-- The properties that the calls of a handler added. -/
def added : AckReply → List ReplyAction → List Adder
  | _, [] => []
  | r, .setReasonCode reasonCode :: actions => (r.setReasonCode reasonCode).added actions
  | r, .withProperties calls :: actions =>
    r.addedBy calls ++ (r.withProperties calls).added actions

structure Extends (r r' : AckReply) (adders : List Adder) : Prop where
  accepted : r'.accepted = r.accepted
  bytes : r'.sectionBytes = r.sectionBytes ++ adders.flatMap Adder.encoded
  used : r'.used = r.used + (adders.flatMap Adder.encoded).length
  inside : r.used ≤ r.buffer.length → r'.used ≤ r'.buffer.length

theorem Extends.refl (r : AckReply) : r.Extends r [] := ⟨rfl, by simp, by simp, id⟩

theorem Extends.trans {r r' r'' : AckReply} {adders adders' : List Adder}
    (h : r.Extends r' adders) (h' : r'.Extends r'' adders') : r.Extends r'' (adders ++ adders') where
  accepted := h'.accepted.trans h.accepted
  bytes := by rw [h'.bytes, h.bytes, List.flatMap_append, List.append_assoc]
  used := by rw [h'.used, h.used, List.flatMap_append, List.length_append, Nat.add_assoc]
  inside hinside := h'.inside (h.inside hinside)

theorem extends_setReasonCode (r : AckReply) (reasonCode : UInt8) :
    r.Extends (r.setReasonCode reasonCode) [] := by
  unfold setReasonCode
  split_ifs
  · exact ⟨rfl, by simp [sectionBytes], by simp, id⟩
  · exact .refl r

theorem resume_eq_ok {buffer : List UInt8} {position : ℕ} {b : PropertyBuilder}
    (h : PropertyBuilder.resume buffer position = .ok b) :
    position ≤ buffer.length ∧ b.buffer = buffer ∧ b.position = position := by
  rw [PropertyBuilder.resume, refuseIf_bind_eq_ok, except_bind_eq_ok] at h
  obtain ⟨hinside, fresh, hnew, h⟩ := h
  rw [PropertyBuilder.new, refuseIf_bind_eq_ok, refuseIf_bind_eq_ok, refuseIf_bind_eq_ok] at hnew
  obtain ⟨-, -, -, hnew⟩ := hnew
  cases hnew
  cases h
  exact ⟨Nat.not_lt.mp hinside, rfl, rfl⟩

/-- The builder is resumed, so an event's properties go behind what is there. -/
theorem extends_withProperties (r : AckReply) (calls : List (Adder × Option UInt8)) :
    r.Extends (r.withProperties calls) (r.addedBy calls) := by
  unfold withProperties addedBy
  split_ifs with hnone
  · exact .refl r
  cases hresume : PropertyBuilder.resume r.buffer r.used with
  | error e => exact .refl r
  | ok b =>
    obtain ⟨hinside, hbuffer, hposition⟩ := resume_eq_ok hresume
    have hkept : (b.addAll calls).position ≤ (b.addAll calls).buffer.length ∧
        (b.addAll calls).sectionBytes =
          r.sectionBytes ++ ([] ++ b.succeeded calls).flatMap Adder.encoded ∧
        (b.addAll calls).position =
          r.used + (([] ++ b.succeeded calls).flatMap Adder.encoded).length := by
      refine PropertyBuilder.addAll_keeps (I := fun b added => b.position ≤ b.buffer.length ∧
        b.sectionBytes = r.sectionBytes ++ added.flatMap Adder.encoded ∧
        b.position = r.used + (added.flatMap Adder.encoded).length) ?_ ?_
      · rintro b added adder packetType - ⟨hle, hbytes, hused⟩ - hroom
        refine ⟨?_, ?_, ?_⟩
        · dsimp only [PropertyBuilder.after]
          simp only [List.length_append, List.length_take, List.length_drop]
          omega
        · rw [PropertyBuilder.sectionBytes_after hle, hbytes, List.flatMap_append,
            List.append_assoc]
          simp
        · dsimp only [PropertyBuilder.after]
          rw [hused, List.flatMap_append, List.length_append, Nat.add_assoc]
          simp
      · refine ⟨by rwa [hbuffer, hposition], ?_, ?_⟩
        · simp [PropertyBuilder.sectionBytes, sectionBytes, hbuffer, hposition]
        · simp [hposition]
    obtain ⟨hle, hbytes, hused⟩ := hkept
    exact ⟨rfl, hbytes, hused, fun _ => hle⟩

theorem extends_foldl (r : AckReply) (actions : List ReplyAction) :
    r.Extends (actions.foldl AckReply.act r) (r.added actions) := by
  induction actions generalizing r with
  | nil => exact .refl r
  | cons action actions ih =>
    cases action with
    | setReasonCode reasonCode => exact (extends_setReasonCode r reasonCode).trans (ih _)
    | withProperties calls => exact (extends_withProperties r calls).trans (ih _)

theorem added_of_not_accepted {r : AckReply} (h : r.accepted = false) (actions : List ReplyAction) :
    r.added actions = [] := by
  induction actions generalizing r with
  | nil => rfl
  | cons action actions ih =>
    cases action with
    | setReasonCode reasonCode =>
      exact ih ((extends_setReasonCode r reasonCode).accepted.trans h)
    | withProperties calls =>
      have hnone : r.addedBy calls = [] := by simp [addedBy, h]
      rw [added, hnone, List.nil_append]
      exact ih ((extends_withProperties r calls).accepted.trans h)

end AckReply

variable {W : Type}

def MqttContext.built (c : MqttContext) : List UInt8 := c.ackProperties.take c.ackUsed

structure SameBuilt (s t : Sys W) : Prop where
  used : t.context.ackUsed = s.context.ackUsed
  bytes : t.context.built = s.context.built

instance : IsPreorder (Sys W) SameBuilt where
  refl _ := ⟨rfl, rfl⟩
  trans _ _ _ h h' := ⟨h'.used.trans h.used, h'.bytes.trans h.bytes⟩

theorem Io.sameBuilt {s t : Sys W} (h : Io s t) : SameBuilt s t := by
  obtain ⟨⟨status, now, hc⟩, -, -⟩ := h
  exact ⟨by rw [hc], by rw [hc]; rfl⟩

/-- The acknowledgement a reply asks for: bare when the application said nothing. -/
def replyPacket (packetType : UInt8) (packetId : UInt16) (reasonCode : Option UInt8)
    (properties : List UInt8) : List UInt8 :=
  if properties = [] ∧ reasonCode = none then ackPacket packetType packetId []
  else ackPacket packetType packetId
    ([reasonCode.getD 0] ++ encodedLength properties.length ++ properties)

/-- A reply of which nothing stands in the way of its properties leaving the buffer: there is an
acknowledgement to send, what the application said passes the checks, and the connection is up. -/
def MqttContext.Lets (c : MqttContext) (packetType : UInt8) (reasonCode : Option UInt8) : Prop :=
  packetType ≠ 0 ∧ c.connectStatus = .connected ∧
    Client.checkReply c packetType { reasonCode, propertyLength := c.ackUsed } = .ok ()

namespace Client

variable {env : Environment W}

theorem sendPublishAcksWithoutProperty_puts (packetId : UInt16) (state : PublishState) (s : Sys W) :
    Puts (ackPacket (ackTypeToSend state) packetId []) s
      (sendPublishAcksWithoutProperty env packetId state s).2 := by
  unfold sendPublishAcksWithoutProperty
  cases hack : ackFromPacketType (ackTypeToSend state) with
  | none => exact (refl_of Mute s).puts
  | some ack =>
  apply puts_bind_of (check_moves _ _)
  intro written t h
  obtain ⟨hwritten, rfl⟩ := check_eq_ok.mp h
  obtain ⟨rfl, hpacket⟩ := serializeAck_bare_eq_ok (isPublishAck_of_ackFromPacketType hack) hwritten
  have hbare : (ackPacket (ackTypeToSend state) packetId []).take 4 =
      ackPacket (ackTypeToSend state) packetId [] := List.take_of_length_le (by rfl)
  rw [hpacket, hbare]
  apply puts_bind_of context_moves
  intro c _ _
  apply puts_bind_of (refuse_moves _ _)
  intro _ _ _
  apply puts_bind_of connected_moves
  intro _ _ _
  apply puts_bind_of (keepAck_mute _ _ _)
  intro _ u _
  exact puts_bind (sendBuffer_puts _ u) fun _ => (sentWhole_moves _ _).bind fun _ =>
    ackSent_mute _ _

variable (env) in
theorem buildAndSendAckWithProps_puts (packetType : UInt8) (packetId : UInt16)
    (reasonCode : UInt8) {remainingLength propertyLength : ℕ} {properties : List UInt8} {s : Sys W}
    (hlength : propertyLength ≤ maxRemainingLength) (hremaining : remainingLength ≤ maxRemainingLength)
    (htotal : remainingLength = 3 + variableLengthEncodedSize propertyLength + propertyLength)
    (hslice : slice? s.context.ackProperties 0 propertyLength = some properties) :
    Puts (ackPacket packetType packetId
      ([reasonCode] ++ encodedLength propertyLength ++ properties)) s
        (buildAndSendAckWithProps env packetType packetId reasonCode remainingLength
          propertyLength s).2 := by
  obtain ⟨hheadSize, hhead⟩ := serializeAckFixed_spec packetType packetId hremaining reasonCode
  obtain ⟨hprefixSize, hprefix⟩ := encodeVariableLength_spec hlength
  obtain ⟨-, hpacket⟩ := flatten_ackParts packetType packetId reasonCode hlength htotal
    (length_of_slice? hslice)
  rw [← hpacket, buildAndSendAckWithProps]
  simp only [hhead, hprefix, hheadSize, hprefixSize]
  apply puts_bind_of (refuse_moves _ _)
  intro _ t h
  obtain rfl : t = s := (Prod.mk.inj h).2.symm
  apply puts_bind_of (Prog.Moves.when (update_mute _))
  intro _ u h
  have hu : u.context.ackProperties = t.context.ackProperties := by
    unfold Prog.when at h
    split_ifs at h
    · obtain ⟨-, rfl⟩ := Prod.mk.inj h
      rfl
    · obtain ⟨-, rfl⟩ := Prod.mk.inj h
      rfl
  apply puts_bind_of (refuse_moves _ _)
  intro _ v h
  obtain rfl : v = u := (Prod.mk.inj h).2.symm
  rw [Prog.bind_of_ok (context_apply v), hu, hslice, orFail_bind_of_some rfl]
  apply puts_bind_of (keepAck_mute _ _ _)
  intro _ w _
  exact puts_bind (sendVectors_puts _ w) fun _ => sentWhole_moves _ _

/-- What a reply puts on the wire is a first part of its acknowledgement. -/
theorem replyWith_puts (packetId : UInt16) (state : PublishState) (reasonCode : Option UInt8)
    (s : Sys W) : Puts (replyPacket (ackTypeToSend state) packetId reasonCode s.context.built) s
      (replyWith env packetId state reasonCode s).2 := by
  rw [replyWith, Prog.bind_of_ok (context_apply s), sendAckFor]
  by_cases hsaid : s.context.ackUsed = 0 ∧ reasonCode = none
  · have hbuilt : s.context.built = [] := by rw [MqttContext.built, hsaid.1, List.take_zero]
    rw [if_pos hsaid, replyPacket, if_pos ⟨hbuilt, hsaid.2⟩]
    exact sendPublishAcksWithoutProperty_puts packetId state s
  rw [if_neg hsaid, sendPublishAcksWithProperty, Prog.bind_of_ok (context_apply s)]
  apply puts_bind_of (Prog.Moves.when (check_moves _ _))
  intro _ t h
  have hchecked : t = s ∧ (ackTypeToSend state ≠ 0 → checkReply s.context (ackTypeToSend state)
      { reasonCode, propertyLength := s.context.ackUsed } = .ok ()) := by
    unfold Prog.when at h
    split_ifs at h with howed
    · obtain ⟨hok, rfl⟩ := check_eq_ok.mp h
      exact ⟨rfl, fun _ => hok⟩
    · exact ⟨(Prod.mk.inj h).2.symm, fun hne => absurd hne howed⟩
  obtain ⟨rfl, hchecked⟩ := hchecked
  apply puts_bind_of connected_moves
  intro _ u h
  obtain ⟨-, rfl⟩ := connected_run_eq_ok.mp h
  cases hack : ackFromPacketType (ackTypeToSend state) with
  | none => exact (refl_of Mute u).puts
  | some ack =>
    have howed : ackTypeToSend state ≠ 0 := by
      intro hzero
      rw [hzero] at hack
      cases hack
    obtain ⟨hslice, hlong⟩ := slice?_of_checkReply (hchecked howed)
    apply puts_bind_of (check_moves _ _)
    intro size v h
    obtain ⟨hsize, rfl⟩ := check_eq_ok.mp h
    obtain ⟨hlength, hremaining, htotal⟩ := ackPacketSize_eq_ok hsize
    have hsays : ¬ (v.context.built = [] ∧ reasonCode = none) := by
      rintro ⟨hnone, hcode⟩
      refine hsaid ⟨?_, hcode⟩
      rw [← hlong]
      exact List.length_eq_zero_iff.mpr hnone
    have hbuild := buildAndSendAckWithProps_puts env (ackTypeToSend state) packetId
      (reasonCode.getD 0) hlength hremaining htotal hslice
    rw [replyPacket, if_neg hsays, MqttContext.built, hlong]
    exact puts_bind hbuild fun _ => ackSent_mute packetId ack

theorem update_sameBuilt {f : MqttContext → MqttContext}
    (h : ∀ c, (f c).ackUsed = c.ackUsed ∧ (f c).built = c.built) :
    (update f : Client W Unit).Moves SameBuilt := fun s => ⟨(h s.context).1, (h s.context).2⟩

theorem onRecords_sameBuilt {α : Type} (c : Call)
    (f : PublishRecords → Except StateError α × PublishRecords) :
    (onRecords c f : Client W _).Moves SameBuilt := by
  intro s
  obtain ⟨-, hcontext⟩ := onRecords_frame c f s
  exact ⟨by rw [hcontext], by rw [hcontext]; rfl⟩

theorem keepAck_sameBuilt (packetType : UInt8) (packetId : UInt16) (parts : List (List UInt8)) :
    (keepAck env packetType packetId parts).Moves SameBuilt :=
  (keepAck_io env _ _ _).mono Io.sameBuilt

theorem ackSent_sameBuilt (packetId : UInt16) (ack : AckType) :
    (ackSent packetId ack : Client W Unit).Moves SameBuilt :=
  Prog.Moves.bind (update_sameBuilt fun _ => ⟨by rfl, by rfl⟩) fun _ =>
    (onRecords_sameBuilt _ _).bind fun _ => (accepted_moves _).bind fun _ => .pure _

variable (env) in
theorem sendPublishAcksWithoutProperty_sameBuilt (packetId : UInt16) (state : PublishState) :
    (sendPublishAcksWithoutProperty env packetId state).Moves SameBuilt := by
  unfold sendPublishAcksWithoutProperty
  split
  · exact .pure _
  · exact (check_moves _ _).bind fun _ => context_moves.bind fun _ => (refuse_moves _ _).bind fun _ =>
      connected_moves.bind fun _ => (keepAck_sameBuilt _ _ _).bind fun _ =>
        ((sendBuffer_io env _).mono Io.sameBuilt).bind fun _ => (sentWhole_moves _ _).bind fun _ =>
          ackSent_sameBuilt _ _

theorem buildAndSendAckWithProps_used {packetType : UInt8} {packetId : UInt16}
    {reasonCode : UInt8} {remainingLength : ℕ} (hremaining : remainingLength ≤ maxRemainingLength)
    (s : Sys W) :
    (buildAndSendAckWithProps env packetType packetId reasonCode remainingLength
      s.context.ackUsed s).2.context.ackUsed = 0 := by
  obtain ⟨hheadSize, -⟩ := serializeAckFixed_spec packetType packetId hremaining reasonCode
  have hrest {u : Sys W} (hu : u.context.ackUsed = 0) {f : Unit → Client W Unit}
      (hf : ∀ a, (f a).Moves SameBuilt) : (f () u).2.context.ackUsed = 0 := (hf () u).used.trans hu
  have hsend (total propertyLength : ℕ) (head length : List UInt8) (_ : Unit) :
      (do
        refuse (maxPacketSizeLimit < total) .badParameter
        let c ← context
        let properties ← orFail .sendFailed (slice? c.ackProperties 0 propertyLength)
        let parts := [head, length] ++ if propertyLength = 0 then [] else [properties]
        keepAck env packetType packetId parts
        let outcome ← sendVectors env parts
        sentWhole total outcome : Client W Unit).Moves SameBuilt :=
    (refuse_moves _ _).bind fun _ => context_moves.bind fun _ => (orFail_moves _ _).bind fun _ =>
      (keepAck_sameBuilt _ _ _).bind fun _ => ((sendVectors_io env _).mono Io.sameBuilt).bind
        fun _ => sentWhole_moves _ _
  rw [buildAndSendAckWithProps]
  dsimp only
  rw [Client.refuse, Prog.refuse_bind_of_not (by omega)]
  by_cases hempty : s.context.ackUsed > 0
  · rw [Prog.when_bind_of hempty]
    exact hrest (u := { s with context := { s.context with ackUsed := 0 } }) rfl (hsend _ _ _ _)
  · rw [Prog.when_bind_of_not hempty]
    exact hrest (by omega) (hsend _ _ _ _)

theorem ackFromPacketType_of_owed {state : PublishState} (h : ackTypeToSend state ≠ 0) :
    ∃ ack, ackFromPacketType (ackTypeToSend state) = some ack := by
  cases state with
  | pubAckSend => exact ⟨.pubAck, rfl⟩
  | pubRecSend => exact ⟨.pubRec, rfl⟩
  | pubRelSend => exact ⟨.pubRel, rfl⟩
  | pubCompSend => exact ⟨.pubComp, rfl⟩
  | _ => exact absurd rfl h

/-- After a reply the buffer is empty exactly when it was before, or nothing stood in the way. -/
theorem replyWith_used_iff (packetId : UInt16) (state : PublishState) (reasonCode : Option UInt8)
    (s : Sys W) : (replyWith env packetId state reasonCode s).2.context.ackUsed = 0 ↔
      s.context.ackUsed = 0 ∨ s.context.Lets (ackTypeToSend state) reasonCode := by
  rw [replyWith, Prog.bind_of_ok (context_apply s), sendAckFor]
  by_cases hsaid : s.context.ackUsed = 0 ∧ reasonCode = none
  · rw [if_pos hsaid]
    have hsame := sendPublishAcksWithoutProperty_sameBuilt env packetId state s
    exact iff_of_true (hsame.used.trans hsaid.1) (.inl hsaid.1)
  rw [if_neg hsaid, sendPublishAcksWithProperty, Prog.bind_of_ok (context_apply s)]
  by_cases hlets : s.context.Lets (ackTypeToSend state) reasonCode
  · obtain ⟨howed, hconnected, hchecked⟩ := hlets
    obtain ⟨ack, hack⟩ := ackFromPacketType_of_owed howed
    obtain ⟨size, hsize⟩ := (checkReply_eq_ok hchecked).2
    have hup : connected s = (.ok (), s) := connected_run_eq_ok.mpr ⟨hconnected, rfl⟩
    rw [Prog.when_bind_of howed, check_bind_of_ok hchecked, Prog.bind_of_ok hup, hack]
    dsimp only at hsize ⊢
    rw [check_bind_of_ok hsize]
    refine iff_of_true ?_ (.inr ⟨howed, hconnected, hchecked⟩)
    have hbuilt : SameBuilt (buildAndSendAckWithProps env (ackTypeToSend state) packetId
        (reasonCode.getD 0) size.remainingLength s.context.ackUsed s).2 _ :=
      Prog.rel_bind (refl_of SameBuilt _) fun _ => ackSent_sameBuilt packetId ack
    exact hbuilt.used.trans (buildAndSendAckWithProps_used (ackPacketSize_eq_ok hsize).2.1 s)
  · rw [or_iff_left hlets]
    apply Eq.congr_left
    apply SameBuilt.used
    apply Prog.rel_bind_of (Prog.Moves.when (check_moves _ _) s)
    intro _ t h
    have hchecked : t = s ∧ (ackTypeToSend state ≠ 0 → checkReply s.context (ackTypeToSend state)
        { reasonCode, propertyLength := s.context.ackUsed } = .ok ()) := by
      unfold Prog.when at h
      split_ifs at h with howed
      · obtain ⟨hok, rfl⟩ := check_eq_ok.mp h
        exact ⟨rfl, fun _ => hok⟩
      · exact ⟨(Prod.mk.inj h).2.symm, fun hne => absurd hne howed⟩
    obtain ⟨rfl, hchecked⟩ := hchecked
    apply Prog.rel_bind_of (connected_moves t)
    intro _ u h
    obtain ⟨hconnected, rfl⟩ := connected_run_eq_ok.mp h
    cases hack : ackFromPacketType (ackTypeToSend state) with
    | none => exact refl_of SameBuilt u
    | some ack =>
      have howed : ackTypeToSend state ≠ 0 := by
        intro hzero
        rw [hzero] at hack
        cases hack
      exact absurd ⟨howed, hconnected, hchecked howed⟩ hlets

end Client

end RtosMqtt
