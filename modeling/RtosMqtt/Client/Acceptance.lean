import RtosMqtt.Client.Dispatch

/-! # Which packets are handled without an error

A handler has many exits. Here is what has to be true of a packet, of the
context, and of what the caller answers, for none of them to be taken.
-/

namespace RtosMqtt

variable {W : Type}

namespace Environment

variable (env : Environment W)

/-- The reply an application leaves when it is shown an event, and whether it accepts it. -/
def reply (e : Event) (wantsReply : Bool) (s : Sys W) : AckReply × Bool :=
  let offered : AckReply :=
    { accepted := wantsReply, buffer := s.context.ackProperties, used := s.context.ackUsed }
  let answer := (env.onEvent e offered s.world).1
  (answer.1.foldl AckReply.act offered, answer.2)

def Accepts (e : Event) (wantsReply : Bool) (s : Sys W) : Prop := (env.reply e wantsReply s).2 = true

def Keeps (packetType : UInt8) (packetId : UInt16) (parts : List (List UInt8)) (s : Sys W) : Prop :=
  packetType ≠ Packet.puback ∧ packetType ≠ Packet.pubcomp → env.storing = true →
    (env.store (incomingKey packetId) parts s.world).1 = true

end Environment

/-- The records take a sent acknowledgement, when there are any. -/
def Recorded (packetId : UInt16) (ack : AckType) (s : Sys W) : Prop :=
  ∀ r, s.context.records = some r → ∃ state, (r.updateAck packetId ack .send).1 = .ok state

namespace Client

variable (env : Environment W)

def shown (e : Event) (wantsReply : Bool) (s : Sys W) : Sys W := (dispatch env e wantsReply s).2

/-- The system once a packet was offered to the store. -/
def keptAck (packetType : UInt8) (packetId : UInt16) (parts : List (List UInt8)) (s : Sys W) :
    Sys W := (keepAck env packetType packetId parts s).2

def BareReply (packetId : UInt16) (state : PublishState) (s : Sys W) : Prop :=
  ∀ ack, ackFromPacketType (ackTypeToSend state) = some ack →
    let packet := ackPacket (ackTypeToSend state) packetId []
    packetId ≠ 0 ∧ publishAckPacketSize ≤ s.context.properties.server.maxPacketSize ∧
      s.context.connectStatus = .connected ∧
      env.Keeps (ackTypeToSend state) packetId [packet] s ∧
      (sendBuffer env packet (keptAck env (ackTypeToSend state) packetId [packet] s)).1 =
        .ok (.sent publishAckPacketSize) ∧
      Recorded packetId ack s

/-- The parts of an acknowledgement with a reason code and properties. -/
def replyParts (packetType : UInt8) (packetId : UInt16) (reasonCode : UInt8)
    (properties : List UInt8) : List (List UInt8) :=
  let length := encodedLength properties.length
  [packetType :: encodedLength (3 + length.length + properties.length) ++ toBeBytes16 packetId ++
    [reasonCode], length] ++ if properties = [] then [] else [properties]

/-- The application's section is emptied before the packet is offered to anyone. -/
def emptied (s : Sys W) : Sys W :=
  if s.context.ackUsed > 0 then { s with context := { s.context with ackUsed := 0 } } else s

/-- An acknowledgement that says what the application wants can be sent and recorded. -/
def PropertyReply (packetId : UInt16) (state : PublishState) (reasonCode : Option UInt8)
    (s : Sys W) : Prop :=
  let packetType := ackTypeToSend state
  let parts := replyParts packetType packetId (reasonCode.getD 0)
    (s.context.ackProperties.take s.context.ackUsed)
  (packetType ≠ 0 →
      checkReply s.context packetType { reasonCode, propertyLength := s.context.ackUsed } = .ok ()) ∧
    s.context.connectStatus = .connected ∧
    ∀ ack, ackFromPacketType packetType = some ack →
      env.Keeps packetType packetId parts s ∧
        (sendVectors env parts (keptAck env packetType packetId parts (emptied s))).1 =
          .ok (.sent parts.flatten.length) ∧
        Recorded packetId ack s

/-- The reply a packet asks for can be sent and recorded. -/
def ReplyGoes (packetId : UInt16) (state : PublishState) (reasonCode : Option UInt8)
    (s : Sys W) : Prop :=
  s.context.ackUsed < remainingLengthInvalid ∧
    if s.context.ackUsed = 0 ∧ reasonCode = none then BareReply env packetId state s
    else PropertyReply env packetId state reasonCode s

section Parts

variable {α β ε : Type} {s : Sys W}

theorem finishes_check_bind {g : ε → ClientError} {r : Except ε α} {f : α → Client W β} :
    (check g r >>= f).Finishes s ↔ ∃ a, r = .ok a ∧ (f a).Finishes s := by
  cases r with
  | error e => rw [check_bind_of_error rfl, fail]; simp
  | ok a => rw [check_bind_of_ok rfl]; simp

theorem finishes_orFail_bind {e : ClientError} {o : Option α} {f : α → Client W β} :
    (orFail e o >>= f).Finishes s ↔ ∃ a, o = some a ∧ (f a).Finishes s := by
  cases o with
  | none => rw [orFail_bind_of_none rfl, fail]; simp
  | some a => rw [orFail_bind_of_some rfl]; simp

theorem finishes_context_bind {f : MqttContext → Client W β} :
    (context >>= f).Finishes s ↔ (f s.context).Finishes s := Iff.rfl

theorem finishes_update_bind {g : MqttContext → MqttContext} {f : Unit → Client W β} :
    (update g >>= f).Finishes s ↔ (f ()).Finishes { s with context := g s.context } := Iff.rfl

theorem finishes_when_check_bind {c : Prop} [Decidable c] {g : ε → ClientError}
    {r : Except ε Unit} {f : Unit → Client W β} :
    (Prog.when c (check g r) >>= f).Finishes s ↔ (c → r = .ok ()) ∧ (f ()).Finishes s := by
  by_cases h : c
  · rw [Prog.when_bind_of h, finishes_check_bind]
    exact ⟨fun ⟨(), hr, hf⟩ => ⟨fun _ => hr, hf⟩, fun ⟨hr, hf⟩ => ⟨(), hr h, hf⟩⟩
  · rw [Prog.when_bind_of_not h]
    simp [h]

theorem finishes_connected_bind {f : Unit → Client W β} :
    (connected >>= f).Finishes s ↔ s.context.connectStatus = .connected ∧ (f ()).Finishes s := by
  have hcheck : (connected >>= f).Finishes s ↔
      (check id s.context.connected >>= f).Finishes s := Iff.rfl
  rw [hcheck, finishes_check_bind, ← connected_eq_ok]
  exact ⟨fun ⟨(), h⟩ => h, fun h => ⟨(), h⟩⟩

theorem dispatch_apply (e : Event) (wantsReply : Bool) (s : Sys W) :
    dispatch env e wantsReply s =
      (.ok ((env.reply e wantsReply s).2, (env.reply e wantsReply s).1.reasonCode),
        shown env e wantsReply s) := rfl

theorem finishes_dispatch_bind {e : Event} {wantsReply : Bool} {f : Bool × Option UInt8 → Client W β} :
    (dispatch env e wantsReply >>= f).Finishes s ↔
      (f ((env.reply e wantsReply s).2, (env.reply e wantsReply s).1.reasonCode)).Finishes
        (shown env e wantsReply s) := Iff.rfl

theorem finishes_dispatch_refuse {e : Event} {wantsReply : Bool} :
    (dispatch env e wantsReply >>= fun answer =>
      refuse (!answer.1) .eventCallbackFailed : Client W Unit).Finishes s ↔
        env.Accepts e wantsReply s := by
  rw [finishes_dispatch_bind, Client.refuse, Prog.finishes_refuse]
  simp [Environment.Accepts]

end Parts

section Reply

variable {s : Sys W} {packetType : UInt8} {packetId : UInt16} {ack : AckType}

theorem keep_apply (hstoring : env.storing = true) (key : UInt32) (parts : List (List UInt8)) :
    ∃ t, keep env key parts s = (if (env.store key parts s.world).1 then .ok ()
      else .error (.error .publishStoreFailed), t) := by
  refine ⟨{ s with world := (env.store key parts s.world).2, log := s.log ++ [.stored key parts
    (env.store key parts s.world).1] }, ?_⟩
  rw [keep, if_pos hstoring, Prog.bind_of_ok (store_apply env key parts s), Client.refuse,
    Prog.refuse_apply]
  cases (env.store key parts s.world).1 <;> rfl

theorem finishes_keepAck_bind {β : Type} {parts : List (List UInt8)} {f : Unit → Client W β} :
    (keepAck env packetType packetId parts >>= f).Finishes s ↔
      env.Keeps packetType packetId parts s ∧
        (f ()).Finishes (keptAck env packetType packetId parts s) := by
  unfold keptAck keepAck
  by_cases hkind : packetType ≠ Packet.puback ∧ packetType ≠ Packet.pubcomp
  · rw [Prog.when_bind_of hkind, Prog.when, if_pos hkind]
    by_cases hstoring : env.storing = true
    · obtain ⟨t, ht⟩ := keep_apply env (s := s) hstoring (incomingKey packetId) parts
      rw [Prog.finishes_bind, ht]
      cases hstore : (env.store (incomingKey packetId) parts s.world).1 with
      | false => simp [Environment.Keeps, hkind, hstoring, hstore]
      | true =>
        simp only [Environment.Keeps, hstore, implies_true, true_and, if_true, Prod.mk.injEq]
        constructor
        · rintro ⟨⟨⟩, _, rfl, h⟩
          exact h
        · exact fun h => ⟨(), t, rfl, h⟩
    · rw [keep, if_neg hstoring]
      simp [Environment.Keeps, hstoring]
  · rw [Prog.when_bind_of_not hkind, Prog.when, if_neg hkind]
    simp [Environment.Keeps, hkind]

theorem recorded_congr {t : Sys W} (h : t.context.records = s.context.records) :
    Recorded packetId ack t ↔ Recorded packetId ack s := by
  unfold Recorded; rw [h]

theorem recorded_keptAck {parts : List (List UInt8)} {other : UInt16} :
    Recorded packetId ack (keptAck env packetType other parts s) ↔ Recorded packetId ack s :=
  recorded_congr (keepAck_io env packetType other parts s).quiet.records

theorem finishes_updateAck_send :
    (updateAck packetId ack .send >>= fun answer => accepted answer >>= fun _ => pure () :
      Client W Unit).Finishes s ↔ Recorded packetId ack s := by
  rw [Prog.finishes_bind, updateAck]
  cases hr : s.context.records with
  | none =>
    rw [onRecords_none hr]
    simp [Recorded, hr, accepted]
  | some r =>
    rw [onRecords_some hr]
    cases hanswer : (r.updateAck packetId ack .send).1 with
    | error e => simp [Recorded, hr, hanswer, accepted, fail]
    | ok state => simp [Recorded, hr, hanswer, accepted]

theorem finishes_ackSent : (ackSent packetId ack : Client W Unit).Finishes s ↔
    Recorded packetId ack s :=
  finishes_updateAck_send
    (s := { s with context := { s.context with controlPacketSent := true } })

theorem finishes_sent_ackSent {sender : Client W SendOutcome} {total : ℕ} (hio : sender.Moves Io) :
    (sender >>= fun outcome => sentWhole total outcome >>= fun _ =>
      ackSent packetId ack).Finishes s ↔
        (sender s).1 = .ok (.sent total) ∧ Recorded packetId ack s := by
  have hrecords := (hio s).quiet.records
  rw [Prog.finishes_bind]
  rcases hsend : sender s with ⟨_ | outcome, t⟩
  · simp
  rw [hsend] at hrecords
  have hrecorded : Recorded packetId ack t ↔ Recorded packetId ack s := recorded_congr hrecords
  simp only [Prod.mk.injEq, Except.ok.injEq]
  constructor
  · rintro ⟨_, _, ⟨rfl, rfl⟩, hrest⟩
    rw [sentWhole, Client.refuse, Prog.finishes_refuse_bind, finishes_ackSent, hrecorded] at hrest
    exact ⟨not_not.mp hrest.1, hrest.2⟩
  · rintro ⟨rfl, hack⟩
    refine ⟨_, _, ⟨rfl, rfl⟩, ?_⟩
    rw [sentWhole, Client.refuse, Prog.finishes_refuse_bind, finishes_ackSent, hrecorded]
    exact ⟨by simp, hack⟩

theorem finishes_sendPublishAcksWithoutProperty {state : PublishState} :
    (sendPublishAcksWithoutProperty env packetId state).Finishes s ↔
      BareReply env packetId state s := by
  unfold sendPublishAcksWithoutProperty BareReply
  cases hack : ackFromPacketType (ackTypeToSend state) with
  | none => simp
  | some ack =>
    have hkind := isPublishAck_of_ackFromPacketType hack
    dsimp only
    by_cases hid : packetId = 0
    · rw [finishes_check_bind]
      refine iff_of_false ?_ fun h => (h ack rfl).1 hid
      rintro ⟨written, hwritten, -⟩
      exact not_ok_serializeAck_zero (hid ▸ hwritten)
    · rw [serializeAck_bare hkind hid, check_bind_of_ok rfl, finishes_context_bind, Client.refuse,
        Prog.finishes_refuse_bind, finishes_connected_bind, finishes_keepAck_bind]
      dsimp only
      rw [List.take_of_length_le (by rfl), finishes_sent_ackSent (sendBuffer_io env _),
        recorded_keptAck]
      constructor
      · rintro ⟨hfits, hrest⟩ _ ⟨⟩
        exact ⟨hid, not_lt.mp hfits, hrest⟩
      · intro h
        obtain ⟨-, hfits, hrest⟩ := h ack rfl
        exact ⟨not_lt.mpr hfits, hrest⟩

theorem checkReply_eq_ok {c : MqttContext} {reply : Reply}
    (h : checkReply c packetType reply = .ok ()) :
    (reply.propertyLength > 0 → ∃ properties,
        slice? c.ackProperties 0 reply.propertyLength = some properties) ∧
      ∃ size, ackPacketSize c.properties.server.maxPacketSize reply.propertyLength = .ok size := by
  rw [checkReply, except_bind_eq_ok] at h
  obtain ⟨_, hproperties, h⟩ := h
  rw [except_bind_eq_ok] at h
  obtain ⟨_, -, h⟩ := h
  rw [except_bind_eq_ok] at h
  obtain ⟨size, hsize, -⟩ := h
  refine ⟨fun hpos => ?_, size, ?_⟩
  · rw [if_pos hpos] at hproperties
    cases hslice : slice? c.ackProperties 0 reply.propertyLength with
    | none => rw [hslice] at hproperties; cases hproperties
    | some properties => exact ⟨properties, rfl⟩
  · cases hsize' : ackPacketSize c.properties.server.maxPacketSize reply.propertyLength with
    | error e => rw [hsize'] at hsize; cases hsize
    | ok size' => rw [hsize'] at hsize; exact congrArg _ (Except.ok.inj hsize)

theorem slice?_of_checkReply {c : MqttContext} {reasonCode : Option UInt8}
    (h : checkReply c packetType { reasonCode, propertyLength := c.ackUsed } = .ok ()) :
    slice? c.ackProperties 0 c.ackUsed = some (c.ackProperties.take c.ackUsed) ∧
      (c.ackProperties.take c.ackUsed).length = c.ackUsed := by
  have hle : c.ackUsed ≤ c.ackProperties.length := by
    rcases Nat.eq_zero_or_pos c.ackUsed with hzero | hpos
    · omega
    · obtain ⟨properties, hslice⟩ := (checkReply_eq_ok h).1 hpos
      unfold slice? at hslice
      split_ifs at hslice with hbound
      exact hbound.2
  exact ⟨by simp [slice?, hle], by rw [List.length_take, Nat.min_eq_left hle]⟩

theorem finishes_emptied_bind {β : Type} {f : Unit → Client W β} :
    (Prog.when (s.context.ackUsed > 0) (update fun c => { c with ackUsed := 0 }) >>= f).Finishes s ↔
      (f ()).Finishes (emptied s) := by
  unfold emptied
  split_ifs with h
  · rw [Prog.when_bind_of h]; exact finishes_update_bind
  · rw [Prog.when_bind_of_not h]

@[simp] theorem emptied_ackProperties (s : Sys W) :
    (emptied s).context.ackProperties = s.context.ackProperties := by
  unfold emptied; split_ifs <;> rfl

@[simp] theorem emptied_records (s : Sys W) :
    (emptied s).context.records = s.context.records := by
  unfold emptied; split_ifs <;> rfl

@[simp] theorem emptied_world (s : Sys W) : (emptied s).world = s.world := by
  unfold emptied; split_ifs <;> rfl

theorem finishes_buildAndSendAckWithProps_bind {reasonCode : UInt8} {size : PacketSize}
    {properties : List UInt8}
    (hsize : ackPacketSize s.context.properties.server.maxPacketSize s.context.ackUsed = .ok size)
    (hslice : slice? s.context.ackProperties 0 s.context.ackUsed = some properties) :
    (buildAndSendAckWithProps env packetType packetId reasonCode size.remainingLength
        s.context.ackUsed >>= fun _ => ackSent packetId ack).Finishes s ↔
      env.Keeps packetType packetId (replyParts packetType packetId reasonCode properties) s ∧
        (sendVectors env (replyParts packetType packetId reasonCode properties)
          (keptAck env packetType packetId (replyParts packetType packetId reasonCode properties)
            (emptied s))).1 =
          .ok (.sent (replyParts packetType packetId reasonCode properties).flatten.length) ∧
        Recorded packetId ack s := by
  obtain ⟨hlength, hremaining, htotal⟩ := ackPacketSize_eq_ok hsize
  obtain ⟨hheadSize, hhead⟩ := serializeAckFixed_spec packetType packetId hremaining reasonCode
  obtain ⟨hprefixSize, hprefix⟩ := encodeVariableLength_spec hlength
  have hproperties : properties.length = s.context.ackUsed := length_of_slice? hslice
  have hparts : replyParts packetType packetId reasonCode properties =
      [packetType :: encodedLength size.remainingLength ++ toBeBytes16 packetId ++ [reasonCode],
        encodedLength s.context.ackUsed] ++
          if s.context.ackUsed = 0 then [] else [properties] := by
    have hempty : properties = [] ↔ s.context.ackUsed = 0 := by
      rw [← hproperties, List.length_eq_zero_iff]
    simp only [replyParts, hproperties, length_encodedLength hlength, ← htotal, hempty]
  have hsum : (replyParts packetType packetId reasonCode properties).flatten.length =
      1 + variableLengthEncodedSize size.remainingLength + 2 + 1 +
        variableLengthEncodedSize s.context.ackUsed + s.context.ackUsed := by
    have hsection : (if s.context.ackUsed = 0 then [] else [properties]).flatten.length =
        s.context.ackUsed := by
      split_ifs with hzero
      · simp [hzero]
      · simpa using hproperties
    rw [hparts, List.flatten_append, List.length_append, hsection]
    simp [length_encodedLength hlength, length_encodedLength hremaining, toBeBytes16]
    omega
  have hbound := variableLengthEncodedSize_le size.remainingLength
  rw [buildAndSendAckWithProps]
  simp only [hhead, hprefix, hheadSize, hprefixSize, Client.refuse, Prog.bind_assoc]
  rw [Prog.finishes_refuse_bind, finishes_emptied_bind, Prog.finishes_refuse_bind,
    finishes_context_bind, finishes_orFail_bind]
  simp only [emptied_ackProperties, hslice, Option.some.injEq, exists_eq_left', ← hparts]
  rw [finishes_keepAck_bind, finishes_sent_ackSent (sendVectors_io env _), recorded_keptAck,
    recorded_congr (emptied_records s), hheadSize, hprefixSize, hsum]
  simp only [Environment.Keeps, emptied_world]
  constructor
  · rintro ⟨_, _, h⟩
    exact h
  · refine fun h => ⟨by omega, ?_, h⟩
    rw [maxRemainingLength] at hremaining
    rw [maxPacketSizeLimit]
    omega

theorem finishes_sendPublishAcksWithProperty {state : PublishState} {reasonCode : Option UInt8} :
    (sendPublishAcksWithProperty env packetId state
        { reasonCode, propertyLength := s.context.ackUsed }).Finishes s ↔
      PropertyReply env packetId state reasonCode s := by
  rw [sendPublishAcksWithProperty, finishes_context_bind, finishes_when_check_bind,
    finishes_connected_bind, PropertyReply]
  refine and_congr_right fun hchecked => and_congr_right fun _ => ?_
  cases hack : ackFromPacketType (ackTypeToSend state) with
  | none => simp
  | some ack =>
    have hkind : ackTypeToSend state ≠ 0 := by
      intro hzero
      have hnone : ackFromPacketType 0 = none := by decide
      rw [hzero, hnone] at hack
      cases hack
    obtain ⟨size, hsize⟩ := (checkReply_eq_ok (hchecked hkind)).2
    have hslice := (slice?_of_checkReply (hchecked hkind)).1
    dsimp only at hsize ⊢
    rw [check_bind_of_ok hsize, finishes_buildAndSendAckWithProps_bind env hsize hslice]
    simp

theorem finishes_replyWith {state : PublishState} {reasonCode : Option UInt8} :
    (checkSectionLength >>= fun _ => replyWith env packetId state reasonCode).Finishes s ↔
      ReplyGoes env packetId state reasonCode s := by
  rw [checkSectionLength, Prog.bind_assoc, finishes_context_bind, Client.refuse,
    Prog.finishes_refuse_bind, replyWith, finishes_context_bind, ReplyGoes, not_le, sendAckFor,
    Prog.finishes_ite, finishes_sendPublishAcksWithoutProperty,
    finishes_sendPublishAcksWithProperty]

end Reply

/-- A PUBLISH whose records, application and reply are all in order. -/
inductive PublishAccepted (s : Sys W) (event : Event) (publish : PublishInfo) : Prop
  | atMostOnce (hqos : publish.qos = .atMostOnce) (haccepts : env.Accepts event false s)
  | received (r : PublishRecords) (state : PublishState) (hqos : publish.qos ≠ .atMostOnce)
      (hrecords : s.context.records = some r)
      (hanswer : (r.updatePublish event.packetId .receive publish.qos).1 = .ok state)
      (t : Sys W) (htaken : t = (updatePublish event.packetId .receive publish.qos s).2)
      (haccepts : env.Accepts event true t)
      (hreply : ReplyGoes env event.packetId state (env.reply event true t).1.reasonCode
        (shown env event true t))
  | repeatedAtLeastOnce (r : PublishRecords) (hqos : publish.qos = .atLeastOnce)
      (hrecords : s.context.records = some r)
      (hanswer : (r.updatePublish event.packetId .receive publish.qos).1 = .error .stateCollision)
      (t : Sys W) (htaken : t = (updatePublish event.packetId .receive publish.qos s).2)
      (haccepts : env.Accepts event true t)
      (hreply : ReplyGoes env event.packetId .pubAckSend (env.reply event true t).1.reasonCode
        (shown env event true t))
  | repeatedExactlyOnce (r : PublishRecords) (hqos : publish.qos = .exactlyOnce)
      (hrecords : s.context.records = some r)
      (hanswer : (r.updatePublish event.packetId .receive publish.qos).1 = .error .stateCollision)
      (hreply : ReplyGoes env event.packetId .pubRecSend none
        (updatePublish event.packetId .receive publish.qos s).2)

/-- The records take a received acknowledgement, when there are any. -/
def AckTaken (packetId : UInt16) (ack : AckType) (s : Sys W) (answer : Option PublishState) : Prop :=
  match s.context.records with
  | none => answer = none
  | some r => ∃ state, (r.updateAck packetId ack .receive).1 = .ok state ∧ answer = some state

/-- An acknowledgement the records take, and whose event and reply are in order. Only a PUBREC and
a PUBREL are answered. -/
def AckAccepted (ack : AckType) (event : Event) (s : Sys W) : Prop :=
  ∃ answer, AckTaken event.packetId ack s answer ∧
    let t := (clearStored env (releasedKey ack event.packetId)
      (updateAck event.packetId ack .receive s).2).2
    env.Accepts event (!endsSequence ack) t ∧
      let u := shown env event (!endsSequence ack) t
      if endsSequence ack then u.context.ackUsed < remainingLengthInvalid
      else ReplyGoes env event.packetId (answer.getD .null)
        (env.reply event (!endsSequence ack) t).1.reasonCode u

theorem finishes_checkSectionLength_bind {β : Type} {f : Unit → Client W β} {s : Sys W} :
    (checkSectionLength >>= f).Finishes s ↔
      s.context.ackUsed < remainingLengthInvalid ∧ (f ()).Finishes s := by
  rw [checkSectionLength, Prog.bind_assoc, finishes_context_bind, Client.refuse,
    Prog.finishes_refuse_bind, not_le]

theorem finishes_clearStored_bind {β : Type} {key : UInt32} {f : Unit → Client W β} {s : Sys W} :
    (clearStored env key >>= f).Finishes s ↔ (f ()).Finishes (clearStored env key s).2 := by
  unfold clearStored
  split_ifs
  · exact Iff.rfl
  · exact Iff.rfl

theorem finishes_updateAck_receive_bind {β : Type} {packetId : UInt16} {ack : AckType}
    {f : Option PublishState → Client W β} {s : Sys W} :
    (updateAck packetId ack .receive >>= fun answer => accepted answer >>= f).Finishes s ↔
      ∃ answer, AckTaken packetId ack s answer ∧
        (f answer).Finishes (updateAck packetId ack .receive s).2 := by
  unfold AckTaken
  rw [Prog.finishes_bind, updateAck]
  cases hr : s.context.records with
  | none =>
    rw [onRecords_none hr]
    simp [accepted]
  | some r =>
    rw [onRecords_some hr]
    cases hanswer : (r.updateAck packetId ack .receive).1 with
    | error e => simp [hanswer, accepted, fail, Prog.throw_bind]
    | ok state => simp [hanswer, accepted]

theorem finishes_handlePublishAcks {total : ℕ} {s : Sys W} :
    (handlePublishAcks env total).Finishes s ↔
      ∃ view, s.context.packetView total = some view ∧
        ∃ ack, ackFromPacketType view.packetType = some ack ∧
          ∃ info, deserializeAck view s.context.limits = .ok info ∧
            AckAccepted env ack (ackEvent view info) s := by
  rw [handlePublishAcks, finishes_context_bind, finishes_orFail_bind]
  refine exists_congr fun view => and_congr_right fun _ => ?_
  rw [finishes_orFail_bind]
  refine exists_congr fun ack => and_congr_right fun _ => ?_
  rw [finishes_check_bind]
  refine exists_congr fun info => and_congr_right fun _ => ?_
  rw [finishes_updateAck_receive_bind, AckAccepted]
  refine exists_congr fun answer => and_congr Iff.rfl ?_
  rw [finishes_clearStored_bind, finishes_dispatch_bind]
  dsimp only
  rw [Client.refuse, Prog.finishes_refuse_bind]
  refine and_congr (by simp [Environment.Accepts]; rfl) ?_
  cases hends : endsSequence ack with
  | true =>
    rw [finishes_checkSectionLength_bind, Prog.when, if_neg (by simp), if_pos rfl]
    simp
    rfl
  | false =>
    rw [Prog.when, if_pos rfl, if_neg (by simp)]
    exact finishes_replyWith env

/-- A DISCONNECT that parses, and whose event is accepted. -/
def DisconnectAccepted (view : PacketInfo) (s : Sys W) : Prop :=
  ∃ incoming, deserializeDisconnect view s.context.properties.client.maxPacketSize = .ok incoming ∧
    env.Accepts (disconnectEvent view incoming) false s

/-- A PINGRESP, a SUBACK or an UNSUBACK that parses, and whose event is accepted if it has one. -/
def NoticeAccepted (shows : Bool) (event : AckInfo → Event) (view : PacketInfo) (s : Sys W) : Prop :=
  ∃ info, deserializeAck view s.context.limits = .ok info ∧
    (shows = true → env.Accepts (event info) false s)

def PacketAccepted (manageKeepAlive : Bool) (packetType : UInt8) (view : PacketInfo)
    (s : Sys W) : Prop :=
  if packetType &&& 0xF0 = Packet.publish then
    ∃ publish, deserializePublish view s.context.properties.client.maxPacketSize
        s.context.properties.client.topicAliasMax = .ok publish ∧
      PublishAccepted env s (publishEvent view publish) publish
  else if packetType = Packet.disconnect then DisconnectAccepted env view s
  else if isPublishAck packetType then
    ∃ ack, ackFromPacketType view.packetType = some ack ∧
      ∃ info, deserializeAck view s.context.limits = .ok info ∧
        AckAccepted env ack (ackEvent view info) s
  else if packetType = Packet.pingresp then
    NoticeAccepted env (!manageKeepAlive)
      (fun info => { ackEvent view info with reasonCodes := [], properties := [] }) view s
  else (packetType = Packet.suback ∨ packetType = Packet.unsuback) ∧
    NoticeAccepted env true (ackEvent view) view s

theorem accepts_congr {event : Event} {wantsReply : Bool} {s t : Sys W}
    (hworld : t.world = s.world) (hbuffer : t.context.ackProperties = s.context.ackProperties)
    (hused : t.context.ackUsed = s.context.ackUsed) :
    env.Accepts event wantsReply t ↔ env.Accepts event wantsReply s := by
  unfold Environment.Accepts Environment.reply
  rw [hworld, hbuffer, hused]

/-- What follows the event of a PUBLISH, or its absence. -/
def acknowledge (qos : QoS) (packetId : UInt16) (state : PublishState)
    (answer : Bool × Option UInt8) : Client W Unit := do
  refuse (!answer.1) .eventCallbackFailed
  Prog.when (qos ≠ .atMostOnce) do
    checkSectionLength
    replyWith env packetId state answer.2

theorem finishes_acknowledge (qos : QoS) (packetId : UInt16) (state : PublishState)
    (answer : Bool × Option UInt8) {s : Sys W} :
    (acknowledge env qos packetId state answer).Finishes s ↔
      answer.1 = true ∧ (qos ≠ .atMostOnce → ReplyGoes env packetId state answer.2 s) := by
  rw [acknowledge, Client.refuse, Prog.finishes_refuse_bind, Prog.finishes_when,
    finishes_replyWith]
  simp

theorem finishes_dispatch_acknowledge (event : Event) (wantsReply : Bool) (qos : QoS)
    (packetId : UInt16) (state : PublishState) {s : Sys W} :
    (dispatch env event wantsReply >>= acknowledge env qos packetId state).Finishes s ↔
      env.Accepts event wantsReply s ∧ (qos ≠ .atMostOnce → ReplyGoes env packetId state
        (env.reply event wantsReply s).1.reasonCode (shown env event wantsReply s)) := by
  rw [finishes_dispatch_bind, finishes_acknowledge]
  exact Iff.rfl

section Received

variable {total : ℕ} {s : Sys W} {view : PacketInfo} {publish : PublishInfo} {r : PublishRecords}

theorem handleIncomingPublish_received (hview : s.context.packetView total = some view)
    (hpublish : deserializePublish view s.context.properties.client.maxPacketSize
      s.context.properties.client.topicAliasMax = .ok publish)
    (hr : s.context.records = some r) (hqos : publish.qos ≠ .atMostOnce) :
    handleIncomingPublish env total s =
      (receivedState (some (r.updatePublish (publish.packetId.getD 0) .receive publish.qos).1)
          publish.qos >>= fun position =>
        (if tell position.1 publish.qos then dispatch env (publishEvent view publish) true
          else pure (true, none)) >>=
          acknowledge env publish.qos (publish.packetId.getD 0) position.2)
        (updatePublish (publish.packetId.getD 0) .receive publish.qos s).2 := by
  have hwants : (publish.qos != .atMostOnce) = true := by simpa using hqos
  have hanswer : updatePublish (publish.packetId.getD 0) .receive publish.qos s =
      (.ok (some (r.updatePublish (publish.packetId.getD 0) .receive publish.qos).1),
        (updatePublish (publish.packetId.getD 0) .receive publish.qos s).2) := by
    rw [updatePublish, onRecords_some hr]
  rw [handleIncomingPublish, Prog.bind_of_ok (context_apply s), hview, orFail_bind_of_some rfl,
    hpublish, check_bind_of_ok rfl, hr]
  dsimp only
  rw [Client.refuse, Prog.refuse_bind_of_not (by simp), Prog.bind_of_ok hanswer, hwants]
  rfl

variable (hview : s.context.packetView total = some view)
  (hpublish : deserializePublish view s.context.properties.client.maxPacketSize
    s.context.properties.client.topicAliasMax = .ok publish) (hr : s.context.records = some r)

include hview hpublish hr

theorem handleIncomingPublish_of_ok {state : PublishState} (hqos : publish.qos ≠ .atMostOnce)
    (hanswer : (r.updatePublish (publish.packetId.getD 0) .receive publish.qos).1 = .ok state) :
    handleIncomingPublish env total s =
      (dispatch env (publishEvent view publish) true >>=
        acknowledge env publish.qos (publish.packetId.getD 0) state)
        (updatePublish (publish.packetId.getD 0) .receive publish.qos s).2 := by
  rw [handleIncomingPublish_received env hview hpublish hr hqos, hanswer]
  rfl

theorem handleIncomingPublish_of_shown (hqos : publish.qos = .atLeastOnce)
    (hanswer : (r.updatePublish (publish.packetId.getD 0) .receive publish.qos).1 =
      .error .stateCollision) :
    handleIncomingPublish env total s =
      (dispatch env (publishEvent view publish) true >>=
        acknowledge env .atLeastOnce (publish.packetId.getD 0) .pubAckSend)
        (updatePublish (publish.packetId.getD 0) .receive publish.qos s).2 := by
  rw [handleIncomingPublish_received env hview hpublish hr (by simp [hqos]), hanswer, hqos]
  rfl

theorem handleIncomingPublish_of_again (hqos : publish.qos = .exactlyOnce)
    (hanswer : (r.updatePublish (publish.packetId.getD 0) .receive publish.qos).1 =
      .error .stateCollision) :
    handleIncomingPublish env total s =
      acknowledge env .exactlyOnce (publish.packetId.getD 0) .pubRecSend (true, none)
        (updatePublish (publish.packetId.getD 0) .receive publish.qos s).2 := by
  rw [handleIncomingPublish_received env hview hpublish hr (by simp [hqos]), hanswer, hqos]
  rfl

theorem handleIncomingPublish_of_refused {e : StateError} (hqos : publish.qos ≠ .atMostOnce)
    (hanswer : (r.updatePublish (publish.packetId.getD 0) .receive publish.qos).1 = .error e)
    (he : e ≠ .stateCollision) :
    handleIncomingPublish env total s = (.error (.error (.state e)),
      (updatePublish (publish.packetId.getD 0) .receive publish.qos s).2) := by
  have hfail : receivedState (some (.error e)) publish.qos = (fail (.state e) : Client W _) := by
    cases e <;> first | rfl | exact absurd rfl he
  rw [handleIncomingPublish_received env hview hpublish hr hqos, hanswer, hfail]
  rfl

end Received

theorem handleIncomingPublish_of_zero {total : ℕ} {s : Sys W} {view : PacketInfo}
    {publish : PublishInfo} (hview : s.context.packetView total = some view)
    (hpublish : deserializePublish view s.context.properties.client.maxPacketSize
      s.context.properties.client.topicAliasMax = .ok publish)
    (hqos : publish.qos = .atMostOnce) : ∃ state,
    handleIncomingPublish env total s =
      (dispatch env (publishEvent view publish) false >>=
        acknowledge env .atMostOnce (publish.packetId.getD 0) state)
        (updatePublish (publish.packetId.getD 0) .receive .atMostOnce s).2 := by
  have htaken : ∃ answer state,
      updatePublish (publish.packetId.getD 0) .receive .atMostOnce s =
        (.ok answer, (updatePublish (publish.packetId.getD 0) .receive .atMostOnce s).2) ∧
      receivedState answer .atMostOnce = (pure (false, state) : Client W _) := by
    rw [updatePublish]
    cases hr : s.context.records with
    | none => exact ⟨none, .null, by rw [onRecords_none hr], rfl⟩
    | some r => exact ⟨some (.ok .publishDone), .publishDone, by rw [onRecords_some hr]; rfl, rfl⟩
  obtain ⟨answer, state, hanswer, hstate⟩ := htaken
  refine ⟨state, ?_⟩
  rw [handleIncomingPublish, Prog.bind_of_ok (context_apply s), hview, orFail_bind_of_some rfl,
    hpublish, check_bind_of_ok rfl]
  dsimp only
  rw [hqos, Client.refuse, Prog.refuse_bind_of_not (by simp), Prog.bind_of_ok hanswer, hstate]
  rfl

section Accepted

variable {s : Sys W} {event : Event} {publish : PublishInfo} {r : PublishRecords}

theorem publishAccepted_zero_iff (hqos : publish.qos = .atMostOnce) :
    PublishAccepted env s event publish ↔ env.Accepts event false s := by
  constructor
  · intro h
    cases h with
    | atMostOnce _ haccepts => exact haccepts
    | received r state h => exact absurd hqos h
    | repeatedAtLeastOnce r h => cases h.symm.trans hqos
    | repeatedExactlyOnce r h => cases h.symm.trans hqos
  · exact .atMostOnce hqos

theorem not_publishAccepted (hqos : publish.qos ≠ .atMostOnce) (hr : s.context.records = none) :
    ¬ PublishAccepted env s event publish := by
  intro h
  cases h with
  | atMostOnce h => exact hqos h
  | received r state _ h => cases h.symm.trans hr
  | repeatedAtLeastOnce r _ h => cases h.symm.trans hr
  | repeatedExactlyOnce r _ h => cases h.symm.trans hr

theorem publishAccepted_taken_iff {state : PublishState} (hqos : publish.qos ≠ .atMostOnce)
    (hr : s.context.records = some r)
    (hanswer : (r.updatePublish event.packetId .receive publish.qos).1 = .ok state) :
    PublishAccepted env s event publish ↔
      let t := (updatePublish event.packetId .receive publish.qos s).2
      env.Accepts event true t ∧ ReplyGoes env event.packetId state
        (env.reply event true t).1.reasonCode (shown env event true t) := by
  constructor
  · intro h
    cases h with
    | atMostOnce h => exact absurd h hqos
    | received r' state' _ hr' hanswer' t ht haccepts hreply =>
      obtain rfl : r = r' := Option.some.inj (hr.symm.trans hr')
      obtain rfl : state = state' := Except.ok.inj (hanswer.symm.trans hanswer')
      subst ht
      exact ⟨haccepts, hreply⟩
    | repeatedAtLeastOnce r' _ hr' hanswer' =>
      obtain rfl : r = r' := Option.some.inj (hr.symm.trans hr')
      cases hanswer.symm.trans hanswer'
    | repeatedExactlyOnce r' _ hr' hanswer' =>
      obtain rfl : r = r' := Option.some.inj (hr.symm.trans hr')
      cases hanswer.symm.trans hanswer'
  · exact fun h => .received r state hqos hr hanswer _ rfl h.1 h.2

/-- The records had the message already: it is shown again at QoS 1, and only answered at QoS 2. -/
theorem publishAccepted_refused_iff {e : StateError} (hqos : publish.qos ≠ .atMostOnce)
    (hr : s.context.records = some r)
    (hanswer : (r.updatePublish event.packetId .receive publish.qos).1 = .error e) :
    PublishAccepted env s event publish ↔ e = .stateCollision ∧
      let t := (updatePublish event.packetId .receive publish.qos s).2
      (publish.qos = .atLeastOnce → env.Accepts event true t ∧
        ReplyGoes env event.packetId .pubAckSend (env.reply event true t).1.reasonCode
          (shown env event true t)) ∧
      (publish.qos = .exactlyOnce → ReplyGoes env event.packetId .pubRecSend none t) := by
  constructor
  · intro h
    cases h with
    | atMostOnce h => exact absurd h hqos
    | received r' state _ hr' hanswer' =>
      obtain rfl : r = r' := Option.some.inj (hr.symm.trans hr')
      cases hanswer.symm.trans hanswer'
    | repeatedAtLeastOnce r' hq hr' hanswer' t ht haccepts hreply =>
      obtain rfl : r = r' := Option.some.inj (hr.symm.trans hr')
      subst ht
      refine ⟨Except.error.inj (hanswer.symm.trans hanswer'), fun _ => ⟨haccepts, hreply⟩, ?_⟩
      exact fun h => by cases hq.symm.trans h
    | repeatedExactlyOnce r' hq hr' hanswer' hreply =>
      obtain rfl : r = r' := Option.some.inj (hr.symm.trans hr')
      refine ⟨Except.error.inj (hanswer.symm.trans hanswer'), ?_, fun _ => hreply⟩
      exact fun h => by cases hq.symm.trans h
  · rintro ⟨rfl, hshown, hanswered⟩
    cases hq : publish.qos with
    | atMostOnce => exact absurd hq hqos
    | atLeastOnce =>
      obtain ⟨haccepts, hreply⟩ := hshown hq
      exact .repeatedAtLeastOnce r hq hr hanswer _ rfl haccepts hreply
    | exactlyOnce => exact .repeatedExactlyOnce r hq hr hanswer (hanswered hq)

end Accepted

section Handled

variable {total : ℕ} {s : Sys W} {view : PacketInfo} {publish : PublishInfo} {r : PublishRecords}
  (hview : s.context.packetView total = some view)
  (hpublish : deserializePublish view s.context.properties.client.maxPacketSize
    s.context.properties.client.topicAliasMax = .ok publish)

include hview hpublish

theorem finishes_publish_of_zero (hqos : publish.qos = .atMostOnce) :
    (handleIncomingPublish env total).Finishes s ↔
      PublishAccepted env s (publishEvent view publish) publish := by
  obtain ⟨state, hrun⟩ := handleIncomingPublish_of_zero env hview hpublish hqos
  obtain ⟨hworld, hcontext⟩ := onRecords_frame
    (.updatePublish (publish.packetId.getD 0) .receive .atMostOnce)
    (·.updatePublish (publish.packetId.getD 0) .receive .atMostOnce) s
  rw [Prog.finishes_of_eq hrun, finishes_dispatch_acknowledge, publishAccepted_zero_iff env hqos,
    updatePublish, accepts_congr env hworld (by rw [hcontext]) (by rw [hcontext])]
  exact and_iff_left fun h => absurd rfl h

theorem finishes_publish_of_ok {state : PublishState} (hr : s.context.records = some r)
    (hqos : publish.qos ≠ .atMostOnce)
    (hanswer : (r.updatePublish (publish.packetId.getD 0) .receive publish.qos).1 = .ok state) :
    (handleIncomingPublish env total).Finishes s ↔
      PublishAccepted env s (publishEvent view publish) publish := by
  rw [Prog.finishes_of_eq (handleIncomingPublish_of_ok env hview hpublish hr hqos hanswer),
    finishes_dispatch_acknowledge, publishAccepted_taken_iff env hqos hr hanswer]
  exact and_congr_right fun _ => forall_prop_of_true hqos

theorem finishes_publish_of_error {e : StateError} (hr : s.context.records = some r)
    (hqos : publish.qos ≠ .atMostOnce)
    (hanswer : (r.updatePublish (publish.packetId.getD 0) .receive publish.qos).1 = .error e) :
    (handleIncomingPublish env total).Finishes s ↔
      PublishAccepted env s (publishEvent view publish) publish := by
  rw [publishAccepted_refused_iff env hqos hr hanswer]
  by_cases he : e = .stateCollision
  · subst he
    rw [and_iff_right rfl]
    cases hq : publish.qos with
    | atMostOnce => exact absurd hq hqos
    | atLeastOnce =>
      rw [Prog.finishes_of_eq (handleIncomingPublish_of_shown env hview hpublish hr hq hanswer),
        finishes_dispatch_acknowledge, hq]
      exact ⟨fun h => ⟨fun _ => ⟨h.1, h.2 nofun⟩, nofun⟩,
        fun h => ⟨(h.1 rfl).1, fun _ => (h.1 rfl).2⟩⟩
    | exactlyOnce =>
      rw [Prog.finishes_of_eq (handleIncomingPublish_of_again env hview hpublish hr hq hanswer),
        finishes_acknowledge, hq]
      exact ⟨fun h => ⟨nofun, fun _ => h.2 nofun⟩, fun h => ⟨rfl, fun _ => h.2 rfl⟩⟩
  · refine iff_of_false ?_ fun h => he h.1
    rw [Prog.finishes_of_eq (handleIncomingPublish_of_refused env hview hpublish hr hqos hanswer he)]
    exact Prog.finishes_throw _

end Handled

theorem finishes_handleIncomingPublish {total : ℕ} {s : Sys W} :
    (handleIncomingPublish env total).Finishes s ↔
      ∃ view, s.context.packetView total = some view ∧
        ∃ publish, deserializePublish view s.context.properties.client.maxPacketSize
            s.context.properties.client.topicAliasMax = .ok publish ∧
          PublishAccepted env s (publishEvent view publish) publish := by
  have hread : (handleIncomingPublish env total).Finishes s → ∃ view,
      s.context.packetView total = some view ∧ ∃ publish,
        deserializePublish view s.context.properties.client.maxPacketSize
          s.context.properties.client.topicAliasMax = .ok publish ∧
            ¬ (s.context.records = none ∧ publish.qos ≠ .atMostOnce) := by
    intro h
    rw [handleIncomingPublish, finishes_context_bind, finishes_orFail_bind] at h
    obtain ⟨view, hview, h⟩ := h
    rw [finishes_check_bind] at h
    obtain ⟨publish, hpublish, h⟩ := h
    dsimp only at h
    rw [Client.refuse, Prog.finishes_refuse_bind] at h
    exact ⟨view, hview, publish, hpublish, h.1⟩
  have hiff {view : PacketInfo} {publish : PublishInfo}
      (hview : s.context.packetView total = some view)
      (hpublish : deserializePublish view s.context.properties.client.maxPacketSize
        s.context.properties.client.topicAliasMax = .ok publish)
      (hkept : ¬ (s.context.records = none ∧ publish.qos ≠ .atMostOnce)) :
      (handleIncomingPublish env total).Finishes s ↔
        PublishAccepted env s (publishEvent view publish) publish := by
    by_cases hqos : publish.qos = .atMostOnce
    · exact finishes_publish_of_zero env hview hpublish hqos
    obtain ⟨r, hr⟩ := Option.ne_none_iff_exists'.mp fun h => hkept ⟨h, hqos⟩
    cases hanswer : (r.updatePublish (publish.packetId.getD 0) .receive publish.qos).1 with
    | ok state => exact finishes_publish_of_ok env hview hpublish hr hqos hanswer
    | error e => exact finishes_publish_of_error env hview hpublish hr hqos hanswer
  constructor
  · intro h
    obtain ⟨view, hview, publish, hpublish, hkept⟩ := hread h
    exact ⟨view, hview, publish, hpublish, (hiff hview hpublish hkept).mp h⟩
  · rintro ⟨view, hview, publish, hpublish, h⟩
    refine (hiff hview hpublish ?_).mpr h
    rintro ⟨hnone, hqos⟩
    exact not_publishAccepted env hqos hnone h

theorem finishes_notice {shows : Bool} {event : AckInfo → Event} {view : PacketInfo} {s : Sys W}
    (unseen : Client W Unit) (hunseen : unseen.Finishes s) :
    (check .ofParse (deserializeAck view s.context.limits) >>= fun info =>
      if shows = true then dispatch env (event info) false >>= fun answer =>
        refuse (!answer.1) .eventCallbackFailed
      else unseen : Client W Unit).Finishes s ↔ NoticeAccepted env shows event view s := by
  rw [finishes_check_bind, NoticeAccepted]
  refine exists_congr fun info => and_congr_right fun _ => ?_
  rw [Prog.finishes_ite, finishes_dispatch_refuse]
  cases shows <;> simp [hunseen]

theorem finishes_handlePingresp {total : ℕ} {manageKeepAlive : Bool} {s : Sys W} :
    (handlePingresp env total manageKeepAlive).Finishes s ↔
      ∃ view, s.context.packetView total = some view ∧ NoticeAccepted env (!manageKeepAlive)
        (fun info => { ackEvent view info with reasonCodes := [], properties := [] }) view s := by
  rw [handlePingresp, finishes_context_bind, finishes_orFail_bind]
  refine exists_congr fun view => and_congr_right fun _ => ?_
  rw [← finishes_notice env (update fun c => { c with waitingForPingResp := false })
    (Prog.finishes_modify _)]
  cases manageKeepAlive <;> exact Iff.rfl

theorem finishes_handleSubUnsubAck {total : ℕ} {s : Sys W} :
    (handleSubUnsubAck env total).Finishes s ↔
      ∃ view, s.context.packetView total = some view ∧
        NoticeAccepted env true (ackEvent view) view s := by
  rw [handleSubUnsubAck, finishes_context_bind, finishes_orFail_bind]
  refine exists_congr fun view => and_congr_right fun _ => ?_
  rw [← finishes_notice env (pure ()) (Prog.finishes_pure ())]
  exact Iff.rfl

theorem finishes_attempt_bind {p : Client W Unit} {g : MqttContext → MqttContext} {s : Sys W} :
    (attempt p >>= fun status => update g >>= fun _ => check id status).Finishes s ↔
      p.Finishes s := by
  rw [Prog.finishes_bind, Prog.Finishes, attempt]
  rcases p s with ⟨(_ | _) | _, t⟩
  · simp [finishes_update_bind, check, Except.mapError]
  · simp
  · simp [finishes_update_bind, check, Except.mapError]

theorem finishes_handleIncomingDisconnect {total : ℕ} {s : Sys W} :
    (handleIncomingDisconnect env total).Finishes s ↔
      ∃ view, s.context.packetView total = some view ∧ DisconnectAccepted env view s := by
  rw [handleIncomingDisconnect, finishes_context_bind, finishes_orFail_bind]
  refine exists_congr fun view => and_congr_right fun _ => ?_
  rw [finishes_attempt_bind, answerDisconnect, DisconnectAccepted]
  cases deserializeDisconnect view s.context.properties.client.maxPacketSize with
  | error e => simp [Prog.finishes_bind, fail]
  | ok incoming =>
    refine Iff.trans (finishes_dispatch_refuse env) ?_
    simp

theorem finishes_handlePacket (total : ℕ) (manageKeepAlive : Bool) (s : Sys W) :
    (handlePacket env total manageKeepAlive).Finishes s ↔
      ∃ packetType, s.context.network.head? = some packetType ∧
        ∃ view, s.context.packetView total = some view ∧
          PacketAccepted env manageKeepAlive packetType view s := by
  rw [handlePacket, finishes_context_bind, finishes_orFail_bind]
  refine exists_congr fun packetType => and_congr_right fun _ => ?_
  unfold PacketAccepted
  rw [Prog.finishes_ite, Prog.finishes_ite, handleIncomingAck, Prog.finishes_ite, Prog.finishes_ite,
    Prog.finishes_ite, finishes_handleIncomingPublish, finishes_handleIncomingDisconnect,
    finishes_handlePublishAcks, finishes_handlePingresp, finishes_handleSubUnsubAck]
  split_ifs with hpublish hdisconnect hack hping hsub
  · rfl
  · rfl
  · rfl
  · rfl
  · simp [hsub]
  · simp [hsub, fail]

end Client

end RtosMqtt
