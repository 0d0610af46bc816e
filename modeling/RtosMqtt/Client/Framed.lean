import RtosMqtt.Client.Assembly
import RtosMqtt.Client.Belonging
import RtosMqtt.Client.Calls
import RtosMqtt.Client.Fragments
import RtosMqtt.Client.Gathers
import RtosMqtt.Client.Scripted
import RtosMqtt.Client.Vectors
import RtosMqtt.Wire.Whole

/-! # The outgoing stream is cut into packets

Every sender offers a whole packet, and a call that stops inside one answers that the send failed.
As long as no call does, what the transport took is whole packets, one after the other.
-/

namespace RtosMqtt

variable {W α β : Type}

/-- A caller's side that returns only whole packets as long as it was given only whole packets to
keep; `P` says that it was. -/
structure KeepsPackets (env : Environment W) (P : W → Prop) : Prop where
  clock : ∀ w, P w → P (env.nowMs w).2
  recv : ∀ into w, P w → P (env.recv into w).2
  send : ∀ bytes w, P w → P (env.send bytes w).2
  writev : ∀ parts w, P w → P (env.writev parts w).2
  store : ∀ key parts w, IsPacket parts.flatten → P w → P (env.store key parts w).2
  retrieve : ∀ key w, P w → P (env.retrieve key w).2
  returned : ∀ key w packet, P w → (env.retrieve key w).1 = some packet → IsPacket packet
  clear : ∀ key w, P w → P (env.clear key w)
  event : ∀ e reply w, P w → P (env.onEvent e reply w).2

/-- The run stopped where a packet may be half out. -/
def CutShort (r : Except Stop α) : Prop := r = .error .blocked ∨ r = .error (.error .sendFailed)

/-- Whole packets went out, or the run was cut short inside one. -/
structure FramedRun (P : W → Prop) (s : Sys W) (run : Except Stop α × Sys W) : Prop where
  kept : P run.2.world
  log : ∃ more, run.2.log = s.log ++ more ∧
    (Packets IsPacket (wire more) ∨ Interrupted IsPacket (wire more) ∧ CutShort run.1)

def Framed (P : W → Prop) (p : Client W α) : Prop := ∀ s, P s.world → FramedRun P s (p s)

structure Hushed (P : W → Prop) (s t : Sys W) : Prop where
  mute : Mute s t
  kept : Holding P s t

instance (P : W → Prop) : IsPreorder (Sys W) (Hushed P) where
  refl s := ⟨refl_of Mute s, refl_of (Holding P) s⟩
  trans _ _ _ h h' := ⟨trans_of Mute h.mute h'.mute, trans_of (Holding P) h.kept h'.kept⟩

section Run

variable {P : W → Prop} {s t : Sys W} {p : Client W α} {f : α → Client W β}

theorem Hushed.framed {r : Except Stop α} (h : Hushed P s t) (hs : P s.world) :
    FramedRun P s (r, t) := by
  obtain ⟨more, hlog, hmute⟩ := h.mute
  refine ⟨h.kept hs, more, hlog, .inl ?_⟩
  rw [wire_of_mute hmute]
  exact .nil

theorem FramedRun.after {run : Except Stop α × Sys W} (h : FramedRun P t run) (hst : Hushed P s t) :
    FramedRun P s run := by
  obtain ⟨hkept, more', hlog', hwire⟩ := h
  obtain ⟨more, hlog, hmute⟩ := hst.mute
  refine ⟨hkept, more ++ more', ?_, ?_⟩
  · rw [hlog', hlog, List.append_assoc]
  · rw [wire_append, wire_of_mute hmute]
    exact hwire

theorem framed_of_hushed (h : p.Moves (Hushed P)) : Framed P p := fun s hs => (h s).framed hs

theorem FramedRun.bind (hp : FramedRun P s (p s))
    (hf : ∀ a t, p s = (.ok a, t) → P t.world → FramedRun P t (f a t)) :
    FramedRun P s ((p >>= f) s) := by
  obtain ⟨hkept, more, hlog, hwire⟩ := hp
  rcases h : p s with ⟨e | a, t⟩
  · rw [h] at hkept hlog hwire
    rw [Prog.bind_of_error h]
    refine ⟨hkept, more, hlog, hwire.imp_right ?_⟩
    rintro ⟨hpart, hcut | hcut⟩
    · exact ⟨hpart, .inl (congrArg _ (Except.error.inj hcut))⟩
    · exact ⟨hpart, .inr (congrArg _ (Except.error.inj hcut))⟩
  · rw [h] at hkept hlog hwire
    have hwhole : Packets IsPacket (wire more) := by
      rcases hwire with hwhole | ⟨-, hcut | hcut⟩
      · exact hwhole
      · cases hcut
      · cases hcut
    rw [Prog.bind_of_ok h]
    obtain ⟨hkept', more', hlog', hwire'⟩ := hf a t h hkept
    refine ⟨hkept', more ++ more', ?_, ?_⟩
    · rw [hlog', hlog, List.append_assoc]
    · rw [wire_append]
      exact hwire'.imp hwhole.append fun h => ⟨h.1.after hwhole, h.2⟩

theorem Framed.bind (hp : Framed P p) (hf : ∀ a, Framed P (f a)) : Framed P (p >>= f) :=
  fun s hs => (hp s hs).bind fun a t _ ht => hf a t ht

theorem Framed.pure (a : α) : Framed P (Pure.pure a : Client W α) :=
  framed_of_hushed (Prog.Moves.pure a)

theorem Framed.ite {c : Prop} [Decidable c] {q : Client W α} (hp : Framed P p) (hq : Framed P q) :
    Framed P (if c then p else q) := by
  split_ifs
  · exact hp
  · exact hq

theorem Framed.when {c : Prop} [Decidable c] {p : Client W Unit} (hp : Framed P p) :
    Framed P (Prog.when c p) := .ite hp (.pure ())

theorem framed_bind_of {p : Client W α} (hp : Framed P p)
    (hf : ∀ s a t, p s = (.ok a, t) → P t.world → FramedRun P t (f a t)) : Framed P (p >>= f) :=
  fun s hs => (hp s hs).bind fun a t h ht => hf s a t h ht

end Run

namespace Client

section Parts

variable {P : W → Prop} {s : Sys W} {p : Client W α}

theorem Checks.framed_bind {c : Client W α} {f : α → Client W β} (hc : Checks c) (hs : P s.world)
    (hf : ∀ a, c s = (.ok a, s) → FramedRun P s (f a s)) : FramedRun P s ((c >>= f) s) := by
  refine FramedRun.bind ((hc.moves s : Hushed P s _).framed hs) ?_
  intro a t h _
  obtain rfl := hc.same h
  exact hf a h

/-- A failed send that was caught is answered in the end. -/
theorem framed_attempt {f : Except ClientError α → Client W β} (hp : Framed P p)
    (hf : ∀ r, Framed P (f r)) (hmoves : (f (.error .sendFailed)).Moves (Hushed P))
    (hcut : ∀ t, (f (.error .sendFailed) t).1 = .error (.error .sendFailed)) :
    Framed P (attempt p >>= f) := by
  intro s hs
  obtain ⟨hkept, more, hlog, hwire⟩ := hp s hs
  rcases hrun : p s with ⟨(e | _) | a, t⟩
  · rw [hrun] at hkept hlog hwire
    have hcaught : attempt p s = (.ok (.error e), t) := by rw [attempt, hrun]
    rw [Prog.bind_of_ok hcaught]
    rcases hwire with hwhole | ⟨hpart, hshort⟩
    · obtain ⟨hkept', more', hlog', hwire'⟩ := hf (.error e) t hkept
      refine ⟨hkept', more ++ more', ?_, ?_⟩
      · rw [hlog', hlog, List.append_assoc]
      · rw [wire_append]
        exact hwire'.imp hwhole.append fun h => ⟨h.1.after hwhole, h.2⟩
    · obtain rfl : e = .sendFailed := by
        rcases hshort with h | h
        · cases h
        · exact Stop.error.inj (Except.error.inj h)
      obtain ⟨⟨more', hlog', hmute⟩, hkept'⟩ := hmoves t
      refine ⟨hkept' hkept, more ++ more', ?_, .inr ⟨?_, .inr (hcut t)⟩⟩
      · rw [hlog', hlog, List.append_assoc]
      · rw [wire_append, wire_of_mute hmute, List.append_nil]
        exact hpart
  · rw [hrun] at hkept hlog hwire
    have hcaught : attempt p s = (.error .blocked, t) := by rw [attempt, hrun]
    rw [Prog.bind_of_error hcaught]
    exact ⟨hkept, more, hlog, hwire.imp_right fun h => ⟨h.1, .inl rfl⟩⟩
  · rw [hrun] at hkept hlog hwire
    have hcaught : attempt p s = (.ok (.ok a), t) := by rw [attempt, hrun]
    rw [Prog.bind_of_ok hcaught]
    have hwhole : Packets IsPacket (wire more) := by
      rcases hwire with hwhole | ⟨-, hshort | hshort⟩
      · exact hwhole
      · cases hshort
      · cases hshort
    obtain ⟨hkept', more', hlog', hwire'⟩ := hf (.ok a) t hkept
    refine ⟨hkept', more ++ more', ?_, ?_⟩
    · rw [hlog', hlog, List.append_assoc]
    · rw [wire_append]
      exact hwire'.imp hwhole.append fun h => ⟨h.1.after hwhole, h.2⟩

theorem update_hushed (g : MqttContext → MqttContext) :
    (update g : Client W Unit).Moves (Hushed P) := fun _ => ⟨.same rfl, id⟩

theorem onRecords_hushed (call : Call) (g : PublishRecords → Except StateError α × PublishRecords) :
    (onRecords call g : Client W _).Moves (Hushed P) := by
  intro s
  refine ⟨onRecords_mute call g s, fun hs => ?_⟩
  rw [(onRecords_frame call g s).1]
  exact hs

theorem ackSent_hushed (packetId : UInt16) (ack : AckType) :
    (ackSent packetId ack : Client W Unit).Moves (Hushed P) :=
  (update_hushed _).bind fun _ => (onRecords_hushed _ _).bind fun _ => (accepted_moves _).bind
    fun _ => .pure _

end Parts

/-- A sender has a first part of its packet taken, and says how long that part is. -/
structure Offering (P : W → Prop) (packet : List UInt8) (sender : Client W SendOutcome) : Prop where
  took : ∀ s, Took packet 0 s (sender s)
  stops : ∀ s e, (sender s).1 = .error e → e = .blocked
  kept : sender.Moves (Holding P)

section Offering

variable {P : W → Prop} {packet : List UInt8} {s : Sys W} {sender : Client W SendOutcome}

theorem Offering.run (h : Offering P packet sender) (hs : P s.world) :
    P (sender s).2.world ∧ ∃ more, (sender s).2.log = s.log ++ more ∧
      ((sender s).1 = .ok (.sent packet.length) ∧ wire more = packet ∨
        (sender s).1 ≠ .ok (.sent packet.length) ∧ wire more <+: packet) := by
  refine ⟨h.kept s hs, ?_⟩
  obtain ⟨n, -, -, ⟨more, hlog, -, hwire⟩, hsent⟩ := h.took s
  refine ⟨more, hlog, ?_⟩
  rw [List.drop_zero] at hwire
  by_cases hwhole : (sender s).1 = .ok (.sent packet.length)
  · left
    rw [← hsent _ hwhole, List.take_length] at hwire
    exact ⟨hwhole, hwire⟩
  · right
    rw [hwire]
    exact ⟨hwhole, List.take_prefix _ _⟩

theorem Offering.error (h : Offering P packet sender) {t : Sys W} {e : Stop}
    (hrun : sender s = (.error e, t)) : e = .blocked := h.stops s e (by rw [hrun])

theorem Offering.framed (h : Offering P packet sender) (hpacket : IsPacket packet)
    {f : Unit → Client W Unit} (hf : Framed P (f ())) {total : ℕ} (htotal : packet.length = total) :
    Framed P (sender >>= fun outcome => sentWhole total outcome >>= f) := by
  subst htotal
  intro s hs
  obtain ⟨hkept, more, hlog, hwire⟩ := h.run hs
  rcases hrun : sender s with ⟨e | outcome, t⟩
  · rw [hrun] at hkept hlog hwire
    rw [Prog.bind_of_error hrun, h.error hrun]
    refine ⟨hkept, more, hlog, .inr ⟨?_, .inl rfl⟩⟩
    rcases hwire with ⟨hsent, -⟩ | ⟨-, hpart⟩
    · cases hsent
    · exact .begun hpacket hpart
  · rw [hrun] at hkept hlog hwire
    rw [Prog.bind_of_ok hrun, sentWhole, Client.refuse, Prog.refuse_bind_apply]
    rcases hwire with ⟨hsent, hwhole⟩ | ⟨hshort, hpart⟩
    · rw [if_neg (not_not.mpr (Except.ok.inj hsent))]
      obtain ⟨hkept', more', hlog', hwire'⟩ := hf t hkept
      have hone : Packets IsPacket (wire more) := by
        rw [hwhole]
        exact .one hpacket
      refine ⟨hkept', more ++ more', ?_, ?_⟩
      · rw [hlog', hlog, List.append_assoc]
      · rw [wire_append]
        exact hwire'.imp hone.append fun h => ⟨h.1.after hone, h.2⟩
    · rw [if_pos fun hsent => hshort (congrArg _ hsent)]
      exact ⟨hkept, more, hlog, .inr ⟨.begun hpacket hpart, .inr rfl⟩⟩

theorem Offering.framed_last (h : Offering P packet sender) (hpacket : IsPacket packet) {total : ℕ}
    (htotal : packet.length = total) : Framed P (sender >>= sentWhole total) := by
  have hlast := h.framed hpacket (f := Pure.pure) (.pure ()) htotal
  simp only [Prog.bind_pure] at hlast
  exact hlast

end Offering

section Sides

variable {env : Environment W} {P : W → Prop} (h : KeepsPackets env P) {packet : List UInt8}

include h

theorem nowMs_hushed : (nowMs env).Moves (Hushed P) := fun s => ⟨nowMs_mute s, h.clock s.world⟩

theorem recv_hushed (into : List UInt8) : (recv env into).Moves (Hushed P) :=
  fun s => ⟨recv_mute into s, h.recv into s.world⟩

theorem clear_hushed (key : UInt32) : (clear env key).Moves (Hushed P) :=
  fun s => ⟨clear_mute key s, h.clear key s.world⟩

theorem retrieve_hushed (key : UInt32) : (retrieve env key).Moves (Hushed P) :=
  fun s => ⟨.one rfl rfl, h.retrieve key s.world⟩

theorem dispatch_hushed (e : Event) (wantsReply : Bool) :
    (dispatch env e wantsReply).Moves (Hushed P) :=
  fun s => ⟨dispatch_mute e wantsReply s, h.event e _ s.world⟩

theorem keep_hushed (key : UInt32) {parts : List (List UInt8)} (hparts : IsPacket parts.flatten) :
    (keep env key parts).Moves (Hushed P) := by
  have hstore : (store env key parts).Moves (Hushed P) :=
    fun s => ⟨store_mute key parts s, h.store key parts s.world hparts⟩
  exact .ite (hstore.bind fun _ => refuse_moves _ _) (.pure _)

theorem keepAck_hushed (packetType : UInt8) (packetId : UInt16) {parts : List (List UInt8)}
    (hparts : IsPacket parts.flatten) :
    (keepAck env packetType packetId parts).Moves (Hushed P) := .when (keep_hushed h _ hparts)

theorem reads_hushed : Reads env (Hushed P) :=
  ⟨nowMs_hushed h, recv_hushed h, fun _ => update_hushed _, update_hushed _⟩

theorem passes_holding : Passes env (Holding P) :=
  ⟨fun s => h.clock s.world, fun _ _ => id, fun _ => id⟩

theorem sendBuffer_holding (buffer : List UInt8) : (sendBuffer env buffer).Moves (Holding P) :=
  sendBuffer_moves (passes_holding h) fun _ s => h.send _ s.world

theorem sendVectors_holding (vectors : List (List UInt8)) :
    (sendVectors env vectors).Moves (Holding P) :=
  sendVectors_moves (passes_holding h) fun parts _ s => h.writev parts s.world

theorem offering_buffer (buffer : List UInt8) : Offering P buffer (sendBuffer env buffer) where
  took := sendBuffer_took env buffer
  stops _ _ := sendBuffer_stops
  kept := sendBuffer_holding h buffer

theorem offering_vectors (vectors : List (List UInt8)) :
    Offering P vectors.flatten (sendVectors env vectors) where
  took := sendVectors_took env vectors
  stops _ _ := sendVectors_stops
  kept := sendVectors_holding h vectors

theorem ping_framed : Framed P (ping env) := by
  have hpingreq : serializePingreq (List.replicate 2 0) = (.ok 2, pingreqPacket) := rfl
  intro s hs
  rw [ping, hpingreq]
  refine checks_connected.framed_bind hs fun _ _ => ?_
  exact (offering_buffer h pingreqPacket).framed isPacket_pingreq
    (framed_of_hushed (update_hushed _)) rfl s hs

theorem disconnect_framed (reasonCode : Option UInt8) (properties : List UInt8) :
    Framed P (disconnect env reasonCode properties) := by
  intro s hs
  rcases disconnect_cases env reasonCode properties s with ⟨-, e, he⟩ | ⟨size, -, hsize, hrun⟩
  · rw [he]
    exact (refl_of (Hushed P) s).framed hs
  · have hpacket := isPacket_disconnect hsize
    rw [← flatten_disconnectParts] at hpacket
    rw [hrun]
    have hclosed : Hushed P s (disconnected s) := ⟨.same rfl, id⟩
    exact ((offering_vectors h _).framed_last hpacket rfl (disconnected s) hs).after hclosed

theorem sendPublishAcksWithoutProperty_framed (packetId : UInt16) (state : PublishState) :
    Framed P (sendPublishAcksWithoutProperty env packetId state) := by
  unfold sendPublishAcksWithoutProperty
  cases hack : ackFromPacketType (ackTypeToSend state) with
  | none => exact .pure ()
  | some ack =>
  have hkind := isPublishAck_of_ackFromPacketType hack
  have hpacket : IsPacket (ackPacket (ackTypeToSend state) packetId []) :=
    isPacket_ackPacket packetId hkind (by decide)
  intro s hs
  apply (checks_check _ _).framed_bind hs
  intro written hwritten
  obtain ⟨rfl, hbytes⟩ := serializeAck_bare_eq_ok hkind (check_eq_ok.mp hwritten).1
  have hbare : (ackPacket (ackTypeToSend state) packetId []).take 4 =
      ackPacket (ackTypeToSend state) packetId [] := List.take_of_length_le (by rfl)
  rw [hbytes, hbare]
  have hkeep := keepAck_hushed h (ackTypeToSend state) packetId
    (show IsPacket [ackPacket (ackTypeToSend state) packetId []].flatten by
      rwa [List.flatten_singleton])
  exact checks_context.framed_bind hs fun c _ => (checks_refuse _ _).framed_bind hs fun _ _ =>
    checks_connected.framed_bind hs fun _ _ => (framed_of_hushed hkeep).bind (fun _ =>
      (offering_buffer h _).framed hpacket (framed_of_hushed (ackSent_hushed _ _)) rfl) s hs

theorem buildAndSendAckWithProps_framed {packetType : UInt8} (packetId : UInt16)
    (reasonCode : UInt8) {remainingLength propertyLength : ℕ} {properties : List UInt8} {s : Sys W}
    (hkind : isPublishAck packetType = true) (hlength : propertyLength ≤ maxRemainingLength)
    (hremaining : remainingLength ≤ maxRemainingLength)
    (htotal : remainingLength = 3 + variableLengthEncodedSize propertyLength + propertyLength)
    (hslice : slice? s.context.ackProperties 0 propertyLength = some properties)
    (hs : P s.world) :
    FramedRun P s (buildAndSendAckWithProps env packetType packetId reasonCode remainingLength
      propertyLength s) := by
  obtain ⟨hheadSize, hhead⟩ := serializeAckFixed_spec packetType packetId hremaining reasonCode
  obtain ⟨hprefixSize, hdigits⟩ := encodeVariableLength_spec hlength
  have hproperties : properties.length = propertyLength := length_of_slice? hslice
  obtain ⟨hrest, hpacket⟩ := flatten_ackParts packetType packetId reasonCode hlength htotal
    hproperties
  have hwhole : IsPacket (ackPacket packetType packetId
      ([reasonCode] ++ encodedLength propertyLength ++ properties)) :=
    isPacket_ackPacket packetId hkind (by rwa [hrest])
  rw [← hpacket] at hwhole
  rw [buildAndSendAckWithProps]
  simp only [hhead, hdigits, hheadSize, hprefixSize]
  apply (checks_refuse _ _).framed_bind hs
  intro _ _
  have hemptied : (Prog.when (propertyLength > 0)
      (update fun c => { c with ackUsed := 0 }) : Client W Unit).Moves (Hushed P) :=
    .when (update_hushed _)
  refine ((hemptied s).framed hs).bind ?_
  intro _ u hu hkept
  have hsame : u.context.ackProperties = s.context.ackProperties := by
    unfold Prog.when at hu
    split_ifs at hu <;> obtain ⟨-, rfl⟩ := Prod.mk.inj hu <;> rfl
  apply (checks_refuse _ _).framed_bind hkept
  intro _ _
  rw [Prog.bind_of_ok (context_apply u), hsame, hslice, orFail_bind_of_some rfl]
  refine (framed_of_hushed (keepAck_hushed h packetType packetId hwhole)).bind ?_ u hkept
  intro _
  refine (offering_vectors h _).framed_last hwhole ?_
  have htwo : (toBeBytes16 packetId).length = 2 := rfl
  rw [hpacket, ackPacket, hrest]
  simp only [List.length_append, List.length_cons, List.length_nil, hproperties, htwo,
    length_encodedLength hlength, length_encodedLength hremaining]
  omega

theorem sendPublishAcksWithProperty_framed (packetId : UInt16) (state : PublishState)
    (reasonCode : Option UInt8) {s : Sys W} (hs : P s.world) :
    FramedRun P s (sendPublishAcksWithProperty env packetId state
      { reasonCode, propertyLength := s.context.ackUsed } s) := by
  rw [sendPublishAcksWithProperty, Prog.bind_of_ok (context_apply s)]
  apply (Checks.when (checks_check _ _)).framed_bind hs
  intro _ hchecked
  apply checks_connected.framed_bind hs
  intro _ _
  cases hack : ackFromPacketType (ackTypeToSend state) with
  | none => exact (refl_of (Hushed P) s).framed hs
  | some ack =>
  have howed : ackTypeToSend state ≠ 0 := by
    intro hzero
    rw [hzero] at hack
    cases hack
  rw [Prog.when, if_pos howed] at hchecked
  obtain ⟨hslice, -⟩ := slice?_of_checkReply (check_eq_ok.mp hchecked).1
  apply (checks_check _ _).framed_bind hs
  intro size hsize
  obtain ⟨hsize, -⟩ := check_eq_ok.mp hsize
  obtain ⟨hlength, hremaining, htotal⟩ := ackPacketSize_eq_ok hsize
  refine (buildAndSendAckWithProps_framed h packetId _ (isPublishAck_of_ackFromPacketType hack)
    hlength hremaining htotal hslice hs).bind ?_
  intro _ t _ ht
  exact (ackSent_hushed packetId ack t).framed ht

theorem replyWith_framed (packetId : UInt16) (state : PublishState) (reasonCode : Option UInt8) :
    Framed P (replyWith env packetId state reasonCode) := by
  intro s hs
  rw [replyWith, Prog.bind_of_ok (context_apply s), sendAckFor]
  split_ifs
  · exact sendPublishAcksWithoutProperty_framed h packetId state s hs
  · exact sendPublishAcksWithProperty_framed h packetId state reasonCode hs

omit h in
theorem isPacket_publishPacket {publish : OutgoingPublish} {maxPacketSize : ℕ} {size : PacketSize}
    (hsize : publishPacketSize publish maxPacketSize = .ok size) (packetId : UInt16) :
    IsPacket (publishPacket publish packetId) := by
  obtain ⟨hfits, -, rfl⟩ := publishPacketSize_eq_ok_iff.mp hsize
  have hpacket := isPacket_publish packetId (publishFlags_nibble publish) hsize
  rw [publishHead, Nat.min_eq_left hfits.topic] at hpacket
  simpa [publishPacket, publishBody, prefixed, sized] using hpacket

theorem publish_framed (message : OutgoingPublish) (packetId : UInt16) :
    Framed P (publish env message packetId) := by
  have hrecords : (Prog.when (message.qos ≠ .atMostOnce) (reservePublish message packetId) :
      Client W Unit).Moves (Hushed P) :=
    .when ((onRecords_hushed _ _).bind fun _ => .when ((accepted_moves _).bind fun _ => .pure _))
  have hsent : (Prog.when (message.qos ≠ .atMostOnce) (do
      let answer ← updatePublish packetId .send message.qos
      let _ ← accepted answer
      pure ()) : Client W Unit).Moves (Hushed P) :=
    .when ((onRecords_hushed _ _).bind fun _ => (accepted_moves _).bind fun _ => .pure _)
  intro s hs
  rw [publish_eq]
  cases hcheck : checkPublish s.context message packetId with
  | error e =>
    have hrefused : preparePublish env message packetId s = (.error (.error e), s) := by
      rw [preparePublish_apply, hcheck]
    rw [Prog.bind_of_error hrefused]
    exact (refl_of (Hushed P) s).framed hs
  | ok size =>
  have hsize := (checkPublish_eq_ok hcheck).1
  obtain ⟨hfits, -, -⟩ := publishPacketSize_eq_ok_iff.mp hsize
  have hdup : OutgoingPublish.Fits { message with dup := true } := ⟨hfits.topic, hfits.length⟩
  have hkept : IsPacket (partsOf { message with dup := true } packetId).flatten := by
    rw [flatten_partsOf hdup]
    exact @isPacket_publishPacket { message with dup := true } _ _ hsize packetId
  have hpacket : IsPacket (partsOf message packetId).flatten := by
    rw [flatten_partsOf hfits]
    exact isPacket_publishPacket hsize packetId
  have hregister : (registerPublish env message packetId).Moves (Hushed P) :=
    hrecords.bind fun _ => (Prog.Moves.when (keep_hushed h _ hkept)).bind fun _ => .pure _
  have hprepare : preparePublish env message packetId s =
      registerPublish env message packetId s := by rw [preparePublish_apply, hcheck]
  rw [Prog.bind_apply, hprepare, ← Prog.bind_apply]
  refine ((hregister s).framed hs).bind ?_
  intro parts t hparts ht
  obtain rfl := registerPublish_eq_ok hparts
  exact (offering_vectors h _).framed hpacket (framed_of_hushed hsent) rfl t ht

/-- Gathers that are parts of one packet: all of it goes out, or the send fails inside it. -/
theorem sendGathers_run {gathers : List Gather} {s : Sys W}
    (htotal : ∀ g ∈ gathers, g.total = g.parts.flatten.length) (hs : P s.world) :
    P (sendGathers env gathers s).2.world ∧
      ∃ more, (sendGathers env gathers s).2.log = s.log ++ more ∧
        (wire more = (gathers.flatMap (·.parts)).flatten ∨
          wire more <+: (gathers.flatMap (·.parts)).flatten ∧
            CutShort (sendGathers env gathers s).1) := by
  induction gathers generalizing s with
  | nil => exact ⟨hs, [], (List.append_nil _).symm, .inl rfl⟩
  | cons g gathers ih =>
    have hoffer := offering_vectors h g.parts
    obtain ⟨hkept, more, hlog, hwire⟩ := hoffer.run hs
    rw [List.flatMap_cons, List.flatten_append, sendGathers, htotal g List.mem_cons_self]
    have hpart (hshort : wire more <+: g.parts.flatten) :
        wire more <+: g.parts.flatten ++ (gathers.flatMap (·.parts)).flatten :=
      hshort.trans (List.prefix_append _ _)
    rcases hrun : sendVectors env g.parts s with ⟨e | outcome, t⟩
    · rw [hrun] at hkept hlog hwire
      rw [Prog.bind_of_error hrun, hoffer.error hrun]
      refine ⟨hkept, more, hlog, .inr ⟨hpart ?_, .inl rfl⟩⟩
      rcases hwire with ⟨hsent, -⟩ | ⟨-, hshort⟩
      · cases hsent
      · exact hshort
    · rw [hrun] at hkept hlog hwire
      rw [Prog.bind_of_ok hrun, sentWhole, Client.refuse, Prog.refuse_bind_apply]
      rcases hwire with ⟨hsent, hwhole⟩ | ⟨hshort, hfront⟩
      · rw [if_neg (not_not.mpr (Except.ok.inj hsent))]
        obtain ⟨hkept', more', hlog', hrest⟩ :=
          ih (fun g' hg' => htotal g' (List.mem_cons_of_mem _ hg')) hkept
        refine ⟨hkept', more ++ more', by rw [hlog', hlog, List.append_assoc], ?_⟩
        rw [wire_append, hwhole]
        refine hrest.imp (congrArg _) fun hcut => ⟨?_, hcut.2⟩
        exact (List.prefix_append_right_inj _).mpr hcut.1
      · rw [if_pos fun hsent => hshort (congrArg _ hsent)]
        exact ⟨hkept, more, hlog, .inr ⟨hpart hfront, .inr rfl⟩⟩

theorem sendList_framed (list : List Subscription) (packetId : UInt16) (properties : List UInt8)
    (which : SubscriptionType) : Framed P (sendList env list packetId properties which) := by
  intro s hs
  rcases @sendList_gathered W env list packetId properties which s with
    ⟨e, he⟩ | ⟨size, gathers, hsize, hgathered, hrun⟩
  · rw [he]
    exact (refl_of (Hushed P) s).framed hs
  have htype : listPacketType which ∈ [Packet.subscribe, Packet.unsubscribe] := by
    cases which <;> decide
  have hpacket : IsPacket (listHead (listPacketType which) size.remainingLength packetId ++
      encodedLength properties.length ++ properties ++ list.flatMap (filterBytes which)) :=
    isPacket_list htype hsize (length_flatMap_filterBytes which list)
  rw [List.append_assoc (listHead _ _ _), ← sized, ← flatten_listFront,
    ← hgathered.flatten_eq] at hpacket
  obtain ⟨hkept, more, hlog, hwire⟩ := sendGathers_run h hgathered.total hs
  rw [hrun]
  refine ⟨hkept, more, hlog, ?_⟩
  rcases hwire with hwhole | ⟨hpart, hcut⟩
  · rw [hwhole]
    exact .inl (.one hpacket)
  · exact .inr ⟨.begun hpacket hpart, hcut⟩

theorem acknowledge_framed (qos : QoS) (packetId : UInt16) (state : PublishState)
    (answer : Bool × Option UInt8) : Framed P (acknowledge env qos packetId state answer) :=
  (framed_of_hushed (refuse_moves _ _)).bind fun _ => .when
    ((framed_of_hushed checkSectionLength_moves).bind fun _ => replyWith_framed h _ _ _)

omit h in
theorem receivePublish_hushed (total : ℕ) :
    (receivePublish total : Client W _).Moves (Hushed P) :=
  receivePublish_moves (fun _ _ => onRecords_hushed _ _) total

theorem handleIncomingPublish_framed (total : ℕ) : Framed P (handleIncomingPublish env total) := by
  rw [handleIncomingPublish_eq]
  exact (framed_of_hushed (receivePublish_hushed total)).bind fun p =>
    (framed_of_hushed (.ite (dispatch_hushed h _ _) (.pure _))).bind fun _ =>
      acknowledge_framed h _ _ _ _

theorem receiveAck_hushed (total : ℕ) : (receiveAck env total).Moves (Hushed P) := by
  apply receiveAck_moves
  · exact fun _ _ => onRecords_hushed _ _
  · exact fun key => .ite (clear_hushed h key) (.pure _)

theorem handlePublishAcks_framed (total : ℕ) : Framed P (handlePublishAcks env total) := by
  rw [handlePublishAcks_eq]
  exact (framed_of_hushed (receiveAck_hushed h total)).bind fun p =>
    (framed_of_hushed (dispatch_hushed h _ _)).bind fun _ =>
      (framed_of_hushed (refuse_moves _ _)).bind fun _ =>
        (framed_of_hushed checkSectionLength_moves).bind fun _ => .when (replyWith_framed h _ _ _)

theorem handlePingresp_hushed (total : ℕ) (manageKeepAlive : Bool) :
    (handlePingresp env total manageKeepAlive).Moves (Hushed P) := by
  dsimp only [handlePingresp]
  exact context_moves.bind fun _ => (orFail_moves _ _).bind fun _ => (check_moves _ _).bind fun _ =>
    .ite (update_hushed _) ((dispatch_hushed h _ _).bind fun _ => refuse_moves _ _)

theorem handleSubUnsubAck_hushed (total : ℕ) :
    (handleSubUnsubAck env total).Moves (Hushed P) := by
  dsimp only [handleSubUnsubAck]
  exact context_moves.bind fun _ => (orFail_moves _ _).bind fun _ => (check_moves _ _).bind fun _ =>
    (dispatch_hushed h _ _).bind fun _ => refuse_moves _ _

theorem answerDisconnect_framed (view : PacketInfo) (c : MqttContext) :
    Framed P (answerDisconnect env view c) := by
  unfold answerDisconnect
  split
  · exact (disconnect_framed h _ _).bind fun _ => framed_of_hushed (fail_moves _)
  · exact framed_of_hushed ((dispatch_hushed h _ _).bind fun _ => refuse_moves _ _)

theorem handleIncomingDisconnect_framed (total : ℕ) :
    Framed P (handleIncomingDisconnect env total) := by
  have hrest (status : Except ClientError Unit) : Prog.Moves (Hushed P) (do
      update fun c => { c with connectStatus := .notConnected }
      check id status : Client W Unit) := (update_hushed _).bind fun _ => check_moves _ _
  dsimp only [handleIncomingDisconnect]
  exact (framed_of_hushed context_moves).bind fun _ => (framed_of_hushed (orFail_moves _ _)).bind
    fun _ => framed_attempt (answerDisconnect_framed h _ _)
      (fun status => framed_of_hushed (hrest status)) (hrest _) fun _ => rfl

theorem handlePacket_framed (total : ℕ) (manageKeepAlive : Bool) :
    Framed P (handlePacket env total manageKeepAlive) :=
  (framed_of_hushed context_moves).bind fun _ => (framed_of_hushed (orFail_moves _ _)).bind fun _ =>
    .ite (handleIncomingPublish_framed h _) (.ite (handleIncomingDisconnect_framed h _)
      (.ite (handlePublishAcks_framed h _) (framed_of_hushed (.ite (handlePingresp_hushed h _ _)
        (.ite (handleSubUnsubAck_hushed h _) (fail_moves _))))))

theorem handleKeepAlive_framed : Framed P (handleKeepAlive env) := by
  dsimp only [handleKeepAlive]
  exact (framed_of_hushed (nowMs_hushed h)).bind fun _ => (framed_of_hushed context_moves).bind
    fun _ => .ite (framed_of_hushed (refuse_moves _ _))
      (.ite (ping_framed h) (.when (ping_framed h)))

omit h in
theorem arrival_hushed (received : Recv) : (arrival received : Client W _).Moves (Hushed P) := by
  refine context_moves.bind fun _ => ?_
  split
  · exact Prog.Moves.bind (update_hushed _) fun _ => .pure _
  · exact .pure _
  · exact .ite (.pure _) ((update_hushed _).bind fun _ => context_moves.bind fun _ => .pure _)

theorem nextPacket_framed (manageKeepAlive : Bool) (received : Recv) :
    Framed P (nextPacket env manageKeepAlive received) := by
  have hrest (status : Except ClientError ℕ) : Prog.Moves (Hushed P) (do
      let total ← check id status
      let c ← context
      refuse (c.network.length < total) .recvFailed
      refuse (c.index < total) .needMoreBytes
      pure total : Client W ℕ) :=
    (check_moves _ _).bind fun _ => context_moves.bind fun _ => (refuse_moves _ _).bind fun _ =>
      (refuse_moves _ _).bind fun _ => .pure _
  refine (framed_of_hushed (arrival_hushed received)).bind fun status => ?_
  unfold keepAliveTurn
  split_ifs
  · rw [Prog.bind_assoc]
    refine framed_attempt (handleKeepAlive_framed h) (fun outcome => ?_)
      (Prog.Moves.bind (.pure _) hrest) fun _ => rfl
    cases outcome with
    | ok _ => exact framed_of_hushed (Prog.Moves.bind (.pure _) hrest)
    | error _ => exact framed_of_hushed (Prog.Moves.bind (.pure _) hrest)
  · exact framed_of_hushed (hrest _)

theorem processPacket_framed (total : ℕ) (manageKeepAlive : Bool) :
    Framed P (processPacket env total manageKeepAlive) :=
  (handlePacket_framed h _ _).bind fun _ => framed_of_hushed ((update_hushed _).bind fun _ =>
    (nowMs_hushed h).bind fun _ => update_hushed _)

theorem turnsFrom_framed (manageKeepAlive : Bool) (turns : ℕ) (received : Recv) :
    Framed P (turnsFrom env manageKeepAlive turns received) := by
  induction turns generalizing received with
  | zero => exact framed_of_hushed (.throw _)
  | succ turns ih =>
    exact (nextPacket_framed h _ _).bind fun _ => (processPacket_framed h _ _).bind fun _ =>
      (framed_of_hushed context_moves).bind fun _ => .ite (.pure _) (ih _)

theorem readIn_hushed : (readIn env).Moves (Hushed P) := by
  refine context_moves.bind fun _ => ?_
  split
  · exact .pure _
  · exact (recv_hushed h _).bind fun _ => (update_hushed _).bind fun _ => .pure _

theorem receiveSingleIteration_framed (manageKeepAlive : Bool) :
    Framed P (receiveSingleIteration env manageKeepAlive) :=
  (framed_of_hushed (readIn_hushed h)).bind fun _ => framed_attempt (turnsFrom_framed h _ _ _)
    (fun _ => framed_of_hushed (check_moves _ _)) (check_moves _ _) fun _ => rfl

omit h in
/-- A CONNECT of a size is written into the session and put together, and then it goes out. -/
theorem sendConnect_eq {connect : Connect} {size : PacketSize}
    (hsize : connectPacketSize connect = .ok size) : ∃ head : List UInt8,
    sendConnect env connect size.remainingLength = (do
      update fun c => { c with properties := { c.properties with
        server := { c.properties.server with keepAlive := connect.info.keepAliveSeconds } } }
      Prog.when (connect.properties ≠ []) (announce connect.properties)
      let v ← pushConnect head connect
      let outcome ← sendVectors env v.parts
      sentWhole v.total outcome) ∧
      ∀ (s : Sys W) v t, pushConnect head connect s = (.ok v, t) →
        v.parts.flatten = connectPacket connect := by
  obtain ⟨⟨-, hfits⟩, hlength, rfl⟩ := connectPacketSize_eq_ok_iff.mp hsize
  have hbody : (connectBody connect).length = connectLength connect := length_connectBody hfits
  have hwidth := variableLengthEncodedSize_le (connectLength connect)
  have hhead := serializeConnectFixedHeader_eq connect.info (connect.will.map Will.info) hlength
    (by rw [List.length_replicate]; omega :
      11 + variableLengthEncodedSize (connectLength connect) ≤
        (List.replicate 15 (0 : UInt8)).length)
  have hstart : (Packet.connect :: encodedLength (connectLength connect) ++
      connectHead connect.info (connect.will.map Will.info)).length =
        11 + variableLengthEncodedSize (connectLength connect) := by
    rw [List.length_append, List.length_cons, length_encodedLength hlength]
    change _ + 1 + 10 = _
    omega
  have hshort := hfits.properties
  rw [maxRemainingLength] at hshort
  refine ⟨Packet.connect :: encodedLength (connectLength connect) ++
    connectHead connect.info (connect.will.map Will.info), ?_, fun s v t hv => ?_⟩
  · rw [sendConnect, trueSize, hhead]
    dsimp only
    rw [List.take_left' hstart, Client.refuse, Prog.refuse_bind_of_not (by omega), Client.refuse,
      Prog.refuse_bind_of_not (by rw [u32Max]; omega), Client.refuse,
      Prog.refuse_bind_of_not (Nat.not_lt.mpr hfits.identifier)]
  · rw [pushConnect_eq_ok hv, List.flatten_cons, flatten_connectParts hfits,
      connectPacket_eq_head, hbody]

theorem sendConnect_framed {connect : Connect} {size : PacketSize}
    (hsize : connectPacketSize connect = .ok size) :
    Framed P (sendConnect env connect size.remainingLength) := by
  obtain ⟨head, hrun, hparts⟩ := sendConnect_eq hsize
  have hannounce : (Prog.when (connect.properties ≠ []) (announce connect.properties) :
      Client W Unit).Moves (Hushed P) := .when fun _ => ⟨.same rfl, id⟩
  rw [hrun]
  refine (framed_of_hushed (update_hushed _)).bind fun _ => (framed_of_hushed hannounce).bind
    fun _ => framed_bind_of (framed_of_hushed (checks_pushConnect _ _).moves) ?_
  intro s v t hv ht
  have hpacket := isPacket_connect hsize
  rw [← hparts s v t hv] at hpacket
  exact (offering_vectors h v.parts).framed_last hpacket v.total_eq.symm t ht

theorem clearAll_hushed (key : UInt16 → UInt32) (ids : List UInt16) :
    (clearAll env key ids).Moves (Hushed P) := by
  induction ids with
  | nil => exact .pure _
  | cons packetId ids ih => exact (clear_hushed h _).bind fun _ => ih

theorem handleCleanSession_hushed : (handleCleanSession env).Moves (Hushed P) := by
  refine (update_hushed _).bind fun _ => context_moves.bind fun c => ?_
  cases c.records with
  | none => exact .pure _
  | some r =>
    exact (Prog.Moves.when (clearAll_hushed h _ _)).bind fun _ =>
      (Prog.Moves.when (clearAll_hushed h _ _)).bind fun _ => update_hushed _

theorem sendPublishAcks_framed (packetId : UInt16) (state : PublishState) :
    Framed P (sendPublishAcks env packetId state) := by
  unfold sendPublishAcks
  cases hack : ackFromPacketType (ackTypeToSend state) with
  | none => exact .pure ()
  | some ack =>
  have hkind := isPublishAck_of_ackFromPacketType hack
  have hpacket : IsPacket (ackPacket (ackTypeToSend state) packetId []) :=
    isPacket_ackPacket packetId hkind (by decide)
  have hrest : Prog.Moves (Hushed P) (do
      update fun c => { c with controlPacketSent := true }
      let answer ← updateAck packetId ack .send
      let _ ← accepted answer
      pure () : Client W Unit) :=
    (update_hushed _).bind fun _ => (onRecords_hushed _ _).bind fun _ => (accepted_moves _).bind
      fun _ => .pure _
  intro s hs
  apply (checks_check _ _).framed_bind hs
  intro written hwritten
  obtain ⟨rfl, hbytes⟩ := serializeAck_bare_eq_ok hkind (check_eq_ok.mp hwritten).1
  have hbare : (ackPacket (ackTypeToSend state) packetId []).take 4 =
      ackPacket (ackTypeToSend state) packetId [] := List.take_of_length_le (by rfl)
  rw [hbytes, hbare]
  exact checks_connected.framed_bind hs fun _ _ =>
    (offering_buffer h _).framed hpacket (framed_of_hushed hrest) rfl s hs

theorem resendStored_framed (key : UInt32) : Framed P (resendStored env key) := by
  intro s hs
  have hretrieve : retrieve env key s = (.ok (env.retrieve key s.world).1,
      (retrieve env key s).2) := rfl
  refine ((retrieve_hushed h key s).framed hs).bind ?_
  intro packet t ht hkept
  obtain ⟨hpacket, rfl⟩ := Prod.mk.inj (hretrieve.symm.trans ht)
  obtain rfl := Except.ok.inj hpacket
  cases hreturned : (env.retrieve key s.world).1 with
  | none => exact (refl_of (Hushed P) _).framed hkept
  | some packet =>
    rw [orFail_bind_of_some rfl]
    have hpacket := h.returned key s.world packet hs hreturned
    exact (checks_refuse _ _).framed_bind hkept fun _ _ =>
      (offering_buffer h packet).framed_last hpacket rfl _ hkept

omit h in
theorem resendAll_framed {next : PublishRecords → ℕ → Option UInt16 × ℕ}
    {resend : UInt16 → Client W Unit} (hresend : ∀ packetId, Framed P (resend packetId)) :
    Framed P (resendAll next resend) := by
  refine (framed_of_hushed context_moves).bind fun c => ?_
  generalize c.outgoing.length + 1 = turns
  generalize 0 = cursor
  induction turns generalizing cursor with
  | zero => exact .pure _
  | succ turns ih =>
    refine (framed_of_hushed context_moves).bind fun c => ?_
    split
    · exact .pure _
    · exact (hresend _).bind fun _ => ih _

theorem handleUncleanSession_framed : Framed P (handleUncleanSession env) :=
  (resendAll_framed fun _ => .ite (resendStored_framed h _) (sendPublishAcks_framed h _ _)).bind
    fun _ => .when (resendAll_framed fun _ => resendStored_framed h _)

theorem settle_framed : Framed P (settle env) :=
  (framed_of_hushed (update_hushed _)).bind fun _ => (framed_of_hushed .get).bind fun _ =>
    (framed_of_hushed (.when (handleCleanSession_hushed h))).bind fun _ =>
      (framed_of_hushed (update_hushed _)).bind fun _ => .when (handleUncleanSession_framed h)

theorem resume_framed (cleanSession : Bool) (connack : ConnAck) :
    Framed P (resume env cleanSession connack) := by
  have hpresent : (Prog.modify fun s => { s with sessionPresent := connack.sessionPresent } :
      Client W Unit).Moves (Hushed P) := fun _ => ⟨.same rfl, id⟩
  exact (framed_of_hushed hpresent).bind fun _ => (framed_of_hushed (update_hushed _)).bind fun _ =>
    (framed_of_hushed (refuse_moves _ _)).bind fun _ => (framed_of_hushed (refuse_moves _ _)).bind
      fun _ => settle_framed h

omit h in
theorem preparing_hushed (options : Connect) :
    (preparing options : Client W _).Moves (Hushed P) := by
  have hchecked : (checkConnectProperties options : Client W Unit).Moves (Hushed P) := by
    refine context_moves.bind fun _ => .ite (update_hushed _) ?_
    exact (check_moves _ _).bind fun _ => (update_hushed _).bind fun _ => refuse_moves _ _
  exact (Prog.Moves.when (check_moves _ _)).bind fun _ => hchecked.bind fun _ =>
    context_moves.bind fun _ => (check_moves _ _).bind fun _ => (check_moves _ _).bind fun _ =>
      .pure _

omit h in
theorem preparing_eq_ok {options outgoing : Connect} {size : PacketSize} {s t : Sys W}
    (h : preparing options s = (.ok (outgoing, size), t)) :
    s.context.connectStatus = .notConnected ∧ outgoing = options.outgoing s.context ∧
      connectPacketSize outgoing = .ok size ∧
      t = s.withProperties (checkedProperties options s.context) := by
  rw [preparing, Prog.bind_eq_ok] at h
  obtain ⟨_, s₁, hwill, h⟩ := h
  obtain rfl : s₁ = s := by
    unfold Prog.when at hwill
    split_ifs at hwill
    · exact (check_eq_ok.mp hwill).2
    · exact (Prod.mk.inj hwill).2.symm
  rw [Prog.bind_eq_ok] at h
  obtain ⟨_, v, hchecked, h⟩ := h
  obtain ⟨rfl, -⟩ := checkConnectProperties_eq_ok hchecked
  rw [Prog.bind_of_ok (context_apply _), Prog.bind_eq_ok] at h
  obtain ⟨found, w, hsize, h⟩ := h
  obtain ⟨hsized, rfl⟩ := check_eq_ok.mp hsize
  rw [Prog.bind_eq_ok] at h
  obtain ⟨_, x, hnot, h⟩ := h
  obtain ⟨hclosed, rfl⟩ := check_eq_ok.mp hnot
  obtain ⟨hpair, rfl⟩ := Prod.mk.inj h
  obtain ⟨rfl, rfl⟩ := Prod.mk.inj (Except.ok.inj hpair)
  refine ⟨?_, rfl, hsized, rfl⟩
  unfold notYetConnected Sys.withProperties at hclosed
  cases hs : s₁.context.connectStatus with
  | notConnected => rfl
  | connected => rw [hs] at hclosed; cases hclosed
  | disconnectPending => rw [hs] at hclosed; cases hclosed

theorem connect_framed (options : Connect) (timeoutMs : UInt32) :
    Framed P (connect env options timeoutMs) := by
  have hclose (outcome : Except ClientError Unit) : Prog.Moves (Hushed P) (do
      Prog.when (outcome ≠ .ok ()) connectionLost
      check id outcome : Client W Unit) :=
    (Prog.Moves.when (update_hushed _)).bind fun _ => check_moves _ _
  rw [connect_eq]
  refine framed_bind_of (framed_of_hushed (preparing_hushed options)) ?_
  rintro s ⟨outgoing, size⟩ t hprepared ht
  refine framed_attempt (?_ : Framed P (connectInner env outgoing timeoutMs size))
    (fun outcome => framed_of_hushed (hclose outcome)) (hclose _) (fun _ => rfl) t ht
  rw [connectInner_eq]
  exact (sendConnect_framed h (preparing_eq_ok hprepared).2.2.1).bind fun _ =>
    (framed_of_hushed (readConnack_moves (reads_hushed h) timeoutMs)).bind fun _ =>
      resume_framed h _ _

end Sides

theorem perform_framed {env : Environment W} {P : W → Prop} (h : KeepsPackets env P)
    (call : Invocation) : Framed P (call.perform env) := by
  cases call with
  | request call =>
    cases call with
    | enableQos _ _ _ => exact framed_of_hushed (update_hushed _)
    | connect options timeoutMs => exact connect_framed h options timeoutMs
    | traffic call =>
      cases call with
      | processLoop =>
        exact (framed_of_hushed (update_hushed _)).bind fun _ =>
          receiveSingleIteration_framed h true
      | receiveLoop => exact receiveSingleIteration_framed h false
      | publish message packetId => exact publish_framed h message packetId
      | cancelCallback packetId =>
        exact framed_of_hushed ((onRecords_hushed _ _).bind fun _ => (accepted_moves _).bind
          fun _ => refuse_moves _ _)
      | ping => exact ping_framed h
      | disconnect reasonCode properties => exact disconnect_framed h reasonCode properties
  | subscribe list packetId properties => exact sendList_framed h list packetId properties _
  | unsubscribe list packetId properties => exact sendList_framed h list packetId properties _
  | sendPublishAcks packetId state => exact sendPublishAcks_framed h packetId state
  | recvExact wanted =>
    exact framed_of_hushed ((recvExact_moves (reads_hushed h) wanted).bind fun _ => .pure _)
  | set setting => exact framed_of_hushed (update_hushed _)

theorem run_framed {P : W → Prop} {calls : List (Environment W × Invocation)}
    (henv : ∀ call ∈ calls, KeepsPackets call.1 P) {s : Sys W} (hs : P s.world) :
    ∃ log, (afterAll s calls).log = s.log ++ log ∧
      ((∀ answer ∈ ((caller W).run calls s).1.dropLast, ¬ CutShort answer) →
        Interrupted IsPacket (wire log)) ∧
      ((∀ answer ∈ ((caller W).run calls s).1, ¬ CutShort answer) →
        Packets IsPacket (wire log)) := by
  induction calls generalizing s with
  | nil => exact ⟨[], (List.append_nil _).symm, fun _ => .nil, fun _ => .nil⟩
  | cons call calls ih =>
    obtain ⟨hkept, more, hlog, hwire⟩ :=
      perform_framed (henv call List.mem_cons_self) call.2 s hs
    obtain ⟨rest, hrest, hpart, hwhole⟩ := ih (fun c hc => henv c (List.mem_cons_of_mem _ hc)) hkept
    refine ⟨more ++ rest, ?_, ?_, ?_⟩
    · exact hrest.trans (by rw [hlog, List.append_assoc])
    all_goals rw [Machine.run_cons, wire_append]
    · intro hcalls
      cases calls with
      | nil =>
        obtain rfl : rest = [] :=
          List.append_cancel_left (hrest.symm.trans (List.append_nil _).symm)
        rw [wire_nil, List.append_nil]
        exact hwire.elim .whole And.left
      | cons next calls =>
        rw [Machine.run_cons, List.dropLast_cons_cons, List.forall_mem_cons] at hcalls
        exact (hpart hcalls.2).after (hwire.resolve_right fun h => hcalls.1 h.2)
    · intro hcalls
      rw [List.forall_mem_cons] at hcalls
      exact (hwire.resolve_right fun h => hcalls.1 h.2).append (hwhole hcalls.2)

theorem not_isPacket_nil : ¬ IsPacket [] := by
  rintro ⟨packetType, body, -, -, -, h⟩
  cases h

/-- In every run of any calls, over any transport: while no call is cut short, what the transport
took is whole packets, and can be cut into packets in one way only; and in the call that is cut
short, at most a first part of one more packet goes out behind them. -/
theorem stream_framed {P : W → Prop} {calls : List (Environment W × Invocation)}
    (henv : ∀ call ∈ calls, KeepsPackets call.1 P) {s : Sys W} (hs : P s.world) :
    ∃ log, (afterAll s calls).log = s.log ++ log ∧
      ((∀ answer ∈ ((caller W).run calls s).1, ¬ CutShort answer) →
        ∃! packets : List (List UInt8), (∀ p ∈ packets, IsPacket p) ∧
          packets.flatten = wire log) ∧
      ((∀ answer ∈ ((caller W).run calls s).1.dropLast, ¬ CutShort answer) →
        Interrupted IsPacket (wire log)) := by
  obtain ⟨log, hlog, hpart, hwhole⟩ := run_framed henv hs
  refine ⟨log, hlog, fun hcalls => ?_, hpart⟩
  obtain ⟨packets, hall, hflat⟩ := (hwhole hcalls).exists_flatten
  refine ⟨packets, ⟨hall, hflat⟩, ?_⟩
  rintro packets' ⟨hall', hflat'⟩
  exact prefixFree_isPacket.cut_unique not_isPacket_nil hall' hall (hflat'.trans hflat.symm)

theorem keepsPackets_script (storing : Bool) : KeepsPackets (Script.environment storing)
    fun w => ∀ entry ∈ w.kept, IsPacket entry.2 where
  clock _ h := h
  recv into w h := by
    obtain ⟨reads, sends, kept, answers⟩ := w
    cases reads <;> exact h
  send bytes w h := by
    obtain ⟨reads, sends, kept, answers⟩ := w
    cases sends <;> exact h
  writev parts w h := by
    obtain ⟨reads, sends, kept, answers⟩ := w
    cases sends <;> exact h
  store key parts w hparts h := by
    intro entry hentry
    rcases List.mem_cons.mp hentry with rfl | hentry
    · exact hparts
    · exact h entry (List.mem_filter.mp hentry).1
  retrieve _ _ h := h
  returned key w packet h hreturned := by
    obtain ⟨entry, hfound, rfl⟩ := Option.map_eq_some_iff.mp hreturned
    exact h entry (List.mem_of_find?_eq_some hfound)
  clear key w h := fun entry hentry => h entry (List.mem_filter.mp hentry).1
  event _ _ w h := by
    obtain ⟨reads, sends, kept, answers⟩ := w
    cases answers <;> exact h

/-- A connection, a PUBLISH that goes out in three pieces, and a PINGREQ that fails after a byte. -/
def inPieces : List (Environment Script × Invocation) :=
  let env := Script.environment true
  [(env, .request (.enableQos [Record.default] [Record.default] [])),
    (env, .request (.connect (Script.connect true []) 0)),
    (env, .request (.traffic (.publish smallMessage 1))), (env, .request (.traffic .ping))]

/-- A client whose transport takes the CONNECT at once, and then a few bytes at a time. -/
def fewAtATime : Sys Script := start (List.replicate 64 0)
  { reads := [Script.connack false []]
    sends := [.bytes 64, .bytes 1, .nothing, .bytes 4, .bytes 5, .bytes 1, .failed] }

/-- The PINGREQ is the only packet that is not whole. -/
theorem in_pieces_framed : Interrupted IsPacket (wire (afterAll fewAtATime inPieces).log) ∧
    (wire (afterAll fewAtATime inPieces).log).getLast? = some Packet.pingreq := by
  have henv : ∀ call ∈ inPieces, KeepsPackets call.1
      fun w => ∀ entry ∈ w.kept, IsPacket entry.2 := by
    rintro call (_ | ⟨_, _ | ⟨_, _ | ⟨_, _ | ⟨_, _ | _⟩⟩⟩⟩) <;> exact keepsPackets_script true
  have hnone : ∀ entry ∈ fewAtATime.world.kept, IsPacket entry.2 := by
    intro entry hentry
    cases hentry
  obtain ⟨log, hlog, -, hpart⟩ := stream_framed henv hnone
  refine ⟨?_, by decide +kernel⟩
  have hfresh : (afterAll fewAtATime inPieces).log = log := hlog
  rw [hfresh]
  apply hpart
  have hanswers : ((caller Script).run inPieces fewAtATime).1.dropLast =
      [.ok (), .ok (), .ok ()] := by decide +kernel
  rw [hanswers]
  rintro answer (_ | ⟨_, _ | ⟨_, _ | ⟨_, _ | _⟩⟩⟩) (h | h) <;> cases h

end Client

end RtosMqtt
