import RtosMqtt.Client.Offers

/-! # A connect that succeeds

The CONNECT went out whole, the CONNACK was read whole and accepted, and the
session was settled: the records capped, a fresh session cleaned, the connection
opened, and a resumed session sent again. Up to the settling nothing changes but
the limits, the receive buffer and the time of the last packet.
-/

namespace RtosMqtt

variable {W α β : Type}

def checkedProperties (options : Connect) (c : MqttContext) : ConnectionProperties :=
  if options.properties = [] then
    { c.properties with client := { c.properties.client with
        maxPacketSize := min c.network.length u32Max } }
  else
    match validateConnectProperties options.properties with
    | .error _ => c.properties
    | .ok found =>
      { c.properties with client := { c.properties.client with
          requestProblemInfo := found.requestProblemInfo } }

def announcedProperties (options : Connect) (p : ConnectionProperties) : ConnectionProperties :=
  let p := { p with server := { p.server with keepAlive := options.info.keepAliveSeconds } }
  if options.properties = [] then p else (updateWithConnectProps options.properties p).2

/-- The CONNECT as it goes out. -/
def Connect.outgoing (options : Connect) (c : MqttContext) : Connect :=
  { options with properties := outgoingSection options (min c.network.length u32Max) }

/-- The buffer holds a CONNACK that is well formed and not a refusal. -/
def AcceptsConnack (s : Sys W) (connack : ConnAck) : Prop :=
  ∃ n, deserializeConnack
    { packetType := Packet.connack, remainingLength := n, remainingData := s.context.network.take n }
    { maxPacketSize := s.context.properties.client.maxPacketSize
      requestResponseInfo := s.context.properties.client.requestResponseInfo } = .ok connack ∧
    connack.refused = false

namespace Sys

def withProperties (s : Sys W) (properties : ConnectionProperties) : Sys W :=
  { s with context := { s.context with properties } }

def acknowledged (s : Sys W) (connack : ConnAck) : Sys W :=
  { s with
    sessionPresent := connack.sessionPresent
    context := { s.context with properties := applyConnack s.context.properties connack } }

/-- Each array is no longer than what the other side may send. -/
def capped (s : Sys W) : Sys W :=
  let properties := s.context.properties
  { s with
    context := { s.context with
      records := s.context.records.map fun r =>
        r.cap properties.server.receiveMax.toNat properties.client.receiveMax.toNat } }

def opened (s : Sys W) : Sys W :=
  { s with context := { s.context with
      connectStatus := .connected
      keepAliveSeconds := s.context.properties.server.keepAlive
      waitingForPingResp := false
      pingReqSendTime := 0 } }

end Sys

namespace Client

variable {env : Environment W}

theorem recv_length {into data : List UInt8} {outcome : Recv} {s t : Sys W}
    (h : recv env into s = (.ok (outcome, data), t)) : data.length = into.length := by
  obtain ⟨houtcome, rfl⟩ := Prod.mk.inj h
  obtain ⟨rfl, rfl⟩ := Prod.mk.inj (Except.ok.inj houtcome)
  have hlength : ∀ d : List UInt8, (overlay d into).length = into.length := by
    intro d
    simp only [overlay, List.length_take, List.length_append, List.length_drop]
    omega
  exact hlength _

theorem recv_smooth {into data : List UInt8} {outcome : Recv} {s t : Sys W}
    (h : recv env into s = (.ok (outcome, data), t)) (ho : outcome ≠ .failed) :
    Smooth s t ∧ data.length = into.length := by
  refine ⟨?_, recv_length h⟩
  obtain ⟨houtcome, rfl⟩ := Prod.mk.inj h
  obtain ⟨rfl, rfl⟩ := Prod.mk.inj (Except.ok.inj houtcome)
  refine ⟨⟨_, _, rfl, rfl⟩, rfl, .one rfl ?_⟩
  generalize (env.recv into s.world).1.1 = outcome at ho
  cases outcome <;> simp_all [Observation.fails]

theorem recvOne_smooth {nothing failed : ClientError} {r : Except Stop UInt8} {s t : Sys W}
    (h : recvOne env nothing failed s = (r, t)) (hr : r ≠ .error (.error failed)) :
    Smooth s t := by
  unfold recvOne at h
  rw [Prog.bind_apply] at h
  rcases hrecv : recv env [0] s with ⟨_ | ⟨outcome, byte⟩, u⟩
  · cases hrecv
  rw [hrecv] at h
  cases outcome with
  | failed =>
    obtain ⟨rfl, -⟩ := Prod.mk.inj h
    exact absurd rfl hr
  | nothing =>
    obtain ⟨-, rfl⟩ := Prod.mk.inj h
    exact (recv_smooth hrecv (by simp)).1
  | bytes count =>
    have hst := (recv_smooth hrecv (by simp)).1
    dsimp only at h
    split_ifs at h
    · obtain ⟨-, rfl⟩ := Prod.mk.inj h
      exact hst
    · cases byte <;> obtain ⟨-, rfl⟩ := Prod.mk.inj h <;> exact hst

theorem recvOne_eq_error {e : ClientError} {stop : Stop} {s t : Sys W}
    (h : recvOne env e e s = (.error stop, t)) : stop = .error e := by
  unfold recvOne at h
  rw [Prog.bind_apply] at h
  rcases hrecv : recv env [0] s with ⟨_ | ⟨outcome, byte⟩, u⟩
  · cases hrecv
  rw [hrecv] at h
  cases outcome with
  | bytes count =>
    dsimp only at h
    split_ifs at h
    · exact (Except.error.inj (Prod.mk.inj h).1).symm
    · cases byte with
      | nil => exact (Except.error.inj (Prod.mk.inj h).1).symm
      | cons byte rest => cases h
  | _ => exact (Except.error.inj (Prod.mk.inj h).1).symm

/-- What follows the type byte fails in one way only. -/
theorem readRemainingLength_eq_error {stop : Stop} {s t : Sys W}
    (h : readRemainingLength env s = (.error stop, t)) : stop = .error .badResponse := by
  have hdecode : ∀ turns value multiplier decoded (s t : Sys W),
      decodeFrom saturating (fun _ => recvOne env .badResponse .badResponse) (fun _ => false)
        (fail .badResponse) turns value multiplier decoded s = (.error stop, t) →
      stop = .error .badResponse := by
    intro turns
    induction turns with
    | zero =>
      intro _ _ _ s t h
      exact (Except.error.inj (Prod.mk.inj h).1).symm
    | succ turns ih =>
      intro value multiplier decoded s t h
      rw [decodeFrom] at h
      simp only [Bool.false_eq_true, if_false] at h
      split_ifs at h
      · exact (Except.error.inj (Prod.mk.inj h).1).symm
      rcases Prog.bind_eq_error.mp h with h | ⟨byte, u, -, h⟩
      · exact recvOne_eq_error h
      · split_ifs at h
        · cases h
        · exact ih _ _ _ _ _ h
  have hrefuse : ∀ (c : Prop) [Decidable c] (u v : Sys W),
      (refuse c .badResponse : Client W Unit) u = (.error stop, v) →
        stop = .error .badResponse := by
    intro c _ u v h
    rw [Client.refuse, Prog.refuse_apply] at h
    split_ifs at h
    · exact (Except.error.inj (Prod.mk.inj h).1).symm
    · cases h
  rcases Prog.bind_eq_error.mp h with h | ⟨_, u, -, h⟩
  · exact hdecode _ _ _ _ _ _ h
  rcases Prog.bind_eq_error.mp h with h | ⟨_, v, -, h⟩
  · exact hrefuse _ _ _ h
  rcases Prog.bind_eq_error.mp h with h | ⟨_, w, -, h⟩
  · exact hrefuse _ _ _ h
  · cases h

section Yields

variable {R : Sys W → Sys W → Prop} [IsPreorder (Sys W) R]
  (h : ∀ s count data t, recv env [0] s = (.ok (.bytes count, data), t) → count ≠ 0 → R s t)

include h

omit [IsPreorder (Sys W) R] in
theorem recvOne_yields (nothing failed : ClientError) : (recvOne env nothing failed).Yields R := by
  intro s byte t hone
  obtain ⟨⟨outcome, data⟩, u, hrecv, hbyte⟩ := Prog.bind_eq_ok.mp hone
  cases outcome with
  | bytes count =>
    dsimp only at hbyte
    split_ifs at hbyte with hzero
    · cases hbyte
    · cases data with
      | nil => cases hbyte
      | cons b data =>
        obtain ⟨-, rfl⟩ := Prod.mk.inj hbyte
        exact h _ _ _ _ hrecv hzero
  | _ => cases hbyte

theorem readRemainingLength_yields : (readRemainingLength env).Yields R := by
  have hdecode (turns value multiplier decoded : ℕ) : (decodeFrom saturating
      (fun _ => recvOne env .badResponse .badResponse) (fun _ => false) (fail .badResponse) turns
        value multiplier decoded).Yields R := by
    induction turns generalizing value multiplier decoded with
    | zero => exact .throw _
    | succ turns ih =>
      exact .ite (.throw _) ((recvOne_yields h _ _).bind fun _ =>
        .ite (.throw _) (.ite (.pure _) (ih _ _ _)))
  exact (hdecode _ _ _ _).bind fun _ => (refuse_moves _ _).yields.bind fun _ =>
    (refuse_moves _ _).yields.bind fun _ => .pure _

theorem readHeader_yields : (readHeader env).Yields R :=
  (recvOne_yields h _ _).bind fun _ => (refuse_moves _ _).yields.bind fun _ =>
    (readRemainingLength_yields h).bind fun _ => .pure _

end Yields

theorem readHeader_smooth {r : Except Stop PacketHeader} {s t : Sys W}
    (h : readHeader env s = (r, t))
    (hr : r = .error (.error .noDataAvailable) ∨ ∃ header, r = .ok header) : Smooth s t := by
  rcases hr with rfl | ⟨header, rfl⟩
  · rcases Prog.bind_eq_error.mp h with h | ⟨packetType, u, -, h⟩
    · exact recvOne_smooth h (by simp)
    rcases Prog.bind_eq_error.mp h with h | ⟨_, v, -, h⟩
    · rw [Client.refuse, Prog.refuse_apply] at h
      split_ifs at h
      · simp at h
      · cases h
    rcases Prog.bind_eq_error.mp h with h | ⟨_, w, -, h⟩
    · cases readRemainingLength_eq_error h
    · cases h
  · exact readHeader_yields (fun _ _ _ _ hrecv _ => (recv_smooth hrecv (by simp)).1) s header t h

theorem readConnackHeader_smooth {entry timeoutMs : UInt32} {turns loopCount : ℕ}
    {header : PacketHeader} {s t : Sys W}
    (h : readConnackHeader env entry timeoutMs turns loopCount s = (.ok (.ok header), t)) :
    Smooth s t := by
  induction turns generalizing loopCount s with
  | zero => cases h
  | succ turns ih =>
    obtain ⟨read, u, hread, h⟩ := Prog.bind_eq_ok.mp h
    obtain ⟨giveUp, v, hwait, h⟩ := Prog.bind_eq_ok.mp h
    have huv : Smooth u v :=
      Prog.Yields.ite (nowMs_smooth.bind fun _ => .pure _) (.pure _) u giveUp v hwait
    have hheader := attempt_eq_ok hread
    cases read with
    | ok found =>
      obtain ⟨-, rfl⟩ := Prod.mk.inj h
      exact trans_of Smooth (readHeader_smooth hheader (.inr ⟨found, rfl⟩)) huv
    | error e =>
      cases e with
      | noDataAvailable =>
        have hsu := readHeader_smooth hheader (.inl rfl)
        dsimp only at h
        split_ifs at h
        · cases h
        · exact trans_of Smooth hsu (trans_of Smooth huv (ih h))
      | _ => cases h

/-- The buffer is written while it is read into. -/
theorem recvExactFrom_smooth {wanted turns total n : ℕ} {lastData : UInt32} {s t : Sys W}
    (h : recvExactFrom env wanted turns total lastData s = (.ok (.bytes n), t)) : Smooth s t := by
  induction turns generalizing total lastData s with
  | zero => cases h
  | succ turns ih =>
    rw [recvExactFrom] at h
    split_ifs at h
    · obtain ⟨-, rfl⟩ := Prod.mk.inj h
      exact refl_of Smooth s
    rw [Prog.bind_of_ok (context_apply s)] at h
    cases hslice : slice? s.context.network total wanted with
    | none =>
      rw [hslice] at h
      cases h
    | some into =>
      rw [hslice] at h
      obtain ⟨⟨outcome, data⟩, u, hrecv, h⟩ := Prog.bind_eq_ok.mp h
      dsimp only at h
      rw [Prog.bind_of_ok (update_apply _ u)] at h
      by_cases hfailed : outcome = .failed
      · subst hfailed
        cases h
      obtain ⟨hsu, hdata⟩ := recv_smooth hrecv hfailed
      have hwritten : Smooth u { u with context := { u.context with
          network := u.context.network.take total ++ data ++ u.context.network.drop wanted } } := by
        refine ⟨⟨_, u.context.lastPacketTxTime, ?_, rfl⟩, rfl, .same rfl⟩
        have hwhole : total ≤ wanted ∧ wanted ≤ u.context.network.length := by
          obtain ⟨⟨network, now, hlength, hu⟩, -, -⟩ := hsu
          have hin := of_slice? hslice
          rw [hu]
          exact ⟨hin.1, hin.2.trans hlength.ge⟩
        simp only [List.length_append, List.length_take, List.length_drop, hdata,
          length_of_slice? hslice]
        omega
      have hsv := trans_of Smooth hsu hwritten
      have hnext : ∀ now w, nowMs env { u with context := { u.context with
          network := u.context.network.take total ++ data ++ u.context.network.drop wanted } } =
            (.ok now, w) → Smooth s w := fun now w hnow =>
        trans_of Smooth hsv (nowMs_smooth _ now w hnow)
      cases outcome with
      | failed => exact absurd rfl hfailed
      | nothing =>
        obtain ⟨now, w, hnow, h⟩ := Prog.bind_eq_ok.mp h
        split_ifs at h
        · obtain ⟨-, rfl⟩ := Prod.mk.inj h
          exact hnext now w hnow
        · exact trans_of Smooth (hnext now w hnow) (ih h)
      | bytes count =>
        obtain ⟨now, w, hnow, h⟩ := Prog.bind_eq_ok.mp h
        split_ifs at h
        · obtain ⟨-, rfl⟩ := Prod.mk.inj h
          exact hnext now w hnow
        · exact trans_of Smooth (hnext now w hnow) (ih h)
        · exact trans_of Smooth (hnext now w hnow) (ih h)

theorem recvExact_smooth {wanted n : ℕ} {s t : Sys W}
    (h : recvExact env wanted s = (.ok (.bytes n), t)) : Smooth s t := by
  obtain ⟨now, u, hnow, h⟩ := Prog.bind_eq_ok.mp h
  exact trans_of Smooth (nowMs_smooth s now u hnow) (recvExactFrom_smooth h)

/-- A CONNACK that was read is in the buffer. -/
theorem readConnack_eq_ok {timeoutMs : UInt32} {connack : ConnAck} {s t : Sys W}
    (h : readConnack env timeoutMs s = (.ok connack, t)) : Smooth s t ∧ ∃ n, deserializeConnack
      { packetType := Packet.connack, remainingLength := n,
        remainingData := t.context.network.take n }
      { maxPacketSize := t.context.properties.client.maxPacketSize
        requestResponseInfo := t.context.properties.client.requestResponseInfo } = .ok connack := by
  rw [readConnack, Prog.bind_eq_ok] at h
  obtain ⟨entry, s₁, hentry, h⟩ := h
  rw [Prog.bind_eq_ok] at h
  obtain ⟨header, s₂, hheader, h⟩ := h
  rw [Prog.bind_eq_ok] at h
  obtain ⟨packet, s₃, hpacket, h⟩ := h
  obtain ⟨hfound, rfl⟩ := check_eq_ok.mp hpacket
  obtain rfl : header = .ok packet := by
    cases header with
    | error e => cases hfound
    | ok found => exact hfound
  rw [Client.refuse, Prog.refuse_bind_eq_ok] at h
  obtain ⟨htype, h⟩ := h
  rw [Prog.bind_eq_ok] at h
  obtain ⟨_, s₄, hbody, h⟩ := h
  have hbody : Smooth s₃ s₄ := by
    unfold receiveConnackPacket at hbody
    rw [Prog.bind_of_ok (context_apply s₃), Client.refuse, Prog.refuse_bind_eq_ok] at hbody
    obtain ⟨-, hbody⟩ := hbody
    obtain ⟨outcome, u, hread, hbody⟩ := Prog.bind_eq_ok.mp hbody
    rw [Client.refuse, Prog.refuse_apply] at hbody
    split_ifs at hbody with houtcome
    · cases hbody
    · obtain ⟨-, rfl⟩ := Prod.mk.inj hbody
      rw [not_not.mp houtcome] at hread
      exact recvExact_smooth hread
  rw [Prog.bind_of_ok (context_apply s₄)] at h
  obtain ⟨hparsed, rfl⟩ := check_eq_ok.mp h
  rw [not_not.mp htype] at hparsed
  exact ⟨trans_of Smooth (nowMs_smooth s entry s₁ hentry)
    (trans_of Smooth (readConnackHeader_smooth hheader) hbody), packet.remainingLength, hparsed⟩

theorem receiveConnack_eq_ok {timeoutMs : UInt32} {cleanSession : Bool} {s t : Sys W}
    (h : receiveConnack env timeoutMs cleanSession s = (.ok (), t)) :
    ∃ u connack, readConnack env timeoutMs s = (.ok connack, u) ∧ connack.refused = false ∧
      ¬ (cleanSession = true ∧ connack.sessionPresent = true) ∧ t = u.acknowledged connack := by
  rw [receiveConnack_eq, Prog.bind_eq_ok] at h
  obtain ⟨connack, u, hread, h⟩ := h
  rw [Prog.modify_bind_apply, Prog.bind_of_ok (update_apply _ _), Client.refuse,
    Prog.refuse_bind_eq_ok, Client.refuse, Prog.refuse_apply] at h
  obtain ⟨hclean, h⟩ := h
  split_ifs at h with hrefused
  · cases h
  obtain ⟨-, rfl⟩ := Prod.mk.inj h
  exact ⟨u, connack, hread, Bool.eq_false_iff.mpr hrefused, hclean, rfl⟩

/-- A CONNECT that went out carried its section, and left what it announced in the session. -/
theorem sendConnect_eq_ok {options : Connect} {remainingLength : ℕ} {s t : Sys W}
    (h : sendConnect env options remainingLength s = (.ok (), t)) :
    Smooth (s.withProperties (announcedProperties options s.context.properties)) t ∧
      (options.properties ≠ [] → (updateWithConnectProps options.properties
        { s.context.properties with server := { s.context.properties.server with
          keepAlive := options.info.keepAliveSeconds } }).1 = .ok ()) ∧
      ∃ head rest, WentOut (head ++ (sectionParts options.properties).flatten ++ rest) s.log
        t.log := by
  unfold sendConnect at h
  rw [Client.refuse, Prog.refuse_bind_eq_ok, Prog.bind_of_ok (update_apply _ s), Client.refuse,
    Prog.refuse_bind_eq_ok, Client.refuse, Prog.refuse_bind_eq_ok] at h
  obtain ⟨-, -, -, h⟩ := h
  rw [Prog.bind_eq_ok] at h
  obtain ⟨_, u, hannounced, h⟩ := h
  have hu : u = s.withProperties (announcedProperties options s.context.properties) ∧
      (options.properties ≠ [] → (updateWithConnectProps options.properties
        { s.context.properties with server := { s.context.properties.server with
          keepAlive := options.info.keepAliveSeconds } }).1 = .ok ()) := by
    unfold announcedProperties
    unfold Prog.when at hannounced
    split_ifs at hannounced with hnil
    · rw [if_neg hnil]
      obtain ⟨hupdated, rfl⟩ := Prod.mk.inj hannounced
      refine ⟨rfl, fun _ => ?_⟩
      dsimp only at hupdated
      generalize updateWithConnectProps options.properties _ = updated at hupdated ⊢
      obtain ⟨_ | _, p⟩ := updated
      · cases hupdated
      · rfl
    · rw [if_pos (not_not.mp hnil)]
      exact ⟨(Prod.mk.inj hannounced).2.symm, fun h => absurd h hnil⟩
  obtain ⟨rfl, hupdated⟩ := hu
  rw [Prog.bind_eq_ok] at h
  obtain ⟨v, w, hv, h⟩ := h
  have hparts := pushConnect_eq_ok hv
  obtain rfl := Checks.same (checks_pushConnect _ _) hv
  rw [Prog.bind_eq_ok] at h
  obtain ⟨outcome, z, hsend, h⟩ := h
  obtain ⟨rfl, rfl⟩ := sentWhole_eq_ok.mp h
  refine ⟨sendVectors_smooth hsend, hupdated, ?_⟩
  have hsent := sendVectors_sent env hsend
  rw [v.total_eq, List.take_length, hparts, List.flatten_cons, connectParts, List.flatten_append,
    ← List.append_assoc] at hsent
  exact ⟨_, _, hsent⟩

def settle (env : Environment W) : Client W Unit := do
  capRecords
  let s ← Prog.get
  Prog.when (s.sessionPresent = false) (handleCleanSession env)
  update fun c =>
    { c with
      connectStatus := .connected
      keepAliveSeconds := c.properties.server.keepAlive
      waitingForPingResp := false
      pingReqSendTime := 0 }
  Prog.when (s.sessionPresent = true) (handleUncleanSession env)

theorem settle_eq_ok {s t : Sys W} (h : settle env s = (.ok (), t)) :
    ∃ u, Prog.when (s.sessionPresent = false) (handleCleanSession env) s.capped = (.ok (), u) ∧
      Prog.when (s.sessionPresent = true) (handleUncleanSession env) u.opened = (.ok (), t) := by
  rw [settle, Prog.bind_of_ok (show capRecords s = (.ok (), s.capped) from rfl),
    Prog.get_bind_apply, Prog.bind_eq_ok] at h
  obtain ⟨_, u, hclean, h⟩ := h
  rw [Prog.bind_of_ok (update_apply _ u)] at h
  exact ⟨u, hclean, h⟩

theorem checkConnectProperties_eq_ok {options : Connect} {s t : Sys W}
    (h : checkConnectProperties options s = (.ok (), t)) :
    t = s.withProperties (checkedProperties options s.context) ∧ (options.properties ≠ [] →
      ∃ found, validateConnectProperties options.properties = .ok found) := by
  unfold checkConnectProperties at h
  unfold checkedProperties
  rw [Prog.bind_of_ok (context_apply s)] at h
  split_ifs at h with hnil
  · rw [if_pos hnil]
    exact ⟨(Prod.mk.inj h).2.symm, fun h => absurd hnil h⟩
  · rw [if_neg hnil]
    rw [Prog.bind_eq_ok] at h
    obtain ⟨found, u, hfound, h⟩ := h
    obtain ⟨hvalid, rfl⟩ := check_eq_ok.mp hfound
    rw [hvalid]
    rw [Prog.bind_of_ok (update_apply _ u), Client.refuse, Prog.refuse_apply] at h
    split_ifs at h
    · cases h
    · exact ⟨(Prod.mk.inj h).2.symm, fun _ => ⟨found, rfl⟩⟩

def openingProperties (options : Connect) (c : MqttContext) : ConnectionProperties :=
  announcedProperties (options.outgoing c) (checkedProperties options c)

variable (env) in
/-- The part of a connect up to the CONNECT that goes out. -/
def sending (options : Connect) : Client W Unit := do
  Prog.when (options.will.any (·.properties ≠ []))
    (check (fun _ => .badParameter)
      (validateWillProperties ((options.will.map Will.properties).getD [])))
  checkConnectProperties options
  let c ← context
  let size ← check (fun _ => .badParameter) (connectPacketSize (options.outgoing c))
  check id (notYetConnected c)
  sendConnect env (options.outgoing c) size.remainingLength

variable (env) in
def concluding (options : Connect) (timeoutMs : UInt32) : Client W Unit := do
  let outcome ← attempt (do
    receiveConnack env timeoutMs options.info.cleanSession
    settle env)
  Prog.when (outcome ≠ .ok ()) connectionLost
  check id outcome

theorem attempt_bind_of_ok {p : Client W α} {f : α → Client W β} {a : α} {s t : Sys W}
    (h : p s = (.ok a, t)) : attempt (p >>= f) s = attempt (f a) t := by
  unfold attempt
  rw [Prog.bind_of_ok h]

/-- Before a CONNECT goes out there is no connection, and nothing changes but the limits, the
receive buffer and the time of the last packet. -/
theorem sending_eq_ok {options : Connect} {s u : Sys W} (h : sending env options s = (.ok (), u)) :
    s.context.connectStatus = .notConnected ∧
      (options.properties ≠ [] →
        ∃ found, validateConnectProperties options.properties = .ok found) ∧
      (∃ size, sendConnect env (options.outgoing s.context) size
        (s.withProperties (checkedProperties options s.context)) = (.ok (), u)) ∧
      Smooth (s.withProperties (openingProperties options s.context)) u ∧
      ∀ timeoutMs, connect env options timeoutMs s = concluding env options timeoutMs u := by
  rw [sending, Prog.bind_eq_ok] at h
  obtain ⟨_, s₁, hwill, h⟩ := h
  obtain rfl : s₁ = s := by
    unfold Prog.when at hwill
    split_ifs at hwill
    · exact (check_eq_ok.mp hwill).2
    · exact (Prod.mk.inj hwill).2.symm
  rw [Prog.bind_eq_ok] at h
  obtain ⟨_, v, hchecked, h⟩ := h
  obtain ⟨rfl, hvalid⟩ := checkConnectProperties_eq_ok hchecked
  rw [Prog.bind_of_ok (context_apply _), Prog.bind_eq_ok] at h
  obtain ⟨size, w, hsize, h⟩ := h
  obtain ⟨hsized, rfl⟩ := check_eq_ok.mp hsize
  rw [Prog.bind_eq_ok] at h
  obtain ⟨_, x, hnot, hsent⟩ := h
  obtain ⟨hclosed, rfl⟩ := check_eq_ok.mp hnot
  refine ⟨?_, hvalid, ⟨size.remainingLength, hsent⟩, (sendConnect_eq_ok hsent).1, ?_⟩
  · unfold notYetConnected Sys.withProperties at hclosed
    cases hs : s₁.context.connectStatus with
    | notConnected => rfl
    | connected => rw [hs] at hclosed; cases hclosed
    | disconnectPending => rw [hs] at hclosed; cases hclosed
  · intro timeoutMs
    have hinner := attempt_bind_of_ok (f := fun _ => do
      receiveConnack env timeoutMs options.info.cleanSession
      settle env) hsent
    rw [connect, Prog.bind_of_ok hwill, Prog.bind_of_ok hchecked, Prog.bind_of_ok (context_apply _)]
    refine (congrFun (check_bind_of_ok hsized) _).trans
      ((congrFun (check_bind_of_ok hclosed) _).trans ?_)
    rw [concluding, Prog.bind_apply, Prog.bind_apply, ← hinner]
    rfl

variable (env) in
/-- The part of a connect up to the CONNACK it reads. -/
def opening (options : Connect) (timeoutMs : UInt32) : Client W ConnAck := do
  sending env options
  readConnack env timeoutMs

/-- Up to the CONNACK nothing changes but the limits, the receive buffer and the time of the last
packet. -/
theorem opening_eq_ok {options : Connect} {timeoutMs : UInt32} {connack : ConnAck} {s u : Sys W}
    (h : opening env options timeoutMs s = (.ok connack, u)) :
    Smooth (s.withProperties (openingProperties options s.context)) u ∧ ∃ n, deserializeConnack
      { packetType := Packet.connack, remainingLength := n,
        remainingData := u.context.network.take n }
      { maxPacketSize := u.context.properties.client.maxPacketSize
        requestResponseInfo := u.context.properties.client.requestResponseInfo } = .ok connack := by
  rw [opening, Prog.bind_eq_ok] at h
  obtain ⟨_, v, hsent, h⟩ := h
  obtain ⟨-, -, -, hsmooth, -⟩ := sending_eq_ok hsent
  obtain ⟨hread, hparsed⟩ := readConnack_eq_ok h
  exact ⟨trans_of Smooth hsmooth hread, hparsed⟩

theorem sending_of_connect {options : Connect} {timeoutMs : UInt32} {s t : Sys W}
    (h : connect env options timeoutMs s = (.ok (), t)) : ∃ u, sending env options s = (.ok (), u) := by
  rw [connect, Prog.bind_eq_ok] at h
  obtain ⟨_, s₁, hwill, h⟩ := h
  rw [Prog.bind_eq_ok] at h
  obtain ⟨_, s₂, hchecked, h⟩ := h
  rw [Prog.bind_of_ok (context_apply s₂)] at h
  rw [Prog.bind_eq_ok] at h
  obtain ⟨size, s₃, hsize, h⟩ := h
  obtain ⟨hsized, rfl⟩ := check_eq_ok.mp hsize
  rw [Prog.bind_eq_ok] at h
  obtain ⟨_, s₄, hnot, h⟩ := h
  obtain ⟨hclosed, rfl⟩ := check_eq_ok.mp hnot
  rw [Prog.bind_eq_ok] at h
  obtain ⟨outcome, s₅, hinner, h⟩ := h
  obtain rfl : outcome = .ok () := by
    rw [Prog.bind_eq_ok] at h
    obtain ⟨_, _, -, hlast⟩ := h
    obtain ⟨houtcome, -⟩ := check_eq_ok.mp hlast
    cases outcome with
    | error e => cases houtcome
    | ok => rfl
  obtain ⟨_, v, hsent, -⟩ := Prog.bind_eq_ok.mp (attempt_eq_ok hinner)
  have hsized : connectPacketSize (options.outgoing s₄.context) = .ok size := hsized
  refine ⟨v, ?_⟩
  rw [sending, Prog.bind_of_ok hwill, Prog.bind_of_ok hchecked, Prog.bind_of_ok (context_apply s₄),
    check_bind_of_ok hsized, check_bind_of_ok hclosed]
  exact hsent

/-- A connect that succeeds found no connection, read a CONNACK it could accept, and settled the
session. -/
theorem connect_eq_ok {options : Connect} {timeoutMs : UInt32} {s t : Sys W}
    (h : connect env options timeoutMs s = (.ok (), t)) :
    s.context.connectStatus = .notConnected ∧ ∃ u connack,
      opening env options timeoutMs s = (.ok connack, u) ∧ connack.refused = false ∧
        ¬ (options.info.cleanSession = true ∧ connack.sessionPresent = true) ∧
        settle env (u.acknowledged connack) = (.ok (), t) := by
  obtain ⟨v, hsent⟩ := sending_of_connect h
  obtain ⟨hclosed, -, -, -, hconnect⟩ := sending_eq_ok hsent
  rw [hconnect, concluding, Prog.bind_eq_ok] at h
  obtain ⟨outcome, w, hinner, h⟩ := h
  rw [Prog.bind_eq_ok] at h
  obtain ⟨_, x, hlost, h⟩ := h
  obtain ⟨houtcome, rfl⟩ := check_eq_ok.mp h
  obtain rfl : outcome = .ok () := by
    cases outcome with
    | error e => cases houtcome
    | ok => rfl
  rw [Prog.when, if_neg (not_not.mpr rfl)] at hlost
  obtain rfl := (Prod.mk.inj hlost).2
  obtain ⟨_, y, hreceived, hsettled⟩ := Prog.bind_eq_ok.mp (attempt_eq_ok hinner)
  obtain ⟨u, connack, hread, hrefused, hclean, rfl⟩ := receiveConnack_eq_ok hreceived
  exact ⟨hclosed, u, connack, Prog.bind_eq_ok.mpr ⟨(), v, hsent, hread⟩, hrefused, hclean, hsettled⟩

theorem connect_opened {options : Connect} {timeoutMs : UInt32} {s t : Sys W}
    (h : connect env options timeoutMs s = (.ok (), t)) : ∃ u connack,
      Smooth (s.withProperties (openingProperties options s.context)) u ∧
        AcceptsConnack u connack ∧ settle env (u.acknowledged connack) = (.ok (), t) := by
  obtain ⟨-, u, connack, hopening, hrefused, -, hsettled⟩ := connect_eq_ok h
  obtain ⟨hsmooth, n, hparsed⟩ := opening_eq_ok hopening
  exact ⟨u, connack, hsmooth, ⟨n, hparsed, hrefused⟩, hsettled⟩

end Client

end RtosMqtt
