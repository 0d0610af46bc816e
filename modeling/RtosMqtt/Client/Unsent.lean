import RtosMqtt.Client.Assembly

/-! # A PUBLISH that is not sent

A PUBLISH above QoS 0 takes its record before the store is asked to keep a copy.
A store that refuses leaves the record of a message that no one has.
-/

namespace RtosMqtt

variable {W : Type}

def Offers (s t : Sys W) : Prop :=
  ∃ parts outcome standing, Observation.sent parts outcome standing ∈ noted s t ∧
    parts.flatten ≠ []

abbrev Grows : Sys W → Sys W → Prop := Logs fun _ => True

theorem Offers.later {s t u : Sys W} (h : Offers s t) (hgrows : Grows t u) : Offers s u := by
  obtain ⟨parts, outcome, standing, hmem, hsome⟩ := h
  obtain ⟨more, hu, -⟩ := hgrows
  refine ⟨parts, outcome, standing, ?_, hsome⟩
  have hlong : s.log.length ≤ t.log.length := by
    by_contra hshort
    rw [noted, List.drop_eq_nil_of_le (Nat.le_of_not_le hshort)] at hmem
    cases hmem
  rw [noted, hu, List.drop_append_of_le_length hlong]
  exact List.mem_append_left more hmem

theorem Offers.earlier {s t u : Sys W} (hgrows : Grows s t) (h : Offers t u) : Offers s u := by
  obtain ⟨before, ht, -⟩ := hgrows
  obtain ⟨parts, outcome, standing, hmem, hsome⟩ := h
  refine ⟨parts, outcome, standing, ?_, hsome⟩
  rw [noted, ht, List.length_append, ← List.drop_drop] at hmem
  exact List.mem_of_mem_drop hmem

namespace Client

variable {env : Environment W}

variable (env) in
theorem passes_grows : Passes env Grows :=
  ⟨fun _ => .one rfl trivial, fun _ _ => .same rfl, fun _ => .same rfl⟩

variable (env) in
/-- A sender offers what it has before it answers, if the caller has any patience. -/
theorem sendVectors_offers {vectors : List (List UInt8)} (hsome : vectors.flatten ≠ []) (s : Sys W) :
    (sendVectors env vectors s).1 = .error .blocked ∨ Offers s (sendVectors env vectors s).2 := by
  have hone : vectors ≠ [] := by
    rintro rfl
    exact hsome rfl
  rw [sendVectors, Prog.bind_of_ok (nowMs_apply env s)]
  cases env.patience with
  | zero => exact .inl rfl
  | succ turns =>
    right
    have hroom : ¬ (vectors.flatten.length ≤ 0 ∨ vectors = []) := by
      rw [not_or, Nat.not_le]
      exact ⟨List.length_pos_iff.mpr hsome, hone⟩
    obtain ⟨outcome, u, hwritev, hu⟩ : ∃ outcome u, writev env vectors
        { s with world := (env.nowMs s.world).2, log := s.log ++ [.clock (env.nowMs s.world).1] } =
          (.ok outcome, u) ∧
        u.log = s.log ++ [.clock (env.nowMs s.world).1] ++ [.sent vectors outcome s.context.standing] :=
      ⟨_, _, rfl, rfl⟩
    have hoffer : Offers s u := by
      refine ⟨vectors, outcome, s.context.standing, ?_, hsome⟩
      rw [noted_eq (hu.trans (List.append_assoc _ _ _))]
      exact List.mem_append_right _ (List.mem_singleton_self _)
    have hrest (place : ℕ × List (List UInt8) ⊕ SendOutcome) : Prog.Moves Grows (place.elim
        (Prog.loop (vectorsTurn env vectors.flatten.length (env.nowMs s.world).1) .blocked turns)
          Pure.pure) := by
      cases place with
      | inl place =>
        exact vectorsLoop_moves (passes_grows env) (fun _ _ _ => .one rfl trivial) _ _ _ _
          List.suffix_rfl
      | inr outcome => exact .pure _
    rw [Prog.loop, vectorsTurn, if_neg hroom, Prog.bind_assoc, Prog.bind_of_ok hwritev]
    apply hoffer.later
    refine Prog.Moves.bind ?_ hrest u
    cases outcome with
    | failed => exact (passes_grows env).lost.bind fun _ => .pure _
    | nothing => exact (passes_grows env).clock.bind fun _ => .pure _
    | bytes count =>
      exact (passes_grows env).stampTx.bind fun _ =>
        .ite ((passes_grows env).clock.bind fun _ => .pure _) (.pure _)

theorem deliverPublish_offers {message : OutgoingPublish} {packetId : UInt16}
    {parts : List (List UInt8)} {e : ClientError} {s t : Sys W} (hsome : parts.flatten ≠ [])
    (h : deliverPublish env message packetId parts s = (.error (.error e), t)) : Offers s t := by
  rw [deliverPublish, Prog.bind_eq_error] at h
  obtain h | ⟨outcome, u, hsend, h⟩ := h
  · have hoffers := sendVectors_offers env hsome s
    rw [h] at hoffers
    exact hoffers.resolve_left (fun hblocked => by cases hblocked)
  · have hoffers := sendVectors_offers env hsome s
    rw [hsend] at hoffers
    have hu : Offers s u := hoffers.resolve_left (fun hblocked => by cases hblocked)
    apply hu.later
    have hrest := ((sentWhole_moves (R := Grows) parts.flatten.length outcome).bind fun _ =>
      sentPublish_noted (fun _ _ _ => trivial) packetId message.qos) u
    rw [h] at hrest
    exact hrest

/-- The store refuses the copy of a message whose record was just taken. -/
structure StoreRefuses (env : Environment W) (message : OutgoingPublish) (packetId : UInt16)
    (s : Sys W) : Prop where
  recorded : message.qos ≠ .atMostOnce
  checked : ∃ size, checkPublish s.context message packetId = .ok size
  fresh : packetId ∉ inFlightIds s.context.outgoing
  room : (inFlight s.context.outgoing).length < s.context.outgoing.length
  storing : env.storing = true
  refused : (env.store packetId.toUInt32 (partsOf { message with dup := true } packetId)
    s.world).1 = false

def asked (s : Sys W) (r : PublishRecords) (message : OutgoingPublish) (packetId : UInt16) : Sys W :=
  { s with
    context := { s.context with records := some (r.reserve packetId message.qos).2 }
    log := s.log ++ [.recorded r (.reserve packetId message.qos)
      ((r.reserve packetId message.qos).1.map fun _ => ())] }

theorem reservePublish_apply (message : OutgoingPublish) (packetId : UInt16) {s : Sys W}
    {r : PublishRecords} (hr : s.context.records = some r) :
    (reservePublish message packetId s : Except Stop Unit × Sys W).2 = asked s r message packetId ∧
      ((r.reserve packetId message.qos).1 = .ok () →
        (reservePublish message packetId s).1 = .ok ()) := by
  rw [reservePublish, reserve, Prog.bind_of_ok (onRecords_some hr)]
  cases hanswer : (r.reserve packetId message.qos).1 with
  | error e =>
    refine ⟨?_, fun h => by cases h⟩
    rw [Prog.when]
    split_ifs
    · rw [asked, hanswer]
      rfl
    · rw [asked, hanswer]
      rfl
  | ok u =>
    rw [asked, hanswer]
    exact ⟨rfl, fun _ => rfl⟩

theorem reserve_inFlight (r : PublishRecords) (packetId : UInt16) {qos : QoS}
    (hqos : qos ≠ .atMostOnce) :
    (r.reserve packetId qos).1 = .ok () ∧ packetId ∉ inFlightIds r.outgoing ∧
        (inFlight r.outgoing).length < r.outgoing.length ∧
        inFlight (r.reserve packetId qos).2.outgoing =
          inFlight r.outgoing ++ [{ packetId, qos, state := .publishSend }] ∨
      (r.reserve packetId qos).1 ≠ .ok () ∧
        inFlight (r.reserve packetId qos).2.outgoing = inFlight r.outgoing ∧
        (packetId ≠ packetIdInvalid → ¬ (packetId ∉ inFlightIds r.outgoing ∧
          (inFlight r.outgoing).length < r.outgoing.length)) := by
  have heff := r.reserve_spec packetId qos
  generalize r.reserve packetId qos = result at heff ⊢
  cases heff with
  | unrecorded hq => exact absurd hq hqos
  | zero _ hid => exact .inr ⟨(fun h => by cases h), rfl, fun h => absurd hid h⟩
  | recorded _ _ result hadded =>
    cases hadded with
    | collision hmem =>
      exact .inr ⟨(fun h => by cases h), inFlight_settled _, fun _ h => h.1 hmem⟩
    | full hmem hfull =>
      exact .inr ⟨(fun h => by cases h), inFlight_settled _, fun _ h => absurd hfull h.2.ne⟩
    | appended array hmem hroom hlive => exact .inl ⟨rfl, hmem, hroom, hlive⟩

theorem records_of_checkPublish {c : MqttContext} {message : OutgoingPublish} {packetId : UInt16}
    {size : PacketSize} (h : checkPublish c message packetId = .ok size)
    (hqos : message.qos ≠ .atMostOnce) : packetId ≠ packetIdInvalid ∧ ∃ r, c.records = some r := by
  rw [checkPublish, except_bind_eq_ok] at h
  obtain ⟨_, hvalid, -⟩ := h
  rw [MqttContext.validatePublish, refuseIf_bind_eq_ok, refuseIf_bind_eq_ok, refuseIf_bind_eq_ok,
    refuseIf_eq_ok] at hvalid
  obtain ⟨hid, -, -, hroom⟩ := hvalid
  refine ⟨fun hzero => hid ⟨hqos, hzero⟩, ?_⟩
  cases hr : c.records with
  | none => exact absurd ⟨by rw [MqttContext.outgoing, hr]; rfl, hqos⟩ hroom
  | some r => exact ⟨r, rfl⟩

theorem keep_eq_error {key : UInt32} {parts : List (List UInt8)} {e : Stop} {s t : Sys W} :
    keep env key parts s = (.error e, t) ↔
      (env.storing = true ∧ (env.store key parts s.world).1 = false) ∧
        e = .error .publishStoreFailed ∧ t = (store env key parts s).2 := by
  rw [keep]
  split_ifs with hstoring
  · rw [Prog.bind_of_ok (store_apply env key parts s), store_apply, Client.refuse,
      Prog.refuse_apply]
    cases haccepted : (env.store key parts s.world).1 <;> simp [hstoring, eq_comm]
  · simp [hstoring]

theorem registerPublish_eq_error {message : OutgoingPublish} {packetId : UInt16} {e : Stop}
    {s t : Sys W} {r : PublishRecords} (hqos : message.qos ≠ .atMostOnce)
    (hr : s.context.records = some r)
    (h : registerPublish env message packetId s = (.error e, t)) :
    t.context.outgoing = (r.reserve packetId message.qos).2.outgoing ∧
      ((r.reserve packetId message.qos).1 = .ok () → env.storing = true ∧
        (env.store packetId.toUInt32 (partsOf { message with dup := true } packetId)
          s.world).1 = false) := by
  have hreserve := reservePublish_apply message packetId hr
  rw [registerPublish, Prog.when, if_pos hqos, Prog.when, if_pos hqos, Prog.bind_eq_error] at h
  obtain h | ⟨_, u, hu, h⟩ := h
  · rw [h] at hreserve
    obtain ⟨rfl, hok⟩ := hreserve
    exact ⟨rfl, fun hanswer => by cases hok hanswer⟩
  · rw [hu] at hreserve
    obtain ⟨rfl, -⟩ := hreserve
    rw [Prog.bind_eq_error] at h
    obtain h | ⟨_, v, -, h⟩ := h
    · obtain ⟨hrefused, -, rfl⟩ := keep_eq_error.mp h
      exact ⟨rfl, fun _ => hrefused⟩
    · cases h

theorem outgoing_eq {c : MqttContext} {r : PublishRecords} (h : c.records = some r) :
    c.outgoing = r.outgoing := by
  rw [MqttContext.outgoing, h]
  rfl

/-- A store that refuses a message that was just recorded leaves it recorded. -/
theorem publish_of_storeRefuses {message : OutgoingPublish} {packetId : UInt16} {s : Sys W}
    (h : StoreRefuses env message packetId s) :
    ∃ t, publish env message packetId s = (.error (.error .publishStoreFailed), t) ∧
      ¬ Offers s t ∧ inFlight t.context.outgoing =
        inFlight s.context.outgoing ++
          [{ packetId, qos := message.qos, state := .publishSend }] := by
  obtain ⟨size, hcheck⟩ := h.checked
  obtain ⟨hid, r, hr⟩ := records_of_checkPublish hcheck h.recorded
  have hfresh := h.fresh
  have hroom := h.room
  rw [outgoing_eq hr] at hfresh hroom
  obtain ⟨hanswer, -, -, hadded⟩ | ⟨-, -, hnone⟩ :=
    reserve_inFlight r packetId h.recorded
  · obtain ⟨hstate, hok⟩ := reservePublish_apply message packetId hr
    have hreserve : reservePublish message packetId s = (.ok (), asked s r message packetId) :=
      Prod.ext (hok hanswer) hstate
    have hkeep : keep env packetId.toUInt32 (partsOf { message with dup := true } packetId)
        (asked s r message packetId) = (.error (.error .publishStoreFailed),
          (store env packetId.toUInt32 (partsOf { message with dup := true } packetId)
            (asked s r message packetId)).2) :=
      keep_eq_error.mpr ⟨⟨h.storing, h.refused⟩, rfl, rfl⟩
    refine ⟨(store env packetId.toUInt32 (partsOf { message with dup := true } packetId)
      (asked s r message packetId)).2, ?_, ?_, ?_⟩
    · rw [publish_eq]
      apply Prog.bind_of_error
      rw [preparePublish_apply, hcheck]
      dsimp only
      rw [registerPublish, Prog.when, if_pos h.recorded, Prog.when, if_pos h.recorded,
        Prog.bind_of_ok hreserve, Prog.bind_of_error hkeep]
    · rintro ⟨parts, outcome, standing, hmem, -⟩
      rw [noted_eq (List.append_assoc _ _ _)] at hmem
      simp at hmem
    · rw [outgoing_eq hr]
      exact hadded
  · exact absurd ⟨hfresh, hroom⟩ (hnone hid)

/-- A PUBLISH that answers an error before a byte of it is offered leaves the messages in flight as
they were, unless the store refused the copy of one that had just been added to them. -/
theorem unsent_publish_iff (env : Environment W) (message : OutgoingPublish) (packetId : UInt16)
    (s : Sys W) :
    (∀ e t, publish env message packetId s = (.error (.error e), t) → ¬ Offers s t →
        inFlight t.context.outgoing = inFlight s.context.outgoing) ↔
      ¬ StoreRefuses env message packetId s := by
  constructor
  · intro hall hrefuses
    obtain ⟨t, hpublish, hunsent, hadded⟩ := publish_of_storeRefuses hrefuses
    rw [hall _ t hpublish hunsent] at hadded
    simp at hadded
  · intro hnot e t h hunsent
    rw [publish_eq, Prog.bind_eq_error] at h
    obtain h | ⟨parts, u, hprepare, hdeliver⟩ := h
    · rw [preparePublish_apply] at h
      cases hcheck : checkPublish s.context message packetId with
      | error e' =>
        rw [hcheck] at h
        obtain ⟨-, rfl⟩ := Prod.mk.inj h
        rfl
      | ok size =>
        rw [hcheck] at h
        dsimp only at h
        by_cases hqos : message.qos = .atMostOnce
        · rw [registerPublish, Prog.when, if_neg (not_not.mpr hqos), Prog.when,
            if_neg (not_not.mpr hqos)] at h
          cases h
        · obtain ⟨-, r, hr⟩ := records_of_checkPublish hcheck hqos
          obtain ⟨houtgoing, hrefused⟩ := registerPublish_eq_error hqos hr h
          rw [houtgoing, outgoing_eq hr]
          obtain ⟨hanswer, hfresh, hroom, -⟩ | ⟨-, hsame, -⟩ :=
            reserve_inFlight r packetId hqos
          · obtain ⟨hstoring, hrefused⟩ := hrefused hanswer
            refine absurd ⟨hqos, ⟨size, hcheck⟩, ?_, ?_, hstoring, hrefused⟩ hnot
            · rwa [outgoing_eq hr]
            · rwa [outgoing_eq hr]
          · exact hsame
    · rw [preparePublish_apply] at hprepare
      cases hcheck : checkPublish s.context message packetId with
      | error e' =>
        rw [hcheck] at hprepare
        cases hprepare
      | ok size =>
        rw [hcheck] at hprepare
        dsimp only at hprepare
        obtain ⟨hfits, -, -⟩ := publishPacketSize_eq_ok_iff.mp (checkPublish_eq_ok hcheck).1
        obtain rfl := registerPublish_eq_ok hprepare
        have hgrows := (registerPublish_noted env packetId hfits).mono
          (fun h => Logs.mono h fun _ _ => trivial) s
        rw [hprepare] at hgrows
        have hsome : (partsOf message packetId).flatten ≠ [] := by
          rw [flatten_partsOf hfits]
          exact List.cons_ne_nil _ _
        exact absurd ((deliverPublish_offers hsome hdeliver).earlier hgrows) hunsent

def refusingStore : Environment Script :=
  { Script.environment true with store := fun _ _ w => (false, w) }

def connectedScript : Sys Script :=
  afterAll (start (List.replicate 64 0) { reads := [Script.connack false []] })
    [(Script.environment true, .request (.enableQos [Record.default] [Record.default] [])),
      (Script.environment true, .request (.connect (Script.connect true []) 0))]

/-- The message is recorded although no one keeps it and nothing was sent, and it cannot be
published again. -/
theorem refused_message_recorded :
    Reachable connectedScript ∧ ∃ t,
      publish refusingStore smallMessage 1 connectedScript =
          (.error (.error .publishStoreFailed), t) ∧
        ¬ Offers connectedScript t ∧
        inFlight t.context.outgoing ≠ inFlight connectedScript.context.outgoing ∧
        (publish (Script.environment true) smallMessage 1 t).1 =
          .error (.error (.state .stateCollision)) := by
  constructor
  · apply (Reachable.start _ _).afterAll
    simp [Invocation.restores]
  · have hrefuses : StoreRefuses refusingStore smallMessage 1 connectedScript :=
      ⟨by decide, ⟨⟨8, 10⟩, by decide +kernel⟩, by decide +kernel, by decide +kernel, rfl, rfl⟩
    obtain ⟨t, hpublish, hunsent, hadded⟩ := publish_of_storeRefuses hrefuses
    refine ⟨t, hpublish, hunsent, ?_, ?_⟩
    · rw [hadded]
      simp
    · have ht : t = (publish refusingStore smallMessage 1 connectedScript).2 := by rw [hpublish]
      rw [ht]
      decide +kernel

end Client

end RtosMqtt
