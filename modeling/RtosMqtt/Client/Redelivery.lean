import RtosMqtt.Client.Offers
import RtosMqtt.Client.Reachable
import RtosMqtt.Client.Scripted

/-! # What a PUBLISH is sent for

A PUBLISH above QoS 0 has a record when its bytes go out. The state machine is
asked only afterwards, and a re-delivery goes out whatever record its identifier
has: one of another QoS, or one of a message whose PUBREC has come.
-/

namespace RtosMqtt

variable {W : Type}

/-- The record of a message has its QoS, and its PUBLISH is owed or not yet answered. -/
def Awaits (records : List Record) (packetId : UInt16) (qos : QoS) : Prop :=
  ∃ x ∈ inFlight records, x.packetId = packetId ∧ x.qos = qos ∧
    (x.state = .publishSend ∨ qos = .atLeastOnce ∧ x.state = .pubAckPending ∨
      qos = .exactlyOnce ∧ x.state = .pubRecPending)

/-- A re-delivery under an identifier whose record has another QoS or awaits no PUBREC any more. -/
def Misplaced (records : List Record) (message : OutgoingPublish) (packetId : UInt16) : Prop :=
  message.dup = true ∧ ∃ x ∈ inFlight records, x.packetId = packetId ∧
    (x.qos ≠ message.qos ∨ x.state = .pubRelSend ∨ x.state = .pubCompPending)

/-- The record of a message that is about to go out. -/
theorem awaits_iff {message : OutgoingPublish} {packetId : UInt16} {r r' : PublishRecords}
    (hqos : message.qos ≠ .atMostOnce) (hr : r.WellFormed) (h : Client.Reserved message packetId r r') :
    Awaits r'.outgoing packetId message.qos ↔ ¬ Misplaced r.outgoing message packetId := by
  obtain ⟨rfl, hanswer⟩ := h
  have heffect := PublishRecords.reserve_spec r packetId message.qos
  generalize r.reserve packetId message.qos = result at heffect hanswer
  cases heffect with
  | unrecorded hq => exact absurd hq hqos
  | zero => simp at hanswer
  | recorded _ hid result hadd =>
    cases hadd with
    | full => simp at hanswer
    | appended array hnew _ hlive =>
      dsimp only
      constructor
      · rintro - ⟨-, x, hx, hid, -⟩
        exact hnew (List.mem_map.mpr ⟨x, hx, hid⟩)
      · intro _
        refine ⟨_, hlive ▸ List.mem_append_right _ (List.mem_singleton.mpr rfl), rfl, rfl, .inl rfl⟩
    | collision hold =>
      obtain ⟨x, hx, hxid⟩ := List.mem_map.mp hold
      have hdup : message.dup = true := by simpa using hanswer
      have hlegal := hr.outgoing.legal x hx
      rw [Awaits, Misplaced, inFlight_settled]
      constructor
      · rintro ⟨y, hy, hyid, hyqos, hystate⟩ ⟨-, z, hz, hzid, hzstate⟩
        obtain rfl := List.inj_on_of_nodup_map hr.outgoing.distinct hy hz (hyid.trans hzid.symm)
        rcases hzstate with hqos' | hstate | hstate
        · exact hqos' hyqos
        · simp [hstate] at hystate
        · simp [hstate] at hystate
      · intro hnot
        have hkept : ¬ (x.qos ≠ message.qos ∨ x.state = .pubRelSend ∨ x.state = .pubCompPending) :=
          fun h => hnot ⟨hdup, x, hx, hxid, h⟩
        rw [not_or, not_or, not_not] at hkept
        obtain ⟨hsame, hrel, hcomp⟩ := hkept
        refine ⟨x, hx, hxid, hsame, ?_⟩
        rw [← hsame]
        rcases hlegal with ⟨hq, hstate | hstate⟩ | ⟨hq, hstate | hstate | hstate | hstate⟩
        · exact .inl hstate
        · exact .inr (.inl ⟨hq, hstate⟩)
        · exact .inl hstate
        · exact .inr (.inr ⟨hq, hstate⟩)
        · exact absurd hstate hrel
        · exact absurd hstate hcomp

theorem updatePublish_of_awaits {r : PublishRecords} (hr : r.WellFormed) {packetId : UInt16}
    {qos : QoS} (hqos : qos ≠ .atMostOnce) (h : Awaits r.outgoing packetId qos) :
    ∃ state, (r.updatePublish packetId .send qos).1 = .ok state := by
  obtain ⟨x, hx, hid, hxqos, hstate⟩ := h
  have heffect := PublishRecords.updatePublish_spec hr.outgoing.distinct packetId .send qos
  generalize r.updatePublish packetId .send qos = result at heffect
  cases heffect with
  | unrecorded => exact ⟨_, rfl⟩
  | repeated => exact ⟨_, rfl⟩
  | sent => exact ⟨_, rfl⟩
  | zero _ _ hzero => exact absurd (hid.trans hzero) (mem_inFlight.mp hx).2
  | unknown _ _ hnone => exact absurd (List.mem_map.mpr ⟨x, hx, hid⟩) hnone
  | mismatch _ y hy hyid hyqos =>
    obtain rfl := List.inj_on_of_nodup_map hr.outgoing.distinct hx hy (hid.trans hyid.symm)
    exact absurd hxqos hyqos
  | illegal _ y hy hyid hyqos hv =>
    obtain rfl := List.inj_on_of_nodup_map hr.outgoing.distinct hx hy (hid.trans hyid.symm)
    rcases hstate with hstate | ⟨rfl, hstate⟩ | ⟨rfl, hstate⟩
    · rw [hstate] at hv
      cases qos with
      | atMostOnce => exact absurd rfl hqos
      | atLeastOnce => cases hv
      | exactlyOnce => cases hv
    · rw [hstate] at hv
      cases hv
    · rw [hstate] at hv
      cases hv

theorem Conduct.quietly {env : Environment W} {may quiet : Act → Prop} {s t u : Sys W}
    {offers : List (Offer W)} (h : Conduct env may s offers t)
    (hquiet : ∀ act, quiet act → act.offers = false ∧ may act) (hc : Course env quiet t u) :
    Conduct env may s offers u := by
  induction hc with
  | refl => exact h
  | tail _ hpiece ih =>
    obtain ⟨act, hact, hpiece⟩ := hpiece
    exact ih.quiet (hquiet act hact).2 (hquiet act hact).1 hpiece

namespace Client

variable {env : Environment W}

def settling (act : Act) : Prop := act = .note ∨ act = .call

theorem deliverPublish_course (message : OutgoingPublish) (packetId : UInt16)
    (parts : List (List UInt8)) (u : Sys W) :
    Course env settling (sendVectors env parts u).2
      (deliverPublish env message packetId parts u).2 := by
  rw [deliverPublish, Prog.bind_apply]
  rcases sendVectors env parts u with ⟨stop | outcome, v⟩
  · exact .refl
  · exact ((sentWhole_moves _ _).bind fun _ =>
      .when ((updatePublish_course (.inr rfl) _ _ _).bind fun _ =>
        (accepted_moves _).bind fun _ => .pure _)) v

theorem deliverPublish_accepted {message : OutgoingPublish} {packetId : UInt16}
    {parts : List (List UInt8)} {u : Sys W} {r : PublishRecords}
    (hqos : message.qos ≠ .atMostOnce) (hr : u.context.records = some r) (hwf : r.WellFormed)
    (hawaits : Awaits r.outgoing packetId message.qos) (e : StateError) :
    (deliverPublish env message packetId parts u).1 ≠ .error (.error (.state e)) := by
  intro h
  rw [deliverPublish, Prog.bind_apply] at h
  have hrecords := (sendVectors_io env parts u).quiet.records
  rcases hsent : sendVectors env parts u with ⟨stop | outcome, v⟩
  · have hstops : stop = .blocked := sendVectors_stops (by rw [hsent])
    rw [hsent, hstops] at h
    cases h
  · rw [hsent] at h hrecords
    dsimp only at h
    rw [sentWhole, refuse, Prog.refuse_bind_apply] at h
    split_ifs at h
    · cases h
    unfold Prog.when at h
    rw [if_pos hqos, updatePublish,
      Prog.bind_of_ok (onRecords_some (hrecords.trans hr))] at h
    obtain ⟨state, hok⟩ := updatePublish_of_awaits hwf hqos hawaits
    rw [hok] at h
    cases h

/-- In every state that can be reached, a PUBLISH above QoS 0 that goes out at all goes out for a
record that awaits it, and the state machine then agrees, exactly when it is not a re-delivery
under an identifier whose record has another QoS or has its PUBREC. -/
theorem publish_awaits_iff {s : Sys W} (hs : Reachable s) (env : Environment W)
    (message : OutgoingPublish) (packetId : UInt16) (hqos : message.qos ≠ .atMostOnce) :
    ∃ offers, Conduct env (fun act => act.handling = true) s offers
        (publish env message packetId s).2 ∧
      Logs (fun e => ∀ parts outcome standing, e = .sent parts outcome standing →
        ∃ o ∈ offers, parts.flatten <:+: o.packet) s (publish env message packetId s).2 ∧
      ∀ o ∈ offers,
        ((Awaits o.before.context.outgoing packetId message.qos ∧
            ∀ e, (publish env message packetId s).1 ≠ .error (.error (.state e))) ↔
          ¬ Misplaced s.context.outgoing message packetId) := by
  have hquiet (act : Act) (h : settling act) : act.offers = false ∧ act.handling = true := by
    rcases h with rfl | rfl <;> exact ⟨rfl, rfl⟩
  have hbefore : Conduct env (fun act => act.handling = true) s []
      (preparePublish env message packetId s).2 :=
    Conduct.nil.quietly hquiet
      (preparePublish_course (.inl rfl) (.inr rfl) message packetId s)
  rw [publish_eq]
  rcases hprepare : preparePublish env message packetId s with ⟨stop | parts, u⟩
  · rw [hprepare] at hbefore
    rw [Prog.bind_of_error hprepare]
    exact ⟨[], hbefore, hbefore.logs, fun o ho => absurd ho List.not_mem_nil⟩
  · rw [hprepare] at hbefore
    rw [Prog.bind_of_ok hprepare]
    have hprepared := preparePublish_eq_ok hprepare
    obtain ⟨r, r', hr, hr', hreserved⟩ := hprepared.reserved hqos
    have hwf := hs.wellKept r hr
    have hoffer : Conduct env (fun act => act.handling = true) s [⟨.send .sized, parts.flatten, u⟩]
        (sendVectors env parts u).2 := by
      refine Conduct.offer (o := ⟨.send .sized, parts.flatten, u⟩) hbefore rfl ⟨?_, ?_⟩
        ⟨parts, List.infix_refl _, .inl rfl⟩
      · exact hprepared.still.status.trans hprepared.status
      · rw [hprepared.still.properties]
        exact hprepared.length
    have hwhole := hoffer.quietly hquiet (deliverPublish_course message packetId parts u)
    refine ⟨_, hwhole, hwhole.logs, ?_⟩
    intro o ho
    obtain rfl := List.mem_singleton.mp ho
    have hsOut : s.context.outgoing = r.outgoing := by rw [MqttContext.outgoing, hr]; rfl
    have huOut : u.context.outgoing = r'.outgoing := by rw [MqttContext.outgoing, hr']; rfl
    dsimp only
    rw [hsOut, huOut, ← awaits_iff hqos hwf hreserved]
    constructor
    · exact fun h => h.1
    · intro hawaits
      refine ⟨hawaits, ?_⟩
      apply deliverPublish_accepted hqos hr' _ hawaits
      rw [hreserved.records]
      exact hwf.reserve packetId message.qos

def oneByte (dup : Bool) : OutgoingPublish :=
  { dup, qos := .exactlyOnce, retain := false, topicName := [97], payload := [1], properties := [] }

/-- A QoS 2 message is sent, and its PUBREC is answered. -/
def releaseOne : List (Environment Script × Invocation) :=
  let env := Script.environment false
  [(env, .request (.enableQos [Record.default] [Record.default] [])),
    (env, .request (.connect (Script.connect true []) 0)),
    (env, .request (.traffic (.publish (oneByte false) 1))),
    (env, .request (.traffic .processLoop))]

/-- The client of these calls, with that many of them made. -/
def releasing (calls : ℕ) : Sys Script :=
  afterAll (start (List.replicate 64 0)
    { reads := [Script.connack false [], [0x50, 2, 0, 1]] }) (releaseOne.take calls)

theorem reachable_releasing (calls : ℕ) : Reachable (releasing calls) := by
  apply (Reachable.start _ _).afterAll
  intro c hc
  have hall : ∀ c ∈ releaseOne, c.2.restores = false := by decide
  exact hall c (List.mem_of_mem_take hc)

/-- The message goes out again after its PUBREC, and only then does the state machine refuse. -/
theorem published_after_pubrec :
    Reachable (releasing 4) ∧
      (releasing 4).context.outgoing = [⟨1, .exactlyOnce, .pubCompPending⟩] ∧
      ((publish (Script.environment false) (oneByte true) 1 (releasing 4)).2.log.filterMap
        Observation.offered).getLast? = some [0x3C, 7, 0, 1, 97, 0, 1, 0, 1] ∧
      (publish (Script.environment false) (oneByte true) 1 (releasing 4)).2.context.outgoing =
        [⟨1, .exactlyOnce, .pubCompPending⟩] ∧
      (publish (Script.environment false) (oneByte true) 1 (releasing 4)).1 =
        .error (.error (.state .illegalState)) :=
  ⟨reachable_releasing 4, by decide +kernel⟩

/-- A first delivery goes out, and for the record that was just reserved. -/
theorem publish_awaits_of_first :
    ∃ offers : List (Offer Script), offers ≠ [] ∧ ∀ o ∈ offers,
      Awaits o.before.context.outgoing 1 .exactlyOnce := by
  obtain ⟨offers, -, ⟨more, hlog, hmore⟩, hoffers⟩ := publish_awaits_iff (reachable_releasing 2)
    (Script.environment false) (oneByte false) 1 (by decide)
  refine ⟨offers, ?_, fun o ho => ((hoffers o ho).mpr fun h => Bool.false_ne_true h.1).1⟩
  rintro rfl
  have hsent : ((releasing 2).log.filterMap Observation.offered).length <
      ((publish (Script.environment false) (oneByte false) 1 (releasing 2)).2.log.filterMap
        Observation.offered).length := by
    decide +kernel
  have hnone : more.filterMap Observation.offered = [] := by
    apply List.filterMap_eq_nil_iff.mpr
    intro o ho
    cases o with
    | sent parts outcome standing =>
      obtain ⟨o, ho, -⟩ := hmore _ ho parts outcome standing rfl
      exact absurd ho List.not_mem_nil
    | _ => rfl
  rw [hlog, List.filterMap_append, hnone, List.append_nil] at hsent
  exact Nat.lt_irrefl _ hsent

end Client

end RtosMqtt
