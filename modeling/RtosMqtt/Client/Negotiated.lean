import RtosMqtt.Client.Opened
import RtosMqtt.Client.Scripted
import RtosMqtt.Wire.Announcement

/-! # What a connection negotiated

A CONNECT and a CONNACK write what they announce over whatever the last
connection left. So the limits are those of this connection exactly when each
of them that is not announced had its default before.
-/

namespace RtosMqtt

variable {W : Type}

structure SameTerms (s t : Sys W) : Prop where
  properties : t.context.properties = s.context.properties
  keepAliveSeconds : t.context.keepAliveSeconds = s.context.keepAliveSeconds
  sessionPresent : t.sessionPresent = s.sessionPresent

instance : IsPreorder (Sys W) SameTerms where
  refl _ := ⟨rfl, rfl, rfl⟩
  trans _ _ _ h h' := ⟨h'.properties.trans h.properties,
    h'.keepAliveSeconds.trans h.keepAliveSeconds, h'.sessionPresent.trans h.sessionPresent⟩

theorem Io.sameTerms {s t : Sys W} (h : Io s t) : SameTerms s t :=
  ⟨h.steady.properties, h.steady.keepAliveSeconds, h.sessionPresent⟩

namespace Client

variable {env : Environment W}

theorem onRecords_sameTerms {α : Type} (call : Call)
    (f : PublishRecords → Except StateError α × PublishRecords) :
    (onRecords call f : Client W _).Moves SameTerms := by
  intro s
  cases hr : s.context.records with
  | none =>
    rw [onRecords_none hr]
    exact refl_of SameTerms s
  | some r =>
    rw [onRecords_some hr]
    exact ⟨rfl, rfl, rfl⟩

theorem sendPublishAcks_sameTerms (packetId : UInt16) (state : PublishState) :
    (sendPublishAcks env packetId state).Moves SameTerms := by
  unfold sendPublishAcks
  split
  · exact .pure _
  exact (check_moves _ _).bind fun _ => connected_moves.bind fun _ =>
    ((sendBuffer_io env _).mono Io.sameTerms).bind fun _ => (sentWhole_moves _ _).bind fun _ =>
      Prog.Moves.bind (fun _ => ⟨rfl, rfl, rfl⟩) fun _ => (onRecords_sameTerms _ _).bind fun _ =>
        (accepted_moves _).bind fun _ => .pure _

theorem handleUncleanSession_sameTerms : (handleUncleanSession env).Moves SameTerms := by
  have hstored (key : UInt32) : (resendStored env key).Moves SameTerms :=
    (resendStored_io env key).mono Io.sameTerms
  exact (resendAll_moves fun _ => .ite (hstored _) (sendPublishAcks_sameTerms _ _)).bind fun _ =>
    .when (resendAll_moves fun _ => hstored _)

theorem handleCleanSession_sameTerms : (handleCleanSession env).Moves SameTerms := by
  have hclear (key : UInt16 → UInt32) (ids : List UInt16) :
      (clearAll env key ids).Moves SameTerms := by
    induction ids with
    | nil => exact .pure _
    | cons packetId ids ih => exact ((clear_io env _).mono Io.sameTerms).bind fun _ => ih
  refine Prog.Moves.bind (fun _ => ⟨rfl, rfl, rfl⟩) fun _ => context_moves.bind fun c => ?_
  cases c.records with
  | none => exact .pure _
  | some r =>
    exact (Prog.Moves.when (hclear _ _)).bind fun _ => (Prog.Moves.when (hclear _ _)).bind
      fun _ _ => ⟨rfl, rfl, rfl⟩

theorem settle_terms {s t : Sys W} (h : settle env s = (.ok (), t)) :
    t.context.properties = s.context.properties ∧
      t.context.keepAliveSeconds = s.context.properties.server.keepAlive ∧
      t.sessionPresent = s.sessionPresent := by
  obtain ⟨u, hclean, hunclean⟩ := settle_eq_ok h
  have hu : SameTerms s.capped u :=
    (Prog.Moves.when handleCleanSession_sameTerms).yields s.capped () u hclean
  have ht : SameTerms u.opened t :=
    (Prog.Moves.when handleUncleanSession_sameTerms).yields u.opened () t hunclean
  have hproperties : u.context.properties = s.context.properties := hu.properties
  refine ⟨ht.properties.trans hproperties, ht.keepAliveSeconds.trans ?_,
    ht.sessionPresent.trans hu.sessionPresent⟩
  rw [← hproperties]
  rfl

theorem announcedProperties_eq {options : Connect} {p : ConnectionProperties}
    (hupdated : options.properties ≠ [] → (updateWithConnectProps options.properties
      { p with server := { p.server with keepAlive := options.info.keepAliveSeconds } }).1 =
        .ok ()) : ∃ a, Announcement.decode options.properties = .ok a ∧
      announcedProperties options p =
        a.writtenOver { p with
          server := { p.server with keepAlive := options.info.keepAliveSeconds } } := by
  unfold announcedProperties
  dsimp only
  split_ifs with hnil
  · exact ⟨{}, by rw [hnil]; rfl, rfl⟩
  · exact updateWithConnectProps_eq_ok (Prod.ext (hupdated hnil) rfl)

theorem sending_terms {options : Connect} {s u : Sys W}
    (h : sending env options s = (.ok (), u)) :
    ∃ a, Announcement.decode (options.outgoing s.context).properties = .ok a ∧
      u.context.properties = a.writtenOver { checkedProperties options s.context with
        server := { s.context.properties.server with
          keepAlive := options.info.keepAliveSeconds } } := by
  obtain ⟨-, -, ⟨size, hsent⟩, -, -⟩ := sending_eq_ok h
  obtain ⟨hsmooth, hupdated, -⟩ := sendConnect_eq_ok hsent
  obtain ⟨a, hdecoded, hannounced⟩ := announcedProperties_eq hupdated
  have hserver : (checkedProperties options s.context).server = s.context.properties.server := by
    unfold checkedProperties
    split_ifs
    · rfl
    · split <;> rfl
  refine ⟨a, hdecoded, ?_⟩
  rw [← hserver]
  exact hsmooth.still.properties.trans hannounced

end Client

/-- The limits of a broker that has announced none. -/
def ServerLimits.initial : ServerLimits := {}

/-- Each limit is the one a CONNACK announced, or else its default. -/
structure Granted (connack : ConnAck) (limits : ServerLimits) : Prop where
  receiveMax : limits.receiveMax =
    connack.announced .receiveMaximum connack.server.receiveMax ServerLimits.initial.receiveMax
  maxQos : limits.maxQos =
    connack.announced .maxQos connack.server.maxQos ServerLimits.initial.maxQos
  retainAvailable : limits.retainAvailable = connack.announced .retainAvailable
    connack.server.retainAvailable ServerLimits.initial.retainAvailable
  maxPacketSize : limits.maxPacketSize =
    connack.announced .maxPacketSize connack.server.maxPacketSize ServerLimits.initial.maxPacketSize
  topicAliasMax : limits.topicAliasMax =
    connack.announced .topicAliasMax connack.server.topicAliasMax ServerLimits.initial.topicAliasMax
  wildcardAvailable : limits.wildcardAvailable = connack.announced .wildcardSubscriptionAvailable
    connack.server.wildcardAvailable ServerLimits.initial.wildcardAvailable
  subscriptionIdAvailable : limits.subscriptionIdAvailable = connack.announced
    .subscriptionIdAvailable connack.server.subscriptionIdAvailable
      ServerLimits.initial.subscriptionIdAvailable
  sharedAvailable : limits.sharedAvailable = connack.announced .sharedSubscriptionAvailable
    connack.server.sharedAvailable ServerLimits.initial.sharedAvailable

/-- Each limit that a CONNACK does not announce is its default. -/
structure Unspoiled (connack : ConnAck) (limits : ServerLimits) : Prop where
  receiveMax : .receiveMaximum ∉ connack.fieldsPresent →
    limits.receiveMax = ServerLimits.initial.receiveMax
  maxQos : .maxQos ∉ connack.fieldsPresent → limits.maxQos = ServerLimits.initial.maxQos
  retainAvailable : .retainAvailable ∉ connack.fieldsPresent →
    limits.retainAvailable = ServerLimits.initial.retainAvailable
  maxPacketSize : .maxPacketSize ∉ connack.fieldsPresent →
    limits.maxPacketSize = ServerLimits.initial.maxPacketSize
  topicAliasMax : .topicAliasMax ∉ connack.fieldsPresent →
    limits.topicAliasMax = ServerLimits.initial.topicAliasMax
  wildcardAvailable : .wildcardSubscriptionAvailable ∉ connack.fieldsPresent →
    limits.wildcardAvailable = ServerLimits.initial.wildcardAvailable
  subscriptionIdAvailable : .subscriptionIdAvailable ∉ connack.fieldsPresent →
    limits.subscriptionIdAvailable = ServerLimits.initial.subscriptionIdAvailable
  sharedAvailable : .sharedSubscriptionAvailable ∉ connack.fieldsPresent →
    limits.sharedAvailable = ServerLimits.initial.sharedAvailable

theorem ConnAck.announced_eq_iff {α : Type} {c : ConnAck} {field : Field} {new old initial : α} :
    c.announced field new old = c.announced field new initial ↔
      (field ∉ c.fieldsPresent → old = initial) := by
  unfold announced
  by_cases h : field ∈ c.fieldsPresent <;> simp [h]

theorem granted_iff_unspoiled {connack : ConnAck} {p : ConnectionProperties} :
    Granted connack (applyConnack p connack).server ↔ Unspoiled connack p.server := by
  constructor
  · rintro ⟨h₁, h₂, h₃, h₄, h₅, h₆, h₇, h₈⟩
    exact ⟨ConnAck.announced_eq_iff.mp h₁, ConnAck.announced_eq_iff.mp h₂,
      ConnAck.announced_eq_iff.mp h₃, ConnAck.announced_eq_iff.mp h₄,
      ConnAck.announced_eq_iff.mp h₅, ConnAck.announced_eq_iff.mp h₆,
      ConnAck.announced_eq_iff.mp h₇, ConnAck.announced_eq_iff.mp h₈⟩
  · rintro ⟨h₁, h₂, h₃, h₄, h₅, h₆, h₇, h₈⟩
    exact ⟨ConnAck.announced_eq_iff.mpr h₁, ConnAck.announced_eq_iff.mpr h₂,
      ConnAck.announced_eq_iff.mpr h₃, ConnAck.announced_eq_iff.mpr h₄,
      ConnAck.announced_eq_iff.mpr h₅, ConnAck.announced_eq_iff.mpr h₆,
      ConnAck.announced_eq_iff.mpr h₇, ConnAck.announced_eq_iff.mpr h₈⟩

theorem unspoiled_keepAlive_iff {connack : ConnAck} {limits : ServerLimits} {keepAlive : UInt16} :
    Unspoiled connack { limits with keepAlive } ↔ Unspoiled connack limits := by
  constructor
  · rintro ⟨h₁, h₂, h₃, h₄, h₅, h₆, h₇, h₈⟩
    exact ⟨h₁, h₂, h₃, h₄, h₅, h₆, h₇, h₈⟩
  · rintro ⟨h₁, h₂, h₃, h₄, h₅, h₆, h₇, h₈⟩
    exact ⟨h₁, h₂, h₃, h₄, h₅, h₆, h₇, h₈⟩

namespace Client

variable {env : Environment W}

/-- From any context: after a connect that succeeds the limits of the broker are those its CONNACK
announced, with the defaults for the others, exactly when these had their defaults before; and the
keep alive is always the one the CONNACK announced, or else the CONNECT's own. -/
theorem granted_iff {options : Connect} {timeoutMs : UInt32} {s t : Sys W}
    (h : connect env options timeoutMs s = (.ok (), t)) :
    ∃ connack u, opening env options timeoutMs s = (.ok connack, u) ∧
      (Granted connack t.context.properties.server ↔
        Unspoiled connack s.context.properties.server) ∧
      t.context.keepAliveSeconds = connack.announced .serverKeepAlive connack.server.keepAlive
        options.info.keepAliveSeconds := by
  obtain ⟨-, u, connack, hopening, -, -, hsettled⟩ := connect_eq_ok h
  obtain ⟨hproperties, hkeepAlive, -⟩ := settle_terms hsettled
  have hopened := hopening
  rw [opening, Prog.bind_eq_ok] at hopened
  obtain ⟨_, v, hsent, hread⟩ := hopened
  obtain ⟨a, -, hterms⟩ := sending_terms hsent
  have hserver : u.context.properties.server = { s.context.properties.server with
      keepAlive := options.info.keepAliveSeconds } := by
    rw [(readConnack_eq_ok hread).1.still.properties, hterms]
    rfl
  refine ⟨connack, u, hopening, ?_, ?_⟩
  · rw [hproperties]
    refine granted_iff_unspoiled.trans ?_
    rw [hserver]
    exact unspoiled_keepAlive_iff
  · rw [hkeepAlive]
    have hannounced : (u.acknowledged connack).context.properties.server.keepAlive =
        connack.announced .serverKeepAlive connack.server.keepAlive
          u.context.properties.server.keepAlive := rfl
    rw [hannounced, hserver]

/-- The limits of a first connection. -/
theorem granted_first_connection :
    let env := Script.environment false
    let options := Script.connect true []
    let s := start (List.replicate 64 0) { reads := [Script.connack false [0x21, 0, 1]] }
    let t := (connect env options 0 s).2
    ∃ connack u, opening env options 0 s = (.ok connack, u) ∧
      (Granted connack t.context.properties.server ↔
        Unspoiled connack s.context.properties.server) ∧
      t.context.keepAliveSeconds = connack.announced .serverKeepAlive connack.server.keepAlive
        options.info.keepAliveSeconds :=
  granted_iff (Prod.ext (by decide +kernel) rfl)

/-- A limit of the last connection holds on the next one, whose CONNACK announces none. -/
theorem earlier_receiveMax_remains :
    let env := Script.environment false
    let connect : Invocation := .request (.connect (Script.connect true []) 0)
    let s := afterAll (start (List.replicate 64 0)
      { reads := [Script.connack false [0x21, 0, 1], Script.connack false []] })
      [(env, connect), (env, .request (.traffic (.disconnect none [])))]
    (connect.perform env s).1 = .ok () ∧
      (opening env (Script.connect true []) 0 s).1 =
        .ok { sessionPresent := false, reasonCode := 0, properties := [] } ∧
      (connect.perform env s).2.context.properties.server.receiveMax = 1 := by
  decide +kernel

end Client

/-- The limits of a client that has announced none. -/
def ConnectionProperties.initial : ConnectionProperties := {}

/-- The session says what a section says, with the default for every property it leaves out. -/
structure Announced (a : Announcement) (p : ConnectionProperties) : Prop where
  sessionExpiry : p.sessionExpiry =
    a.sessionExpiry.getD ConnectionProperties.initial.sessionExpiry
  receiveMax : p.client.receiveMax =
    a.receiveMax.getD ConnectionProperties.initial.client.receiveMax
  maxPacketSize : p.client.maxPacketSize =
    a.maxPacketSize.getD ConnectionProperties.initial.client.maxPacketSize
  topicAliasMax : p.client.topicAliasMax =
    a.topicAliasMax.getD ConnectionProperties.initial.client.topicAliasMax
  requestResponseInfo : p.client.requestResponseInfo =
    a.requestResponseInfo.getD ConnectionProperties.initial.client.requestResponseInfo
  requestProblemInfo : p.client.requestProblemInfo =
    a.requestProblemInfo.getD ConnectionProperties.initial.client.requestProblemInfo

/-- Each property that a section leaves out has its default, and Request Response Information,
which no section changes, is the one it says. A caller's section that leaves out Request Problem
Information turns it off. -/
structure Unstale (options : Connect) (a : Announcement) (p : ConnectionProperties) : Prop where
  sessionExpiry : a.sessionExpiry = none →
    p.sessionExpiry = ConnectionProperties.initial.sessionExpiry
  receiveMax : a.receiveMax = none →
    p.client.receiveMax = ConnectionProperties.initial.client.receiveMax
  maxPacketSize : a.maxPacketSize = none →
    p.client.maxPacketSize = ConnectionProperties.initial.client.maxPacketSize
  topicAliasMax : a.topicAliasMax = none →
    p.client.topicAliasMax = ConnectionProperties.initial.client.topicAliasMax
  requestResponseInfo : p.client.requestResponseInfo =
    a.requestResponseInfo.getD ConnectionProperties.initial.client.requestResponseInfo
  requestProblemInfo : a.requestProblemInfo = none → options.properties = [] ∧
    p.client.requestProblemInfo = ConnectionProperties.initial.client.requestProblemInfo

theorem getD_eq_getD_iff {α : Type} {o : Option α} {old initial : α} :
    o.getD old = o.getD initial ↔ (o = none → old = initial) := by
  cases o <;> simp

theorem decode_outgoing_nil {options : Connect} {c : MqttContext} {a : Announcement}
    (hnil : options.properties = [])
    (h : Announcement.decode (options.outgoing c).properties = .ok a) :
    ∃ size, a = { maxPacketSize := some size } := by
  unfold Connect.outgoing outgoingSection at h
  rw [if_pos hnil] at h
  obtain rfl := Except.ok.inj h
  exact ⟨_, rfl⟩

theorem announced_iff_unstale {options : Connect} {c : MqttContext} {a : Announcement}
    {server : ServerLimits} (hsize : options.properties ≠ [] → ∃ found,
      validateConnectProperties options.properties = .ok found)
    (h : Announcement.decode (options.outgoing c).properties = .ok a) :
    Announced a (a.writtenOver { checkedProperties options c with server }) ↔
      Unstale options a c.properties := by
  by_cases hnil : options.properties = []
  · obtain ⟨size, rfl⟩ := decode_outgoing_nil hnil h
    unfold checkedProperties
    rw [if_pos hnil]
    constructor
    · rintro ⟨h₁, h₂, -, h₄, h₅, h₆⟩
      exact ⟨fun _ => h₁, fun _ => h₂, nofun, fun _ => h₄, h₅, fun _ => ⟨hnil, h₆⟩⟩
    · rintro ⟨h₁, h₂, -, h₄, h₅, h₆⟩
      exact ⟨h₁ rfl, h₂ rfl, rfl, h₄ rfl, h₅, (h₆ rfl).2⟩
  · obtain ⟨found, hfound⟩ := hsize hnil
    have hsection : (options.outgoing c).properties = options.properties := by
      unfold Connect.outgoing outgoingSection
      rw [if_neg hnil]
    obtain ⟨a', hdecoded, hproblem⟩ := validateConnectProperties_eq_ok hfound
    obtain rfl : a' = a := by
      rw [hsection, hdecoded] at h
      exact Except.ok.inj h
    unfold checkedProperties
    rw [if_neg hnil, hfound]
    have hoff : found.requestProblemInfo =
        a'.requestProblemInfo.getD ConnectionProperties.initial.client.requestProblemInfo ↔
          (a'.requestProblemInfo = none → options.properties = [] ∧
            c.properties.client.requestProblemInfo =
              ConnectionProperties.initial.client.requestProblemInfo) := by
      rw [hproblem, getD_eq_getD_iff]
      exact ⟨fun h hnone => absurd (h hnone) (by decide), fun h hnone => absurd (h hnone).1 hnil⟩
    constructor
    · rintro ⟨h₁, h₂, h₃, h₄, h₅, h₆⟩
      exact ⟨getD_eq_getD_iff.mp h₁, getD_eq_getD_iff.mp h₂, getD_eq_getD_iff.mp h₃,
        getD_eq_getD_iff.mp h₄, h₅, hoff.mp h₆⟩
    · rintro ⟨h₁, h₂, h₃, h₄, h₅, h₆⟩
      exact ⟨getD_eq_getD_iff.mpr h₁, getD_eq_getD_iff.mpr h₂, getD_eq_getD_iff.mpr h₃,
        getD_eq_getD_iff.mpr h₄, h₅, hoff.mpr h₆⟩

def SameLimits (s t : Sys W) : Prop := t.context.properties = s.context.properties

instance : IsPreorder (Sys W) SameLimits where
  refl _ := rfl
  trans _ _ _ h h' := Eq.trans h' h

namespace Client

variable {env : Environment W}

theorem reads_sameTerms : Reads env SameTerms :=
  ⟨(nowMs_io env).mono Io.sameTerms, fun into => (recv_io env into).mono Io.sameTerms,
    fun _ _ => ⟨rfl, rfl, rfl⟩, connectionLost_io.mono Io.sameTerms⟩

theorem settle_sameLimits : (settle env).Moves SameLimits :=
  Prog.Moves.bind (fun _ => rfl) fun _ => Prog.Moves.get.bind fun _ =>
    (Prog.Moves.when (handleCleanSession_sameTerms.mono SameTerms.properties)).bind fun _ =>
      Prog.Moves.bind (fun _ => rfl) fun _ =>
        .when (handleUncleanSession_sameTerms.mono SameTerms.properties)

theorem concluding_limits (options : Connect) (timeoutMs : UInt32) (u : Sys W) :
    SameLimits u (concluding env options timeoutMs u).2 ∨
      ∃ connack v, readConnack env timeoutMs u = (.ok connack, v) ∧
        (concluding env options timeoutMs u).2.context.properties =
          applyConnack u.context.properties connack := by
  have hlost : (connectionLost : Client W Unit).Moves SameLimits :=
    connectionLost_io.mono fun h => h.steady.properties
  have htail {v : Sys W} (h : SameLimits v ((receiveConnack env timeoutMs
      options.info.cleanSession >>= fun _ => settle env) u).2) :
      SameLimits v (concluding env options timeoutMs u).2 := by
    rw [← attempt_snd] at h
    exact Prog.rel_bind h fun _ => (Prog.Moves.when hlost).bind fun _ => check_moves _ _
  have hread : SameTerms u (readConnack env timeoutMs u).2 :=
    readConnack_moves reads_sameTerms timeoutMs u
  rcases hconnack : readConnack env timeoutMs u with ⟨e | connack, v⟩
  · rw [hconnack] at hread
    refine .inl (htail ?_)
    rw [receiveConnack_eq, Prog.bind_assoc, Prog.bind_of_error hconnack]
    exact hread.properties
  · rw [hconnack] at hread
    refine .inr ⟨connack, v, rfl, ?_⟩
    have happlied : SameLimits (v.acknowledged connack)
        (concluding env options timeoutMs u).2 := by
      refine htail ?_
      rw [receiveConnack_eq, Prog.bind_assoc, Prog.bind_of_ok hconnack]
      exact (((refuse_moves (options.info.cleanSession ∧ connack.sessionPresent) _).bind fun _ =>
        refuse_moves connack.refused _).bind fun _ => settle_sameLimits) (v.acknowledged connack)
    rw [happlied]
    exact congrArg (applyConnack · connack) hread.properties

/-- From any context: once a CONNECT went out, the client's half of the session says what the
section on the wire says, with the defaults for the others, exactly when these had their defaults
before; and nothing of it changes after that but a Session Expiry Interval that the CONNACK
announces. -/
theorem announced_iff {options : Connect} {s u : Sys W} (h : sending env options s = (.ok (), u)) :
    ∃ a, Announcement.decode (options.outgoing s.context).properties = .ok a ∧
      (∃ head rest, WentOut (head ++ (sectionParts (options.outgoing s.context).properties).flatten
        ++ rest) s.log u.log) ∧
      (Announced a u.context.properties ↔ Unstale options a s.context.properties) ∧
      ∀ timeoutMs, let t := (connect env options timeoutMs s).2
        t.context.properties.client = u.context.properties.client ∧
          (t.context.properties.sessionExpiry = u.context.properties.sessionExpiry ∨
            ∃ connack v, readConnack env timeoutMs u = (.ok connack, v) ∧
              .sessionExpiryInterval ∈ connack.fieldsPresent ∧
              t.context.properties.sessionExpiry = connack.server.sessionExpiry) := by
  obtain ⟨-, hvalid, ⟨size, hsent⟩, -, hconnect⟩ := sending_eq_ok h
  obtain ⟨a, hdecoded, hterms⟩ := sending_terms h
  refine ⟨a, hdecoded, (sendConnect_eq_ok hsent).2.2, ?_, ?_⟩
  · rw [hterms]
    exact announced_iff_unstale hvalid hdecoded
  · intro timeoutMs
    dsimp only
    rw [hconnect]
    rcases concluding_limits options timeoutMs u with hsame | ⟨connack, v, hread, happlied⟩
    · rw [show _ = _ from hsame]
      exact ⟨rfl, .inl rfl⟩
    · rw [happlied]
      refine ⟨rfl, ?_⟩
      by_cases hpresent : .sessionExpiryInterval ∈ connack.fieldsPresent
      · exact .inr ⟨connack, v, hread, hpresent, if_pos hpresent⟩
      · exact .inl (if_neg hpresent)

/-- The client's half of a first connection. -/
theorem announced_first_connection :
    let env := Script.environment false
    let options := Script.connect true [0x21, 0, 5]
    let s := start (List.replicate 64 0) ({} : Script)
    let u := (sending env options s).2
    ∃ a, Announcement.decode (options.outgoing s.context).properties = .ok a ∧
      (∃ head rest, WentOut (head ++ (sectionParts (options.outgoing s.context).properties).flatten
        ++ rest) s.log u.log) ∧
      (Announced a u.context.properties ↔ Unstale options a s.context.properties) ∧
      ∀ timeoutMs, let t := (connect env options timeoutMs s).2
        t.context.properties.client = u.context.properties.client ∧
          (t.context.properties.sessionExpiry = u.context.properties.sessionExpiry ∨
            ∃ connack v, readConnack env timeoutMs u = (.ok connack, v) ∧
              .sessionExpiryInterval ∈ connack.fieldsPresent ∧
              t.context.properties.sessionExpiry = connack.server.sessionExpiry) :=
  announced_iff (Prod.ext (by decide +kernel) rfl)

/-- The response information that a CONNECT asked for is refused. -/
theorem requested_response_info_refused :
    let env := Script.environment false
    let options := Script.connect true [0x19, 1]
    let s := start (List.replicate 64 0) { reads := [Script.connack false [0x1A, 0, 1, 97]] }
    (sending env options s).1 = .ok () ∧
      Announcement.decode (options.outgoing s.context).properties =
        .ok { requestResponseInfo := some true } ∧
      (sending env options s).2.context.properties.client.requestResponseInfo = false ∧
      (connect env options 0 s).1 = .error (.error .badResponse) := by
  decide +kernel

end Client

end RtosMqtt
