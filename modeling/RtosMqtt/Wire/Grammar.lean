import RtosMqtt.Wire.Accepted
import RtosMqtt.Wire.Publication
import RtosMqtt.Wire.Tables

/-! # What a CONNACK says

A CONNACK is two bytes and a section that fills the rest. Its properties are known ones, there
at most once but for the user property, and the limits among them are what the client is told.
-/

namespace RtosMqtt

open PropertyReader (Reading Tabled WalksTo ReadsAs Settles readsAs_u8 readsAs_u16 readsAs_u32
  readsAs_utf8 readsAs_userProperty settles_pure settles_refuse)

/-- The properties that a CONNACK may carry, each with its field. -/
def connackProperties : List (UInt8 × Field) :=
  [(PropertyId.sessionExpiry, .sessionExpiryInterval), (PropertyId.receiveMax, .receiveMaximum),
    (PropertyId.maxQos, .maxQos), (PropertyId.retainAvailable, .retainAvailable),
    (PropertyId.maxPacketSize, .maxPacketSize), (PropertyId.assignedClientId, .assignedClientId),
    (PropertyId.topicAliasMax, .topicAliasMax), (PropertyId.reasonString, .reasonString),
    (PropertyId.userProperty, .userProp),
    (PropertyId.wildcardAvailable, .wildcardSubscriptionAvailable),
    (PropertyId.subscriptionIdAvailable, .subscriptionIdAvailable),
    (PropertyId.sharedSubAvailable, .sharedSubscriptionAvailable),
    (PropertyId.serverKeepAlive, .serverKeepAlive), (PropertyId.responseInfo, .responseInformation),
    (PropertyId.serverReference, .serverReference), (PropertyId.authMethod, .authenticationMethod),
    (PropertyId.authData, .authenticationData)]

def connackFlags : List UInt8 :=
  [PropertyId.maxQos, PropertyId.retainAvailable, PropertyId.wildcardAvailable,
    PropertyId.subscriptionIdAvailable, PropertyId.sharedSubAvailable]

def connackReasons : List UInt8 :=
  [0x00, 0x80, 0x81, 0x82, 0x83, 0x84, 0x85, 0x86, 0x87, 0x88, 0x89, 0x8A, 0x8C, 0x90, 0x95, 0x97,
    0x99, 0x9A, 0x9B, 0x9C, 0x9D, 0x9F]

/-- What one property of a CONNACK may say. -/
@[mk_iff] structure ConnackAllows (requestResponseInfo : Bool) (id : UInt8)
    (value : PropertyValue) : Prop where
  known : id ∈ connackProperties.map Prod.fst
  receiveMax : id = PropertyId.receiveMax → value ≠ .twoBytes 0
  maxPacketSize : id = PropertyId.maxPacketSize → value ≠ .fourBytes 0
  flag : id ∈ connackFlags → value = .byte 0 ∨ value = .byte 1
  asked : id = PropertyId.responseInfo → requestResponseInfo = true

namespace ServerSettings

def say (server : ServerSettings) (id : UInt8) (value : PropertyValue) : ServerSettings :=
  match value with
  | .fourBytes value =>
    if id = PropertyId.sessionExpiry then { server with sessionExpiry := value }
    else if id = PropertyId.maxPacketSize then { server with maxPacketSize := value }
    else server
  | .twoBytes value =>
    if id = PropertyId.receiveMax then { server with receiveMax := value }
    else if id = PropertyId.topicAliasMax then { server with topicAliasMax := value }
    else if id = PropertyId.serverKeepAlive then { server with keepAlive := value }
    else server
  | .byte value =>
    if id = PropertyId.maxQos then { server with maxQos := value }
    else if id = PropertyId.retainAvailable then { server with retainAvailable := value }
    else if id = PropertyId.wildcardAvailable then { server with wildcardAvailable := value }
    else if id = PropertyId.subscriptionIdAvailable then
      { server with subscriptionIdAvailable := value }
    else if id = PropertyId.sharedSubAvailable then { server with sharedAvailable := value }
    else server
  | _ => server

/-- The limit that a property announces, when it announces one. -/
def said (server : ServerSettings) (id : UInt8) : Option PropertyValue :=
  if id = PropertyId.sessionExpiry then some (.fourBytes server.sessionExpiry)
  else if id = PropertyId.receiveMax then some (.twoBytes server.receiveMax)
  else if id = PropertyId.maxQos then some (.byte server.maxQos)
  else if id = PropertyId.retainAvailable then some (.byte server.retainAvailable)
  else if id = PropertyId.maxPacketSize then some (.fourBytes server.maxPacketSize)
  else if id = PropertyId.topicAliasMax then some (.twoBytes server.topicAliasMax)
  else if id = PropertyId.wildcardAvailable then some (.byte server.wildcardAvailable)
  else if id = PropertyId.subscriptionIdAvailable then some (.byte server.subscriptionIdAvailable)
  else if id = PropertyId.sharedSubAvailable then some (.byte server.sharedAvailable)
  else if id = PropertyId.serverKeepAlive then some (.twoBytes server.keepAlive)
  else none

variable {server : ServerSettings} {id id' : UInt8} {value : PropertyValue}

theorem said_say_of_ne (h : id' ≠ id) : (server.say id value).said id' = server.said id' := by
  unfold say
  cases value with
  | byte value | twoBytes value | fourBytes value =>
    dsimp only
    split_ifs <;> first | rfl | (subst id; simp only [said, h, if_false])
  | _ => rfl

theorem said_say (hid : widthOf id = some value.width) (hsaid : (server.said id).isSome = true) :
    (server.say id value).said id = some value := by
  unfold said at hsaid
  split_ifs at hsaid
  all_goals first
    | (subst id; cases value <;> first | rfl | cases hid)
    | exact absurd hsaid Bool.false_ne_true

theorem isSome_said (server' : ServerSettings) : (server.said id).isSome = (server'.said id).isSome := by
  simp only [said, apply_ite Option.isSome, Option.isSome_some]

end ServerSettings

namespace ConnAckSeen

def flag (seen : ConnAckSeen) (id : UInt8) : Bool :=
  if id = PropertyId.sessionExpiry then seen.sessionExpiry
  else if id = PropertyId.receiveMax then seen.receiveMax
  else if id = PropertyId.maxQos then seen.maxQos
  else if id = PropertyId.retainAvailable then seen.retain
  else if id = PropertyId.maxPacketSize then seen.maxPacket
  else if id = PropertyId.assignedClientId then seen.clientId
  else if id = PropertyId.topicAliasMax then seen.topicAlias
  else if id = PropertyId.reasonString then seen.reasonString
  else if id = PropertyId.wildcardAvailable then seen.wildcard
  else if id = PropertyId.subscriptionIdAvailable then seen.subId
  else if id = PropertyId.sharedSubAvailable then seen.sharedSub
  else if id = PropertyId.serverKeepAlive then seen.keepAlive
  else if id = PropertyId.responseInfo then seen.responseInfo
  else if id = PropertyId.serverReference then seen.serverRef
  else if id = PropertyId.authMethod then seen.authMethod
  else if id = PropertyId.authData then seen.authData
  else false

def see (seen : ConnAckSeen) (id : UInt8) : ConnAckSeen where
  sessionExpiry := id == PropertyId.sessionExpiry || seen.sessionExpiry
  receiveMax := id == PropertyId.receiveMax || seen.receiveMax
  maxQos := id == PropertyId.maxQos || seen.maxQos
  retain := id == PropertyId.retainAvailable || seen.retain
  maxPacket := id == PropertyId.maxPacketSize || seen.maxPacket
  clientId := id == PropertyId.assignedClientId || seen.clientId
  topicAlias := id == PropertyId.topicAliasMax || seen.topicAlias
  reasonString := id == PropertyId.reasonString || seen.reasonString
  wildcard := id == PropertyId.wildcardAvailable || seen.wildcard
  subId := id == PropertyId.subscriptionIdAvailable || seen.subId
  sharedSub := id == PropertyId.sharedSubAvailable || seen.sharedSub
  keepAlive := id == PropertyId.serverKeepAlive || seen.keepAlive
  responseInfo := id == PropertyId.responseInfo || seen.responseInfo
  serverRef := id == PropertyId.serverReference || seen.serverRef
  authMethod := id == PropertyId.authMethod || seen.authMethod
  authData := id == PropertyId.authData || seen.authData

variable {seen : ConnAckSeen} {id id' : UInt8}

theorem flag_see_of_ne (h : id' ≠ id) : (seen.see id).flag id' = seen.flag id' := by
  have hother {x : UInt8} (b : Bool) (hx : id' = x) : (id == x || b) = b := by
    rw [beq_false_of_ne (hx ▸ h.symm), Bool.false_or]
  unfold flag
  iterate 16 refine ite_congr rfl (hother _) fun _ => ?_
  rfl

theorem flag_see (hknown : id ∈ connackProperties.map Prod.fst) :
    (seen.see id).flag id = true ↔ id ≠ PropertyId.userProperty := by
  simp only [connackProperties, List.map_cons, List.map_nil, List.mem_cons, List.not_mem_nil,
    or_false] at hknown
  rcases hknown with rfl | rfl | rfl | rfl | rfl | rfl | rfl | rfl | rfl | rfl | rfl | rfl | rfl |
    rfl | rfl | rfl | rfl
  all_goals first
    | exact ⟨fun _ => ne_of_beq_false rfl, fun _ => rfl⟩
    | exact ⟨fun h => absurd h Bool.false_ne_true, fun h => absurd rfl h⟩

theorem flag_new : ({} : ConnAckSeen).flag id = false := by
  simp only [flag, ite_self]

end ConnAckSeen

namespace ConnackAllows

variable {requestResponseInfo : Bool} {id : UInt8} {value : PropertyValue}

def Plain (id : UInt8) : Prop :=
  id ∈ connackProperties.map Prod.fst ∧ id ∉ [PropertyId.receiveMax, PropertyId.maxPacketSize,
    PropertyId.responseInfo] ++ connackFlags

instance : DecidablePred Plain := fun _ => inferInstanceAs (Decidable (_ ∧ _))

theorem iff_of_plain (h : Plain id) : ConnackAllows requestResponseInfo id value ↔ True := by
  obtain ⟨hknown, hother⟩ := h
  simp only [List.mem_append, List.mem_cons, List.not_mem_nil, or_false, not_or] at hother
  obtain ⟨⟨hreceive, hsize, hresponse⟩, hflag⟩ := hother
  rw [iff_true]
  exact ⟨hknown, fun h => absurd h hreceive, fun h => absurd h hsize, fun h => absurd h hflag,
    fun h => absurd h hresponse⟩

theorem iff_of_flag (h : id ∈ connackFlags) (b : UInt8) :
    ConnackAllows requestResponseInfo id (.byte b) ↔ ¬ b > 1 := by
  have hvalue : ¬ b > 1 ↔ b = 0 ∨ b = 1 := by
    rw [gt_iff_lt, UInt8.lt_iff_toNat_lt, ← UInt8.toNat_inj, ← UInt8.toNat_inj]
    exact ⟨fun h => by simp at h ⊢; omega, fun h => by simp at h ⊢; omega⟩
  rw [hvalue]
  constructor
  · intro hallows
    simpa using hallows.flag h
  · intro hb
    refine ⟨?_, fun _ h => (by cases h), fun _ h => (by cases h), fun _ => by simpa using hb, ?_⟩
    · revert h
      unfold connackFlags
      simp only [List.mem_cons, List.not_mem_nil, or_false]
      rintro (rfl | rfl | rfl | rfl | rfl) <;> decide
    · rintro rfl
      exact absurd h (by decide)

theorem receiveMax_iff (n : UInt16) :
    ConnackAllows requestResponseInfo PropertyId.receiveMax (.twoBytes n) ↔ ¬ n = 0 := by
  constructor
  · rintro h rfl
    exact h.receiveMax rfl rfl
  · intro hn
    exact ⟨by decide, fun _ h => hn (PropertyValue.twoBytes.inj h), fun _ h => (by cases h),
      fun h => absurd h (by decide), fun h => absurd h (by decide)⟩

theorem maxPacketSize_iff (n : ℕ) :
    ConnackAllows requestResponseInfo PropertyId.maxPacketSize (.fourBytes n) ↔ ¬ n = 0 := by
  constructor
  · rintro h rfl
    exact h.maxPacketSize rfl rfl
  · intro hn
    exact ⟨by decide, fun _ h => (by cases h), fun _ h => hn (PropertyValue.fourBytes.inj h),
      fun h => absurd h (by decide), fun h => absurd h (by decide)⟩

theorem responseInfo_iff : ConnackAllows requestResponseInfo PropertyId.responseInfo value ↔
    ¬ (!requestResponseInfo) = true := by
  constructor
  · intro h
    rw [h.asked rfl]
    exact Bool.false_ne_true
  · intro hasked
    exact ⟨by decide, fun h => absurd h (by decide), fun h => absurd h (by decide),
      fun h => absurd h (by decide), fun _ => by simpa using hasked⟩

end ConnackAllows

namespace ConnAckWalk

variable {requestResponseInfo : Bool} {found : ConnAckWalk} {id : UInt8}

def fieldOf (id : UInt8) : Field := (connackProperties.lookup id).getD .userProp

def afterProperty (found : ConnAckWalk) (id : UInt8) (value : PropertyValue) : ConnAckWalk :=
  found.mark (fieldOf id) (found.server.say id value) (found.seen.see id)

/-- A property that is new and allowed. -/
def Step (requestResponseInfo : Bool) (found : ConnAckWalk) (p : Property) (found' : ConnAckWalk) :
    Prop :=
  ConnackAllows requestResponseInfo p.id p.value ∧ found.seen.flag p.id = false ∧
    found' = found.afterProperty p.id p.value

/-- A row of the table reads its property by the rule. -/
def Row (requestResponseInfo : Bool) (found : ConnAckWalk) (id : UInt8)
    (p : Reading ConnAckWalk) : Prop :=
  ∀ r found' r', p r = (.ok found', r') ↔ ∃ q : Property, q.id = id ∧
    r.Reads q.value.encoded r' ∧ Step requestResponseInfo found q found'

theorem Row.ite {c : Prop} [Decidable c] {p q : Reading ConnAckWalk}
    (hp : c → Row requestResponseInfo found id p) (hq : ¬ c → Row requestResponseInfo found id q) :
    Row requestResponseInfo found id (if c then p else q) := by
  split_ifs with h
  · exact hp h
  · exact hq h

theorem row_of_reads {β : Type} {read : Reading β} {used : Bool} {wrap : β → PropertyValue}
    {w : Width} {f : β → Reading ConnAckWalk} {good : β → Prop} {next : β → ConnAckWalk}
    (h : ReadsAs read used wrap w) (hid : widthOf id = some w) (hf : Settles f good next)
    (hflag : found.seen.flag id = used)
    (hallows : ∀ b, ConnackAllows requestResponseInfo id (wrap b) ↔ good b)
    (hnext : ∀ b, found.afterProperty id (wrap b) = next b) :
    Row requestResponseInfo found id (read >>= f) := by
  intro r found' r'
  rw [h.row hid hf]
  constructor
  · rintro ⟨hused, p, rfl, hreads, b, hvalue, hgood, rfl⟩
    refine ⟨p, rfl, hreads, ?_, hflag.trans hused, ?_⟩
    · rw [hvalue]
      exact (hallows b).mpr hgood
    · rw [hvalue, hnext]
  · rintro ⟨p, rfl, hreads, hallowed, hnew, rfl⟩
    obtain ⟨b, hvalue⟩ := h.all p.value (Option.some.inj (p.typed.symm.trans hid))
    rw [hvalue] at hallowed
    exact ⟨hflag.symm.trans hnew, p, rfl, hreads, b, hvalue, (hallows b).mp hallowed,
      by rw [hvalue, hnext]⟩

theorem row_of_boolean {used : Bool} {next : UInt8 → ConnAckWalk} (hid : id ∈ connackFlags)
    (hwidth : widthOf id = some .byte) (hflag : found.seen.flag id = used)
    (hnext : ∀ b, found.afterProperty id (.byte b) = next b) :
    Row requestResponseInfo found id (boolean used >>= fun b => pure (next b)) := by
  unfold boolean
  simp only [Prog.bind_assoc, Prog.pure_bind]
  exact row_of_reads (readsAs_u8 used) hwidth (settles_refuse _ _ next) hflag
    (ConnackAllows.iff_of_flag hid) hnext

/-- The table of a CONNACK. -/
theorem tabled_property (requestResponseInfo : Bool) :
    Tabled (property requestResponseInfo) (Step requestResponseInfo) := by
  intro found id
  change Row requestResponseInfo found id (property requestResponseInfo found id)
  have hplain {value : PropertyValue} (h : ConnackAllows.Plain id) :
      ConnackAllows requestResponseInfo id value ↔ True := ConnackAllows.iff_of_plain h
  refine .ite (fun h => ?_) fun h₁ => .ite (fun h => ?_) fun h₂ => .ite (fun h => ?_) fun h₃ =>
    .ite (fun h => ?_) fun h₄ => .ite (fun h => ?_) fun h₅ => .ite (fun h => ?_) fun h₆ =>
    .ite (fun h => ?_) fun h₇ => .ite (fun h => ?_) fun h₈ => .ite (fun h => ?_) fun h₉ =>
    .ite (fun h => ?_) fun h₁₀ => .ite (fun h => ?_) fun h₁₁ => .ite (fun h => ?_) fun h₁₂ =>
    .ite (fun h => ?_) fun h₁₃ => .ite (fun h => ?_) fun h₁₄ => .ite (fun h => ?_) fun h₁₅ =>
    .ite (fun h => ?_) fun h₁₆ => .ite (fun h => ?_) fun h₁₇ => ?_
  · subst h
    exact row_of_reads (readsAs_u32 _) rfl (settles_pure _) rfl (fun _ => hplain (by decide))
      fun _ => rfl
  · subst h
    exact row_of_reads (readsAs_u16 _) rfl (settles_refuse _ _ _) rfl ConnackAllows.receiveMax_iff
      fun _ => rfl
  · subst h
    exact row_of_boolean (by decide) rfl rfl fun _ => rfl
  · subst h
    exact row_of_boolean (by decide) rfl rfl fun _ => rfl
  · subst h
    exact row_of_reads (readsAs_u32 _) rfl (settles_refuse _ _ _) rfl ConnackAllows.maxPacketSize_iff
      fun _ => rfl
  · subst h
    exact row_of_reads (readsAs_utf8 _) rfl (settles_pure _) rfl (fun _ => hplain (by decide))
      fun _ => rfl
  · subst h
    exact row_of_reads (readsAs_u16 _) rfl (settles_pure _) rfl (fun _ => hplain (by decide))
      fun _ => rfl
  · subst h
    exact row_of_reads (readsAs_utf8 _) rfl (settles_pure _) rfl (fun _ => hplain (by decide))
      fun _ => rfl
  · subst h
    exact row_of_reads readsAs_userProperty rfl (settles_pure _) rfl (fun _ => hplain (by decide))
      fun _ => rfl
  · subst h
    exact row_of_boolean (by decide) rfl rfl fun _ => rfl
  · subst h
    exact row_of_boolean (by decide) rfl rfl fun _ => rfl
  · subst h
    exact row_of_boolean (by decide) rfl rfl fun _ => rfl
  · subst h
    exact row_of_reads (readsAs_u16 _) rfl (settles_pure _) rfl (fun _ => hplain (by decide))
      fun _ => rfl
  · subst h
    exact row_of_reads (readsAs_utf8 _) rfl (settles_refuse _ _ _) rfl
      (fun _ => ConnackAllows.responseInfo_iff) fun _ => rfl
  · subst h
    exact row_of_reads (readsAs_utf8 _) rfl (settles_pure _) rfl (fun _ => hplain (by decide))
      fun _ => rfl
  · subst h
    exact row_of_reads (readsAs_utf8 _) rfl (settles_pure _) rfl (fun _ => hplain (by decide))
      fun _ => rfl
  · subst h
    exact row_of_reads (readsAs_utf8 _) rfl (settles_pure _) rfl (fun _ => hplain (by decide))
      fun _ => rfl
  · intro r found' r'
    constructor
    · intro h
      cases h
    · rintro ⟨p, rfl, -, hallows, -⟩
      have hknown := hallows.known
      simp only [connackProperties, List.map_cons, List.map_nil, List.mem_cons, List.not_mem_nil,
        or_false] at hknown
      tauto

def afterAll (found : ConnAckWalk) (ps : List Property) : ConnAckWalk :=
  ps.foldl (fun found p => found.afterProperty p.id p.value) found

def Once (ps : List Property) : Prop :=
  ps.Pairwise fun p q => p.id = q.id → p.id = PropertyId.userProperty

variable {last : ConnAckWalk} {p : Property} {ps : List Property}

theorem once_cons : Once (p :: ps) ↔
    (∀ q ∈ ps, p.id = q.id → p.id = PropertyId.userProperty) ∧ Once ps := List.pairwise_cons

theorem walksTo_cons : WalksTo (Step requestResponseInfo) found (p :: ps) last ↔
    (ConnackAllows requestResponseInfo p.id p.value ∧ found.seen.flag p.id = false) ∧
      WalksTo (Step requestResponseInfo) (found.afterProperty p.id p.value) ps last := by
  constructor
  · rintro (_ | ⟨⟨hallows, hnew, rfl⟩, hrest⟩)
    exact ⟨⟨hallows, hnew⟩, hrest⟩
  · rintro ⟨⟨hallows, hnew⟩, hrest⟩
    exact .cons ⟨hallows, hnew, rfl⟩ hrest

theorem flag_afterProperty {q : Property} (hknown : p.id ∈ connackProperties.map Prod.fst)
    (hnew : found.seen.flag p.id = false) :
    (found.afterProperty p.id p.value).seen.flag q.id = false ↔
      found.seen.flag q.id = false ∧ (p.id = q.id → p.id = PropertyId.userProperty) := by
  change (found.seen.see p.id).flag q.id = false ↔ _
  by_cases hsame : q.id = p.id
  · rw [hsame, and_iff_right hnew, forall_prop_of_true rfl, ← Bool.not_eq_true,
      ConnAckSeen.flag_see hknown, not_not]
  · rw [ConnAckSeen.flag_see_of_ne hsame]
    exact ⟨fun h => ⟨h, fun h => absurd h.symm hsame⟩, And.left⟩

theorem walksTo_iff : WalksTo (Step requestResponseInfo) found ps last ↔
    (∀ p ∈ ps, ConnackAllows requestResponseInfo p.id p.value) ∧ Once ps ∧
      (∀ p ∈ ps, found.seen.flag p.id = false) ∧ last = found.afterAll ps := by
  induction ps generalizing found with
  | nil =>
    constructor
    · rintro ⟨⟩
      exact ⟨nofun, .nil, nofun, rfl⟩
    · rintro ⟨-, -, -, rfl⟩
      exact .nil _
  | cons p ps ih =>
    rw [walksTo_cons, ih, List.forall_mem_cons, List.forall_mem_cons, once_cons]
    constructor
    · rintro ⟨⟨hallows, hnew⟩, hrest, honce, hflags, hlast⟩
      have hflag (q) (hq : q ∈ ps) := (flag_afterProperty hallows.known hnew).mp (hflags q hq)
      exact ⟨⟨hallows, hrest⟩, ⟨fun q hq => (hflag q hq).2, honce⟩,
        ⟨hnew, fun q hq => (hflag q hq).1⟩, hlast⟩
    · rintro ⟨⟨hallows, hrest⟩, ⟨hfirst, honce⟩, ⟨hnew, hflags⟩, hlast⟩
      refine ⟨⟨hallows, hnew⟩, hrest, honce, fun q hq => ?_, hlast⟩
      exact (flag_afterProperty hallows.known hnew).mpr ⟨hflags q hq, hfirst q hq⟩

theorem mem_fieldsPresent_afterAll {field : Field} : field ∈ (found.afterAll ps).fieldsPresent ↔
    field ∈ found.fieldsPresent ∨ ∃ p ∈ ps, fieldOf p.id = field := by
  induction ps generalizing found with
  | nil => simp [afterAll]
  | cons p ps ih =>
    change field ∈ ((found.afterProperty p.id p.value).afterAll ps).fieldsPresent ↔ _
    rw [ih, List.exists_mem_cons_iff]
    change field ∈ fieldOf p.id :: found.fieldsPresent ∨ _ ↔ _
    rw [List.mem_cons, or_assoc, or_left_comm, eq_comm]

theorem said_afterAll_of_not_mem (h : id ∉ ps.map Property.id) :
    (found.afterAll ps).server.said id = found.server.said id := by
  induction ps generalizing found with
  | nil => rfl
  | cons p ps ih =>
    rw [List.map_cons, List.mem_cons, not_or] at h
    exact (ih h.2).trans (ServerSettings.said_say_of_ne h.1)

theorem said_afterAll (honce : Once ps) (hp : p ∈ ps)
    (hsaid : (found.server.said p.id).isSome = true) :
    (found.afterAll ps).server.said p.id = some p.value := by
  induction ps generalizing found with
  | nil => cases hp
  | cons q ps ih =>
    obtain ⟨hfirst, hrest⟩ := once_cons.mp honce
    rcases List.mem_cons.mp hp with rfl | hp
    · have hlast : p.id ∉ ps.map Property.id := by
        intro hmem
        obtain ⟨q, hq, hid⟩ := List.mem_map.mp hmem
        rw [hfirst q hq hid.symm] at hsaid
        exact absurd hsaid Bool.false_ne_true
      exact (said_afterAll_of_not_mem hlast).trans (ServerSettings.said_say p.typed hsaid)
    · exact ih hrest hp ((ServerSettings.isSome_said _).trans hsaid)

end ConnAckWalk

theorem ConnAck.testBit_fieldBits {c : ConnAck} {bit : ℕ} :
    c.fieldBits.testBit bit = true ↔ ∃ field ∈ c.fieldsPresent, field.bit = bit := by
  unfold ConnAck.fieldBits
  induction c.fieldsPresent with
  | nil => simp
  | cons field fields ih =>
    rw [List.foldr_cons, Nat.testBit_or, Bool.or_eq_true, ih, Nat.one_shiftLeft,
      Nat.testBit_two_pow, decide_eq_true_iff, List.exists_mem_cons_iff, or_comm]

theorem bit_fieldOf {row : UInt8 × Field} {id : UInt8} (hrow : row ∈ connackProperties)
    (hknown : id ∈ connackProperties.map Prod.fst) :
    (ConnAckWalk.fieldOf id).bit = row.2.bit ↔ id = row.1 := by
  revert id
  revert row
  decide +kernel

/-- A packet is a CONNACK, whole and within the limits, with these properties. -/
structure Acknowledges (packet : PacketInfo) (client : ClientSettings) (sessionPresent : Bool)
    (reasonCode : UInt8) (ps : List Property) : Prop where
  type : packet.packetType = Packet.connack
  within : 1 + variableLengthEncodedSize packet.remainingLength + packet.remainingLength ≤
    client.maxPacketSize
  inside : packet.remainingLength ≤ packet.remainingData.length
  body : packet.remainingData.take packet.remainingLength =
    [if sessionPresent then 1 else 0, reasonCode] ++ sized (encodedSection ps)
  short : (encodedSection ps).length ≤ maxRemainingLength
  reason : reasonCode ∈ connackReasons
  fresh : sessionPresent = true → reasonCode = 0
  allowed : ∀ p ∈ ps, ConnackAllows client.requestResponseInfo p.id p.value
  once : ConnAckWalk.Once ps

def connackOf (sessionPresent : Bool) (reasonCode : UInt8) (ps : List Property) : ConnAck where
  sessionPresent := sessionPresent
  reasonCode := reasonCode
  server := (ConnAckWalk.afterAll {} ps).server
  fieldsPresent := (ConnAckWalk.afterAll {} ps).fieldsPresent
  properties := encodedSection ps

theorem orBadResponse_eq_ok {α : Type} {o : Option α} {a : α} :
    orBadResponse o = .ok a ↔ o = some a := by
  cases o with
  | none => exact ⟨fun h => (by cases h), fun h => (by cases h)⟩
  | some b => rw [orBadResponse, Except.ok.injEq, Option.some.injEq]

theorem or_sessionPresentMask (flags : UInt8) :
    flags ||| sessionPresentMask = sessionPresentMask ↔ flags = 0 ∨ flags = 1 := by
  have hall : ∀ n : Fin 256, UInt8.ofFin n ||| sessionPresentMask = sessionPresentMask ↔
      UInt8.ofFin n = 0 ∨ UInt8.ofFin n = 1 := by
    decide +kernel
  exact hall flags.toFin

theorem connackReasonCodeValid_iff {reasonCode : UInt8} :
    connackReasonCodeValid reasonCode = true ↔ reasonCode ∈ connackReasons :=
  decide_eq_true_iff

theorem sized_eq_ok {bytes properties : List UInt8} {n : ℕ} :
    (decodeVariableLength bytes = .ok n ∧ bytes.length = n + variableLengthEncodedSize n ∧
      bounded bytes (variableLengthEncodedSize n) n = .ok properties) ↔
        n ≤ maxRemainingLength ∧ properties.length = n ∧ bytes = sized properties := by
  constructor
  · rintro ⟨hdecode, hlength, hbounded⟩
    obtain ⟨hle, rest, rfl⟩ := PropertyReader.decodeVariableLength_eq_ok.mp hdecode
    rw [List.length_append, length_encodedLength hle] at hlength
    obtain ⟨-, hproperties⟩ := bounded_eq_ok.mp hbounded
    have hrest : rest.length = n := by omega
    rw [← length_encodedLength hle, List.drop_left, ← hrest, List.take_length] at hproperties
    rw [hproperties]
    exact ⟨hle, hrest, by rw [sized, hrest]⟩
  · rintro ⟨hle, rfl, rfl⟩
    refine ⟨PropertyReader.decodeVariableLength_eq_ok.mpr ⟨hle, List.prefix_append _ _⟩, ?_, ?_⟩
    · rw [length_sized hle, Nat.add_comm]
    · rw [bounded_eq_ok, length_sized hle, sized, ← length_encodedLength hle, List.drop_left,
        List.take_length]
      exact ⟨Nat.le_refl _, rfl⟩

theorem walkConnackProperties_eq_ok {properties : List UInt8} {client : ClientSettings}
    {found : ConnAckWalk} :
    walkConnackProperties properties properties.length client = .ok found ↔
      ∃ ps, properties = encodedSection ps ∧
        (∀ p ∈ ps, ConnackAllows client.requestResponseInfo p.id p.value) ∧ ConnAckWalk.Once ps ∧
          found = ConnAckWalk.afterAll {} ps := by
  rw [walkConnackProperties, PropertyReader.walk_eq_ok_iff (ConnAckWalk.tabled_property _)]
  refine exists_congr fun ps => and_congr_right fun _ => ?_
  rw [ConnAckWalk.walksTo_iff]
  have hnew : ∀ p ∈ ps, ({} : ConnAckWalk).seen.flag p.id = false := fun p _ =>
    ConnAckSeen.flag_new
  exact ⟨fun h => ⟨h.1, h.2.1, h.2.2.2⟩, fun h => ⟨h.1, h.2.1, hnew, h.2.2⟩⟩

theorem length_body {packet : PacketInfo} {client : ClientSettings} {sessionPresent : Bool}
    {reasonCode : UInt8} {ps : List Property}
    (h : Acknowledges packet client sessionPresent reasonCode ps) :
    packet.remainingLength = (encodedSection ps).length +
      variableLengthEncodedSize (encodedSection ps).length + 2 := by
  have hlength := congrArg List.length h.body
  rw [List.length_take_of_le h.inside, List.length_append, length_sized h.short] at hlength
  rw [hlength]
  simp only [List.length_cons, List.length_nil]
  omega

theorem acknowledges_of_deserializeConnack {packet : PacketInfo} {client : ClientSettings}
    {connack : ConnAck} (h : deserializeConnack packet client = .ok connack) :
    ∃ ps, Acknowledges packet client connack.sessionPresent connack.reasonCode ps ∧
      connack = connackOf connack.sessionPresent connack.reasonCode ps := by
  obtain ⟨type, length, data⟩ := packet
  rw [deserializeConnack, refuseIf_bind_eq_ok, refuseIf_bind_eq_ok, refuseIf_bind_eq_ok,
    refuseIf_bind_eq_ok, except_bind_eq_ok] at h
  obtain ⟨htype, -, hwithin, hminimum, flags, hflags, h⟩ := h
  rw [except_bind_eq_ok] at h
  obtain ⟨reasonCode, hreason, h⟩ := h
  rw [refuseIf_bind_eq_ok, refuseIf_bind_eq_ok, refuseIf_bind_eq_ok, except_bind_eq_ok] at h
  obtain ⟨hreserved, hfresh, hvalid, afterHeader, hafter, h⟩ := h
  rw [except_bind_eq_ok] at h
  obtain ⟨n, hn, h⟩ := h
  rw [refuseIf_bind_eq_ok, except_bind_eq_ok] at h
  obtain ⟨hlength, properties, hproperties, h⟩ := h
  rw [except_bind_eq_ok] at h
  obtain ⟨found, hwalk, h⟩ := h
  cases h
  dsimp only at *
  obtain ⟨rest, rfl⟩ : ∃ rest, data = flags :: reasonCode :: rest := by
    rw [orBadResponse_eq_ok] at hflags hreason
    rcases data with _ | ⟨first, _ | ⟨second, rest⟩⟩
    · cases hflags
    · cases hreason
    · cases hflags
      cases hreason
      exact ⟨rest, rfl⟩
  obtain ⟨hinside, rfl⟩ := bounded_eq_ok.mp hafter
  simp only [List.length_cons, connackMinimumSize, Nat.not_lt] at hinside hminimum
  obtain ⟨hle, -⟩ := PropertyReader.decodeVariableLength_eq_ok.mp hn
  have hsize := variableLengthEncodedSize_le n
  have hsum : length = n + variableLengthEncodedSize n + 2 := by
    rw [maxRemainingLength] at hle
    have hinner : satAdd n (variableLengthEncodedSize n) = n + variableLengthEncodedSize n :=
      satAdd_of_le (by rw [u32Max]; omega)
    rw [not_ne_iff.mp hlength, hinner, satAdd_of_le (by rw [u32Max]; omega)]
  have hrest : (rest.take (length - 2)).length = n + variableLengthEncodedSize n := by
    rw [List.length_take]
    omega
  obtain ⟨-, rfl, hsized⟩ := sized_eq_ok.mp ⟨hn, hrest, hproperties⟩
  obtain ⟨ps, rfl, hallowed, honce, rfl⟩ := walkConnackProperties_eq_ok.mp hwalk
  have hbit : (flags &&& sessionPresentMask == sessionPresentMask) = decide (flags = 1) := by
    rcases (or_sessionPresentMask flags).mp (not_ne_iff.mp hreserved) with rfl | rfl <;> rfl
  have hflag : flags = if decide (flags = 1) then 1 else 0 := by
    rcases (or_sessionPresentMask flags).mp (not_ne_iff.mp hreserved) with rfl | rfl <;> rfl
  rw [hbit] at hfresh ⊢
  refine ⟨ps, ⟨not_ne_iff.mp htype, ?_, ?_, ?_, hle, ?_, ?_, hallowed, honce⟩, rfl⟩
  · rw [wholePacketSize_of_le, Nat.not_lt] at hwithin
    · exact hwithin
    · rw [maxRemainingLength] at hle
      rw [u32Max]
      omega
  · simp only [List.length_cons]
    omega
  · obtain ⟨m, rfl⟩ : ∃ m, length = m + 2 := ⟨length - 2, by omega⟩
    rw [List.take_succ_cons, List.take_succ_cons, ← hflag, ← hsized]
    rfl
  · exact connackReasonCodeValid_iff.mp (by simpa using hvalid)
  · intro hpresent
    by_contra hne
    exact hfresh ⟨hpresent, hne⟩

theorem deserializeConnack_of_acknowledges {packet : PacketInfo} {client : ClientSettings}
    {sessionPresent : Bool} {reasonCode : UInt8} {ps : List Property}
    (h : Acknowledges packet client sessionPresent reasonCode ps) :
    deserializeConnack packet client = .ok (connackOf sessionPresent reasonCode ps) := by
  have hsum := length_body h
  have hshort := h.short
  have hsize := variableLengthEncodedSize_le (encodedSection ps).length
  have hpos := variableLengthEncodedSize_pos (encodedSection ps).length
  have hwithin := h.within
  obtain ⟨hdecode, hlength, hbounded⟩ := sized_eq_ok.mpr ⟨hshort, rfl, rfl⟩
  obtain ⟨type, length, data⟩ := packet
  dsimp only at hsum hwithin
  rw [maxRemainingLength] at hshort
  obtain ⟨more, rfl⟩ : ∃ more, data = (if sessionPresent then 1 else 0) :: reasonCode ::
      (sized (encodedSection ps) ++ more) :=
    ⟨data.drop length, (List.take_append_drop length data).symm.trans
      (congrArg (· ++ data.drop length) h.body)⟩
  have hreserved := or_sessionPresentMask (if sessionPresent then 1 else 0)
  have hinner : satAdd (encodedSection ps).length
      (variableLengthEncodedSize (encodedSection ps).length) =
        (encodedSection ps).length + variableLengthEncodedSize (encodedSection ps).length :=
    satAdd_of_le (by rw [u32Max]; omega)
  rw [deserializeConnack, refuseIf_bind_eq_ok, refuseIf_bind_eq_ok, refuseIf_bind_eq_ok,
    refuseIf_bind_eq_ok, except_bind_eq_ok]
  refine ⟨not_not_intro h.type, by omega, ?_, ?_, _, rfl, ?_⟩
  · rw [Nat.not_lt, wholePacketSize_of_le]
    · exact hwithin
    · dsimp only
      rw [u32Max]
      omega
  · dsimp only
    rw [connackMinimumSize]
    omega
  rw [except_bind_eq_ok]
  refine ⟨reasonCode, rfl, ?_⟩
  rw [refuseIf_bind_eq_ok, refuseIf_bind_eq_ok, refuseIf_bind_eq_ok, except_bind_eq_ok]
  refine ⟨not_not_intro (hreserved.mpr ?_), ?_, ?_, sized (encodedSection ps), ?_, ?_⟩
  · cases sessionPresent
    · exact .inl rfl
    · exact .inr rfl
  · rintro ⟨hpresent, hne⟩
    cases sessionPresent
    · exact absurd hpresent (by decide)
    · exact hne (h.fresh rfl)
  · rw [connackReasonCodeValid_iff.mpr h.reason]
    exact Bool.false_ne_true
  · rw [bounded_eq_ok]
    dsimp only
    rw [hsum, Nat.add_sub_cancel, ← hlength, List.drop_succ_cons, List.drop_succ_cons, List.drop_zero,
      List.take_left, List.length_cons, List.length_cons, List.length_append]
    exact ⟨by omega, rfl⟩
  rw [except_bind_eq_ok]
  refine ⟨_, hdecode, ?_⟩
  rw [refuseIf_bind_eq_ok, except_bind_eq_ok]
  refine ⟨?_, encodedSection ps, hbounded, ?_⟩
  · dsimp only
    rw [hsum, hinner, satAdd_of_le (by rw [u32Max]; omega)]
    exact not_not_intro rfl
  rw [except_bind_eq_ok]
  refine ⟨_, walkConnackProperties_eq_ok.mpr ⟨ps, rfl, h.allowed, h.once, rfl⟩, ?_⟩
  cases sessionPresent
  · rfl
  · rfl

/-- What a client reads from a CONNACK: the bit of every property that is there and of no other,
and the value of each limit, or none. -/
structure Reports (connack : ConnAck) (ps : List Property) : Prop where
  properties : connack.properties = encodedSection ps
  present : ∀ row ∈ connackProperties,
    connack.fieldBits.testBit row.2.bit = true ↔ row.1 ∈ ps.map Property.id
  only : ∀ bit, connack.fieldBits.testBit bit = true → ∃ row ∈ connackProperties, row.2.bit = bit
  said : ∀ p ∈ ps, ∀ value, connack.server.said p.id = some value → p.value = value
  unsaid : ∀ id, id ∉ ps.map Property.id →
    connack.server.said id = ({} : ServerSettings).said id

theorem reports_connackOf {packet : PacketInfo} {client : ClientSettings} {sessionPresent : Bool}
    {reasonCode : UInt8} {ps : List Property}
    (h : Acknowledges packet client sessionPresent reasonCode ps) :
    Reports (connackOf sessionPresent reasonCode ps) ps := by
  have hbit (bit : ℕ) : (connackOf sessionPresent reasonCode ps).fieldBits.testBit bit = true ↔
      ∃ p ∈ ps, (ConnAckWalk.fieldOf p.id).bit = bit := by
    rw [ConnAck.testBit_fieldBits]
    constructor
    · rintro ⟨field, hfield, rfl⟩
      rcases ConnAckWalk.mem_fieldsPresent_afterAll.mp hfield with hnone | ⟨p, hp, rfl⟩
      · cases hnone
      · exact ⟨p, hp, rfl⟩
    · rintro ⟨p, hp, rfl⟩
      exact ⟨_, ConnAckWalk.mem_fieldsPresent_afterAll.mpr (.inr ⟨p, hp, rfl⟩), rfl⟩
  refine ⟨rfl, ?_, ?_, ?_, ?_⟩
  · intro row hrow
    rw [hbit, List.mem_map]
    exact exists_congr fun p => and_congr_right fun hp => bit_fieldOf hrow (h.allowed p hp).known
  · intro bit hset
    obtain ⟨p, hp, rfl⟩ := (hbit bit).mp hset
    obtain ⟨row, hrow, hid⟩ := List.mem_map.mp (h.allowed p hp).known
    exact ⟨row, hrow, ((bit_fieldOf hrow (h.allowed p hp).known).mpr hid.symm).symm⟩
  · intro p hp value hvalue
    have hsome : (({} : ConnAckWalk).server.said p.id).isSome = true := by
      rw [ServerSettings.isSome_said (connackOf sessionPresent reasonCode ps).server, hvalue]
      rfl
    exact Option.some.inj ((ConnAckWalk.said_afterAll h.once hp hsome).symm.trans hvalue)
  · intro id hid
    exact ConnAckWalk.said_afterAll_of_not_mem hid

/-- The deserializer accepts the CONNACKs there are, and reports what they say. -/
theorem deserializeConnack_grammar (packet : PacketInfo) (client : ClientSettings) :
    ((∃ connack, deserializeConnack packet client = .ok connack) ↔
      ∃ sessionPresent reasonCode ps,
        Acknowledges packet client sessionPresent reasonCode ps) ∧
    ∀ connack sessionPresent reasonCode ps, deserializeConnack packet client = .ok connack →
      Acknowledges packet client sessionPresent reasonCode ps →
        connack.sessionPresent = sessionPresent ∧ connack.reasonCode = reasonCode ∧
          Reports connack ps := by
  constructor
  · constructor
    · rintro ⟨connack, h⟩
      obtain ⟨ps, hps, -⟩ := acknowledges_of_deserializeConnack h
      exact ⟨_, _, ps, hps⟩
    · rintro ⟨sessionPresent, reasonCode, ps, h⟩
      exact ⟨_, deserializeConnack_of_acknowledges h⟩
  · intro connack sessionPresent reasonCode ps hdeserialize h
    have hsame := (deserializeConnack_of_acknowledges h).symm.trans hdeserialize
    obtain rfl := Except.ok.inj hsame
    exact ⟨rfl, rfl, reports_connackOf h⟩

example : connackProperties.length = 17 ∧ connackReasons.length = 22 := ⟨rfl, rfl⟩

end RtosMqtt
