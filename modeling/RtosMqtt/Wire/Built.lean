import RtosMqtt.Wire.Builder
import RtosMqtt.Wire.Fields
import RtosMqtt.Wire.Visits

/-! # What a builder has built

An adder that is not refused puts one property behind the ones that are there,
and one that is refused changes nothing. What a cursor reads off a section that
was built are the properties that were added, in their order.
-/

namespace RtosMqtt

def fieldOf (id : UInt8) : Field :=
  if id = PropertyId.sessionExpiry then .sessionExpiryInterval
  else if id = PropertyId.receiveMax then .receiveMaximum
  else if id = PropertyId.maxPacketSize then .maxPacketSize
  else if id = PropertyId.topicAliasMax then .topicAliasMax
  else if id = PropertyId.requestResponse then .requestResponseInfo
  else if id = PropertyId.requestProblem then .requestProblemInfo
  else if id = PropertyId.authMethod then .authenticationMethod
  else if id = PropertyId.authData then .authenticationData
  else if id = PropertyId.payloadFormat then .payloadFormatIndicator
  else if id = PropertyId.messageExpiry then .messageExpiryInterval
  else if id = PropertyId.willDelay then .willDelay
  else if id = PropertyId.topicAlias then .topicAlias
  else if id = PropertyId.responseTopic then .responseTopic
  else if id = PropertyId.correlationData then .correlationData
  else if id = PropertyId.contentType then .contentType
  else if id = PropertyId.reasonString then .reasonString
  else if id = PropertyId.subscriptionId then .subscriptionId
  else .userProp

namespace Adder

def id : Adder → UInt8
  | sessionExpiry _ => PropertyId.sessionExpiry
  | receiveMax _ => PropertyId.receiveMax
  | maxPacketSize _ => PropertyId.maxPacketSize
  | topicAliasMax _ => PropertyId.topicAliasMax
  | requestResponseInfo _ => PropertyId.requestResponse
  | requestProblemInfo _ => PropertyId.requestProblem
  | authMethod _ => PropertyId.authMethod
  | authData _ => PropertyId.authData
  | payloadFormat _ => PropertyId.payloadFormat
  | messageExpiry _ => PropertyId.messageExpiry
  | willDelay _ => PropertyId.willDelay
  | topicAlias _ => PropertyId.topicAlias
  | responseTopic _ => PropertyId.responseTopic
  | correlationData _ => PropertyId.correlationData
  | contentType _ => PropertyId.contentType
  | reasonString _ => PropertyId.reasonString
  | subscriptionId _ => PropertyId.subscriptionId
  | userProperty _ _ => PropertyId.userProperty

def value : Adder → PropertyValue
  | sessionExpiry seconds => .fourBytes seconds.toNat
  | receiveMax value => .twoBytes value
  | maxPacketSize value => .fourBytes value.toNat
  | topicAliasMax value => .twoBytes value
  | requestResponseInfo value => .byte (if value then 1 else 0)
  | requestProblemInfo value => .byte (if value then 1 else 0)
  | authMethod method => .string method
  | authData data => .string data
  | payloadFormat utf8 => .byte (if utf8 then 1 else 0)
  | messageExpiry seconds => .fourBytes seconds.toNat
  | willDelay seconds => .fourBytes seconds.toNat
  | topicAlias value => .twoBytes value
  | responseTopic topic => .string topic
  | correlationData data => .string data
  | contentType value => .string value
  | reasonString reason => .string reason
  | subscriptionId value => .variableLength value.toNat
  | userProperty key value => .pair key value

def field (adder : Adder) : Field := fieldOf adder.id

theorem typed (adder : Adder) : widthOf adder.id = some adder.value.width := by
  cases adder <;> rfl

def Sound : Adder → Prop
  | receiveMax value => value ≠ 0
  | maxPacketSize value => value ≠ 0
  | topicAlias value => value ≠ 0
  | subscriptionId value => value ≠ 0 ∧ value.toNat ≤ maxRemainingLength
  | authMethod bytes | authData bytes | responseTopic bytes | correlationData bytes
  | contentType bytes | reasonString bytes => bytes.length ≤ 65535
  | userProperty key value => key.length ≤ 65535 ∧ value.length ≤ 65535
  | _ => True

theorem Sound.fits {adder : Adder} (h : adder.Sound) : adder.value.Fits := by
  cases adder with
  | sessionExpiry seconds | maxPacketSize seconds | messageExpiry seconds | willDelay seconds =>
    exact seconds.toNat_lt
  | subscriptionId value => exact h.2
  | receiveMax | topicAliasMax | requestResponseInfo | requestProblemInfo | payloadFormat
  | topicAlias => trivial
  | _ => exact h

def encoded (adder : Adder) : List UInt8 := adder.id :: adder.value.encoded

def property (adder : Adder) (h : adder.Sound) : Property where
  id := adder.id
  value := adder.value
  typed := adder.typed
  fits := h.fits

end Adder

namespace PropertyBuilder

variable {b b' : PropertyBuilder} {packetType : Option UInt8}

def Allowed (packetType : Option UInt8) (field : Field) : Prop :=
  ∀ kind, packetType = some kind → field ∈ allowedProperties kind

def after (b : PropertyBuilder) (bytes : List UInt8) (fields : List Field) : PropertyBuilder where
  buffer := b.buffer.take b.position ++ bytes ++ b.buffer.drop (b.position + bytes.length)
  position := b.position + bytes.length
  fields := fields

/-- A call that was refused and changed nothing, or one that put bytes behind what was there,
and then something is known. -/
inductive Outcome (b : PropertyBuilder) (bytes : List UInt8) (fields : List Field) (known : Prop) :
    Except BuilderError Unit × PropertyBuilder → Prop
  | refused (e : BuilderError) : Outcome b bytes fields known (.error e, b)
  | added (h : known) (hroom : b.position + bytes.length ≤ b.buffer.length) :
      Outcome b bytes fields known (.ok (), b.after bytes fields)

section Outcome

variable {bytes : List UInt8} {field : Field} {fields : List Field} {known : Prop}
  {f : Unit → Building}

theorem Outcome.mono {known' : Prop} {run : Except BuilderError Unit × PropertyBuilder}
    (h : Outcome b bytes fields known run) (himp : known → known') :
    Outcome b bytes fields known' run := by
  cases h with
  | refused e => exact .refused e
  | added h hroom => exact .added (himp h) hroom

theorem outcome_refuse {c : Prop} [Decidable c] {e : BuilderError}
    (h : ¬ c → Outcome b bytes fields known (f () b)) :
    Outcome b bytes fields known ((Prog.refuse c e >>= f) b) := by
  rw [Prog.refuse_bind_apply]
  split_ifs with hc
  · exact .refused e
  · exact h hc

theorem outcome_allowed (h : Allowed packetType field → Outcome b bytes fields known (f () b)) :
    Outcome b bytes fields known ((allowed field packetType >>= f) b) := by
  cases packetType with
  | none => exact h nofun
  | some kind =>
    apply outcome_refuse
    intro hin
    apply h
    intro other hother
    obtain rfl := Option.some.inj hother
    exact not_not.mp hin

theorem outcome_fits {needed : ℕ} (hneeded : 0 < needed)
    (h : b.position + needed ≤ b.buffer.length → Outcome b bytes fields known (f () b)) :
    Outcome b bytes fields known ((fits needed >>= f) b) := by
  rw [fits, Prog.bind_assoc, Prog.get_bind_apply, Prog.bind_assoc]
  apply outcome_refuse
  intro hroom
  rw [Prog.bind_assoc]
  exact outcome_refuse fun _ => outcome_refuse fun _ => h (by omega)

theorem outcome_roomFor {needed : ℕ} (hneeded : 0 < needed)
    (h : field ∉ b.fields → Allowed packetType field → b.position + needed ≤ b.buffer.length →
      Outcome b bytes fields known (f () b)) :
    Outcome b bytes fields known ((roomFor needed field packetType >>= f) b) := by
  rw [roomFor, Prog.bind_assoc, Prog.get_bind_apply, Prog.bind_assoc]
  apply outcome_refuse
  intro hfresh
  rw [Prog.bind_assoc]
  exact outcome_allowed fun hallowed => outcome_fits hneeded (h hfresh hallowed)

theorem put_eq {id : UInt8} {value : List UInt8}
    (hroom : b.position + (id :: value).length ≤ b.buffer.length) :
    put id value b = (.ok (), b.after (id :: value) b.fields) := by
  rw [put, writeAt, if_pos hroom, after, List.length_cons, Nat.add_assoc, Nat.add_comm 1]

theorem putEncoded_eq {id : UInt8} {value : List UInt8} {encode : List UInt8 → Bool × List UInt8}
    (hencode : ∀ body, body.length = value.length → encode body = (true, value))
    (hroom : b.position + (id :: value).length ≤ b.buffer.length) :
    putEncoded id value.length encode b = (.ok (), b.after (id :: value) b.fields) := by
  have hfinish : b.position + 1 + value.length = b.position + (id :: value).length := by
    rw [List.length_cons, Nat.add_assoc, Nat.add_comm 1]
  obtain ⟨slot, hslice⟩ : ∃ slot,
      slice? b.buffer b.position (b.position + (id :: value).length) = some slot :=
    ⟨_, if_pos ⟨Nat.le_add_right _ _, hroom⟩⟩
  have hslot : slot.length = value.length + 1 := by
    rw [length_of_slice? hslice, Nat.add_sub_cancel_left, List.length_cons]
  obtain ⟨first, body, rfl⟩ := List.exists_cons_of_length_eq_add_one hslot
  rw [putEncoded, hfinish, hslice]
  dsimp only
  rw [hencode body (Nat.succ.inj hslot)]
  rfl

theorem encodeLength_eq {value : ℕ} {body : List UInt8} (hle : value ≤ maxRemainingLength)
    (hbody : body.length = (encodedLength value).length) :
    encodeLength value body = (true, encodedLength value) := by
  rw [length_encodedLength hle] at hbody
  rw [encodeLength, encodeVariableLength_eq hle (Nat.le_of_eq hbody.symm)]
  dsimp only
  rw [List.drop_eq_nil_of_le (Nat.le_of_eq hbody), List.append_nil, beq_self_eq_true]

theorem encodePair_eq {key value body : List UInt8} (hkey : key.length ≤ 65535)
    (hvalue : value.length ≤ 65535)
    (hbody : body.length = (prefixed key ++ prefixed value).length) :
    encodePair key value body = (true, prefixed key ++ prefixed value) := by
  rw [List.length_append, length_prefixed, length_prefixed] at hbody
  have hfirst : (prefixed key ++ body.drop (key.length + 2)).length = body.length := by
    rw [List.length_append, length_prefixed, List.length_drop]
    omega
  have hwhole : (prefixed key).length = key.length + 2 := length_prefixed key
  rw [encodePair, encodeString_eq hkey (by omega)]
  dsimp only
  rw [if_neg (by omega), List.drop_left' hwhole, List.take_left' hwhole,
    encodeString_eq hvalue (by rw [List.length_drop]; omega), List.drop_drop,
    List.drop_eq_nil_of_le (by omega), List.append_nil]
  rfl

theorem putEncoded_pair {id : UInt8} {key value : List UInt8} (hkey : key.length ≤ 65535)
    (hvalue : value.length ≤ 65535)
    (hroom : b.position + (id :: (prefixed key ++ prefixed value)).length ≤ b.buffer.length) :
    putEncoded id (key.length + value.length + 4) (encodePair key value) b =
      (.ok (), b.after (id :: (prefixed key ++ prefixed value)) b.fields) := by
  have hlength : (prefixed key ++ prefixed value).length = key.length + value.length + 4 := by
    rw [List.length_append, length_prefixed, length_prefixed]
    omega
  rw [← hlength]
  exact putEncoded_eq (fun _ => encodePair_eq hkey hvalue) hroom

theorem outcome_put_mark {id : UInt8} {value : List UInt8} (h : known)
    (hroom : b.position + (id :: value).length ≤ b.buffer.length) :
    Outcome b (id :: value) (field :: b.fields) known ((put id value >>= fun _ => mark field) b) := by
  rw [Prog.bind_of_ok (put_eq hroom)]
  exact .added h hroom

theorem outcome_addFixed (value : List UInt8) (id : UInt8) :
    Outcome b (id :: value) (field :: b.fields) (field ∉ b.fields ∧ Allowed packetType field)
      (addFixed value id field packetType b) :=
  outcome_roomFor (Nat.succ_pos _) fun hfresh hallowed hroom =>
    outcome_put_mark ⟨hfresh, hallowed⟩ hroom

theorem outcome_addUtf8 (value : List UInt8) (id : UInt8) :
    Outcome b (id :: prefixed value) (field :: b.fields)
      (value.length ≤ 65535 ∧ field ∉ b.fields ∧ Allowed packetType field)
      (addUtf8 value id field packetType b) := by
  apply outcome_refuse
  intro _
  apply outcome_refuse
  intro hlength
  apply outcome_roomFor (Nat.succ_pos _)
  intro hfresh hallowed hroom
  have hsize : b.position + (id :: prefixed value).length ≤ b.buffer.length := by
    rw [List.length_cons, length_prefixed]
    exact hroom
  exact outcome_put_mark ⟨Nat.not_lt.mp hlength, hfresh, hallowed⟩ hsize

end Outcome

def fieldsAfter (adder : Adder) (fields : List Field) : List Field :=
  if adder.id = PropertyId.userProperty then fields else adder.field :: fields

structure Accepts (b : PropertyBuilder) (packetType : Option UInt8) (adder : Adder) : Prop where
  sound : adder.Sound
  allowed : Allowed packetType adder.field
  fresh : adder.id = PropertyId.userProperty ∨ adder.field ∉ b.fields
  method : adder.id = PropertyId.authData → .authenticationMethod ∈ b.fields

/-- Every adder is refused without a trace, or adds its property and sets its bit. -/
theorem outcome_add (adder : Adder) (packetType : Option UInt8) (b : PropertyBuilder) :
    Outcome b adder.encoded (fieldsAfter adder b.fields) (b.Accepts packetType adder)
      (adder.add packetType b) := by
  have absurd_id {id : UInt8} {P : Prop} (hother : (id == PropertyId.authData) = false)
      (hid : id = PropertyId.authData) : P :=
    absurd hid (ne_of_beq_false hother)
  cases adder with
  | sessionExpiry seconds | topicAliasMax value | requestResponseInfo value
  | requestProblemInfo value | payloadFormat value | messageExpiry seconds | willDelay seconds =>
    exact (outcome_addFixed _ _).mono fun h => ⟨trivial, h.2, .inr h.1, absurd_id rfl⟩
  | receiveMax value | maxPacketSize value | topicAlias value =>
    exact outcome_refuse fun hvalue =>
      (outcome_addFixed _ _).mono fun h => ⟨hvalue, h.2, .inr h.1, absurd_id rfl⟩
  | authMethod bytes | correlationData bytes | contentType bytes | reasonString bytes =>
    exact (outcome_addUtf8 _ _).mono fun h => ⟨h.1, h.2.2, .inr h.2.1, absurd_id rfl⟩
  | responseTopic topic =>
    exact outcome_refuse fun _ =>
      (outcome_addUtf8 _ _).mono fun h => ⟨h.1, h.2.2, .inr h.2.1, absurd_id rfl⟩
  | authData data =>
    rw [Adder.add, authData, Prog.get_bind_apply]
    exact outcome_refuse fun hmethod =>
      (outcome_addUtf8 _ _).mono fun h => ⟨h.1, h.2.2, .inr h.2.1, fun _ => not_not.mp hmethod⟩
  | subscriptionId value =>
    apply outcome_refuse
    intro hvalue
    have hle : value.toNat ≤ maxRemainingLength := by
      by_contra h
      exact hvalue (.inr (Nat.not_le.mp h))
    have hwidth := length_encodedLength hle
    apply outcome_roomFor (Nat.succ_pos _)
    intro hfresh hallowed hroom
    have hsize : b.position + (PropertyId.subscriptionId :: encodedLength value.toNat).length ≤
        b.buffer.length := by
      rw [List.length_cons, hwidth]
      exact hroom
    have hput := putEncoded_eq (fun _ => encodeLength_eq hle) hsize
    rw [hwidth] at hput
    rw [Prog.bind_of_ok hput]
    exact .added ⟨⟨fun h => hvalue (.inl h), hle⟩, hallowed, .inr hfresh, absurd_id rfl⟩ hsize
  | userProperty key value =>
    apply outcome_refuse
    intro _
    apply outcome_refuse
    intro hlength
    apply outcome_allowed
    intro hallowed
    apply outcome_fits (Nat.succ_pos _)
    intro hroom
    obtain ⟨hkey, hvalue⟩ := not_or.mp hlength
    have hsize : b.position + (PropertyId.userProperty :: (prefixed key ++ prefixed value)).length ≤
        b.buffer.length := by
      rw [List.length_cons, List.length_append, length_prefixed, length_prefixed]
      omega
    rw [putEncoded_pair (Nat.not_lt.mp hkey) (Nat.not_lt.mp hvalue) hsize]
    exact .added ⟨⟨Nat.not_lt.mp hkey, Nat.not_lt.mp hvalue⟩, hallowed, .inl rfl, absurd_id rfl⟩ hsize

def succeeded : PropertyBuilder → List (Adder × Option UInt8) → List Adder
  | _, [] => []
  | b, (adder, packetType) :: calls =>
    match adder.add packetType b with
    | (.ok (), b) => adder :: succeeded b calls
    | (.error _, b) => succeeded b calls

theorem addAll_keeps {I : PropertyBuilder → List Adder → Prop}
    {calls : List (Adder × Option UInt8)}
    (hstep : ∀ {b added adder packetType}, (adder, packetType) ∈ calls → I b added →
      b.Accepts packetType adder → b.position + adder.encoded.length ≤ b.buffer.length →
        I (b.after adder.encoded (fieldsAfter adder b.fields)) (added ++ [adder]))
    {added : List Adder} (h : I b added) : I (b.addAll calls) (added ++ b.succeeded calls) := by
  induction calls generalizing b added with
  | nil =>
    rw [succeeded, List.append_nil]
    exact h
  | cons call calls ih =>
    obtain ⟨adder, packetType⟩ := call
    have hrest {u : PropertyBuilder} {now : List Adder} (hu : I u now) :
        I (u.addAll calls) (now ++ u.succeeded calls) :=
      ih (fun hmem => hstep (List.mem_cons_of_mem _ hmem)) hu
    have hall : b.addAll ((adder, packetType) :: calls) =
        ((adder.add packetType b).2).addAll calls := rfl
    rw [hall, succeeded]
    generalize hrun : adder.add packetType b = run
    have houtcome := outcome_add adder packetType b
    rw [hrun] at houtcome
    cases houtcome with
    | refused e => exact hrest h
    | added haccepts hroom =>
      dsimp only
      rw [List.append_cons]
      exact hrest (hstep List.mem_cons_self h haccepts hroom)

/-- The builder holds these properties, each of them once but for the user properties. -/
structure Contains (b : PropertyBuilder) (added : List Adder) : Prop where
  bytes : b.sectionBytes = added.flatMap Adder.encoded
  inside : b.position ≤ b.buffer.length
  small : b.buffer.length < remainingLengthInvalid
  sound : ∀ adder ∈ added, adder.Sound
  fields : ∀ field, field ∈ b.fields ↔
    ∃ adder ∈ added, adder.id ≠ PropertyId.userProperty ∧ adder.field = field
  once : ((added.map Adder.id).filter (· ≠ PropertyId.userProperty)).Nodup

theorem contains_new {buffer : List UInt8} (h : new buffer = .ok b) : b.Contains [] := by
  rw [new, refuseIf_bind_eq_ok, refuseIf_bind_eq_ok, refuseIf_bind_eq_ok] at h
  obtain ⟨-, -, hsmall, h⟩ := h
  cases h
  exact
    { bytes := rfl
      inside := Nat.zero_le _
      small := Nat.not_le.mp hsmall
      sound := nofun
      fields := by simp
      once := List.nodup_nil }

theorem sectionBytes_after {bytes : List UInt8} {fields : List Field}
    (hinside : b.position ≤ b.buffer.length) :
    (b.after bytes fields).sectionBytes = b.sectionBytes ++ bytes := by
  have hlength : (b.buffer.take b.position ++ bytes).length = b.position + bytes.length := by
    rw [List.length_append, List.length_take, Nat.min_eq_left hinside]
  rw [sectionBytes, after]
  dsimp only
  rw [← hlength, List.take_left, sectionBytes]

theorem Contains.add {added : List Adder} {adder : Adder} (h : b.Contains added)
    (haccepts : b.Accepts packetType adder)
    (hroom : b.position + adder.encoded.length ≤ b.buffer.length) :
    (b.after adder.encoded (fieldsAfter adder b.fields)).Contains (added ++ [adder]) where
  bytes := by
    rw [sectionBytes_after h.inside, h.bytes]
    simp
  inside := by
    dsimp only [after]
    rw [List.length_append, List.length_append, List.length_take, List.length_drop]
    omega
  small := by
    have hsmall := h.small
    dsimp only [after]
    rw [List.length_append, List.length_append, List.length_take, List.length_drop]
    omega
  sound := by
    intro other hmem
    rcases List.mem_append.mp hmem with hmem | hmem
    · exact h.sound other hmem
    · obtain rfl := List.mem_singleton.mp hmem
      exact haccepts.sound
  fields := by
    intro field
    have hfields := h.fields field
    dsimp only [after, fieldsAfter]
    split_ifs with huser
    · rw [hfields]
      simp [huser, or_and_right, exists_or]
    · rw [List.mem_cons, hfields]
      constructor
      · rintro (rfl | ⟨other, hmem, hother⟩)
        · exact ⟨adder, by simp, huser, rfl⟩
        · exact ⟨other, by simp [hmem], hother⟩
      · rintro ⟨other, hmem, hother, hfield⟩
        rcases List.mem_append.mp hmem with hmem | hmem
        · exact .inr ⟨other, hmem, hother, hfield⟩
        · obtain rfl := List.mem_singleton.mp hmem
          exact .inl hfield.symm
  once := by
    rw [List.map_append, List.filter_append, List.nodup_append]
    refine ⟨h.once, by simp [List.filter_cons]; split_ifs <;> simp, ?_⟩
    intro id hid other hother
    rintro rfl
    obtain ⟨hmem, huser⟩ := List.mem_filter.mp hid
    obtain ⟨same, hsame, rfl⟩ := List.mem_map.mp hmem
    have hadder : same.id = adder.id := by simpa using (List.mem_filter.mp hother).1
    rcases haccepts.fresh with hfresh | hfresh
    · rw [hadder, hfresh] at huser
      simp at huser
    · refine hfresh ((h.fields _).mpr ⟨same, hsame, by simpa using huser, ?_⟩)
      rw [Adder.field, Adder.field, hadder]

theorem flatMap_encoded {added : List Adder} (hsound : ∀ adder ∈ added, adder.Sound) :
    added.flatMap Adder.encoded = encodedSection (added.pmap Adder.property hsound) := by
  rw [encodedSection, List.flatMap_def, List.flatMap_def, List.map_pmap]
  exact congrArg List.flatten (List.pmap_eq_map _).symm

theorem Contains.sectionBytes_eq {added : List Adder} (h : b.Contains added) :
    b.sectionBytes = encodedSection (added.pmap Adder.property h.sound) := by
  rw [h.bytes, flatMap_encoded]

theorem Contains.length_sectionBytes {added : List Adder} (h : b.Contains added) :
    b.sectionBytes.length < remainingLengthInvalid := by
  rw [sectionBytes, List.length_take]
  exact Nat.lt_of_le_of_lt (Nat.min_le_right _ _) h.small

theorem contains_addAll {buffer : List UInt8} (h : new buffer = .ok b)
    (calls : List (Adder × Option UInt8)) : (b.addAll calls).Contains (b.succeeded calls) :=
  addAll_keeps (fun _ h haccepts hroom => h.add haccepts hroom) (contains_new h)

end PropertyBuilder

/-- What a cursor reads off a section that was built is what was added, in order. Nothing but a
user property is there twice, the section stays inside the buffer, and a refused call changes
nothing. -/
theorem built_section_reads_back {buffer : List UInt8} {b : PropertyBuilder}
    (h : PropertyBuilder.new buffer = .ok b) (calls : List (Adder × Option UInt8)) :
    (∃ ps : List Property, PropertyCursor.Visits (b.addAll calls).sectionBytes 0 ps ∧
      ps.map (fun p => (p.id, p.value)) =
        (b.succeeded calls).map (fun adder => (adder.id, adder.value)) ∧
      ((ps.map Property.id).filter (· ≠ PropertyId.userProperty)).Nodup) ∧
    (b.addAll calls).position ≤ (b.addAll calls).buffer.length ∧
    ∀ (adder : Adder) (packetType : Option UInt8) (e : BuilderError) (b' : PropertyBuilder),
      adder.add packetType (b.addAll calls) = (.error e, b') → b' = b.addAll calls := by
  have hcontains := PropertyBuilder.contains_addAll h calls
  refine ⟨?_, hcontains.inside, ?_⟩
  · have hsection := hcontains.sectionBytes_eq
    have hids : ((b.succeeded calls).pmap Adder.property hcontains.sound).map Property.id =
        (b.succeeded calls).map Adder.id := by
      rw [List.map_pmap]
      exact List.pmap_eq_map _
    refine ⟨(b.succeeded calls).pmap Adder.property hcontains.sound, ?_, ?_, ?_⟩
    · rw [hsection]
      apply PropertyCursor.visits_encodedSection []
      have hsmall := hcontains.length_sectionBytes
      rw [remainingLengthInvalid] at hsmall
      rw [List.nil_append, ← hsection, u32Max]
      omega
    · rw [List.map_pmap]
      exact List.pmap_eq_map (f := fun adder : Adder => (adder.id, adder.value)) _
    · rw [hids]
      exact hcontains.once
  · intro adder packetType e b' hrefused
    have houtcome := PropertyBuilder.outcome_add adder packetType (b.addAll calls)
    rw [hrefused] at houtcome
    cases houtcome
    rfl

/-- A section with a user property and a reason string, and no second one. -/
theorem built_section_reads_back_of_three :
    (∃ ps : List Property, PropertyCursor.Visits
        ((⟨List.replicate 16 0, 0, []⟩ : PropertyBuilder).addAll
          [(.userProperty [97] [98], none), (.reasonString [99], some Packet.puback),
            (.reasonString [100], some Packet.puback)]).sectionBytes 0 ps ∧
      ps.map (fun p => (p.id, p.value)) =
        [(PropertyId.userProperty, .pair [97] [98]), (PropertyId.reasonString, .string [99])]) := by
  have hnew : PropertyBuilder.new (List.replicate 16 0) = .ok ⟨List.replicate 16 0, 0, []⟩ := by
    decide +kernel
  obtain ⟨⟨ps, hvisits, hps, -⟩, -⟩ := built_section_reads_back hnew
    [(.userProperty [97] [98], none), (.reasonString [99], some Packet.puback),
      (.reasonString [100], some Packet.puback)]
  exact ⟨ps, hvisits, hps.trans (by decide +kernel)⟩

end RtosMqtt
