import RtosMqtt.Wire.Sections

/-! # What a cursor sees

Over a run of properties a cursor goes from one to the next, whether it skips
them or reads them, and stops at the end of the section.
-/

namespace RtosMqtt

inductive Getter where
  | sessionExpiry | receiveMax | maxQos | retainAvailable | maxPacketSize | assignedClientId
  | topicAliasMax | reasonString | wildcardAvailable | subscriptionIdAvailable
  | sharedSubAvailable | serverKeepAlive | responseInfo | serverReference | authMethod | authData
  | payloadFormat | messageExpiry | topicAlias | responseTopic | correlationData | contentType
  | userProperty | subscriptionId
  deriving DecidableEq, Repr

namespace Getter

open PropertyCursor (Stepping)

def id : Getter → UInt8
  | sessionExpiry => PropertyId.sessionExpiry
  | receiveMax => PropertyId.receiveMax
  | maxQos => PropertyId.maxQos
  | retainAvailable => PropertyId.retainAvailable
  | maxPacketSize => PropertyId.maxPacketSize
  | assignedClientId => PropertyId.assignedClientId
  | topicAliasMax => PropertyId.topicAliasMax
  | reasonString => PropertyId.reasonString
  | wildcardAvailable => PropertyId.wildcardAvailable
  | subscriptionIdAvailable => PropertyId.subscriptionIdAvailable
  | sharedSubAvailable => PropertyId.sharedSubAvailable
  | serverKeepAlive => PropertyId.serverKeepAlive
  | responseInfo => PropertyId.responseInfo
  | serverReference => PropertyId.serverReference
  | authMethod => PropertyId.authMethod
  | authData => PropertyId.authData
  | payloadFormat => PropertyId.payloadFormat
  | messageExpiry => PropertyId.messageExpiry
  | topicAlias => PropertyId.topicAlias
  | responseTopic => PropertyId.responseTopic
  | correlationData => PropertyId.correlationData
  | contentType => PropertyId.contentType
  | userProperty => PropertyId.userProperty
  | subscriptionId => PropertyId.subscriptionId

def read : Getter → Stepping PropertyValue
  | sessionExpiry => PropertyCursor.sessionExpiry >>= fun value => pure (.fourBytes value)
  | receiveMax => PropertyCursor.receiveMax >>= fun value => pure (.twoBytes value)
  | maxQos => PropertyCursor.maxQos >>= fun value => pure (.byte value)
  | retainAvailable => PropertyCursor.retainAvailable >>= fun value => pure (.byte value)
  | maxPacketSize => PropertyCursor.maxPacketSize >>= fun value => pure (.fourBytes value)
  | assignedClientId => PropertyCursor.assignedClientId >>= fun bytes => pure (.string bytes)
  | topicAliasMax => PropertyCursor.topicAliasMax >>= fun value => pure (.twoBytes value)
  | reasonString => PropertyCursor.reasonString >>= fun bytes => pure (.string bytes)
  | wildcardAvailable => PropertyCursor.wildcardAvailable >>= fun value => pure (.byte value)
  | subscriptionIdAvailable =>
    PropertyCursor.subscriptionIdAvailable >>= fun value => pure (.byte value)
  | sharedSubAvailable => PropertyCursor.sharedSubAvailable >>= fun value => pure (.byte value)
  | serverKeepAlive => PropertyCursor.serverKeepAlive >>= fun value => pure (.twoBytes value)
  | responseInfo => PropertyCursor.responseInfo >>= fun bytes => pure (.string bytes)
  | serverReference => PropertyCursor.serverReference >>= fun bytes => pure (.string bytes)
  | authMethod => PropertyCursor.authMethod >>= fun bytes => pure (.string bytes)
  | authData => PropertyCursor.authData >>= fun bytes => pure (.string bytes)
  | payloadFormat => PropertyCursor.payloadFormat >>= fun value => pure (.byte value)
  | messageExpiry => PropertyCursor.messageExpiry >>= fun value => pure (.fourBytes value)
  | topicAlias => PropertyCursor.topicAlias >>= fun value => pure (.twoBytes value)
  | responseTopic => PropertyCursor.responseTopic >>= fun bytes => pure (.string bytes)
  | correlationData => PropertyCursor.correlationData >>= fun bytes => pure (.string bytes)
  | contentType => PropertyCursor.contentType >>= fun bytes => pure (.string bytes)
  | userProperty =>
    PropertyCursor.userProperty >>= fun strings => pure (.pair strings.1 strings.2)
  | subscriptionId => PropertyCursor.subscriptionId >>= fun value => pure (.variableLength value)

end Getter

namespace PropertyCursor

variable {c : PropertyCursor} {p : Property}

structure Under (p : Property) (c : PropertyCursor) : Prop where
  next : p.encoded <+: c.bytes.drop c.position
  small : c.bytes.length ≤ u32Max

def past (c : PropertyCursor) (p : Property) : PropertyCursor :=
  { c with position := c.position + p.encoded.length }

namespace Under

theorem lt (h : Under p c) : c.position < c.bytes.length := by
  have hle := h.next.length_le
  have hpos := p.length_encoded_pos
  rw [List.length_drop] at hle
  omega

theorem identifier_eq (h : Under p c) : identifier c = (.ok p.id, c) := by
  have hlt := h.lt
  obtain ⟨rest, hrest⟩ := h.next
  have hid : c.bytes[c.position]? = some p.id := by
    rw [← List.head?_drop, ← hrest]
    rfl
  rw [identifier, Prog.get_bind_apply, Prog.refuse_bind_of_not (by omega), hid]
  rfl

theorem rest_eq (h : Under p c) :
    slice? c.bytes (c.position + 1) c.bytes.length = some (c.bytes.drop (c.position + 1)) ∧
      p.value.encoded <+: c.bytes.drop (c.position + 1) := by
  have hlt := h.lt
  obtain ⟨rest, hrest⟩ := h.next
  constructor
  · rw [slice?, if_pos ⟨hlt, Nat.le_refl _⟩, List.take_length]
  · rw [← List.drop_drop, ← hrest]
    exact List.prefix_append _ _

theorem body_eq (h : Under p c) : ∃ reader r', body c = (.ok reader, c) ∧
    reader.Reads p.value.encoded r' ∧ r'.position = p.value.encoded.length := by
  obtain ⟨hslice, hnext⟩ := h.rest_eq
  have hsmall := h.small
  have hlength : (c.bytes.drop (c.position + 1)).length ≤ u32Max := by
    rw [List.length_drop]
    omega
  refine ⟨.new (c.bytes.drop (c.position + 1)) _, _, ?_,
    ⟨Nat.zero_le _, hnext, hnext.length_le, rfl⟩, Nat.zero_add _⟩
  rw [body, Prog.get_bind_apply, hslice, orEnd, Prog.lift_ok_bind,
    Prog.refuse_bind_of_not (Nat.not_lt.mpr hlength)]
  rfl

theorem readValue_eq {α : Type} {read : PropertyReader.Reading α} {value : α}
    {reader r' : PropertyReader} (hread : read reader = (.ok value, r'))
    (hposition : r'.position = p.value.encoded.length) :
    readValue read reader c = (.ok value, c.past p) := by
  rw [readValue, hread]
  dsimp only
  rw [hposition, Prog.lift_ok_bind, Prog.get_bind_apply, seek, Prog.modify_bind_apply, past,
    Property.encoded, List.length_cons, Nat.add_assoc, Nat.add_comm 1]
  rfl

theorem nextType_eq (h : Under p c) : nextType c = (.ok p.id, c) := by
  rw [nextType, Prog.bind_of_ok h.identifier_eq, Prog.refuse_bind_of_not (by rw [p.typed]; simp)]
  rfl

theorem variableLength_eq (h : Under p c) {n : ℕ} (hvalue : p.value = .variableLength n) :
    variableLength c = (.ok n, c.past p) := by
  obtain ⟨hslice, hnext⟩ := h.rest_eq
  have hfits := p.fits
  rw [hvalue] at hnext hfits
  have hdecode := PropertyReader.decodeVariableLength_eq_ok.mpr ⟨hfits, hnext⟩
  rw [variableLength, Prog.get_bind_apply, hslice, orEnd, Prog.lift_ok_bind, hdecode]
  have hlength : p.encoded.length = 1 + variableLengthEncodedSize n := by
    rw [Property.encoded, hvalue, List.length_cons, PropertyValue.encoded,
      length_encodedLength hfits, Nat.add_comm]
  rw [past, hlength, ← Nat.add_assoc]
  rfl

theorem one_eq (h : Under p c) {α : Type} {read : PropertyReader.Reading α} {value : α}
    (hread : ∀ {reader r'}, PropertyReader.Reads reader p.value.encoded r' →
      read reader = (.ok value, r')) : one p.id read c = (.ok value, c.past p) := by
  obtain ⟨reader, r', hbody, hreads, hposition⟩ := h.body_eq
  rw [one, Prog.bind_of_ok h.identifier_eq, Prog.refuse_bind_of_not (by simp),
    Prog.bind_of_ok hbody]
  exact readValue_eq (hread hreads) hposition

theorem skip_eq (h : Under p c) : skip c = (.ok (), c.past p) := by
  obtain ⟨reader, r', hbody, hreads, hposition⟩ := h.body_eq
  have hfits := p.fits
  rw [skip, Prog.bind_of_ok h.identifier_eq, p.typed]
  dsimp only
  rw [Prog.bind_of_ok hbody]
  cases hvalue : p.value with
  | byte value =>
    rw [hvalue] at hreads
    exact Prog.bind_of_ok (readValue_eq (PropertyReader.u8_eq_ok.mpr ⟨rfl, hreads⟩) hposition)
  | twoBytes value =>
    rw [hvalue] at hreads
    exact Prog.bind_of_ok
      (readValue_eq (PropertyReader.u16_eq_ok_iff.mpr ⟨rfl, hreads⟩) hposition)
  | fourBytes value =>
    rw [hvalue] at hreads hfits
    exact Prog.bind_of_ok
      (readValue_eq (PropertyReader.u32_eq_ok_iff.mpr ⟨rfl, hfits, hreads⟩) hposition)
  | string bytes =>
    rw [hvalue] at hreads hfits
    exact Prog.bind_of_ok
      (readValue_eq (PropertyReader.utf8_eq_ok.mpr ⟨rfl, hfits, hreads⟩) hposition)
  | pair key value =>
    rw [hvalue] at hreads hfits
    exact Prog.bind_of_ok
      (readValue_eq (PropertyReader.userProperty_eq_ok.mpr ⟨hfits, hreads⟩) hposition)
  | variableLength value => exact Prog.bind_of_ok (h.variableLength_eq hvalue)

theorem one_byte_eq (h : Under p c) {id : UInt8} (hid : id = p.id)
    (hwidth : widthOf id = some .byte) :
    (one id (PropertyReader.u8 false) >>= fun value => pure (.byte value) :
      Stepping PropertyValue) c = (.ok p.value, c.past p) := by
  subst hid
  cases hvalue : p.value with
  | byte value =>
    refine Prog.bind_of_ok (h.one_eq fun {reader r'} hreads => ?_)
    rw [hvalue] at hreads
    exact PropertyReader.u8_eq_ok.mpr ⟨rfl, hreads⟩
  | _ => simp [p.typed, hvalue, PropertyValue.width] at hwidth

theorem one_twoBytes_eq (h : Under p c) {id : UInt8} (hid : id = p.id)
    (hwidth : widthOf id = some .twoBytes) :
    (one id (PropertyReader.u16 false) >>= fun value => pure (.twoBytes value) :
      Stepping PropertyValue) c = (.ok p.value, c.past p) := by
  subst hid
  cases hvalue : p.value with
  | twoBytes value =>
    refine Prog.bind_of_ok (h.one_eq fun {reader r'} hreads => ?_)
    rw [hvalue] at hreads
    exact PropertyReader.u16_eq_ok_iff.mpr ⟨rfl, hreads⟩
  | _ => simp [p.typed, hvalue, PropertyValue.width] at hwidth

theorem one_fourBytes_eq (h : Under p c) {id : UInt8} (hid : id = p.id)
    (hwidth : widthOf id = some .fourBytes) :
    (one id (PropertyReader.u32 false) >>= fun value => pure (.fourBytes value) :
      Stepping PropertyValue) c = (.ok p.value, c.past p) := by
  have hfits := p.fits
  subst hid
  cases hvalue : p.value with
  | fourBytes value =>
    refine Prog.bind_of_ok (h.one_eq fun {reader r'} hreads => ?_)
    rw [hvalue] at hreads hfits
    exact PropertyReader.u32_eq_ok_iff.mpr ⟨rfl, hfits, hreads⟩
  | _ => simp [p.typed, hvalue, PropertyValue.width] at hwidth

theorem one_string_eq (h : Under p c) {id : UInt8} (hid : id = p.id)
    (hwidth : widthOf id = some .string) :
    (one id (PropertyReader.utf8 false) >>= fun bytes => pure (.string bytes) :
      Stepping PropertyValue) c = (.ok p.value, c.past p) := by
  have hfits := p.fits
  subst hid
  cases hvalue : p.value with
  | string bytes =>
    refine Prog.bind_of_ok (h.one_eq fun {reader r'} hreads => ?_)
    rw [hvalue] at hreads hfits
    exact PropertyReader.utf8_eq_ok.mpr ⟨rfl, hfits, hreads⟩
  | _ => simp [p.typed, hvalue, PropertyValue.width] at hwidth

theorem userProperty_read_eq (h : Under p c) (hid : PropertyId.userProperty = p.id) :
    Getter.userProperty.read c = (.ok p.value, c.past p) := by
  have hfits := p.fits
  have hwidth : widthOf p.id = some .pair := by rw [← hid]; rfl
  cases hvalue : p.value with
  | pair key value =>
    rw [Getter.read, userProperty, hid]
    refine Prog.bind_of_ok (a := (key, value)) (h.one_eq fun {reader r'} hreads => ?_)
    rw [hvalue] at hreads hfits
    exact PropertyReader.userProperty_eq_ok.mpr ⟨hfits, hreads⟩
  | _ => simp [p.typed, hvalue, PropertyValue.width] at hwidth

theorem subscriptionId_read_eq (h : Under p c) (hid : PropertyId.subscriptionId = p.id) :
    Getter.subscriptionId.read c = (.ok p.value, c.past p) := by
  have hwidth : widthOf p.id = some .variableLength := by rw [← hid]; rfl
  cases hvalue : p.value with
  | variableLength value =>
    refine Prog.bind_of_ok (?_ : subscriptionId c = (.ok value, c.past p))
    rw [subscriptionId, Prog.bind_of_ok h.identifier_eq, Prog.refuse_bind_of_not (by simp [hid])]
    exact h.variableLength_eq hvalue
  | _ => simp [p.typed, hvalue, PropertyValue.width] at hwidth

theorem read_eq (h : Under p c) {getter : Getter} (hid : getter.id = p.id) :
    getter.read c = (.ok p.value, c.past p) := by
  cases getter with
  | sessionExpiry | maxPacketSize | messageExpiry => exact h.one_fourBytes_eq hid (by decide)
  | receiveMax | topicAliasMax | serverKeepAlive | topicAlias =>
    exact h.one_twoBytes_eq hid (by decide)
  | maxQos | retainAvailable | wildcardAvailable | subscriptionIdAvailable | sharedSubAvailable
  | payloadFormat => exact h.one_byte_eq hid (by decide)
  | assignedClientId | reasonString | responseInfo | serverReference | authMethod | authData
  | responseTopic | correlationData | contentType => exact h.one_string_eq hid (by decide)
  | userProperty => exact h.userProperty_read_eq hid
  | subscriptionId => exact h.subscriptionId_read_eq hid

end Under

theorem identifier_of_end (h : c.bytes.length ≤ c.position) :
    identifier c = (.error .endOfProperties, c) := by
  rw [identifier, Prog.get_bind_apply, Prog.refuse_bind_apply, if_pos h]

theorem bind_identifier_of_end {α : Type} (h : c.bytes.length ≤ c.position)
    (f : UInt8 → Stepping α) : (identifier >>= f) c = (.error .endOfProperties, c) :=
  Prog.bind_of_error (identifier_of_end h)

theorem read_of_end (h : c.bytes.length ≤ c.position) (getter : Getter) :
    getter.read c = (.error .endOfProperties, c) := by
  cases getter <;> exact Prog.bind_of_error (bind_identifier_of_end h _)

theorem careful_read (getter : Getter) : Careful getter.read := by
  cases getter with
  | subscriptionId => exact careful_subscriptionId.bind_pure _
  | _ => exact (careful_one _ _).bind_pure _

/-- From a position on, the cursor sees these properties and then the end, each by its type,
each skipped or read, and each further on than the one before. -/
def Visits (bytes : List UInt8) : ℕ → List Property → Prop
  | start, [] =>
    start = bytes.length ∧
      nextType { bytes, position := start } =
        (.error .endOfProperties, { bytes, position := start }) ∧
      skip { bytes, position := start } =
        (.error .endOfProperties, { bytes, position := start }) ∧
      ∀ getter : Getter, getter.read { bytes, position := start } =
        (.error .endOfProperties, { bytes, position := start })
  | start, p :: ps =>
    ∃ next, start < next ∧
      nextType { bytes, position := start } = (.ok p.id, { bytes, position := start }) ∧
      skip { bytes, position := start } = (.ok (), { bytes, position := next }) ∧
      (∀ getter : Getter, getter.id = p.id →
        getter.read { bytes, position := start } = (.ok p.value, { bytes, position := next })) ∧
      Visits bytes next ps

theorem visits_encodedSection (before : List UInt8) {ps : List Property}
    (hsmall : (before ++ encodedSection ps).length ≤ u32Max) :
    Visits (before ++ encodedSection ps) before.length ps := by
  induction ps generalizing before with
  | nil =>
    have hend : (before ++ encodedSection []).length ≤ before.length := by simp
    exact ⟨by simp, bind_identifier_of_end hend _, bind_identifier_of_end hend _, read_of_end hend⟩
  | cons p ps ih =>
    have hunder : Under p
        { bytes := before ++ encodedSection (p :: ps), position := before.length } := by
      refine ⟨?_, hsmall⟩
      dsimp only
      rw [List.drop_left]
      exact List.prefix_append _ _
    refine ⟨before.length + p.encoded.length, Nat.lt_add_of_pos_right p.length_encoded_pos,
      hunder.nextType_eq, hunder.skip_eq, fun getter hid => hunder.read_eq hid, ?_⟩
    rw [encodedSection_cons, ← List.append_assoc] at hsmall ⊢
    rw [← List.length_append]
    exact ih (before ++ p.encoded) hsmall

end PropertyCursor

end RtosMqtt
