import RtosMqtt.Wire.Announced
import RtosMqtt.Wire.Publication

/-! # Sections that one end sends and the other reads

The properties of a PUBLISH are checked by a table when they are sent and by another when they are
read. Both accept encoded properties and nothing else, and the bytes say which; but the table of the
sender lets through what the table of the reader refuses.
-/

namespace RtosMqtt

def PropertyValue.octet : PropertyValue → UInt8
  | .byte n => n
  | _ => 0

namespace PropertyReader

variable {α β : Type} {r r₁ r₂ : PropertyReader}

theorem readsAs_variableLength :
    ReadsAs variableLength false .variableLength .variableLength where
  eq_ok := variableLength_eq_ok.trans ⟨fun h => ⟨rfl, h⟩, And.right⟩
  width _ := rfl
  all value h := by
    cases value with
    | variableLength n => exact ⟨n, rfl⟩
    | _ => cases h

theorem ReadsAs.unique {read : Reading β} {wrap : β → PropertyValue} {w : Width}
    (h : ReadsAs read false wrap w) {value value' : PropertyValue} (hw : value.width = w)
    (hw' : value'.width = w) (hfits : value.Fits) (hfits' : value'.Fits)
    (hreads : r.Reads value.encoded r₁) (hreads' : r.Reads value'.encoded r₂) :
    value = value' ∧ r₁ = r₂ := by
  obtain ⟨b, rfl⟩ := h.all value hw
  obtain ⟨b', rfl⟩ := h.all value' hw'
  have hread := h.eq_ok.mpr ⟨rfl, hfits, hreads⟩
  rw [h.eq_ok.mpr ⟨rfl, hfits', hreads'⟩] at hread
  obtain ⟨hb, rfl⟩ := Prod.mk.inj hread
  rw [Except.ok.inj hb]
  exact ⟨rfl, rfl⟩

theorem reads_property_unique {p q : Property} (hp : r.Reads p.encoded r₁)
    (hq : r.Reads q.encoded r₂) : p = q ∧ r₁ = r₂ := by
  rw [Property.encoded, ← List.singleton_append, reads_append] at hp hq
  obtain ⟨m, hidp, hp⟩ := hp
  obtain ⟨m', hidq, hq⟩ := hq
  have hread := propertyId_eq_ok.mpr hidp
  rw [propertyId_eq_ok.mpr hidq] at hread
  obtain ⟨hid, rfl⟩ := Prod.mk.inj hread
  have hsame : q.id = p.id := Except.ok.inj hid
  have hwidth : q.value.width = p.value.width := by
    have htyped := q.typed
    rw [hsame, p.typed, Option.some.injEq] at htyped
    exact htyped.symm
  have hvalue : p.value = q.value ∧ r₁ = r₂ := by
    cases hw : p.value.width with
    | byte => exact (readsAs_u8 false).unique hw (hwidth.trans hw) p.fits q.fits hp hq
    | twoBytes => exact (readsAs_u16 false).unique hw (hwidth.trans hw) p.fits q.fits hp hq
    | fourBytes => exact (readsAs_u32 false).unique hw (hwidth.trans hw) p.fits q.fits hp hq
    | string => exact (readsAs_utf8 false).unique hw (hwidth.trans hw) p.fits q.fits hp hq
    | pair => exact readsAs_userProperty.unique hw (hwidth.trans hw) p.fits q.fits hp hq
    | variableLength =>
      exact readsAs_variableLength.unique hw (hwidth.trans hw) p.fits q.fits hp hq
  obtain ⟨id, value, _, _⟩ := p
  obtain ⟨id', value', _, _⟩ := q
  obtain ⟨rfl, rfl⟩ : value = value' ∧ r₁ = r₂ := hvalue
  obtain rfl : id' = id := hsame
  exact ⟨rfl, rfl⟩

theorem reads_section_unique {ps qs : List Property} (hp : r.Reads (encodedSection ps) r₁)
    (hq : r.Reads (encodedSection qs) r₁) : ps = qs := by
  have hlength : (encodedSection ps).length = (encodedSection qs).length := by
    have hafter := hp.after.symm.trans hq.after
    have hroom := hp.room
    have hroom' := hq.room
    have hremaining := congrArg PropertyReader.remaining hafter
    simp only [past] at hremaining
    omega
  induction ps generalizing r qs with
  | nil =>
    cases qs with
    | nil => rfl
    | cons q qs =>
      have hpos := q.length_encoded_pos
      rw [encodedSection_cons, List.length_append, encodedSection_nil, List.length_nil] at hlength
      omega
  | cons p ps ih =>
    cases qs with
    | nil =>
      have hpos := p.length_encoded_pos
      rw [encodedSection_cons, List.length_append, encodedSection_nil, List.length_nil] at hlength
      omega
    | cons q qs =>
      rw [encodedSection_cons, List.length_append, encodedSection_cons,
        List.length_append] at hlength
      rw [encodedSection_cons, reads_append] at hp hq
      obtain ⟨m, hp, hps⟩ := hp
      obtain ⟨m', hq, hqs⟩ := hq
      obtain ⟨rfl, rfl⟩ := reads_property_unique hp hq
      rw [ih hps hqs (Nat.add_left_cancel hlength)]

theorem reads_new {bytes properties : List UInt8} (h : properties = bytes) :
    (new bytes bytes.length).Reads properties ((new bytes bytes.length).past bytes.length) := by
  subst h
  exact ⟨Nat.zero_le _, List.prefix_rfl, Nat.le_refl _, rfl⟩

end PropertyReader

theorem encodedSection_injective : Function.Injective encodedSection := by
  intro ps qs h
  exact PropertyReader.reads_section_unique (PropertyReader.reads_new h)
    (PropertyReader.reads_new rfl)

open PropertyReader (Reading Tabled WalksTo ReadsAs Settles readsAs_u8 readsAs_u16 readsAs_u32
  readsAs_utf8 readsAs_userProperty readsAs_variableLength settles_pure settles_refuse)

section Rows

variable {α β : Type} {step : α → Property → α → Prop} {found : α} {id : UInt8}

/-- A row of a table reads its property by the rule. -/
def RowOf (step : α → Property → α → Prop) (found : α) (id : UInt8) (p : Reading α) : Prop :=
  ∀ r found' r', p r = (.ok found', r') ↔
    ∃ q : Property, q.id = id ∧ r.Reads q.value.encoded r' ∧ step found q found'

theorem RowOf.ite {c : Prop} [Decidable c] {p q : Reading α} (hp : c → RowOf step found id p)
    (hq : ¬ c → RowOf step found id q) : RowOf step found id (if c then p else q) := by
  split_ifs with h
  · exact hp h
  · exact hq h

theorem rowOf_reads {read : Reading β} {used : Bool} {wrap : β → PropertyValue} {w : Width}
    {f : β → Reading α} {good : β → Prop} {next : β → α} (h : ReadsAs read used wrap w)
    (hid : widthOf id = some w) (hf : Settles f good next)
    (hstep : ∀ (q : Property) b found', q.id = id → q.value = wrap b →
      (step found q found' ↔ used = false ∧ good b ∧ found' = next b)) :
    RowOf step found id (read >>= f) := by
  intro r found' r'
  rw [h.row hid hf]
  constructor
  · rintro ⟨hused, q, rfl, hreads, b, hvalue, hgood, rfl⟩
    exact ⟨q, rfl, hreads, (hstep q b _ rfl hvalue).mpr ⟨hused, hgood, rfl⟩⟩
  · rintro ⟨q, rfl, hreads, hq⟩
    obtain ⟨b, hvalue⟩ := h.all q.value (Option.some.inj (q.typed.symm.trans hid))
    obtain ⟨hused, hgood, rfl⟩ := (hstep q b _ rfl hvalue).mp hq
    exact ⟨hused, q, rfl, hreads, b, hvalue, hgood, rfl⟩

theorem rowOf_throw {e : ParseError} (h : ∀ (q : Property) found', q.id = id →
    ¬ step found q found') : RowOf step found id (Prog.throw e) := by
  intro r found' r'
  constructor
  · intro hthrow
    cases hthrow
  · rintro ⟨q, hid, -, hq⟩
    exact absurd hq (h q found' hid)

end Rows

def sentProperties : List UInt8 :=
  [PropertyId.payloadFormat, PropertyId.messageExpiry, PropertyId.contentType,
    PropertyId.responseTopic, PropertyId.correlationData, PropertyId.topicAlias,
    PropertyId.userProperty]

def aliasesIn (ps : List Property) : List UInt16 :=
  (ps.filter fun p => p.id = PropertyId.topicAlias).map fun p => p.value.word

structure SendStep (serverTopicAliasMax : UInt16) (found : Option UInt16) (p : Property)
    (found' : Option UInt16) : Prop where
  known : p.id ∈ sentProperties
  bounded : ∀ a ∈ aliasesIn [p], a ≤ serverTopicAliasMax
  once : found.toList ++ aliasesIn [p] = found'.toList

theorem toList_injective {α : Type} : Function.Injective (Option.toList : Option α → List α) := by
  rintro (_ | a) (_ | b) h
  · rfl
  · cases h
  · cases h
  · rw [List.head_eq_of_cons_eq h]

section Send

variable {serverTopicAliasMax : UInt16} {found found' last : Option UInt16} {p : Property}
  {ps : List Property}

theorem aliasesIn_of_ne (h : p.id ≠ PropertyId.topicAlias) : aliasesIn [p] = [] := by
  rw [aliasesIn, List.filter_cons_of_neg (by simpa using h)]
  rfl

theorem aliasesIn_of_eq (h : p.id = PropertyId.topicAlias) : aliasesIn [p] = [p.value.word] := by
  rw [aliasesIn, List.filter_cons_of_pos (by simpa using h)]
  rfl

theorem aliasesIn_cons (p : Property) (ps : List Property) :
    aliasesIn (p :: ps) = aliasesIn [p] ++ aliasesIn ps := by
  rw [aliasesIn, aliasesIn, aliasesIn, ← List.map_append, ← List.filter_append]
  rfl

theorem sendStep_of_ne (hknown : p.id ∈ sentProperties) (h : p.id ≠ PropertyId.topicAlias) :
    SendStep serverTopicAliasMax found p found' ↔ found' = found := by
  constructor
  · rintro ⟨-, -, honce⟩
    rw [aliasesIn_of_ne h, List.append_nil] at honce
    exact (toList_injective honce).symm
  · rintro rfl
    refine ⟨hknown, ?_, ?_⟩
    · rw [aliasesIn_of_ne h]
      intro a ha
      cases ha
    · rw [aliasesIn_of_ne h, List.append_nil]

theorem sendStep_of_eq (h : p.id = PropertyId.topicAlias) :
    SendStep serverTopicAliasMax found p found' ↔
      found.isSome = false ∧ ¬ serverTopicAliasMax < p.value.word ∧
        found' = some p.value.word := by
  constructor
  · rintro ⟨-, hbounded, honce⟩
    rw [aliasesIn_of_eq h] at hbounded honce
    cases found with
    | none =>
      refine ⟨rfl, UInt16.not_lt.mpr (hbounded _ List.mem_cons_self), ?_⟩
      exact (@toList_injective _ (some p.value.word) found' honce).symm
    | some a =>
      have hlength := congrArg List.length honce
      cases found' <;> simp at hlength
  · rintro ⟨hnone, hbounded, rfl⟩
    rw [Option.isSome_eq_false_iff, Option.isNone_iff_eq_none] at hnone
    subst hnone
    refine ⟨h ▸ by decide, ?_, ?_⟩
    · rw [aliasesIn_of_eq h]
      intro a ha
      rw [List.mem_singleton.mp ha]
      exact UInt16.not_lt.mp hbounded
    · rw [aliasesIn_of_eq h]
      rfl

/-- The table of the sender. -/
theorem tabled_outgoingPublishProperty (serverTopicAliasMax : UInt16) :
    Tabled (outgoingPublishProperty serverTopicAliasMax) (SendStep serverTopicAliasMax) := by
  intro found id
  change RowOf (SendStep serverTopicAliasMax) found id _
  have hplain {w : Width} {β : Type} {read : Reading β} {wrap : β → PropertyValue}
      (h : ReadsAs read false wrap w) (hid : widthOf id = some w) (hknown : id ∈ sentProperties)
      (hother : id ≠ PropertyId.topicAlias) :
      RowOf (SendStep serverTopicAliasMax) found id (read >>= fun _ => pure found) := by
    apply rowOf_reads h hid (settles_pure _)
    rintro q b found' rfl -
    rw [sendStep_of_ne hknown hother]
    simp
  refine .ite (fun h => ?_) fun h₁ => .ite (fun h => ?_) fun h₂ => .ite (fun h => ?_) fun h₃ =>
    .ite (fun h => ?_) fun h₄ => .ite (fun h => ?_) fun h₅ => ?_
  · subst h
    exact hplain (readsAs_u8 false) rfl (by decide) (by decide)
  · subst h
    exact hplain (readsAs_u32 false) rfl (by decide) (by decide)
  · rcases h with rfl | rfl | rfl
    all_goals exact hplain (readsAs_utf8 false) rfl (by decide) (by decide)
  · subst h
    apply rowOf_reads (readsAs_u16 _) rfl (settles_refuse _ _ _)
    intro q b found' hid hvalue
    rw [sendStep_of_eq hid, hvalue]
    rfl
  · subst h
    exact hplain readsAs_userProperty rfl (by decide) (by decide)
  · apply rowOf_throw
    rintro q found' rfl hstep
    have hknown := hstep.known
    simp only [sentProperties, List.mem_cons, List.not_mem_nil, or_false] at hknown
    tauto

theorem walksTo_sendStep : WalksTo (SendStep serverTopicAliasMax) found ps last ↔
    (∀ p ∈ ps, p.id ∈ sentProperties) ∧ (∀ a ∈ aliasesIn ps, a ≤ serverTopicAliasMax) ∧
      found.toList ++ aliasesIn ps = last.toList := by
  induction ps generalizing found with
  | nil =>
    constructor
    · rintro ⟨⟩
      exact ⟨by simp, by simp [aliasesIn], List.append_nil _⟩
    · rintro ⟨-, -, hlast⟩
      obtain rfl := toList_injective ((List.append_nil _).symm.trans hlast)
      exact .nil _
  | cons p ps ih =>
    rw [List.forall_mem_cons, aliasesIn_cons, List.forall_mem_append]
    constructor
    · rintro (_ | ⟨⟨hknown, hbounded, honce⟩, hrest⟩)
      obtain ⟨hall, hbounds, hlast⟩ := ih.mp hrest
      refine ⟨⟨hknown, hall⟩, ⟨hbounded, hbounds⟩, ?_⟩
      rw [← List.append_assoc, honce, hlast]
    · rintro ⟨⟨hknown, hall⟩, ⟨hbounded, hbounds⟩, hlast⟩
      rw [← List.append_assoc] at hlast
      obtain ⟨found', hfound⟩ : ∃ found' : Option UInt16,
          found.toList ++ aliasesIn [p] = found'.toList := by
        by_cases hid : p.id = PropertyId.topicAlias
        · rw [aliasesIn_of_eq hid] at hlast ⊢
          cases found with
          | none => exact ⟨some p.value.word, rfl⟩
          | some a =>
            cases last <;> cases hlast
        · exact ⟨found, by rw [aliasesIn_of_ne hid, List.append_nil]⟩
      exact .cons ⟨hknown, hbounded, hfound⟩ (ih.mpr ⟨hall, hbounds, hfound ▸ hlast⟩)

structure Sendable (serverTopicAliasMax : UInt16) (topicAlias : Option UInt16)
    (ps : List Property) : Prop where
  known : ∀ p ∈ ps, p.id ∈ sentProperties
  bounded : ∀ a ∈ aliasesIn ps, a ≤ serverTopicAliasMax
  aliases : aliasesIn ps = topicAlias.toList

theorem validatePublishProperties_eq_ok {properties : List UInt8} {topicAlias : Option UInt16} :
    validatePublishProperties serverTopicAliasMax properties = .ok topicAlias ↔
      properties.length ≤ maxRemainingLength ∧ ∃ ps, properties = encodedSection ps ∧
        Sendable serverTopicAliasMax topicAlias ps := by
  rw [validatePublishProperties, validateWalk, refuseIf_bind_eq_ok, refuseIf_bind_eq_ok,
    PropertyReader.walk_eq_ok_iff (tabled_outgoingPublishProperty _), ← and_assoc]
  apply and_congr
  · rw [u32Max, remainingLengthInvalid, maxRemainingLength]
    omega
  · refine exists_congr fun ps => and_congr_right fun _ => ?_
    rw [walksTo_sendStep]
    exact ⟨fun h => ⟨h.1, h.2.1, h.2.2⟩, fun h => ⟨h.known, h.bounded, h.aliases⟩⟩

end Send

def repeatable : List UInt8 := [PropertyId.userProperty, PropertyId.subscriptionId]

def PublishWalk.after (found : PublishWalk) (p : Property) : PublishWalk :=
  if p.id ∈ repeatable then found
  else
    { seen := p.id :: found.seen
      topicAlias := if p.id = PropertyId.topicAlias then p.value.word else found.topicAlias }

structure Readable (p : Property) : Prop where
  known : p.id ∈ PropertyId.subscriptionId :: sentProperties
  format : p.id = PropertyId.payloadFormat → p.value.octet ≤ 1
  topicAlias : p.id = PropertyId.topicAlias → p.value.word ≠ 0

def ReadStep (found : PublishWalk) (p : Property) (found' : PublishWalk) : Prop :=
  Readable p ∧ (p.id ∉ repeatable → p.id ∉ found.seen) ∧ found' = found.after p

def Unrepeated (ps : List Property) : Prop :=
  ps.Pairwise fun p q => p.id = q.id → p.id ∈ repeatable

section Read

variable {found found' last : PublishWalk} {p : Property} {ps : List Property}

theorem readStep_once (hid : p.id ∉ repeatable) :
    ReadStep found p found' ↔ decide (p.id ∈ found.seen) = false ∧ Readable p ∧
      found' = { seen := p.id :: found.seen
                 topicAlias := if p.id = PropertyId.topicAlias then p.value.word
                  else found.topicAlias } := by
  rw [ReadStep, PublishWalk.after, if_neg hid, decide_eq_false_iff_not, forall_prop_of_true hid,
    and_left_comm]

theorem readStep_again (hid : p.id ∈ repeatable) :
    ReadStep found p found' ↔ found' = found := by
  rw [ReadStep, PublishWalk.after, if_pos hid]
  constructor
  · exact fun h => h.2.2
  · intro h
    have hall : ∀ id ∈ repeatable, id ∈ PropertyId.subscriptionId :: sentProperties ∧
        id ≠ PropertyId.payloadFormat ∧ id ≠ PropertyId.topicAlias := by
      decide +kernel
    obtain ⟨hknown, hformat, halias⟩ := hall p.id hid
    exact ⟨⟨hknown, fun h => absurd h hformat, fun h => absurd h halias⟩,
      fun hnot => absurd hid hnot, h⟩

theorem readable_plain (hknown : p.id ∈ sentProperties)
    (hother : p.id ∉ [PropertyId.payloadFormat, PropertyId.topicAlias]) : Readable p := by
  rw [List.mem_cons, List.mem_singleton, not_or] at hother
  exact ⟨List.mem_cons_of_mem _ hknown, fun h => absurd h hother.1, fun h => absurd h hother.2⟩

/-- The table of the reader. -/
theorem tabled_publishProperty : Tabled publishProperty ReadStep := by
  intro found id
  change RowOf ReadStep found id _
  have hplain {w : Width} {β : Type} {read : Reading β} {wrap : β → PropertyValue}
      (h : ReadsAs read (decide (id ∈ found.seen)) wrap w) (hid : widthOf id = some w)
      (hknown : id ∈ sentProperties) (honce : id ∉ repeatable)
      (hother : id ∉ [PropertyId.payloadFormat, PropertyId.topicAlias]) :
      RowOf ReadStep found id (read >>= fun _ => pure { found with seen := id :: found.seen }) := by
    apply rowOf_reads h hid (settles_pure _)
    rintro q b found' rfl -
    have halias : q.id ≠ PropertyId.topicAlias := by
      intro h
      rw [h] at hother
      exact hother (by decide)
    rw [readStep_once honce, if_neg halias]
    exact and_congr_right fun _ => and_congr_left fun _ =>
      iff_of_true (readable_plain hknown hother) trivial
  have hagain {w : Width} {β : Type} {read : Reading β} {wrap : β → PropertyValue}
      (h : ReadsAs read false wrap w) (hid : widthOf id = some w) (hrepeats : id ∈ repeatable) :
      RowOf ReadStep found id (read >>= fun _ => pure found) := by
    apply rowOf_reads h hid (settles_pure _)
    rintro q b found' rfl -
    rw [readStep_again hrepeats]
    simp
  refine .ite (fun h => ?_) fun h₁ => .ite (fun h => ?_) fun h₂ => .ite (fun h => ?_) fun h₃ =>
    .ite (fun h => ?_) fun h₄ => .ite (fun h => ?_) fun h₅ => .ite (fun h => ?_) fun h₆ => ?_
  · subst h
    apply rowOf_reads (readsAs_u8 _) rfl (settles_refuse _ _ _)
    intro q b found' hid hvalue
    rw [readStep_once (hid ▸ by decide), hid, if_neg (by decide)]
    refine and_congr_right fun _ => and_congr_left fun _ => ?_
    constructor
    · intro h
      have hformat := h.format hid
      rw [hvalue] at hformat
      exact UInt8.not_lt.mpr hformat
    · intro hb
      refine ⟨hid ▸ by decide, fun _ => ?_, fun h => absurd (hid.symm.trans h) (by decide)⟩
      rw [hvalue]
      exact UInt8.not_lt.mp hb
  · subst h
    apply rowOf_reads (readsAs_u16 _) rfl (settles_refuse _ _ _)
    intro q b found' hid hvalue
    rw [readStep_once (hid ▸ by decide), hid, if_pos rfl, hvalue]
    refine and_congr_right fun _ => and_congr_left fun _ => ?_
    constructor
    · intro h
      have halias := h.topicAlias hid
      rwa [hvalue] at halias
    · intro hb
      refine ⟨hid ▸ by decide, fun h => absurd (hid.symm.trans h) (by decide), fun _ => ?_⟩
      rwa [hvalue]
  · rcases h with rfl | rfl | rfl
    all_goals exact hplain (readsAs_utf8 _) rfl (by decide) (by decide) (by decide)
  · subst h
    exact hplain (readsAs_u32 _) rfl (by decide) (by decide) (by decide)
  · subst h
    exact hagain readsAs_variableLength rfl (by decide)
  · subst h
    exact hagain readsAs_userProperty rfl (by decide)
  · apply rowOf_throw
    rintro q found' rfl ⟨hreadable, -⟩
    have hknown := hreadable.known
    simp only [sentProperties, List.mem_cons, List.not_mem_nil, or_false] at hknown
    tauto

/-- A walk goes through properties that are readable, and new where they must be. -/
theorem walksTo_readStep : WalksTo ReadStep found ps last ↔
    (∀ p ∈ ps, Readable p) ∧ Unrepeated ps ∧
      (∀ p ∈ ps, p.id ∉ repeatable → p.id ∉ found.seen) ∧
        last = ps.foldl PublishWalk.after found := by
  induction ps generalizing found with
  | nil =>
    constructor
    · rintro ⟨⟩
      exact ⟨by simp, .nil, by simp, rfl⟩
    · rintro ⟨-, -, -, rfl⟩
      exact .nil _
  | cons p ps ih =>
    have hseen (q : Property) (hnew : p.id ∉ repeatable → p.id ∉ found.seen) :
        (q.id ∉ repeatable → q.id ∉ (found.after p).seen) ↔
          (q.id ∉ repeatable → q.id ∉ found.seen) ∧ (p.id = q.id → p.id ∈ repeatable) := by
      by_cases hid : p.id ∈ repeatable
      · rw [PublishWalk.after, if_pos hid]
        exact ⟨fun h => ⟨h, fun _ => hid⟩, And.left⟩
      · rw [PublishWalk.after, if_neg hid, List.mem_cons, not_or]
        constructor
        · intro h
          refine ⟨fun hq => (h hq).2, fun hsame => ?_⟩
          by_contra hnot
          exact (h (hsame ▸ hnot)).1 hsame.symm
        · rintro ⟨hq, hsame⟩ hnot
          exact ⟨fun h => hid (hsame h.symm), hq hnot⟩
    rw [List.forall_mem_cons, List.forall_mem_cons, Unrepeated, List.pairwise_cons]
    constructor
    · rintro (_ | ⟨⟨hreadable, hnew, rfl⟩, hrest⟩)
      obtain ⟨hall, honce, hfresh, hlast⟩ := ih.mp hrest
      have hboth (q) (hq : q ∈ ps) := (hseen q hnew).mp (hfresh q hq)
      exact ⟨⟨hreadable, hall⟩, ⟨fun q hq => (hboth q hq).2, honce⟩,
        ⟨hnew, fun q hq => (hboth q hq).1⟩, hlast⟩
    · rintro ⟨⟨hreadable, hall⟩, ⟨hfirst, honce⟩, ⟨hnew, hfresh⟩, hlast⟩
      refine .cons ⟨hreadable, hnew, rfl⟩ (ih.mpr ⟨hall, honce, fun q hq => ?_, hlast⟩)
      exact (hseen q hnew).mpr ⟨hfresh q hq, hfirst q hq⟩

theorem mem_aliasesIn {a : UInt16} :
    a ∈ aliasesIn ps ↔ ∃ p ∈ ps, p.id = PropertyId.topicAlias ∧ p.value.word = a := by
  simp [aliasesIn, and_assoc]

/-- The alias that is compared in the end is the only one. -/
theorem exceeds_foldl {topicAliasMax : UInt16} (honce : Unrepeated ps)
    (hfresh : PropertyId.topicAlias ∈ found.seen → aliasesIn ps = []) :
    (PropertyId.topicAlias ∈ (ps.foldl PublishWalk.after found).seen ∧
        topicAliasMax < (ps.foldl PublishWalk.after found).topicAlias) ↔
      (PropertyId.topicAlias ∈ found.seen ∧ topicAliasMax < found.topicAlias) ∨
        ∃ a ∈ aliasesIn ps, topicAliasMax < a := by
  induction ps generalizing found with
  | nil => simp [aliasesIn]
  | cons p ps ih =>
    obtain ⟨hfirst, honce⟩ := List.pairwise_cons.mp honce
    rw [List.foldl_cons, aliasesIn_cons]
    by_cases halias : p.id = PropertyId.topicAlias
    · have hnot : p.id ∉ repeatable := halias ▸ by decide
      have hnone : aliasesIn ps = [] := by
        rw [List.eq_nil_iff_forall_not_mem]
        intro a ha
        obtain ⟨q, hq, hid, -⟩ := mem_aliasesIn.mp ha
        exact hnot (hfirst q hq (halias.trans hid.symm))
      have hunseen : PropertyId.topicAlias ∉ found.seen := by
        intro hmem
        have hall := hfresh hmem
        rw [aliasesIn_cons, aliasesIn_of_eq halias] at hall
        cases hall
      rw [ih honce fun _ => hnone, hnone, aliasesIn_of_eq halias, PublishWalk.after, if_neg hnot,
        if_pos halias, halias]
      simp [hunseen]
    · have hsame : (PropertyId.topicAlias ∈ (found.after p).seen ↔
          PropertyId.topicAlias ∈ found.seen) ∧
          (found.after p).topicAlias = found.topicAlias := by
        rw [PublishWalk.after]
        by_cases hid : p.id ∈ repeatable
        · rw [if_pos hid]
          exact ⟨Iff.rfl, rfl⟩
        · rw [if_neg hid, if_neg halias, List.mem_cons, or_iff_right (Ne.symm halias)]
          exact ⟨Iff.rfl, rfl⟩
      rw [aliasesIn_cons, aliasesIn_of_ne halias] at hfresh
      rw [ih honce fun h => hfresh (hsame.1.mp h), hsame.1, hsame.2, aliasesIn_of_ne halias,
        List.nil_append]

theorem walkPublishProperties_eq_ok {properties : List UInt8} {topicAliasMax : UInt16} :
    walkPublishProperties properties properties.length topicAliasMax = .ok () ↔
      ∃ ps, properties = encodedSection ps ∧ (∀ p ∈ ps, Readable p) ∧ Unrepeated ps ∧
        ∀ a ∈ aliasesIn ps, a ≤ topicAliasMax := by
  rw [walkPublishProperties, except_bind_eq_ok]
  have hbound {ps : List Property} (honce : Unrepeated ps) :
      refuseIf (PropertyId.topicAlias ∈ (ps.foldl PublishWalk.after {}).seen ∧
          topicAliasMax < (ps.foldl PublishWalk.after {}).topicAlias) ParseError.badResponse =
        .ok () ↔ ∀ a ∈ aliasesIn ps, a ≤ topicAliasMax := by
    rw [refuseIf_eq_ok, exceeds_foldl honce (by simp)]
    simp
  constructor
  · rintro ⟨found, hwalk, hlast⟩
    obtain ⟨ps, rfl, hwalks⟩ := (PropertyReader.walk_eq_ok_iff tabled_publishProperty).mp hwalk
    obtain ⟨hall, honce, -, rfl⟩ := walksTo_readStep.mp hwalks
    exact ⟨ps, rfl, hall, honce, (hbound honce).mp hlast⟩
  · rintro ⟨ps, rfl, hall, honce, halias⟩
    refine ⟨ps.foldl PublishWalk.after {}, ?_, (hbound honce).mpr halias⟩
    rw [PropertyReader.walk_eq_ok_iff tabled_publishProperty]
    refine ⟨ps, rfl, walksTo_readStep.mpr ⟨hall, honce, ?_, rfl⟩⟩
    intro p _ _ hmem
    cases hmem

theorem Sendable.readable_iff {serverTopicAliasMax topicAliasMax : UInt16}
    {topicAlias : Option UInt16} (h : Sendable serverTopicAliasMax topicAlias ps) :
    ((∀ p ∈ ps, Readable p) ∧ Unrepeated ps ∧ ∀ a ∈ aliasesIn ps, a ≤ topicAliasMax) ↔
      ¬ (¬ Unrepeated ps ∨ (∃ p ∈ ps, p.id = PropertyId.payloadFormat ∧ 1 < p.value.octet) ∨
        ∃ a ∈ topicAlias, a = 0 ∨ topicAliasMax < a) := by
  have hmem {a : UInt16} : a ∈ topicAlias ↔ a ∈ aliasesIn ps := by
    rw [h.aliases, Option.mem_toList, Option.mem_def]
  constructor
  · rintro ⟨hread, honce, hbounded⟩ (hrepeats | ⟨p, hp, hid, hformat⟩ | ⟨a, ha, hzero | hlarge⟩)
    · exact hrepeats honce
    · exact UInt8.not_lt.mpr ((hread p hp).format hid) hformat
    · obtain ⟨p, hp, hid, rfl⟩ := mem_aliasesIn.mp (hmem.mp ha)
      exact (hread p hp).topicAlias hid hzero
    · exact UInt16.not_lt.mpr (hbounded a (hmem.mp ha)) hlarge
  · intro hfine
    rw [not_or, not_or, not_not] at hfine
    obtain ⟨honce, hformat, halias⟩ := hfine
    refine ⟨fun p hp => ⟨List.mem_cons_of_mem _ (h.known p hp), fun hid => ?_, fun hid hzero => ?_⟩,
      honce, fun a ha => ?_⟩
    · exact UInt8.not_lt.mp fun hlt => hformat ⟨p, hp, hid, hlt⟩
    · exact halias ⟨_, hmem.mpr (mem_aliasesIn.mpr ⟨p, hp, hid, rfl⟩), .inl hzero⟩
    · exact UInt16.not_lt.mp fun hlt => halias ⟨a, hmem.mpr ha, .inr hlt⟩

end Read

/-- A property section as its sender and its reader take it. Each accepts the encodings of the
properties that its rules allow, and the bytes say which they are. What a client sends, another
refuses just when a property is repeated that may not be, the payload format is above one, or the
topic alias is zero or above what the other announced. -/
theorem publish_sections (serverTopicAliasMax topicAliasMax : UInt16) (properties : List UInt8)
    (topicAlias : Option UInt16) :
    (validatePublishProperties serverTopicAliasMax properties = .ok topicAlias ↔
        properties.length ≤ maxRemainingLength ∧ ∃! ps, properties = encodedSection ps ∧
          Sendable serverTopicAliasMax topicAlias ps) ∧
      (walkPublishProperties properties properties.length topicAliasMax = .ok () ↔
        ∃! ps, properties = encodedSection ps ∧ (∀ p ∈ ps, Readable p) ∧ Unrepeated ps ∧
          ∀ a ∈ aliasesIn ps, a ≤ topicAliasMax) ∧
      (validatePublishProperties serverTopicAliasMax properties = .ok topicAlias ∧
          walkPublishProperties properties properties.length topicAliasMax ≠ .ok () ↔
        properties.length ≤ maxRemainingLength ∧ ∃ ps, properties = encodedSection ps ∧
          Sendable serverTopicAliasMax topicAlias ps ∧
            (¬ Unrepeated ps ∨ (∃ p ∈ ps, p.id = PropertyId.payloadFormat ∧ 1 < p.value.octet) ∨
              ∃ a ∈ topicAlias, a = 0 ∨ topicAliasMax < a)) := by
  have hunique {P : List Property → Prop} : (∃ ps, properties = encodedSection ps ∧ P ps) ↔
      ∃! ps, properties = encodedSection ps ∧ P ps := by
    constructor
    · rintro ⟨ps, hps, h⟩
      exact ⟨ps, ⟨hps, h⟩, fun qs hqs => encodedSection_injective (hqs.1.symm.trans hps)⟩
    · exact fun h => h.exists
  refine ⟨?_, ?_, ?_⟩
  · rw [validatePublishProperties_eq_ok, hunique]
  · rw [walkPublishProperties_eq_ok, hunique]
  · rw [validatePublishProperties_eq_ok, ne_eq, walkPublishProperties_eq_ok, and_assoc]
    refine and_congr_right fun _ => ?_
    constructor
    · rintro ⟨⟨ps, hps, hsend⟩, hrefused⟩
      refine ⟨ps, hps, hsend, ?_⟩
      by_contra hnone
      exact hrefused ⟨ps, hps, hsend.readable_iff.mpr hnone⟩
    · rintro ⟨ps, hps, hsend, hsome⟩
      refine ⟨⟨ps, hps, hsend⟩, ?_⟩
      rintro ⟨qs, hqs, hread⟩
      obtain rfl := encodedSection_injective (hqs.symm.trans hps)
      exact hsend.readable_iff.mp hread hsome

end RtosMqtt
