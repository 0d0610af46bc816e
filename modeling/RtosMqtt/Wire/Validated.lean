import RtosMqtt.Wire.Accepted
import RtosMqtt.Wire.Built

/-! # What a builder has built passes the checks

The builder's masks and bits and the validators' tables are written apart. A
section that was built for one kind of packet is one that the validator of that
kind accepts.
-/

namespace RtosMqtt

namespace PropertyReader

variable {α : Type} {property : α → UInt8 → Reading α}

/-- Wherever the value of a property is next, the table reads it. -/
def Takes (property : α → UInt8 → Reading α) (found : α) (p : Property) (found' : α) : Prop :=
  ∀ {r r'}, Reads r p.value.encoded r' → property found p.id r = (.ok found', r')

/-- The table reads these properties, one after the other. -/
inductive TakesAll (property : α → UInt8 → Reading α) : α → List Property → α → Prop
  | nil (found : α) : TakesAll property found [] found
  | cons {found found' last : α} {p : Property} {ps : List Property}
      (hp : Takes property found p found') (hps : TakesAll property found' ps last) :
      TakesAll property found (p :: ps) last

/-- A section whose properties the table reads is accepted. -/
theorem TakesAll.walkFrom {turns : ℕ} {found last : α} {r : PropertyReader} {ps : List Property}
    (h : TakesAll property found ps last) (hbytes : r.bytes.drop r.position = encodedSection ps)
    (hinside : r.position ≤ r.bytes.length) (hremaining : r.remaining = (encodedSection ps).length)
    (hturns : r.remaining ≤ turns) :
    ∃ r', PropertyReader.walkFrom property turns found r = (.ok last, r') := by
  induction h generalizing turns r with
  | nil found =>
    refine ⟨r, ?_⟩
    cases turns with
    | zero => rfl
    | succ turns =>
      have hzero : r.remaining = 0 := hremaining
      rw [PropertyReader.walkFrom, Prog.get_bind_apply, if_pos hzero]
      rfl
  | @cons found found' last p ps hp _ ih =>
    rw [encodedSection_cons, List.length_append] at hremaining
    have hpos := p.length_encoded_pos
    obtain ⟨turns, rfl⟩ := Nat.exists_eq_succ_of_ne_zero (Nat.ne_of_gt (by omega : 0 < turns))
    have hreads : r.Reads p.encoded (r.past p.encoded.length) :=
      ⟨hinside, hbytes ▸ List.prefix_append _ _, by omega, rfl⟩
    have hlength := hreads.length_le
    obtain ⟨r₁, hid, hvalue⟩ : ∃ r₁, r.Reads [p.id] r₁ ∧
        r₁.Reads p.value.encoded (r.past p.encoded.length) := by
      rw [Property.encoded, ← List.singleton_append, reads_append] at hreads
      exact hreads
    obtain ⟨r', hrest⟩ := @ih turns (r.past p.encoded.length)
      (by
        dsimp only [past]
        rw [← List.drop_drop, hbytes, encodedSection_cons, List.drop_left])
      hlength (by dsimp only [past]; omega) (by dsimp only [past]; omega)
    refine ⟨r', ?_⟩
    rw [PropertyReader.walkFrom, Prog.get_bind_apply, if_neg (by omega),
      Prog.bind_of_ok (propertyId_eq_ok.mpr hid), Prog.bind_of_ok (hp hvalue)]
    exact hrest

theorem TakesAll.walk {found last : α} {ps : List Property} (h : TakesAll property found ps last) :
    PropertyReader.walk property found (encodedSection ps) (encodedSection ps).length =
      .ok last := by
  obtain ⟨r', hrun⟩ := h.walkFrom (r := .new (encodedSection ps) (encodedSection ps).length)
    rfl (Nat.zero_le _) rfl (Nat.le_refl _)
  exact congrArg Prod.fst hrun

end PropertyReader

open PropertyReader (Takes TakesAll u8_eq_ok u16_eq_ok_iff u32_eq_ok_iff utf8_eq_ok
  userProperty_eq_ok variableLength_eq_ok)

/-- A table reads an adder's property; `used` is what it will not read again, and among these
are the properties it keeps track of. -/
def TableReads {α : Type} (property : α → UInt8 → PropertyReader.Reading α) (used : α → UInt8 → Prop)
    (tracked : UInt8 → Prop) (adder : Adder) : Prop :=
  ∀ (h : adder.Sound) (found : α), (adder.id ≠ PropertyId.userProperty → ¬ used found adder.id) →
    ∃ found', Takes property found (adder.property h) found' ∧
      (∀ id, used found' id → used found id ∨ id = adder.id) ∧
      (∀ id, used found id → used found' id) ∧ (tracked adder.id → used found' adder.id)

section TableReads

variable {α : Type} {property : α → UInt8 → PropertyReader.Reading α} {used : α → UInt8 → Prop}
  {tracked : UInt8 → Prop} {added : List Adder}

/-- Properties that are there once each, and that the table reads as long as they are new. -/
theorem takesAll_of_reads (hreads : ∀ adder ∈ added, TableReads property used tracked adder)
    (hsound : ∀ adder ∈ added, adder.Sound)
    (honce : ((added.map Adder.id).filter (· ≠ PropertyId.userProperty)).Nodup) {found : α}
    (hnew : ∀ adder ∈ added, adder.id ≠ PropertyId.userProperty → ¬ used found adder.id) :
    ∃ last, TakesAll property found (added.pmap Adder.property hsound) last ∧
      (∀ id, used last id → used found id ∨ id ∈ added.map Adder.id) ∧
      (∀ id, used found id → used last id) ∧ ∀ adder ∈ added, tracked adder.id → used last adder.id := by
  induction added generalizing found with
  | nil => exact ⟨found, .nil found, fun _ h => .inl h, fun _ h => h, nofun⟩
  | cons adder added ih =>
    obtain ⟨found', htakes, hnow, hstill, htracked⟩ := hreads adder List.mem_cons_self
      (hsound adder List.mem_cons_self) found (hnew adder List.mem_cons_self)
    rw [List.map_cons, List.filter_cons] at honce
    have honce' : ((added.map Adder.id).filter (· ≠ PropertyId.userProperty)).Nodup := by
      split_ifs at honce
      · exact honce.of_cons
      · exact honce
    have hnew' : ∀ other ∈ added, other.id ≠ PropertyId.userProperty → ¬ used found' other.id := by
      intro other hother huser hused
      rcases hnow other.id hused with hused | hsame
      · exact hnew other (List.mem_cons_of_mem _ hother) huser hused
      · rw [hsame] at huser
        rw [if_pos (decide_eq_true huser), List.nodup_cons] at honce
        exact honce.1 (List.mem_filter.mpr
          ⟨List.mem_map.mpr ⟨other, hother, hsame⟩, decide_eq_true huser⟩)
    obtain ⟨last, hall, hlast, hkept, hend⟩ :=
      ih (fun other hother => hreads other (List.mem_cons_of_mem _ hother))
        (fun other hother => hsound other (List.mem_cons_of_mem _ hother)) honce' hnew'
    refine ⟨last, .cons htakes hall, ?_, fun id h => hkept id (hstill id h), ?_⟩
    · intro id hid
      rcases hlast id hid with hid | hid
      · rcases hnow id hid with hid | rfl
        · exact .inl hid
        · exact .inr List.mem_cons_self
      · exact .inr (List.mem_cons_of_mem _ hid)
    · intro other hother hother'
      rcases List.mem_cons.mp hother with rfl | hother
      · exact hkept _ (htracked hother')
      · exact hend other hother hother'

theorem walk_of_reads (hreads : ∀ adder ∈ added, TableReads property used tracked adder)
    (hsound : ∀ adder ∈ added, adder.Sound)
    (honce : ((added.map Adder.id).filter (· ≠ PropertyId.userProperty)).Nodup) (found : α)
    (hnew : ∀ id, ¬ used found id) :
    ∃ last, PropertyReader.walk property found (encodedSection (added.pmap Adder.property hsound))
        (encodedSection (added.pmap Adder.property hsound)).length = .ok last ∧
      (∀ id, used last id → id ∈ added.map Adder.id) ∧
      ∀ adder ∈ added, tracked adder.id → used last adder.id := by
  obtain ⟨last, hall, hlast, -, hend⟩ :=
    takesAll_of_reads hreads hsound honce fun adder _ _ => hnew adder.id
  exact ⟨last, hall.walk, fun id hid => (hlast id hid).resolve_left (hnew id), hend⟩

theorem validateWalk_of_walk {bytes : List UInt8} {found last : α}
    (hsmall : bytes.length < remainingLengthInvalid)
    (hwalk : PropertyReader.walk property found bytes bytes.length = .ok last) :
    validateWalk property found bytes = .ok last := by
  rw [validateWalk, refuseIf_bind_eq_ok, refuseIf_bind_eq_ok]
  refine ⟨?_, Nat.not_le.mpr hsmall, hwalk⟩
  rw [remainingLengthInvalid] at hsmall
  rw [u32Max]
  omega

theorem PropertyBuilder.Contains.walk {b : PropertyBuilder} (h : b.Contains added) (found : α)
    (hreads : ∀ adder ∈ added, TableReads property used tracked adder)
    (hnew : ∀ id, ¬ used found id) :
    ∃ last, PropertyReader.walk property found b.sectionBytes b.sectionBytes.length = .ok last ∧
      (∀ id, used last id → id ∈ added.map Adder.id) ∧
      ∀ adder ∈ added, tracked adder.id → used last adder.id := by
  rw [h.sectionBytes_eq]
  exact walk_of_reads hreads h.sound h.once found hnew

theorem PropertyBuilder.Contains.validateWalk {b : PropertyBuilder} (h : b.Contains added)
    (found : α) (hreads : ∀ adder ∈ added, TableReads property used tracked adder)
    (hnew : ∀ id, ¬ used found id) :
    ∃ last, RtosMqtt.validateWalk property found b.sectionBytes = .ok last ∧
      (∀ id, used last id → id ∈ added.map Adder.id) ∧
      ∀ adder ∈ added, tracked adder.id → used last adder.id := by
  obtain ⟨last, hwalk, hlast⟩ := h.walk found hreads hnew
  exact ⟨last, validateWalk_of_walk h.length_sectionBytes hwalk, hlast⟩

end TableReads

def untracked : UInt8 → Prop := fun _ => False

theorem absurd_of_field {field : Field} {kind : UInt8}
    (hfield : (allowedProperties kind).contains field = false)
    (h : field ∈ allowedProperties kind) : False := by
  rw [List.contains_eq_mem, decide_eq_false_iff_not] at hfield
  exact hfield h

theorem reads_unmarked {α : Type} {property : α → UInt8 → PropertyReader.Reading α}
    {used : α → UInt8 → Prop} {adder : Adder}
    (h : ∀ (h : adder.Sound) (found : α), Takes property found (adder.property h) found) :
    TableReads property used untracked adder :=
  fun hsound found _ => ⟨found, h hsound found, fun _ hid => .inl hid, fun _ hid => hid, nofun⟩

theorem reads_outgoingAckProperty {adder : Adder}
    (hallowed : adder.field ∈ allowedProperties Packet.puback) :
    TableReads outgoingAckProperty (fun found id => id = PropertyId.reasonString ∧ found) untracked
      adder := by
  cases adder with
  | reasonString reason =>
    intro hsound found hfresh
    have hfound : found = false := by simpa [Adder.id] using hfresh (ne_of_beq_false rfl)
    refine ⟨true, fun {r r'} hreads => ?_, fun id hid => .inr hid.1,
      fun id hid => ⟨hid.1, rfl⟩, nofun⟩
    exact Prog.bind_of_ok (utf8_eq_ok.mpr ⟨hfound, hsound, hreads⟩)
  | userProperty key value =>
    refine reads_unmarked fun hsound found {r r'} hreads => ?_
    exact Prog.bind_of_ok (userProperty_eq_ok.mpr ⟨hsound, hreads⟩)
  | _ => exact (absurd_of_field rfl hallowed).elim

theorem reads_subscribeProperty {adder : Adder}
    (hallowed : adder.field ∈ allowedProperties Packet.subscribe) :
    TableReads (subscribeProperty true) (fun found id => id = PropertyId.subscriptionId ∧ found)
      untracked adder := by
  cases adder with
  | subscriptionId value =>
    intro hsound found hfresh
    have hfound : ¬ found = true := by simpa [Adder.id] using hfresh (ne_of_beq_false rfl)
    refine ⟨true, fun {r r'} hreads => ?_, fun id hid => .inr hid.1,
      fun id hid => ⟨hid.1, rfl⟩, nofun⟩
    have hvalue : ¬ value.toNat = 0 := fun h => hsound.1 (UInt32.toNat_inj.mp h)
    change (Prog.refuse (found = true) ParseError.badParameter >>= _) r = _
    rw [Prog.refuse_bind_of_not hfound,
      Prog.bind_of_ok (variableLength_eq_ok.mpr ⟨hsound.2, hreads⟩),
      Prog.refuse_bind_of_not (by simp), Prog.refuse_bind_of_not hvalue]
    rfl
  | userProperty key value =>
    refine reads_unmarked fun hsound found {r r'} hreads => ?_
    exact Prog.bind_of_ok (userProperty_eq_ok.mpr ⟨hsound, hreads⟩)
  | _ => exact (absurd_of_field rfl hallowed).elim

theorem reads_unsubscribeProperty {adder : Adder}
    (hallowed : adder.field ∈ allowedProperties Packet.unsubscribe) :
    TableReads unsubscribeProperty (fun _ _ => False) untracked adder := by
  cases adder with
  | userProperty key value =>
    refine reads_unmarked fun hsound found {r r'} hreads => ?_
    exact Prog.bind_of_ok (userProperty_eq_ok.mpr ⟨hsound, hreads⟩)
  | _ => exact (absurd_of_field rfl hallowed).elim

theorem reads_outgoingDisconnectProperty {connectSessionExpiry : ℕ} (hexpiry : connectSessionExpiry ≠ 0)
    {adder : Adder} (hallowed : adder.field ∈ allowedProperties Packet.disconnect) :
    TableReads (outgoingDisconnectProperty connectSessionExpiry) (fun _ _ => False) untracked adder := by
  cases adder with
  | sessionExpiry seconds =>
    refine reads_unmarked fun hsound found {r r'} hreads => ?_
    refine (Prog.bind_of_ok (u32_eq_ok_iff.mpr ⟨rfl, seconds.toNat_lt, hreads⟩)).trans ?_
    rw [Prog.refuse_apply, if_neg fun h => hexpiry h.1]
  | reasonString reason =>
    refine reads_unmarked fun hsound found {r r'} hreads => ?_
    exact Prog.bind_of_ok (utf8_eq_ok.mpr ⟨rfl, hsound, hreads⟩)
  | userProperty key value =>
    refine reads_unmarked fun hsound found {r r'} hreads => ?_
    exact Prog.bind_of_ok (userProperty_eq_ok.mpr ⟨hsound, hreads⟩)
  | _ => exact (absurd_of_field rfl hallowed).elim

theorem reads_outgoingPublishProperty {serverTopicAliasMax : UInt16} {adder : Adder}
    (hallowed : adder.field ∈ allowedProperties Packet.publish)
    (halias : ∀ value, adder = .topicAlias value → value ≤ serverTopicAliasMax)
    (hsubscription : ∀ value, adder ≠ .subscriptionId value) :
    TableReads (outgoingPublishProperty serverTopicAliasMax)
      (fun found id => id = PropertyId.topicAlias ∧ found.isSome) untracked adder := by
  cases adder with
  | topicAlias value =>
    intro hsound found hfresh
    have hfound : found.isSome = false := by simpa [Adder.id] using hfresh (ne_of_beq_false rfl)
    refine ⟨some value, fun {r r'} hreads => ?_, fun id hid => .inr hid.1,
      fun id hid => ⟨hid.1, rfl⟩, nofun⟩
    refine (Prog.bind_of_ok (u16_eq_ok_iff.mpr ⟨hfound, hreads⟩)).trans ?_
    rw [Prog.refuse_bind_of_not (UInt16.not_lt.mpr (halias value rfl))]
    rfl
  | payloadFormat utf8 =>
    refine reads_unmarked fun hsound found {r r'} hreads => ?_
    exact Prog.bind_of_ok (u8_eq_ok.mpr ⟨rfl, hreads⟩)
  | messageExpiry seconds =>
    refine reads_unmarked fun hsound found {r r'} hreads => ?_
    exact Prog.bind_of_ok (u32_eq_ok_iff.mpr ⟨rfl, seconds.toNat_lt, hreads⟩)
  | contentType bytes | responseTopic bytes | correlationData bytes =>
    refine reads_unmarked fun hsound found {r r'} hreads => ?_
    exact Prog.bind_of_ok (utf8_eq_ok.mpr ⟨rfl, hsound, hreads⟩)
  | userProperty key value =>
    refine reads_unmarked fun hsound found {r r'} hreads => ?_
    exact Prog.bind_of_ok (userProperty_eq_ok.mpr ⟨hsound, hreads⟩)
  | subscriptionId value => exact absurd rfl (hsubscription value)
  | _ => exact (absurd_of_field rfl hallowed).elim

def Adder.ofWill : Adder → Bool
  | willDelay _ | payloadFormat _ | messageExpiry _ | contentType _ | responseTopic _
  | correlationData _ | userProperty _ _ => true
  | _ => false

/-- The adders that a CONNECT's own properties are built with. -/
def Adder.ofConnect : Adder → Bool
  | sessionExpiry _ | receiveMax _ | maxPacketSize _ | topicAliasMax _ | requestResponseInfo _
  | requestProblemInfo _ | authMethod _ | authData _ | userProperty _ _ => true
  | _ => false

theorem checkOnce_bind {α : Type} {seen : List UInt8} {id : UInt8} (h : id ∉ seen)
    (f : List UInt8 → PropertyReader.Reading α) : checkOnce seen id >>= f = f (id :: seen) := by
  rw [checkOnce, Prog.bind_assoc, Prog.refuse_bind_of_not h, Prog.pure_bind]

theorem readFlag_eq_ok {value : Bool} {r r' : PropertyReader}
    (h : r.Reads [if value then 1 else 0] r') :
    readFlag r = (.ok (if value then 1 else 0), r') := by
  rw [readFlag, Prog.bind_of_ok (u8_eq_ok.mpr ⟨rfl, h⟩),
    Prog.refuse_bind_of_not (by cases value <;> decide)]
  rfl

theorem reads_marked {adder : Adder} {property : List UInt8 → UInt8 → PropertyReader.Reading (List UInt8)}
    (hreads : adder.Sound → ∀ {seen r r'}, adder.id ∉ seen → r.Reads adder.value.encoded r' →
      property seen adder.id r = (.ok (adder.id :: seen), r'))
    (huser : adder.id ≠ PropertyId.userProperty) :
    TableReads property (fun seen id => id ∈ seen) untracked adder := by
  intro hsound seen hfresh
  refine ⟨adder.id :: seen, fun {r r'} => hreads hsound (hfresh huser), ?_,
    fun id hid => List.mem_cons_of_mem _ hid, nofun⟩
  intro id hid
  exact (List.mem_cons.mp hid).symm

theorem reads_willProperty {adder : Adder} (hown : adder.ofWill = true) :
    TableReads willProperty (fun seen id => id ∈ seen) untracked adder := by
  cases adder with
  | willDelay seconds | messageExpiry seconds =>
    refine reads_marked (fun hsound {seen r r'} hfresh hreads => ?_) (ne_of_beq_false rfl)
    change (checkOnce _ _ >>= _) r = _
    rw [checkOnce_bind hfresh]
    exact Prog.bind_of_ok (u32_eq_ok_iff.mpr ⟨rfl, seconds.toNat_lt, hreads⟩)
  | payloadFormat utf8 =>
    refine reads_marked (fun hsound {seen r r'} hfresh hreads => ?_) (ne_of_beq_false rfl)
    change (checkOnce _ _ >>= _) r = _
    rw [checkOnce_bind hfresh]
    exact Prog.bind_of_ok (readFlag_eq_ok hreads)
  | contentType bytes | responseTopic bytes | correlationData bytes =>
    refine reads_marked (fun hsound {seen r r'} hfresh hreads => ?_) (ne_of_beq_false rfl)
    change (checkOnce _ _ >>= _) r = _
    rw [checkOnce_bind hfresh]
    exact Prog.bind_of_ok (utf8_eq_ok.mpr ⟨rfl, hsound, hreads⟩)
  | userProperty key value =>
    refine reads_unmarked fun hsound found {r r'} hreads => ?_
    exact Prog.bind_of_ok (userProperty_eq_ok.mpr ⟨hsound, hreads⟩)
  | _ => cases hown

def Connects (id : UInt8) : Prop := id ≠ PropertyId.userProperty

theorem reads_connectMarked {adder : Adder}
    (hreads : adder.Sound → ∀ walk : ConnectWalk, adder.id ∉ walk.seen → ∃ found,
      ∀ {r r'}, r.Reads adder.value.encoded r' →
        connectProperty walk adder.id r = (.ok ⟨adder.id :: walk.seen, found⟩, r'))
    (huser : adder.id ≠ PropertyId.userProperty) :
    TableReads connectProperty (fun walk id => id ∈ walk.seen) Connects adder := by
  intro hsound walk hfresh
  obtain ⟨found, hfound⟩ := hreads hsound walk (hfresh huser)
  refine ⟨⟨adder.id :: walk.seen, found⟩, hfound, ?_, fun id hid => List.mem_cons_of_mem _ hid,
    fun _ => List.mem_cons_self⟩
  intro id hid
  exact (List.mem_cons.mp hid).symm

theorem reads_connectProperty {adder : Adder} (hown : adder.ofConnect = true) :
    TableReads connectProperty (fun walk id => id ∈ walk.seen) Connects adder := by
  cases adder with
  | sessionExpiry seconds =>
    refine reads_connectMarked (fun hsound walk hfresh => ⟨walk.found, fun {r r'} hreads => ?_⟩)
      (ne_of_beq_false rfl)
    change (checkOnce _ _ >>= _) r = _
    rw [checkOnce_bind hfresh]
    exact Prog.bind_of_ok (u32_eq_ok_iff.mpr ⟨rfl, seconds.toNat_lt, hreads⟩)
  | receiveMax value =>
    refine reads_connectMarked (fun hsound walk hfresh => ⟨walk.found, fun {r r'} hreads => ?_⟩)
      (ne_of_beq_false rfl)
    change (checkOnce _ _ >>= _) r = _
    rw [checkOnce_bind hfresh, Prog.bind_of_ok (u16_eq_ok_iff.mpr ⟨rfl, hreads⟩),
      Prog.refuse_bind_of_not hsound]
    rfl
  | maxPacketSize value =>
    refine reads_connectMarked (fun hsound walk hfresh =>
      ⟨{ walk.found with maxPacketSize := some value.toNat }, fun {r r'} hreads => ?_⟩)
      (ne_of_beq_false rfl)
    have hvalue : ¬ value.toNat = 0 := fun h => hsound (UInt32.toNat_inj.mp h)
    change (checkOnce _ _ >>= _) r = _
    rw [checkOnce_bind hfresh,
      Prog.bind_of_ok (u32_eq_ok_iff.mpr ⟨rfl, value.toNat_lt, hreads⟩),
      Prog.refuse_bind_of_not hvalue]
    rfl
  | topicAliasMax value =>
    refine reads_connectMarked (fun hsound walk hfresh => ⟨walk.found, fun {r r'} hreads => ?_⟩)
      (ne_of_beq_false rfl)
    change (checkOnce _ _ >>= _) r = _
    rw [checkOnce_bind hfresh]
    exact Prog.bind_of_ok (u16_eq_ok_iff.mpr ⟨rfl, hreads⟩)
  | requestResponseInfo value =>
    refine reads_connectMarked (fun hsound walk hfresh => ⟨walk.found, fun {r r'} hreads => ?_⟩)
      (ne_of_beq_false rfl)
    change (checkOnce _ _ >>= _) r = _
    rw [checkOnce_bind hfresh]
    exact Prog.bind_of_ok (readFlag_eq_ok hreads)
  | requestProblemInfo value =>
    refine reads_connectMarked (fun hsound walk hfresh =>
      ⟨{ walk.found with requestProblemInfo := (if value then 1 else 0 : UInt8) == 1 },
        fun {r r'} hreads => ?_⟩) (ne_of_beq_false rfl)
    change (checkOnce _ _ >>= _) r = _
    rw [checkOnce_bind hfresh]
    exact Prog.bind_of_ok (readFlag_eq_ok hreads)
  | authMethod bytes | authData bytes =>
    refine reads_connectMarked (fun hsound walk hfresh => ⟨walk.found, fun {r r'} hreads => ?_⟩)
      (ne_of_beq_false rfl)
    change (checkOnce _ _ >>= _) r = _
    rw [checkOnce_bind hfresh]
    exact Prog.bind_of_ok (utf8_eq_ok.mpr ⟨rfl, hsound, hreads⟩)
  | userProperty key value =>
    intro hsound walk hfresh
    refine ⟨walk, fun {r r'} hreads => ?_, fun _ hid => .inl hid, fun _ hid => hid,
      fun huser => absurd rfl huser⟩
    exact Prog.bind_of_ok (userProperty_eq_ok.mpr ⟨hsound, hreads⟩)
  | _ => cases hown

def forPacket (kind : UInt8) (calls : List Adder) : List (Adder × Option UInt8) :=
  calls.map fun adder => (adder, some kind)

/-- What is known of a section whose adders all named one kind of packet. -/
structure BuiltFor (kind : UInt8) (calls : List Adder) (b : PropertyBuilder)
    (added : List Adder) : Prop where
  contains : b.Contains added
  called : ∀ adder ∈ added, adder ∈ calls
  allowed : ∀ adder ∈ added, adder.field ∈ allowedProperties kind
  method : ∀ adder ∈ added, adder.id = PropertyId.authData →
    PropertyId.authMethod ∈ added.map Adder.id

theorem id_of_field_authMethod {adder : Adder} (h : adder.field = .authenticationMethod) :
    adder.id = PropertyId.authMethod := by
  cases adder with
  | authMethod => rfl
  | _ => exact absurd h (ne_of_beq_false rfl)

theorem builtFor_addAll {buffer : List UInt8} {b : PropertyBuilder}
    (h : PropertyBuilder.new buffer = .ok b) (kind : UInt8) (calls : List Adder) :
    BuiltFor kind calls (b.addAll (forPacket kind calls)) (b.succeeded (forPacket kind calls)) := by
  have hstart : BuiltFor kind calls b [] :=
    ⟨PropertyBuilder.contains_new h, nofun, nofun, nofun⟩
  refine PropertyBuilder.addAll_keeps (fun {u added adder packetType} hmem hbuilt haccepts hroom =>
    ?_) hstart
  obtain ⟨same, hcalled, hpair⟩ := List.mem_map.mp hmem
  cases hpair
  refine ⟨hbuilt.contains.add haccepts hroom, ?_, ?_, ?_⟩
  · intro other hother
    rcases List.mem_append.mp hother with hother | hother
    · exact hbuilt.called other hother
    · obtain rfl := List.mem_singleton.mp hother
      exact hcalled
  · intro other hother
    rcases List.mem_append.mp hother with hother | hother
    · exact hbuilt.allowed other hother
    · obtain rfl := List.mem_singleton.mp hother
      exact haccepts.allowed kind rfl
  · intro other hother hid
    rw [List.map_append]
    apply List.mem_append_left
    rcases List.mem_append.mp hother with hother | hother
    · exact hbuilt.method other hother hid
    · obtain rfl := List.mem_singleton.mp hother
      obtain ⟨first, hfirst, -, hfield⟩ :=
        (hbuilt.contains.fields _).mp (haccepts.method hid)
      exact List.mem_map.mpr ⟨first, hfirst, id_of_field_authMethod hfield⟩

/-- A section that was built for a kind of packet passes the check of that kind. -/
theorem built_section_validates {buffer : List UInt8} {b : PropertyBuilder}
    (h : PropertyBuilder.new buffer = .ok b) (calls : List Adder) :
    (∀ kind, isPublishAck kind = true →
      validatePublishAckProperties (b.addAll (forPacket kind calls)).sectionBytes = .ok ()) ∧
    validateSubscribeProperties true
      (b.addAll (forPacket Packet.subscribe calls)).sectionBytes = .ok () ∧
    validateUnsubscribeProperties
      (b.addAll (forPacket Packet.unsubscribe calls)).sectionBytes = .ok () ∧
    (∀ connectSessionExpiry, connectSessionExpiry ≠ 0 →
      validateOutgoingProperties connectSessionExpiry
        (b.addAll (forPacket Packet.disconnect calls)).sectionBytes = .ok ()) ∧
    (∀ serverTopicAliasMax,
      (∀ value, .topicAlias value ∈ b.succeeded (forPacket Packet.publish calls) →
        value ≤ serverTopicAliasMax) →
      (∀ value, .subscriptionId value ∉ b.succeeded (forPacket Packet.publish calls)) →
      ∃ topicAlias, validatePublishProperties serverTopicAliasMax
        (b.addAll (forPacket Packet.publish calls)).sectionBytes = .ok topicAlias) ∧
    ((∀ adder ∈ calls, adder.ofConnect = true) →
      ∃ found, validateConnectProperties
        (b.addAll (forPacket Packet.connect calls)).sectionBytes = .ok found) ∧
    ((∀ adder ∈ calls, adder.ofWill = true) →
      validateWillProperties (b.addAll (forPacket Packet.connect calls)).sectionBytes =
        .ok ()) := by
  refine ⟨?_, ?_, ?_, ?_, ?_, ?_, ?_⟩
  · intro kind hkind
    have hbuilt := builtFor_addAll h kind calls
    have hsame : allowedProperties kind = allowedProperties Packet.puback := by
      have hfour := of_decide_eq_true hkind
      simp only [List.mem_cons, List.not_mem_nil, or_false] at hfour
      obtain rfl | rfl | rfl | rfl := hfour <;> rfl
    obtain ⟨last, hwalk, -⟩ := hbuilt.contains.validateWalk false
      (fun adder hadder => reads_outgoingAckProperty (hsame ▸ hbuilt.allowed adder hadder))
      (fun id hid => Bool.false_ne_true hid.2)
    rw [validatePublishAckProperties, hwalk]
    rfl
  · have hbuilt := builtFor_addAll h Packet.subscribe calls
    obtain ⟨last, hwalk, -⟩ := hbuilt.contains.validateWalk false
      (fun adder hadder => reads_subscribeProperty (hbuilt.allowed adder hadder))
      (fun id hid => Bool.false_ne_true hid.2)
    rw [validateSubscribeProperties, hwalk]
    rfl
  · have hbuilt := builtFor_addAll h Packet.unsubscribe calls
    obtain ⟨⟨⟩, hwalk, -⟩ := hbuilt.contains.validateWalk ()
      (fun adder hadder => reads_unsubscribeProperty (hbuilt.allowed adder hadder))
      (fun _ h => h)
    exact hwalk
  · intro connectSessionExpiry hexpiry
    have hbuilt := builtFor_addAll h Packet.disconnect calls
    obtain ⟨⟨⟩, hwalk, -⟩ := hbuilt.contains.walk ()
      (fun adder hadder =>
        reads_outgoingDisconnectProperty hexpiry (hbuilt.allowed adder hadder))
      (fun _ h => h)
    have hsmall := hbuilt.contains.length_sectionBytes
    rw [validateOutgoingProperties, refuseIf_bind_eq_ok]
    refine ⟨?_, hwalk⟩
    rw [remainingLengthInvalid] at hsmall
    rw [u32Max]
    omega
  · intro serverTopicAliasMax halias hsubscription
    have hbuilt := builtFor_addAll h Packet.publish calls
    obtain ⟨last, hwalk, -⟩ := hbuilt.contains.validateWalk none
      (fun adder hadder => reads_outgoingPublishProperty (hbuilt.allowed adder hadder)
        (fun value hvalue => halias value (hvalue ▸ hadder))
        (fun value hvalue => hsubscription value (hvalue ▸ hadder)))
      (fun id hid => Bool.false_ne_true hid.2)
    exact ⟨last, hwalk⟩
  · intro hown
    have hbuilt := builtFor_addAll h Packet.connect calls
    obtain ⟨last, hwalk, hseen, hend⟩ := hbuilt.contains.validateWalk {}
      (fun adder hadder => reads_connectProperty (hown adder (hbuilt.called adder hadder)))
      (fun id hid => List.not_mem_nil hid)
    refine ⟨last.found, ?_⟩
    rw [validateConnectProperties, hwalk]
    refine refuseIf_bind_eq_ok.mpr ⟨?_, rfl⟩
    rintro ⟨hdata, hnone⟩
    obtain ⟨adder, hadder, hid⟩ := List.mem_map.mp (hseen _ hdata)
    obtain ⟨first, hfirst, hmethod⟩ := List.mem_map.mp (hbuilt.method adder hadder hid)
    refine hnone (hmethod ▸ hend first hfirst ?_)
    rw [Connects, hmethod]
    decide
  · intro hown
    have hbuilt := builtFor_addAll h Packet.connect calls
    obtain ⟨last, hwalk, -⟩ := hbuilt.contains.validateWalk []
      (fun adder hadder => reads_willProperty (hown adder (hbuilt.called adder hadder)))
      (fun id hid => List.not_mem_nil hid)
    rw [validateWillProperties, hwalk]
    rfl

/-- Sections with a reason string, a topic alias, a receive maximum and a message expiry. -/
theorem built_section_validates_of_few :
    validatePublishAckProperties
        ((⟨List.replicate 16 0, 0, []⟩ : PropertyBuilder).addAll
          (forPacket Packet.puback [.reasonString [99], .userProperty [97] [98]])).sectionBytes =
      .ok () ∧
    validateOutgoingProperties 1
        ((⟨List.replicate 16 0, 0, []⟩ : PropertyBuilder).addAll
          (forPacket Packet.disconnect [.reasonString [99]])).sectionBytes =
      .ok () ∧
    (∃ topicAlias, validatePublishProperties 7
        ((⟨List.replicate 16 0, 0, []⟩ : PropertyBuilder).addAll
          (forPacket Packet.publish [.topicAlias 7])).sectionBytes = .ok topicAlias) ∧
    (∃ found, validateConnectProperties
        ((⟨List.replicate 16 0, 0, []⟩ : PropertyBuilder).addAll
          (forPacket Packet.connect [.receiveMax 20])).sectionBytes = .ok found) ∧
    validateWillProperties
        ((⟨List.replicate 16 0, 0, []⟩ : PropertyBuilder).addAll
          (forPacket Packet.connect [.messageExpiry 60])).sectionBytes =
      .ok () := by
  have hnew : PropertyBuilder.new (List.replicate 16 0) = .ok ⟨List.replicate 16 0, 0, []⟩ := by
    decide +kernel
  refine ⟨?_, ?_, ?_, ?_, ?_⟩
  · exact (built_section_validates hnew _).1 Packet.puback (by decide)
  · exact (built_section_validates hnew _).2.2.2.1 1 (by decide)
  · have hadded : PropertyBuilder.succeeded ⟨List.replicate 16 0, 0, []⟩
        (forPacket Packet.publish [.topicAlias 7]) = [.topicAlias 7] := by
      decide +kernel
    apply (built_section_validates hnew _).2.2.2.2.1 7
    · intro value hvalue
      rw [hadded] at hvalue
      cases List.mem_singleton.mp hvalue
      decide
    · intro value hvalue
      rw [hadded] at hvalue
      cases List.mem_singleton.mp hvalue
  · exact (built_section_validates hnew _).2.2.2.2.2.1 (by decide)
  · exact (built_section_validates hnew _).2.2.2.2.2.2 (by decide)

end RtosMqtt
