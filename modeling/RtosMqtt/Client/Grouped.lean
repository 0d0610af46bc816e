import RtosMqtt.Client.Replies
import RtosMqtt.Wire.Validated

/-! # Replies built in several steps

A handler may ask its reply for a builder more than once. Each of them appends behind what is
there, and has forgotten what that is: a reason string is refused to the builder that has put
one, not to the next.
-/

namespace RtosMqtt

variable {kind : UInt8}

/-- An acknowledgement may carry the property, and there is room for it. -/
def Adder.fitsIn (room : ℕ) : Adder → Bool
  | .reasonString reason => reason ≠ [] ∧ reason.length ≤ 65535 ∧ reason.length + 3 ≤ room
  | .userProperty key value =>
    (key ≠ [] ∧ value ≠ []) ∧ (key.length ≤ 65535 ∧ value.length ≤ 65535) ∧
      key.length + value.length + 5 ≤ room
  | _ => false

theorem Adder.id_of_fitsIn {room : ℕ} {adder : Adder} (h : adder.fitsIn room = true) :
    adder.id = PropertyId.reasonString ∨ adder.id = PropertyId.userProperty := by
  cases adder with
  | reasonString => exact .inl rfl
  | userProperty => exact .inr rfl
  | _ => exact absurd h Bool.false_ne_true

theorem allowedProperties_of_publishAck (hkind : isPublishAck kind = true) :
    allowedProperties kind = allowedProperties Packet.puback := by
  have hall : ∀ k ∈ [Packet.puback, Packet.pubrec, Packet.pubrel, Packet.pubcomp],
      allowedProperties k = allowedProperties Packet.puback := by decide +kernel
  exact hall kind (by simpa [isPublishAck] using hkind)

namespace PropertyBuilder

variable {b : PropertyBuilder}

theorem fits_bind_of {needed : ℕ} {f : Unit → Building}
    (hsmall : b.buffer.length < remainingLengthInvalid)
    (hroom : b.position + needed ≤ b.buffer.length) : (fits needed >>= f) b = f () b := by
  rw [remainingLengthInvalid] at hsmall
  rw [fits, Prog.bind_assoc, Prog.get_bind_apply, Prog.bind_assoc, Prog.bind_assoc,
    Prog.refuse_bind_of_not (by omega), Prog.refuse_bind_of_not (by rw [u32Max]; omega),
    Prog.refuse_bind_of_not (by rw [remainingLengthInvalid]; omega)]

theorem allowed_bind_of {field : Field} {f : Unit → Building}
    (h : field ∈ allowedProperties kind) : (allowed field (some kind) >>= f) b = f () b :=
  congrFun (Prog.refuse_bind_of_not (not_not_intro h)) b

theorem roomFor_bind_of {needed : ℕ} {field : Field} {f : Unit → Building}
    (hsmall : b.buffer.length < remainingLengthInvalid) (hfresh : field ∉ b.fields)
    (hallowed : field ∈ allowedProperties kind)
    (hroom : b.position + needed ≤ b.buffer.length) :
    (roomFor needed field (some kind) >>= f) b = f () b := by
  rw [roomFor, Prog.bind_assoc, Prog.get_bind_apply, Prog.bind_assoc,
    Prog.refuse_bind_of_not hfresh, Prog.bind_assoc, allowed_bind_of hallowed,
    fits_bind_of hsmall hroom]

structure Open (b : PropertyBuilder) : Prop where
  inside : b.position ≤ b.buffer.length
  nonempty : b.buffer ≠ []
  small : b.buffer.length < remainingLengthInvalid

def room (b : PropertyBuilder) : ℕ := b.buffer.length - b.position

theorem encoded_le_room_iff (hopen : b.Open) {adder : Adder} :
    adder.encoded.length ≤ b.room ↔ b.position + adder.encoded.length ≤ b.buffer.length := by
  have hinside := hopen.inside
  rw [room]
  omega

theorem length_encoded_reasonString (reason : List UInt8) :
    (Adder.reasonString reason).encoded.length = reason.length + 3 := by
  change (PropertyId.reasonString :: prefixed reason).length = _
  rw [List.length_cons, length_prefixed]

theorem length_encoded_userProperty (key value : List UInt8) :
    (Adder.userProperty key value).encoded.length = key.length + value.length + 5 := by
  change (PropertyId.userProperty :: (prefixed key ++ prefixed value)).length = _
  rw [List.length_cons, List.length_append, length_prefixed, length_prefixed]
  omega

/-- An acknowledgement's builder takes an adder with room for its property, but for a second
reason string. -/
theorem add_eq_ok_iff (hkind : isPublishAck kind = true) (hopen : b.Open) (adder : Adder) :
    (adder.add (some kind) b).1 = .ok () ↔ adder.fitsIn b.room = true ∧
      (adder.id = PropertyId.reasonString → .reasonString ∉ b.fields) := by
  have hallowed := allowedProperties_of_publishAck hkind
  constructor
  · intro h
    have houtcome := outcome_add adder (some kind) b
    generalize hrun : adder.add (some kind) b = run at h houtcome
    cases houtcome with
    | refused e => cases h
    | added haccepts hroom =>
      rw [← encoded_le_room_iff hopen] at hroom
      have hfield := haccepts.allowed kind rfl
      rw [hallowed] at hfield
      cases adder with
      | reasonString reason =>
        have hne : reason ≠ [] := by
          rintro rfl
          cases hrun
        rw [length_encoded_reasonString] at hroom
        exact ⟨decide_eq_true ⟨hne, haccepts.sound, hroom⟩,
          fun _ => haccepts.fresh.resolve_left (ne_of_beq_false rfl)⟩
      | userProperty key value =>
        have hne : key ≠ [] ∧ value ≠ [] := by
          constructor
          · rintro rfl
            cases hrun
          · rintro rfl
            cases key <;> cases hrun
        rw [length_encoded_userProperty] at hroom
        exact ⟨decide_eq_true ⟨hne, haccepts.sound, hroom⟩, fun hid => absurd hid (ne_of_beq_false rfl)⟩
      | _ => exact (absurd_of_field rfl hfield).elim
  · rintro ⟨hfits, hfresh⟩
    cases adder with
    | reasonString reason =>
      obtain ⟨hne, hlength, hroom⟩ := of_decide_eq_true hfits
      rw [← length_encoded_reasonString, encoded_le_room_iff hopen] at hroom
      rw [Adder.add, reasonString, addUtf8, Prog.refuse_bind_of_not hne,
        Prog.refuse_bind_of_not (Nat.not_lt.mpr hlength),
        roomFor_bind_of hopen.small (hfresh rfl) (hallowed ▸ by decide)
          (length_encoded_reasonString reason ▸ hroom)]
      exact congrArg Prod.fst (Prog.bind_of_ok (put_eq hroom))
    | userProperty key value =>
      obtain ⟨hne, hlength, hroom⟩ := of_decide_eq_true hfits
      rw [← length_encoded_userProperty, encoded_le_room_iff hopen] at hroom
      rw [Adder.add, userProperty, Prog.refuse_bind_of_not (not_or.mpr hne),
        Prog.refuse_bind_of_not (not_or.mpr (hlength.imp Nat.not_lt.mpr Nat.not_lt.mpr)),
        allowed_bind_of (hallowed ▸ by decide), fits_bind_of hopen.small
          (length_encoded_userProperty key value ▸ hroom)]
      exact congrArg Prod.fst (putEncoded_pair hlength.1 hlength.2 hroom)
    | _ => exact absurd hfits Bool.false_ne_true

/-- Among adders made in a row a reason string finds the room it needs. -/
def ReasonFits : ℕ → List Adder → Prop
  | _, [] => False
  | room, adder :: adders =>
    if adder.fitsIn room then
      adder.id = PropertyId.reasonString ∨ ReasonFits (room - adder.encoded.length) adders
    else ReasonFits room adders

/-- The section that a builder has in hand, and what it put there. -/
structure Behind (before : List UInt8) (b : PropertyBuilder) (added : List Adder) : Prop where
  opened : b.Open
  bytes : b.sectionBytes = before ++ added.flatMap Adder.encoded
  sound : ∀ adder ∈ added, adder.Sound
  allowed : ∀ adder ∈ added, adder.field ∈ allowedProperties Packet.puback
  marked : PropertyId.reasonString ∈ added.map Adder.id → .reasonString ∈ b.fields
  once : (added.map Adder.id).count PropertyId.reasonString ≤ 1

theorem Open.after (hopen : b.Open) {bytes : List UInt8} {fields : List Field}
    (hroom : b.position + bytes.length ≤ b.buffer.length) :
    (b.after bytes fields).Open ∧ (b.after bytes fields).room = b.room - bytes.length := by
  have hlength : (b.after bytes fields).buffer.length = b.buffer.length := by
    dsimp only [PropertyBuilder.after]
    rw [List.length_append, List.length_append, List.length_take, List.length_drop]
    omega
  have hpos := List.length_pos_of_ne_nil hopen.nonempty
  refine ⟨⟨hlength ▸ hroom, List.ne_nil_of_length_pos (hlength ▸ hpos), hlength ▸ hopen.small⟩, ?_⟩
  rw [room, hlength, room, Nat.sub_sub]
  rfl

theorem Behind.add {before : List UInt8} {added : List Adder} {adder : Adder}
    (hkind : isPublishAck kind = true) (h : Behind before b added)
    (haccepts : b.Accepts (some kind) adder)
    (hroom : b.position + adder.encoded.length ≤ b.buffer.length) :
    Behind before (b.after adder.encoded (fieldsAfter adder b.fields)) (added ++ [adder]) where
  opened := (h.opened.after hroom).1
  bytes := by
    rw [sectionBytes_after h.opened.inside, h.bytes]
    simp
  sound := by
    simpa [or_imp, forall_and] using ⟨h.sound, haccepts.sound⟩
  allowed := by
    have hallowed := haccepts.allowed kind rfl
    rw [allowedProperties_of_publishAck hkind] at hallowed
    simpa [or_imp, forall_and] using ⟨h.allowed, hallowed⟩
  marked := by
    rw [List.map_append, List.mem_append, after, fieldsAfter]
    dsimp only
    rintro (hmem | hmem)
    · have hmarked := h.marked hmem
      split_ifs
      · exact hmarked
      · exact List.mem_cons_of_mem _ hmarked
    · have hid := List.mem_singleton.mp hmem
      rw [← hid, if_neg (ne_of_beq_false rfl), Adder.field, ← hid]
      exact List.mem_cons_self
  once := by
    rw [List.map_append, List.count_append, List.map_singleton, List.count_singleton]
    by_cases hid : adder.id = PropertyId.reasonString
    · have hfield : adder.field = .reasonString := by rw [Adder.field, hid]; rfl
      have hfresh : adder.field ∉ b.fields :=
        haccepts.fresh.resolve_left (hid ▸ ne_of_beq_false rfl)
      rw [List.count_eq_zero_of_not_mem fun hmem => hfresh (hfield ▸ h.marked hmem)]
      split_ifs <;> decide
    · rw [if_neg (by simpa using hid)]
      exact h.once

theorem add_cases (hkind : isPublishAck kind = true) (hopen : b.Open) (adder : Adder) :
    (adder.fitsIn b.room = true ∧ (adder.id = PropertyId.reasonString → .reasonString ∉ b.fields) ∧
      b.position + adder.encoded.length ≤ b.buffer.length ∧
      adder.add (some kind) b = (.ok (), b.after adder.encoded (fieldsAfter adder b.fields))) ∨
    (¬ (adder.fitsIn b.room = true ∧
      (adder.id = PropertyId.reasonString → .reasonString ∉ b.fields)) ∧
      ∃ e, adder.add (some kind) b = (.error e, b)) := by
  have hiff := add_eq_ok_iff hkind hopen adder
  have houtcome := outcome_add adder (some kind) b
  generalize adder.add (some kind) b = run at hiff houtcome
  cases houtcome with
  | refused e => exact .inr ⟨fun h => (by cases hiff.mpr h), e, rfl⟩
  | added _ hroom =>
    obtain ⟨hfits, hfresh⟩ := hiff.mp rfl
    exact .inl ⟨hfits, hfresh, hroom, rfl⟩

theorem reason_mem_succeeded (hkind : isPublishAck kind = true) (hopen : b.Open)
    (hfresh : .reasonString ∉ b.fields) (adders : List Adder) :
    PropertyId.reasonString ∈ (b.succeeded (forPacket kind adders)).map Adder.id ↔
      ReasonFits b.room adders := by
  induction adders generalizing b with
  | nil => exact iff_of_false List.not_mem_nil id
  | cons adder adders ih =>
    rw [forPacket, List.map_cons, succeeded, ReasonFits]
    obtain ⟨hfits, -, hroom, hadd⟩ | ⟨hrefused, e, hadd⟩ := add_cases hkind hopen adder
    · obtain ⟨hafter, hrest⟩ := @Open.after _ hopen _ (fieldsAfter adder b.fields) hroom
      rw [hadd, if_pos hfits, List.map_cons, List.mem_cons, eq_comm]
      by_cases hid : adder.id = PropertyId.reasonString
      · exact iff_of_true (.inl hid) (.inl hid)
      · have huser := (Adder.id_of_fitsIn hfits).resolve_left hid
        rw [or_iff_right hid, or_iff_right hid, ← hrest]
        refine ih hafter ?_
        rw [after, fieldsAfter, if_pos huser]
        exact hfresh
    · rw [hadd, if_neg fun hfits => hrefused ⟨hfits, fun _ => hfresh⟩]
      exact ih hopen hfresh

end PropertyBuilder

namespace AckReply

/-- One call after the other, each with adders that name the packet. -/
def build (kind : UInt8) (r : AckReply) (groups : List (List Adder)) : AckReply :=
  groups.foldl (fun r adders => r.withProperties (forPacket kind adders)) r

/-- All the adders that were not refused, in the order in which they were called. -/
def built (kind : UInt8) : AckReply → List (List Adder) → List Adder
  | _, [] => []
  | r, adders :: groups =>
    r.addedBy (forPacket kind adders) ++
      (r.withProperties (forPacket kind adders)).built kind groups

/-- There is a buffer, and it is not too long for a section. -/
def Usable (r : AckReply) : Prop := r.buffer ≠ [] ∧ r.buffer.length < remainingLengthInvalid

/-- What a reply holds, and that it has the room it says it has. -/
structure Holds (r : AckReply) (added : List Adder) : Prop where
  accepted : r.accepted = true
  inside : r.used ≤ r.buffer.length
  usable : added ≠ [] → r.Usable
  bytes : r.sectionBytes = added.flatMap Adder.encoded
  sound : ∀ adder ∈ added, adder.Sound
  allowed : ∀ adder ∈ added, adder.field ∈ allowedProperties Packet.puback

variable {r : AckReply} {added : List Adder}

/-- The builder that is resumed on what a reply holds. -/
def builder (r : AckReply) : PropertyBuilder := { buffer := r.buffer, position := r.used }

theorem resume_eq (hinside : r.used ≤ r.buffer.length) (husable : r.Usable) :
    PropertyBuilder.resume r.buffer r.used = .ok r.builder := by
  obtain ⟨hne, hsmall⟩ := husable
  have hlimit := hsmall
  rw [remainingLengthInvalid] at hlimit
  rw [PropertyBuilder.resume, refuseIf_bind_eq_ok, except_bind_eq_ok]
  refine ⟨Nat.not_lt.mpr hinside, { buffer := r.buffer }, ?_, rfl⟩
  rw [PropertyBuilder.new, refuseIf_bind_eq_ok, refuseIf_bind_eq_ok, refuseIf_bind_eq_ok]
  exact ⟨hne, by rw [u32Max]; omega, Nat.not_le.mpr hsmall, rfl⟩

theorem resume_error (husable : ¬ r.Usable) (builder : PropertyBuilder) :
    PropertyBuilder.resume r.buffer r.used ≠ .ok builder := by
  intro h
  rw [PropertyBuilder.resume, refuseIf_bind_eq_ok, except_bind_eq_ok] at h
  obtain ⟨-, _, hnew, -⟩ := h
  rw [PropertyBuilder.new, refuseIf_bind_eq_ok, refuseIf_bind_eq_ok, refuseIf_bind_eq_ok] at hnew
  exact husable ⟨hnew.1, Nat.not_le.mp hnew.2.2.1⟩

theorem withProperties_of_usable (haccepted : r.accepted = true)
    (hinside : r.used ≤ r.buffer.length) (husable : r.Usable)
    (calls : List (Adder × Option UInt8)) :
    r.withProperties calls = { r with
        buffer := (r.builder.addAll calls).buffer
        used := (r.builder.addAll calls).position } ∧
      r.addedBy calls = r.builder.succeeded calls := by
  have hbuffer : (!r.accepted || r.buffer.isEmpty) = false := by
    simpa [haccepted] using husable.1
  rw [withProperties, addedBy, hbuffer, resume_eq hinside husable]
  exact ⟨rfl, rfl⟩

theorem withProperties_of_not (husable : ¬ r.Usable) (calls : List (Adder × Option UInt8)) :
    r.withProperties calls = r ∧ r.addedBy calls = [] := by
  rw [withProperties, addedBy]
  split_ifs with hbuffer
  · exact ⟨rfl, rfl⟩
  · have herror := resume_error husable
    generalize PropertyBuilder.resume r.buffer r.used = resumed at herror
    cases resumed with
    | error e => exact ⟨rfl, rfl⟩
    | ok builder => exact absurd rfl (herror builder)

/-- One call of `withProperties`: what it adds stands behind what was there, at most one reason
string is among it, and that whenever there is room for one. -/
theorem Holds.withProperties (hkind : isPublishAck kind = true) (h : r.Holds added)
    (adders : List Adder) :
    (r.withProperties (forPacket kind adders)).Holds
        (added ++ r.addedBy (forPacket kind adders)) ∧
      ((r.addedBy (forPacket kind adders)).map Adder.id).count PropertyId.reasonString ≤ 1 ∧
      (r.Usable → (PropertyId.reasonString ∈ (r.addedBy (forPacket kind adders)).map Adder.id ↔
        PropertyBuilder.ReasonFits (r.buffer.length - r.used) adders)) := by
  by_cases husable : r.Usable
  · obtain ⟨hreply, hadded⟩ := withProperties_of_usable h.accepted h.inside husable
      (forPacket kind adders)
    have hopen : r.builder.Open := ⟨h.inside, husable.1, husable.2⟩
    have hstart : PropertyBuilder.Behind r.sectionBytes r.builder [] :=
      ⟨hopen, (List.append_nil _).symm, nofun, nofun, nofun, Nat.zero_le _⟩
    have hend : PropertyBuilder.Behind r.sectionBytes
        (r.builder.addAll (forPacket kind adders))
        ([] ++ r.builder.succeeded (forPacket kind adders)) := by
      refine PropertyBuilder.addAll_keeps (fun hmem hbehind haccepts hroom => ?_) hstart
      obtain ⟨_, -, hpair⟩ := List.mem_map.mp hmem
      cases hpair
      exact hbehind.add hkind haccepts hroom
    rw [List.nil_append, ← hadded] at hend
    refine ⟨?_, hend.once, fun _ => ?_⟩
    · rw [hreply]
      exact
        { accepted := h.accepted
          inside := hend.opened.inside
          usable := fun _ => ⟨hend.opened.nonempty, hend.opened.small⟩
          bytes := by
            rw [List.flatMap_append, ← h.bytes]
            exact hend.bytes
          sound := by simpa [or_imp, forall_and] using ⟨h.sound, hend.sound⟩
          allowed := by simpa [or_imp, forall_and] using ⟨h.allowed, hend.allowed⟩ }
    · rw [hadded]
      exact PropertyBuilder.reason_mem_succeeded hkind hopen List.not_mem_nil adders
  · obtain ⟨hreply, hadded⟩ := withProperties_of_not husable (forPacket kind adders)
    rw [hreply, hadded, List.append_nil]
    exact ⟨h, Nat.zero_le _, fun hu => absurd hu husable⟩

theorem Holds.build (hkind : isPublishAck kind = true) (h : r.Holds added)
    (groups : List (List Adder)) :
    (r.build kind groups).Holds (added ++ r.built kind groups) := by
  induction groups generalizing r added with
  | nil =>
    rw [built, List.append_nil]
    exact h
  | cons adders groups ih =>
    rw [built, ← List.append_assoc]
    exact ih (h.withProperties hkind adders).1

end AckReply

theorem nodup_of_allowed {added : List Adder}
    (hallowed : ∀ adder ∈ added, adder.field ∈ allowedProperties Packet.puback)
    (honce : (added.map Adder.id).count PropertyId.reasonString ≤ 1) :
    ((added.map Adder.id).filter (· ≠ PropertyId.userProperty)).Nodup := by
  rw [List.nodup_iff_count_le_one]
  intro id
  by_cases hid : id = PropertyId.reasonString
  · rw [hid]
    exact Nat.le_trans (List.filter_sublist.count_le _) honce
  · rw [List.count_eq_zero_of_not_mem]
    · exact Nat.zero_le 1
    intro hmem
    obtain ⟨hmem, huser⟩ := List.mem_filter.mp hmem
    obtain ⟨adder, hadder, rfl⟩ := List.mem_map.mp hmem
    have hfield := hallowed adder hadder
    cases adder with
    | reasonString => exact hid rfl
    | userProperty => exact absurd rfl (of_decide_eq_true huser)
    | _ => exact absurd_of_field rfl hfield

/-- A section reads as the adds that were not refused, has a reason string at most once, and may
be sent. -/
structure Legal (bytes : List UInt8) (added : List Adder) : Prop where
  reads : ∃ ps : List Property, PropertyCursor.Visits bytes 0 ps ∧
    ps.map (fun p => (p.id, p.value)) = added.map (fun adder => (adder.id, adder.value)) ∧
      (ps.map Property.id).count PropertyId.reasonString ≤ 1
  accepted : validatePublishAckProperties bytes = .ok ()

def HasReason (bytes : List UInt8) : Prop :=
  ∃ ps : List Property, PropertyCursor.Visits bytes 0 ps ∧
    PropertyId.reasonString ∈ ps.map Property.id

theorem PropertyCursor.visits_unique {bytes : List UInt8} {start : ℕ} {ps qs : List Property}
    (hp : PropertyCursor.Visits bytes start ps) (hq : PropertyCursor.Visits bytes start qs) :
    ps.map Property.id = qs.map Property.id := by
  induction ps generalizing start qs with
  | nil =>
    cases qs with
    | nil => rfl
    | cons q qs =>
      obtain ⟨-, hend, -⟩ := hp
      obtain ⟨_, -, htype, -⟩ := hq
      cases hend.symm.trans htype
  | cons p ps ih =>
    obtain ⟨next, -, htype, hskip, -, hrest⟩ := hp
    cases qs with
    | nil =>
      obtain ⟨-, hend, -⟩ := hq
      cases hend.symm.trans htype
    | cons q qs =>
      obtain ⟨next', -, htype', hskip', -, hrest'⟩ := hq
      have hid : p.id = q.id :=
        Except.ok.inj (congrArg Prod.fst (htype.symm.trans htype'))
      obtain rfl : next = next' :=
        congrArg (fun run => run.2.position) (hskip.symm.trans hskip')
      rw [List.map_cons, List.map_cons, hid, ih hrest hrest']

namespace AckReply

variable {r : AckReply} {added : List Adder}

theorem Holds.sectionBytes_eq (h : r.Holds added) :
    r.sectionBytes = encodedSection (added.pmap Adder.property h.sound) := by
  rw [h.bytes, PropertyBuilder.flatMap_encoded]

theorem Holds.length_sectionBytes (h : r.Holds added) :
    r.sectionBytes.length < remainingLengthInvalid := by
  by_cases hadded : added = []
  · rw [h.bytes, hadded]
    decide
  · rw [sectionBytes, List.length_take]
    exact Nat.lt_of_le_of_lt (Nat.min_le_right _ _) (h.usable hadded).2

theorem Holds.visits (h : r.Holds added) :
    PropertyCursor.Visits r.sectionBytes 0 (added.pmap Adder.property h.sound) := by
  have hsmall := h.length_sectionBytes
  rw [remainingLengthInvalid] at hsmall
  rw [h.sectionBytes_eq] at hsmall ⊢
  exact PropertyCursor.visits_encodedSection [] (by rw [List.nil_append, u32Max]; omega)

theorem Holds.ids (h : r.Holds added) :
    (added.pmap Adder.property h.sound).map Property.id = added.map Adder.id := by
  rw [List.map_pmap]
  exact List.pmap_eq_map _

theorem Holds.hasReason_iff (h : r.Holds added) :
    HasReason r.sectionBytes ↔ PropertyId.reasonString ∈ added.map Adder.id := by
  rw [← h.ids]
  constructor
  · rintro ⟨ps, hvisits, hmem⟩
    rwa [PropertyCursor.visits_unique hvisits h.visits] at hmem
  · intro hmem
    exact ⟨_, h.visits, hmem⟩

theorem Holds.legal_iff (h : r.Holds added) :
    Legal r.sectionBytes added ↔
      (added.map Adder.id).count PropertyId.reasonString ≤ 1 := by
  constructor
  · rintro ⟨⟨ps, hvisits, -, honce⟩, -⟩
    rwa [PropertyCursor.visits_unique hvisits h.visits, h.ids] at honce
  · intro honce
    refine ⟨⟨_, h.visits, ?_, by rwa [h.ids]⟩, ?_⟩
    · rw [List.map_pmap]
      exact List.pmap_eq_map (f := fun adder : Adder => (adder.id, adder.value)) _
    · obtain ⟨last, hwalk, -⟩ := walk_of_reads
        (fun adder hadder => reads_outgoingAckProperty (h.allowed adder hadder)) h.sound
        (nodup_of_allowed h.allowed honce) false fun id hid => Bool.false_ne_true hid.2
      rw [← h.sectionBytes_eq] at hwalk
      rw [validatePublishAckProperties, validateWalk_of_walk h.length_sectionBytes hwalk]
      rfl

/-- Every call finds no reason string in the section, or has none that there is room for. -/
def Orderly (kind : UInt8) : AckReply → List (List Adder) → Prop
  | _, [] => True
  | r, adders :: groups =>
    ¬ (HasReason r.sectionBytes ∧ PropertyBuilder.ReasonFits (r.buffer.length - r.used) adders) ∧
      (r.withProperties (forPacket kind adders)).Orderly kind groups

/-- At most one reason string is added in the calls that follow, and that exactly if they are
orderly. -/
theorem Holds.once_iff (hkind : isPublishAck kind = true) (h : r.Holds added)
    (honce : (added.map Adder.id).count PropertyId.reasonString ≤ 1)
    (groups : List (List Adder)) :
    ((added ++ r.built kind groups).map Adder.id).count PropertyId.reasonString ≤ 1 ↔
      r.Orderly kind groups := by
  induction groups generalizing r added with
  | nil =>
    rw [built, List.append_nil]
    exact iff_of_true honce trivial
  | cons adders groups ih =>
    obtain ⟨hnext, hnew, hfits⟩ := h.withProperties hkind adders
    have husable (hthere : PropertyId.reasonString ∈ added.map Adder.id) : r.Usable := by
      apply h.usable
      rintro rfl
      exact List.not_mem_nil hthere
    rw [built, ← List.append_assoc, Orderly, h.hasReason_iff]
    by_cases hagain : PropertyId.reasonString ∈ added.map Adder.id ∧
        PropertyBuilder.ReasonFits (r.buffer.length - r.used) adders
    · have hfirst := List.count_pos_iff.mpr hagain.1
      have hsecond := List.count_pos_iff.mpr ((hfits (husable hagain.1)).mpr hagain.2)
      refine iff_of_false (fun hle => ?_) (fun h => h.1 hagain)
      rw [List.map_append, List.map_append, List.count_append, List.count_append] at hle
      omega
    · rw [and_iff_right hagain]
      apply ih hnext
      rw [List.map_append, List.count_append]
      by_cases hthere : PropertyId.reasonString ∈ added.map Adder.id
      · have hnone := mt (hfits (husable hthere)).mp fun h => hagain ⟨hthere, h⟩
        rw [List.count_eq_zero_of_not_mem hnone]
        exact honce
      · rw [List.count_eq_zero_of_not_mem hthere]
        omega

theorem holds_nil (haccepted : r.accepted = true) (hempty : r.used = 0) : r.Holds [] where
  accepted := haccepted
  inside := hempty ▸ Nat.zero_le _
  usable := fun h => absurd rfl h
  bytes := by
    rw [sectionBytes, hempty]
    rfl
  sound := nofun
  allowed := nofun

end AckReply

/-- A reply that is built in several calls is legal exactly when no call adds a reason string
behind another one. -/
theorem reply_in_steps_iff (hkind : isPublishAck kind = true) {reply : AckReply}
    (haccepted : reply.accepted = true) (hempty : reply.used = 0) (groups : List (List Adder)) :
    Legal (reply.build kind groups).sectionBytes (reply.built kind groups) ↔
      reply.Orderly kind groups := by
  have hholds := AckReply.holds_nil haccepted hempty
  have hbuilt := hholds.build hkind groups
  rw [List.nil_append] at hbuilt
  rw [hbuilt.legal_iff, ← hholds.once_iff hkind (Nat.zero_le _), List.nil_append]

/-- A reason string, and a user property behind it in a second call. -/
theorem reply_in_steps_of_two :
    Legal ((AckReply.mk true none (List.replicate 16 0) 0).build Packet.puback
        [[.reasonString [99]], [.userProperty [97] [98]]]).sectionBytes
      [.reasonString [99], .userProperty [97] [98]] := by
  apply (reply_in_steps_iff (by decide) rfl rfl [[.reasonString [99]], [.userProperty [97] [98]]]).mpr
  refine ⟨fun h => ?_, fun h => ?_, trivial⟩
  · have hreason := (AckReply.holds_nil rfl rfl).hasReason_iff.mp h.1
    exact List.not_mem_nil hreason
  · simp [PropertyBuilder.ReasonFits, Adder.id, PropertyId.userProperty, PropertyId.reasonString] at h

/-- A reason string in each of two calls is a section that may not be sent. -/
theorem second_reason_refused :
    ¬ ∀ (kind : UInt8) (reply : AckReply) (groups : List (List Adder)), isPublishAck kind = true →
      reply.accepted = true → reply.used = 0 →
        Legal (reply.build kind groups).sectionBytes (reply.built kind groups) := by
  intro h
  have hlegal := h Packet.puback (AckReply.mk true none (List.replicate 16 0) 0)
    [[.reasonString [99]], [.reasonString [100]]] (by decide) rfl rfl
  exact absurd hlegal.accepted (by decide +kernel)

end RtosMqtt
