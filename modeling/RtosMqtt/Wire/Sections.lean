import RtosMqtt.Wire.Cursor
import RtosMqtt.Wire.Length

/-! # What a property section says

A section is a run of properties, each an identifier and a value of the width
that goes with it. Every walk reads such a run, property by property, and a run
whose properties a walk accepts is accepted as a whole.
-/

namespace RtosMqtt

theorem toNat_fromBeBytes16 (hi lo : UInt8) :
    (hi.toUInt16 <<< 8 ||| lo.toUInt16).toNat = hi.toNat * 256 + lo.toNat := by
  have hhi := hi.toNat_lt
  have hlo := lo.toNat_lt
  have hor : hi.toNat <<< 8 + lo.toNat = hi.toNat <<< 8 ||| lo.toNat :=
    Nat.shiftLeft_add_eq_or_of_lt (by simpa using hlo) _
  rw [Nat.shiftLeft_eq] at hor
  have hshift : (hi.toUInt16 <<< 8).toNat = hi.toNat * 2 ^ 8 := by
    rw [UInt16.toNat_shiftLeft, UInt8.toNat_toUInt16]
    simp only [Nat.shiftLeft_eq]
    exact Nat.mod_eq_of_lt (by simp; omega)
  rw [UInt16.toNat_or, hshift, UInt8.toNat_toUInt16, ← hor]

theorem fromBeBytes16_eq_some {bytes : List UInt8} {n : UInt16} :
    fromBeBytes16 bytes = some n ↔ bytes = toBeBytes16 n := by
  have hlow (n : UInt16) : (n.toUInt8).toNat = n.toNat % 256 := UInt16.toNat_toUInt8 n
  have hhigh (n : UInt16) : ((n >>> 8).toUInt8).toNat = n.toNat / 256 := by
    have hn := n.toNat_lt
    rw [UInt16.toNat_toUInt8, UInt16.toNat_shiftRight]
    simp only [Nat.shiftRight_eq_div_pow]
    exact Nat.mod_eq_of_lt (by simp; omega)
  constructor
  · intro h
    match bytes, h with
    | [hi, lo], h =>
      obtain rfl := Option.some.inj h
      have hhi := hi.toNat_lt
      have hlo := lo.toNat_lt
      rw [toBeBytes16, List.cons.injEq, List.cons.injEq]
      refine ⟨UInt8.toNat_inj.mp ?_, UInt8.toNat_inj.mp ?_, rfl⟩
      · rw [hhigh, toNat_fromBeBytes16]
        omega
      · rw [hlow, toNat_fromBeBytes16]
        omega
  · rintro rfl
    refine congrArg some (UInt16.toNat_inj.mp ?_)
    rw [toNat_fromBeBytes16, hhigh, hlow]
    omega

theorem fromBeBytes32_eq_some {bytes : List UInt8} {n : ℕ} :
    fromBeBytes32 bytes = some n ↔ n < 4294967296 ∧ bytes = toBeBytes32 n := by
  have hbyte (n : ℕ) : (n.toUInt8).toNat = n % 256 := UInt8.toNat_ofNat'
  constructor
  · intro h
    match bytes, h with
    | [a, b, c, d], h =>
      obtain rfl := Option.some.inj h
      have ha := a.toNat_lt
      have hb := b.toNat_lt
      have hc := c.toNat_lt
      have hd := d.toNat_lt
      refine ⟨by omega, ?_⟩
      rw [toBeBytes32, List.cons.injEq, List.cons.injEq, List.cons.injEq, List.cons.injEq]
      refine ⟨UInt8.toNat_inj.mp ?_, UInt8.toNat_inj.mp ?_, UInt8.toNat_inj.mp ?_,
        UInt8.toNat_inj.mp ?_, rfl⟩ <;> rw [hbyte] <;> omega
  · rintro ⟨hn, rfl⟩
    refine congrArg some ?_
    rw [hbyte, hbyte, hbyte, hbyte]
    omega

inductive PropertyValue where
  | byte (value : UInt8)
  | twoBytes (value : UInt16)
  | fourBytes (value : ℕ)
  | string (bytes : List UInt8)
  | pair (key value : List UInt8)
  | variableLength (value : ℕ)
  deriving DecidableEq, Repr

def prefixed (bytes : List UInt8) : List UInt8 := toBeBytes16 bytes.length.toUInt16 ++ bytes

theorem length_prefixed (bytes : List UInt8) : (prefixed bytes).length = bytes.length + 2 := by
  rw [prefixed, List.length_append, Nat.add_comm]
  rfl

namespace PropertyValue

def width : PropertyValue → Width
  | byte _ => .byte
  | twoBytes _ => .twoBytes
  | fourBytes _ => .fourBytes
  | string _ => .string
  | pair _ _ => .pair
  | variableLength _ => .variableLength

def encoded : PropertyValue → List UInt8
  | byte value => [value]
  | twoBytes value => toBeBytes16 value
  | fourBytes value => toBeBytes32 value
  | string bytes => prefixed bytes
  | pair key value => prefixed key ++ prefixed value
  | variableLength value => encodedLength value

def Fits : PropertyValue → Prop
  | byte _ => True
  | twoBytes _ => True
  | fourBytes value => value < 4294967296
  | string bytes => bytes.length ≤ 65535
  | pair key value => key.length ≤ 65535 ∧ value.length ≤ 65535
  | variableLength value => value ≤ maxRemainingLength

end PropertyValue

structure Property where
  id : UInt8
  value : PropertyValue
  typed : widthOf id = some value.width
  fits : value.Fits

namespace Property

def encoded (p : Property) : List UInt8 := p.id :: p.value.encoded

def user (key value : List UInt8) (h : key.length ≤ 65535 ∧ value.length ≤ 65535) : Property where
  id := PropertyId.userProperty
  value := .pair key value
  typed := rfl
  fits := h

theorem length_encoded_pos (p : Property) : 0 < p.encoded.length := Nat.succ_pos _

end Property

def encodedSection (properties : List Property) : List UInt8 := properties.flatMap Property.encoded

@[simp] theorem encodedSection_nil : encodedSection [] = [] := rfl

@[simp] theorem encodedSection_cons (p : Property) (ps : List Property) :
    encodedSection (p :: ps) = p.encoded ++ encodedSection ps := rfl

theorem encodedSection_append (ps qs : List Property) :
    encodedSection (ps ++ qs) = encodedSection ps ++ encodedSection qs := by
  simp [encodedSection]

namespace PropertyReader

/-- The reader after so many bytes, all of them charged to the budget. -/
def past (r : PropertyReader) (n : ℕ) : PropertyReader :=
  { r with position := r.position + n, remaining := r.remaining - n }

theorem past_past (r : PropertyReader) (n m : ℕ) : (r.past n).past m = r.past (n + m) := by
  simp only [past, Nat.add_assoc, Nat.sub_sub]

/-- These bytes are next, the budget has room for them, and the reader is past them. -/
structure Reads (r : PropertyReader) (bytes : List UInt8) (r' : PropertyReader) : Prop where
  inside : r.position ≤ r.bytes.length
  next : bytes <+: r.bytes.drop r.position
  room : bytes.length ≤ r.remaining
  after : r' = r.past bytes.length

theorem Reads.length_le {r r' : PropertyReader} {bytes : List UInt8} (h : r.Reads bytes r') :
    r.position + bytes.length ≤ r.bytes.length := by
  have hle := h.next.length_le
  have hinside := h.inside
  rw [List.length_drop] at hle
  omega

theorem reads_append {r r' : PropertyReader} {a b : List UInt8} :
    r.Reads (a ++ b) r' ↔ ∃ r₁, r.Reads a r₁ ∧ r₁.Reads b r' := by
  constructor
  · intro h
    have hlength := h.length_le
    have hroom := h.room
    have hafter := h.after
    rw [List.length_append] at hlength hroom hafter
    refine ⟨r.past a.length, ⟨h.inside, (List.prefix_append a b).trans h.next, by omega, rfl⟩, ?_⟩
    refine ⟨by dsimp only [past]; omega, ?_, by dsimp only [past]; omega, ?_⟩
    · obtain ⟨rest, hrest⟩ := h.next
      dsimp only [past]
      rw [← List.drop_drop, ← hrest, List.append_assoc, List.drop_left]
      exact List.prefix_append b rest
    · rw [hafter, past_past]
  · rintro ⟨r₁, ha, hb⟩
    obtain rfl := ha.after
    have hroom := ha.room
    have hroom' := hb.room
    dsimp only [past] at hroom'
    refine ⟨ha.inside, ?_, by rw [List.length_append]; omega, ?_⟩
    · obtain ⟨rest, hrest⟩ := ha.next
      have hnext := hb.next
      dsimp only [past] at hnext
      rw [← List.drop_drop, ← hrest, List.drop_left] at hnext
      rw [← hrest]
      exact (List.prefix_append_right_inj a).mpr hnext
    · rw [hb.after, past_past, List.length_append]

theorem take_eq_ok {n : ℕ} {bytes : List UInt8} {r r' : PropertyReader} :
    take n r = (.ok bytes, r') ↔
      r.position ≤ r.bytes.length ∧ bytes.length = n ∧ bytes <+: r.bytes.drop r.position ∧
        r' = { r with position := r.position + n } := by
  unfold take slice?
  split_ifs with hinside
  · dsimp only
    have hlength : ((r.bytes.take (r.position + n)).drop r.position).length = n := by
      rw [List.length_drop, List.length_take]
      omega
    have hslice : (r.bytes.take (r.position + n)).drop r.position =
        (r.bytes.drop r.position).take n := by
      rw [List.drop_take, Nat.add_sub_cancel_left]
    constructor
    · intro h
      obtain ⟨hbytes, rfl⟩ := Prod.mk.inj h
      obtain rfl := Except.ok.inj hbytes
      refine ⟨by omega, hlength, ?_, rfl⟩
      rw [hslice]
      exact List.take_prefix _ _
    · rintro ⟨-, hn, hnext, rfl⟩
      rw [hslice, ← hn, ← List.prefix_iff_eq_take.mp hnext]
  · constructor
    · intro h
      cases h
    · rintro ⟨hpos, hn, hnext, -⟩
      have hle := hnext.length_le
      rw [List.length_drop] at hle
      omega

/-- A number of fixed width is read when its bytes are next. -/
theorem fixed_eq_ok {α : Type} (parse : List UInt8 → Option α) {used : Bool} {n : ℕ} {a : α}
    {r r' : PropertyReader} :
    (do
      room used n
      let bytes ← take n
      let value ← Prog.lift (orBadResponse (parse bytes))
      charge n
      pure value : Reading α) r = (.ok a, r') ↔
        used = false ∧ ∃ bytes, bytes.length = n ∧ parse bytes = some a ∧ r.Reads bytes r' := by
  constructor
  · intro h
    rw [room, Prog.bind_assoc, Prog.get_bind_apply, Prog.refuse_bind_eq_ok] at h
    obtain ⟨hroom, h⟩ := h
    obtain ⟨bytes, r₁, htake, h⟩ := Prog.bind_eq_ok.mp h
    obtain ⟨hinside, hlength, hnext, rfl⟩ := take_eq_ok.mp htake
    rw [Prog.lift_bind_eq_ok] at h
    obtain ⟨value, hvalue, h⟩ := h
    obtain ⟨ha, rfl⟩ := Prod.mk.inj h
    obtain rfl := Except.ok.inj ha
    refine ⟨by simp_all, bytes, hlength, ?_, hinside, hnext, by omega, ?_⟩
    · cases hparse : parse bytes with
      | none => rw [hparse] at hvalue; cases hvalue
      | some b => rw [hparse] at hvalue; cases hvalue; rfl
    · rw [hlength]
      rfl
  · rintro ⟨rfl, bytes, hlength, hparse, h⟩
    have hroom := h.room
    have htake := take_eq_ok.mpr ⟨h.inside, hlength, h.next, rfl⟩
    rw [room, Prog.bind_assoc, Prog.get_bind_apply, Prog.refuse_bind_of_not (by simp; omega),
      Prog.bind_of_ok htake, hparse, h.after, hlength]
    rfl

theorem u8_eq_ok {used : Bool} {value : UInt8} {r r' : PropertyReader} :
    u8 used r = (.ok value, r') ↔ used = false ∧ r.Reads [value] r' := by
  refine (fixed_eq_ok List.head?).trans (and_congr_right fun _ => ?_)
  constructor
  · rintro ⟨bytes, hlength, hparse, h⟩
    match bytes, hlength with
    | [b], _ =>
      cases hparse
      exact h
  · exact fun h => ⟨[value], rfl, rfl, h⟩

theorem u16_eq_ok_iff {used : Bool} {value : UInt16} {r r' : PropertyReader} :
    u16 used r = (.ok value, r') ↔ used = false ∧ r.Reads (toBeBytes16 value) r' := by
  refine (fixed_eq_ok fromBeBytes16).trans (and_congr_right fun _ => ?_)
  constructor
  · rintro ⟨bytes, -, hparse, h⟩
    rwa [fromBeBytes16_eq_some.mp hparse] at h
  · exact fun h => ⟨_, rfl, fromBeBytes16_eq_some.mpr rfl, h⟩

theorem u32_eq_ok_iff {used : Bool} {value : ℕ} {r r' : PropertyReader} :
    u32 used r = (.ok value, r') ↔
      used = false ∧ value < 4294967296 ∧ r.Reads (toBeBytes32 value) r' := by
  refine (fixed_eq_ok fromBeBytes32).trans (and_congr_right fun _ => ?_)
  constructor
  · rintro ⟨bytes, -, hparse, h⟩
    obtain ⟨hlt, rfl⟩ := fromBeBytes32_eq_some.mp hparse
    exact ⟨hlt, h⟩
  · exact fun ⟨hlt, h⟩ => ⟨_, rfl, fromBeBytes32_eq_some.mpr ⟨hlt, rfl⟩, h⟩

theorem propertyId_eq_ok {id : UInt8} {r r' : PropertyReader} :
    propertyId r = (.ok id, r') ↔ r.Reads [id] r' := by
  refine (fixed_eq_ok List.head?).trans ?_
  constructor
  · rintro ⟨-, bytes, hlength, hparse, h⟩
    match bytes, hlength with
    | [b], _ =>
      cases hparse
      exact h
  · exact fun h => ⟨rfl, [id], rfl, rfl, h⟩

theorem toNat_length_toUInt16 {bytes : List UInt8} (h : bytes.length ≤ 65535) :
    bytes.length.toUInt16.toNat = bytes.length := Nat.mod_eq_of_lt (by omega)

/-- A string is read when its length and its bytes are next. -/
theorem utf8_eq_ok {used : Bool} {bytes : List UInt8} {r r' : PropertyReader} :
    utf8 used r = (.ok bytes, r') ↔
      used = false ∧ bytes.length ≤ 65535 ∧ r.Reads (prefixed bytes) r' := by
  constructor
  · intro h
    rw [utf8, room, Prog.bind_assoc, Prog.get_bind_apply, Prog.refuse_bind_eq_ok] at h
    obtain ⟨hroom, h⟩ := h
    obtain ⟨header, r₁, htake, h⟩ := Prog.bind_eq_ok.mp h
    obtain ⟨hinside, hlength, hnext, rfl⟩ := take_eq_ok.mp htake
    rw [Prog.lift_bind_eq_ok] at h
    obtain ⟨length, hheader, h⟩ := h
    rw [charge, Prog.modify_bind_apply, Prog.get_bind_apply, Prog.refuse_bind_eq_ok] at h
    obtain ⟨hfits, h⟩ := h
    obtain ⟨body, r₂, hbody, h⟩ := Prog.bind_eq_ok.mp h
    obtain ⟨hinside', hlength', hnext', rfl⟩ := take_eq_ok.mp hbody
    obtain ⟨hbytes, rfl⟩ := Prod.mk.inj h
    obtain rfl := Except.ok.inj hbytes
    have hparse : header = toBeBytes16 length := by
      cases hsome : fromBeBytes16 header with
      | none => rw [hsome] at hheader; cases hheader
      | some n =>
        rw [hsome] at hheader
        cases hheader
        exact fromBeBytes16_eq_some.mp hsome
    have hlt := length.toNat_lt
    have hsame : body.length.toUInt16 = length := by rw [hlength']; exact UInt16.ofNat_toNat
    refine ⟨by simp_all, by omega, ?_⟩
    dsimp only at hfits hinside' hnext'
    rw [prefixed, hsame, ← hparse, reads_append]
    refine ⟨_, ⟨hinside, hnext, by omega, rfl⟩, ?_⟩
    rw [hlength]
    exact ⟨hinside', hnext', by dsimp only [past]; omega, by rw [hlength']; rfl⟩
  · rintro ⟨rfl, hle, h⟩
    obtain ⟨r₁, hheader, hbody⟩ := reads_append.mp h
    have hroom := hheader.room
    have hfits := hbody.room
    have htake := take_eq_ok.mpr ⟨hheader.inside, rfl, hheader.next, rfl⟩
    obtain rfl := hheader.after
    rw [show (toBeBytes16 bytes.length.toUInt16).length = 2 from rfl] at *
    rw [utf8, room, Prog.bind_assoc, Prog.get_bind_apply, Prog.refuse_bind_of_not (by simp; omega),
      Prog.bind_of_ok htake, fromBeBytes16_eq_some.mpr rfl, orBadResponse, Prog.lift_ok_bind, charge,
      Prog.modify_bind_apply, Prog.get_bind_apply, toNat_length_toUInt16 hle]
    have hbody' := take_eq_ok.mpr ⟨hbody.inside, rfl, hbody.next, rfl⟩
    dsimp only [past] at hfits hbody' ⊢
    rw [Prog.refuse_bind_of_not (by omega), Prog.bind_of_ok hbody', hbody.after]
    rfl

theorem userProperty_eq_ok {key value : List UInt8} {r r' : PropertyReader} :
    userProperty r = (.ok (key, value), r') ↔
      (key.length ≤ 65535 ∧ value.length ≤ 65535) ∧
        r.Reads (prefixed key ++ prefixed value) r' := by
  rw [reads_append]
  constructor
  · intro h
    obtain ⟨key', r₁, hkey, h⟩ := Prog.bind_eq_ok.mp h
    obtain ⟨value', r₂, hvalue, h⟩ := Prog.bind_eq_ok.mp h
    obtain ⟨hpair, rfl⟩ := Prod.mk.inj h
    cases hpair
    obtain ⟨-, hkey, hreads⟩ := utf8_eq_ok.mp hkey
    obtain ⟨-, hvalue, hreads'⟩ := utf8_eq_ok.mp hvalue
    exact ⟨⟨hkey, hvalue⟩, r₁, hreads, hreads'⟩
  · rintro ⟨⟨hkey, hvalue⟩, r₁, hreads, hreads'⟩
    rw [userProperty, Prog.bind_of_ok (utf8_eq_ok.mpr ⟨rfl, hkey, hreads⟩),
      Prog.bind_of_ok (utf8_eq_ok.mpr ⟨rfl, hvalue, hreads'⟩)]
    rfl

theorem decodeVariableLength_eq_ok {bytes : List UInt8} {n : ℕ} :
    decodeVariableLength bytes = .ok n ↔ n ≤ maxRemainingLength ∧ encodedLength n <+: bytes := by
  rw [decodeVariableLength_eq]
  constructor
  · intro h
    cases hscan : lengthScan bytes with
    | whole m width =>
      rw [hscan] at h
      cases h
      obtain ⟨hle, -, hprefix⟩ := lengthScan_eq_whole.mp hscan
      exact ⟨hle, hprefix⟩
    | short => rw [hscan] at h; cases h
    | bad => rw [hscan] at h; cases h
  · rintro ⟨hle, hprefix⟩
    rw [lengthScan_eq_whole.mpr ⟨hle, rfl, hprefix⟩]
    rfl

/-- A number of variable length is read when its encoding is next. -/
theorem variableLength_eq_ok {n : ℕ} {r r' : PropertyReader} :
    variableLength r = (.ok n, r') ↔ n ≤ maxRemainingLength ∧ r.Reads (encodedLength n) r' := by
  constructor
  · intro h
    rw [variableLength, room, Prog.bind_assoc, Prog.get_bind_apply, Prog.refuse_bind_eq_ok] at h
    obtain ⟨hroom, h⟩ := h
    rw [Prog.get_bind_apply, Prog.lift_bind_eq_ok] at h
    obtain ⟨rest, hrest, h⟩ := h
    rw [Prog.lift_bind_eq_ok] at h
    obtain ⟨value, hvalue, h⟩ := h
    obtain ⟨hn, rfl⟩ := Prod.mk.inj h
    obtain rfl := Except.ok.inj hn
    unfold slice? at hrest
    split_ifs at hrest with hinside
    · obtain rfl := Except.ok.inj hrest
      rw [List.take_length] at hvalue
      obtain ⟨hle, hprefix⟩ := decodeVariableLength_eq_ok.mp hvalue
      have hlength := hprefix.length_le
      rw [List.length_take] at hlength
      refine ⟨hle, hinside.1, hprefix.trans (List.take_prefix _ _), by omega, ?_⟩
      rw [length_encodedLength hle]
      rfl
    · cases hrest
  · rintro ⟨hle, h⟩
    have hlength := length_encodedLength hle
    have hpos := variableLengthEncodedSize_pos n
    have hroom := h.room
    have hprefix : encodedLength n <+: (r.bytes.drop r.position).take
        (min r.remaining (r.bytes.drop r.position).length) :=
      List.prefix_take_iff.mpr ⟨h.next, Nat.le_min.mpr ⟨hroom, h.next.length_le⟩⟩
    rw [variableLength, room, Prog.bind_assoc, Prog.get_bind_apply,
      Prog.refuse_bind_of_not (by simp; omega), Prog.get_bind_apply, slice?,
      if_pos ⟨h.inside, Nat.le_refl _⟩, List.take_length, orBadResponse, Prog.lift_ok_bind,
      decodeVariableLength_eq_ok.mpr ⟨hle, hprefix⟩, Prog.lift_ok_bind, h.after, hlength]
    rfl

def ReadsValue (id : UInt8) (r r' : PropertyReader) : Prop :=
  ∃ p : Property, p.id = id ∧ r.Reads p.value.encoded r'

/-- Every run that finishes has read one value of the property's width. -/
def Typed {α : Type} (id : UInt8) (p : Reading α) : Prop :=
  ∀ r a r', p r = (.ok a, r') → ReadsValue id r r'

def Keeps {α : Type} (p : Reading α) : Prop := ∀ r a r', p r = (.ok a, r') → r' = r

section Typed

variable {α β : Type} {id : UInt8} {p : Reading α} {f : α → Reading β}

theorem keeps_pure (a : α) : Keeps (pure a : Reading α) := by
  intro r b r' h
  exact (Prod.mk.inj h).2.symm

theorem keeps_refuse (c : Prop) [Decidable c] (e : ParseError) :
    Keeps (Prog.refuse c e : Reading Unit) := by
  intro r b r' h
  exact (Prod.mk.inj h).2.symm

theorem Keeps.bind (hp : Keeps p) (hf : ∀ a, Keeps (f a)) : Keeps (p >>= f) := by
  intro r b r' h
  obtain ⟨a, r₁, hpa, hfa⟩ := Prog.bind_eq_ok.mp h
  rw [hf a r₁ b r' hfa, hp r a r₁ hpa]

theorem Typed.bind (hp : Typed id p) (hf : ∀ a, Keeps (f a)) : Typed id (p >>= f) := by
  intro r b r' h
  obtain ⟨a, r₁, hpa, hfa⟩ := Prog.bind_eq_ok.mp h
  rw [hf a r₁ b r' hfa]
  exact hp r a r₁ hpa

theorem Keeps.bind_typed (hp : Keeps p) (hf : ∀ a, Typed id (f a)) : Typed id (p >>= f) := by
  intro r b r' h
  obtain ⟨a, r₁, hpa, hfa⟩ := Prog.bind_eq_ok.mp h
  rw [← hp r a r₁ hpa]
  exact hf a r₁ b r' hfa

theorem Typed.ite {c : Prop} [Decidable c] {q : Reading α} (hp : c → Typed id p)
    (hq : Typed id q) : Typed id (if c then p else q) := by
  split_ifs with h
  · exact hp h
  · exact hq

theorem typed_throw (e : ParseError) : Typed id (Prog.throw e : Reading α) := nofun

theorem typed_u8 (hid : widthOf id = some .byte) (used : Bool) : Typed id (u8 used) := by
  intro r value r' h
  exact ⟨⟨id, .byte value, hid, trivial⟩, rfl, (u8_eq_ok.mp h).2⟩

theorem typed_u16 (hid : widthOf id = some .twoBytes) (used : Bool) : Typed id (u16 used) := by
  intro r value r' h
  exact ⟨⟨id, .twoBytes value, hid, trivial⟩, rfl, (u16_eq_ok_iff.mp h).2⟩

theorem typed_u32 (hid : widthOf id = some .fourBytes) (used : Bool) : Typed id (u32 used) := by
  intro r value r' h
  obtain ⟨-, hlt, hreads⟩ := u32_eq_ok_iff.mp h
  exact ⟨⟨id, .fourBytes value, hid, hlt⟩, rfl, hreads⟩

theorem typed_utf8 (hid : widthOf id = some .string) (used : Bool) : Typed id (utf8 used) := by
  intro r bytes r' h
  obtain ⟨-, hle, hreads⟩ := utf8_eq_ok.mp h
  exact ⟨⟨id, .string bytes, hid, hle⟩, rfl, hreads⟩

theorem typed_userProperty (hid : widthOf id = some .pair) : Typed id userProperty := by
  rintro r ⟨key, value⟩ r' h
  obtain ⟨hle, hreads⟩ := userProperty_eq_ok.mp h
  exact ⟨⟨id, .pair key value, hid, hle⟩, rfl, hreads⟩

theorem typed_variableLength (hid : widthOf id = some .variableLength) :
    Typed id variableLength := by
  intro r value r' h
  obtain ⟨hle, hreads⟩ := variableLength_eq_ok.mp h
  exact ⟨⟨id, .variableLength value, hid, hle⟩, rfl, hreads⟩

end Typed

section Walks

variable {α : Type} {property : α → UInt8 → Reading α}

/-- The properties that a walk goes through, and what it has found at the end. -/
inductive Walked (property : α → UInt8 → Reading α) :
    α → PropertyReader → List Property → α → PropertyReader → Prop
  | done {found : α} {r : PropertyReader} (h : r.remaining = 0) : Walked property found r [] found r
  | step {found found' last : α} {r r₁ r₂ r' : PropertyReader} {p : Property} {ps : List Property}
      (hid : r.Reads [p.id] r₁) (hvalue : r₁.Reads p.value.encoded r₂)
      (hproperty : property found p.id r₁ = (.ok found', r₂))
      (hrest : Walked property found' r₂ ps last r') : Walked property found r (p :: ps) last r'

theorem walked_of_walkFrom (hproperty : ∀ found id, Typed id (property found id)) {turns : ℕ}
    {found last : α} {r r' : PropertyReader} (hturns : r.remaining ≤ turns)
    (h : walkFrom property turns found r = (.ok last, r')) :
    ∃ ps, Walked property found r ps last r' := by
  induction turns generalizing found r with
  | zero =>
    obtain ⟨hlast, rfl⟩ := Prod.mk.inj h
    obtain rfl := Except.ok.inj hlast
    exact ⟨[], .done (Nat.le_zero.mp hturns)⟩
  | succ turns ih =>
    rw [walkFrom, Prog.get_bind_apply] at h
    split_ifs at h with hdone
    · obtain ⟨hlast, rfl⟩ := Prod.mk.inj h
      obtain rfl := Except.ok.inj hlast
      exact ⟨[], .done hdone⟩
    · rw [Prog.bind_eq_ok] at h
      obtain ⟨id, r₁, hid, h⟩ := h
      rw [Prog.bind_eq_ok] at h
      obtain ⟨found', r₂, hfound, h⟩ := h
      obtain ⟨p, rfl, hvalue⟩ := hproperty found id r₁ found' r₂ hfound
      have hreads := propertyId_eq_ok.mp hid
      have hroom := hreads.room
      have hless : r₂.remaining ≤ turns := by
        rw [hvalue.after, hreads.after]
        dsimp only [past, List.length_singleton]
        omega
      obtain ⟨ps, hps⟩ := ih hless h
      exact ⟨p :: ps, .step hreads hvalue hfound hps⟩

theorem Walked.reads {found last : α} {r r' : PropertyReader} {ps : List Property}
    (h : Walked property found r ps last r') (hinside : r.position ≤ r.bytes.length) :
    r.Reads (encodedSection ps) r' ∧ r'.remaining = 0 := by
  induction h with
  | done hdone => exact ⟨⟨hinside, List.nil_prefix, Nat.zero_le _, rfl⟩, hdone⟩
  | step hid hvalue _ _ ih =>
    have hlength := hvalue.length_le
    have hinside' : _ ≤ _ := hlength
    rw [hvalue.after] at ih
    obtain ⟨hrest, hzero⟩ := ih hinside'
    refine ⟨?_, hzero⟩
    rw [encodedSection_cons, reads_append]
    refine ⟨_, ?_, hrest⟩
    rw [Property.encoded, ← List.singleton_append, reads_append]
    exact ⟨_, hid, hvalue.after ▸ hvalue⟩

theorem walk_eq_ok (hproperty : ∀ found id, Typed id (property found id)) {found last : α}
    {bytes : List UInt8} (h : walk property found bytes bytes.length = .ok last) :
    ∃ ps r', Walked property found (.new bytes bytes.length) ps last r' ∧
      bytes = encodedSection ps := by
  unfold walk at h
  have hrun := Prog.eq_of_fst_ok h
  have hturns : (new bytes bytes.length).remaining ≤ bytes.length := Nat.le_refl _
  obtain ⟨ps, hps⟩ := walked_of_walkFrom hproperty hturns hrun
  obtain ⟨hreads, hzero⟩ := hps.reads (Nat.zero_le _)
  refine ⟨ps, _, hps, ?_⟩
  have hnext : encodedSection ps <+: bytes := hreads.next
  have hroom : (encodedSection ps).length ≤ bytes.length := hreads.room
  rw [hreads.after] at hzero
  have hlength : bytes.length - (encodedSection ps).length = 0 := hzero
  exact (hnext.eq_of_length (by omega)).symm

end Walks

end PropertyReader

end RtosMqtt
