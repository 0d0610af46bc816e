import RtosMqtt.Library.Append
import RtosMqtt.Wire.Sections

/-! # The fields of a packet

Strings and property sections carry their length in front of them, in two bytes
or as a variable-length integer. Each has a writer that lays it down and a scan
that takes it for what was written.
-/

namespace RtosMqtt

open Writing

def putString (value : List UInt8) (start : ℕ) : Serializing ℕ := do
  Prog.refuse (u16Max < value.length) .badParameter
  let destination ← Prog.get
  Prog.refuse (destination.length < start) .noMemory
  let (written, tail) :=
    encodeString (destination.drop start) (some value) value.length.toUInt16
  Prog.modify fun _ => destination.take start ++ tail
  Prog.refuse (written = 0) .noMemory
  pure (start + written)

theorem encodeString_eq {value destination : List UInt8} (h : value.length ≤ u16Max)
    (hroom : value.length + 2 ≤ destination.length) :
    encodeString destination (some value) value.length.toUInt16 =
      (value.length + 2, prefixed value ++ destination.drop (value.length + 2)) := by
  have hsame : value.length.toUInt16.toNat = value.length :=
    PropertyReader.toNat_length_toUInt16 h
  rw [encodeString, hsame, if_neg (by omega)]
  dsimp only
  rw [if_pos (Nat.le_refl _), List.take_length, prefixed]

theorem appends_putString {value : List UInt8} (h : value.length ≤ u16Max) :
    Appends (putString value) (prefixed value) := by
  intro before rest hroom
  rw [length_prefixed] at hroom ⊢
  rw [putString, Prog.refuse_bind_of_not (Nat.not_lt.mpr h), Prog.get_bind_apply,
    Prog.refuse_bind_of_not (by rw [List.length_append]; omega), List.drop_left,
    encodeString_eq h hroom, List.take_left]
  dsimp only
  rw [Prog.modify_bind_apply, Prog.refuse_bind_of_not (by omega), Prog.pure_apply,
    ← List.append_assoc]

def sized (properties : List UInt8) : List UInt8 := encodedLength properties.length ++ properties

theorem length_sized {properties : List UInt8} (h : properties.length ≤ maxRemainingLength) :
    (sized properties).length =
      variableLengthEncodedSize properties.length + properties.length := by
  rw [sized, List.length_append, length_encodedLength h]

theorem appends_putSection {properties : List UInt8}
    (h : properties.length ≤ maxRemainingLength) :
    Appends (fun start => putSection start properties properties.length) (sized properties) := by
  intro before rest hroom
  have hlength := length_encodedLength h
  have hpos := variableLengthEncodedSize_pos properties.length
  rw [length_sized h] at hroom ⊢
  dsimp only
  rw [putSection, Prog.bind_of_ok (encodeAt_append EncodeError.noMemory before rest h (by omega)),
    Prog.refuse_bind_of_not (by omega)]
  by_cases hnil : properties = []
  · subst hnil
    rw [if_pos rfl, Prog.pure_apply, sized, List.append_nil]
    rfl
  · have hwrite := writeAt_append EncodeError.noMemory
      (before ++ encodedLength properties.length)
      (rest.drop (variableLengthEncodedSize properties.length)) properties
      (by rw [List.length_drop]; omega)
    rw [List.length_append, hlength] at hwrite
    rw [if_neg hnil, Prog.bind_of_ok hwrite, Prog.pure_apply, List.drop_drop, sized,
      List.append_assoc before, Nat.add_assoc]

theorem appends_writeAt (bytes : List UInt8) :
    Appends (fun start => do
      writeAt EncodeError.noMemory start bytes
      pure (start + bytes.length)) bytes := by
  intro before rest hroom
  dsimp only
  rw [Prog.bind_of_ok (writeAt_append EncodeError.noMemory before rest bytes hroom), Prog.pure_apply]

def numberIn (bytes : List UInt8) : Scan UInt8 UInt16 :=
  match fromBeBytes16 bytes with
  | none => .stop
  | some n => .done n

def twoBytes : Scan UInt8 UInt16 := (Scan.taking 2).bind numberIn

def stringField : Scan UInt8 (List UInt8) := twoBytes.bind fun length => .taking length.toNat

def sectionField : Scan UInt8 (List UInt8) := lengthScan.bind .taking

open Scan

theorem spells_twoBytes (n : UInt16) : Spells twoBytes (toBeBytes16 n) n := by
  have hnumber : Spells (numberIn (toBeBytes16 n)) [] n := by
    rw [numberIn, fromBeBytes16_eq_some.mpr rfl]
    exact spells_done n
  have hspells := (spells_taking (toBeBytes16 n)).bind hnumber
  rwa [List.append_nil] at hspells

theorem spells_stringField {bytes : List UInt8} (h : bytes.length ≤ u16Max) :
    Spells stringField (prefixed bytes) bytes := by
  apply (spells_twoBytes _).bind
  rw [PropertyReader.toNat_length_toUInt16 h]
  exact spells_taking bytes

theorem spells_lengthScan {n : ℕ} (h : n ≤ maxRemainingLength) :
    Spells lengthScan (encodedLength n) n := by
  intro rest
  rw [lengthScan_append h, length_encodedLength h]

theorem spells_sectionField {properties : List UInt8}
    (h : properties.length ≤ maxRemainingLength) :
    Spells sectionField (sized properties) properties :=
  (spells_lengthScan h).bind (spells_taking properties)

end RtosMqtt
