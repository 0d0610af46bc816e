import Mathlib.Algebra.Group.Nat.Defs
import RtosMqtt.Library.Front
import RtosMqtt.Wire.Layout

/-! # Lengths at the front of a stream

A length has at most four digits, and only its shortest spelling counts. The
decoders are three loops with an arithmetic and range checks of their own; they
all read the same lengths off the same bytes.
-/

namespace RtosMqtt

theorem and_mark_eq_zero (b : UInt8) : b &&& 0x80 = 0 ↔ b.toNat < 128 := by
  have hall : ∀ n : Fin 256, UInt8.ofFin n &&& 0x80 = 0 ↔ n.val < 128 := by decide +kernel
  exact hall b.toFin

theorem toNat_and_digit (b : UInt8) : (b &&& 0x7F).toNat = b.toNat % 128 := by
  rw [UInt8.toNat_and]
  exact Nat.and_two_pow_sub_one_eq_mod b.toNat 7

theorem or_mark {b : UInt8} (h : 128 ≤ b.toNat) : (b.toNat % 128).toUInt8 ||| 0x80 = b := by
  have hall : ∀ n : Fin 256, 128 ≤ n.val → (n.val % 128).toUInt8 ||| 0x80 = UInt8.ofFin n := by
    decide +kernel
  exact hall b.toFin h

theorem toNat_or_mark {n : ℕ} (h : n < 128) : (n.toUInt8 ||| 0x80).toNat = 128 + n := by
  rw [UInt8.toNat_or, show n.toUInt8.toNat = n from Nat.mod_eq_of_lt (by omega)]
  have hor := Nat.two_pow_add_eq_or_of_lt (i := 7) h 1
  exact (hor.trans (Nat.or_comm _ _)).symm

/-- A digit at a time, as many as are allowed. -/
def digitScan : (turns : ℕ) → Scan UInt8 ℕ
  | 0 => .stop
  | turns + 1 => (Scan.item fun _ => true).bind fun b =>
    if b.toNat < 128 then .done b.toNat
    else (digitScan turns).bind fun rest => .done (b.toNat % 128 + 128 * rest)

theorem steady_digitScan (turns : ℕ) : (digitScan turns).Steady := by
  induction turns with
  | zero => exact Scan.steady_stop
  | succ turns ih =>
    refine (Scan.steady_item _).bind fun b => ?_
    by_cases hb : b.toNat < 128
    · rw [if_pos hb]
      exact Scan.steady_done _
    · rw [if_neg hb]
      exact ih.bind fun _ => Scan.steady_done _

@[simp] theorem digitScan_nil (turns : ℕ) : digitScan (turns + 1) [] = .short := rfl

theorem digitScan_last (turns : ℕ) {b : UInt8} (hb : b.toNat < 128) (bytes : List UInt8) :
    digitScan (turns + 1) (b :: bytes) = .whole b.toNat 1 := by
  refine Scan.bind_of_whole (a := b) (n := 1) (m := 0) rfl ?_
  rw [if_pos hb]
  rfl

theorem digitScan_more (turns : ℕ) {b : UInt8} (hb : ¬ b.toNat < 128) (bytes : List UInt8) :
    digitScan (turns + 1) (b :: bytes) =
      match digitScan turns bytes with
      | .whole rest n => .whole (b.toNat % 128 + 128 * rest) (n + 1)
      | .short => .short
      | .bad => .bad := by
  have hitem : Scan.item (fun _ => true) (b :: bytes) = .whole b 1 := rfl
  rw [digitScan, Scan.bind_apply_of_whole hitem, if_neg hb, List.drop_succ_cons, List.drop_zero]
  cases hrest : digitScan turns bytes with
  | whole rest n =>
    rw [Scan.bind_apply_of_whole hrest]
    exact congrArg _ (Nat.add_comm 1 n)
  | short => rw [Scan.bind_eq_short.mpr (.inl hrest)]
  | bad => rw [Scan.bind, hrest]

theorem digitScan_more_eq_whole {turns : ℕ} {b : UInt8} (hb : ¬ b.toNat < 128) {bytes : List UInt8}
    {n width : ℕ} (h : digitScan (turns + 1) (b :: bytes) = .whole n width) :
    ∃ rest m, digitScan turns bytes = .whole rest m ∧ n = b.toNat % 128 + 128 * rest ∧
      width = m + 1 := by
  rw [digitScan_more turns hb] at h
  cases hrest : digitScan turns bytes with
  | whole rest m =>
    rw [hrest] at h
    cases h
    exact ⟨rest, m, rfl, rfl, rfl⟩
  | short => rw [hrest] at h; cases h
  | bad => rw [hrest] at h; cases h

theorem digitScan_eq_whole {turns n width : ℕ} {bytes : List UInt8}
    (h : digitScan turns bytes = .whole n width) :
    1 ≤ width ∧ width ≤ turns ∧ n < 128 ^ width := by
  induction turns generalizing n width bytes with
  | zero => cases h
  | succ turns ih =>
    cases bytes with
    | nil => cases h
    | cons b bytes =>
      by_cases hb : b.toNat < 128
      · rw [digitScan_last turns hb] at h
        cases h
        exact ⟨Nat.le_refl 1, by omega, by omega⟩
      · obtain ⟨rest, m, hrest, rfl, rfl⟩ := digitScan_more_eq_whole hb h
        obtain ⟨hm, hle, hlt⟩ := ih hrest
        refine ⟨by omega, by omega, ?_⟩
        rw [Nat.pow_succ]
        omega

theorem digitScan_live {turns : ℕ} {bytes : List UInt8} (h : digitScan turns bytes = .short) :
    ∃ more n width, digitScan turns (bytes ++ more) = .whole n width ∧ 128 ^ (width - 1) ≤ n := by
  induction turns generalizing bytes with
  | zero => cases h
  | succ turns ih =>
    cases bytes with
    | nil => exact ⟨[1], 1, 1, digitScan_last turns (b := 1) (by decide) [], Nat.le_refl 1⟩
    | cons b bytes =>
      by_cases hb : b.toNat < 128
      · rw [digitScan_last turns hb] at h
        cases h
      · rw [digitScan_more turns hb] at h
        have hrest : digitScan turns bytes = .short := by
          cases hscan : digitScan turns bytes with
          | short => rfl
          | _ => rw [hscan] at h; cases h
        obtain ⟨more, n, width, hmore, hn⟩ := ih hrest
        refine ⟨more, b.toNat % 128 + 128 * n, width + 1, ?_, ?_⟩
        · rw [List.cons_append, digitScan_more turns hb, hmore]
        · obtain ⟨hwidth, -, -⟩ := digitScan_eq_whole hmore
          obtain ⟨k, rfl⟩ := Nat.exists_eq_add_of_le hwidth
          rw [Nat.add_sub_cancel_left] at hn
          rw [Nat.add_sub_cancel, Nat.add_comm 1 k, Nat.pow_succ]
          omega

theorem eq_variableLengthEncodedSize_iff {n width : ℕ} (hpos : 1 ≤ width) (hle : width ≤ 4)
    (hn : n < 128 ^ width) :
    width = variableLengthEncodedSize n ↔ width = 1 ∨ 128 ^ (width - 1) ≤ n := by
  unfold variableLengthEncodedSize
  obtain rfl | rfl | rfl | rfl : width = 1 ∨ width = 2 ∨ width = 3 ∨ width = 4 := by omega
  all_goals
    split_ifs <;> omega

/-- The digits that the encoder writes are the ones that are read, and no other spelling
that needs all of its digits is read as the same number. -/
theorem digitScan_eq_whole_iff {turns n width : ℕ} {bytes : List UInt8} :
    digitScan turns bytes = .whole n width ∧ (width = 1 ∨ 128 ^ (width - 1) ≤ n) ↔
      n < 128 ^ turns ∧ 0 < turns ∧ width = (digits turns n).length ∧
        digits turns n <+: bytes := by
  induction turns generalizing n width bytes with
  | zero =>
    constructor
    · rintro ⟨h, -⟩
      cases h
    · rintro ⟨-, h, -⟩
      exact absurd h (Nat.lt_irrefl 0)
  | succ turns ih =>
    cases bytes with
    | nil =>
      constructor
      · rintro ⟨h, -⟩
        cases h
      · rintro ⟨-, -, -, h⟩
        rw [List.prefix_nil, digits] at h
        split_ifs at h
    | cons b bytes =>
      by_cases hb : b.toNat < 128
      · rw [digitScan_last turns hb]
        constructor
        · rintro ⟨h, -⟩
          cases h
          have hzero : b.toNat / 128 = 0 := Nat.div_eq_of_lt hb
          have hpow : 128 ^ (turns + 1) = 128 ^ turns * 128 := Nat.pow_succ ..
          have hpos : 0 < 128 ^ turns := Nat.pow_pos (by decide)
          have hdigit : b.toNat.toUInt8 = b := UInt8.ofNat_toNat
          rw [digits, if_pos hzero, Nat.mod_eq_of_lt hb, hdigit]
          exact ⟨by omega, Nat.succ_pos _, rfl, by simp⟩
        · rintro ⟨-, -, hwidth, h⟩
          rw [digits] at h hwidth
          split_ifs at h hwidth with hzero
          · obtain ⟨rfl, -⟩ := List.cons_prefix_cons.mp h
            have hn : n < 128 := by omega
            rw [hwidth]
            refine ⟨?_, .inl rfl⟩
            rw [Nat.mod_eq_of_lt hn, show n.toUInt8.toNat = n from Nat.mod_eq_of_lt (by omega)]
            rfl
          · obtain ⟨rfl, -⟩ := List.cons_prefix_cons.mp h
            rw [toNat_or_mark (Nat.mod_lt _ (by decide))] at hb
            omega
      · constructor
        · rintro ⟨h, hfull⟩
          obtain ⟨rest, m, hrest, rfl, rfl⟩ := digitScan_more_eq_whole hb h
          obtain ⟨hm, -, -⟩ := digitScan_eq_whole hrest
          obtain ⟨k, rfl⟩ := Nat.exists_eq_add_of_le hm
          have hpow : 128 ^ (1 + k) = 128 * 128 ^ k := by rw [Nat.add_comm, Nat.pow_succ']
          have hpos : 0 < 128 ^ k := Nat.pow_pos (by decide)
          rw [Nat.add_sub_cancel] at hfull
          have hk : 128 ^ k ≤ rest := by omega
          have hdiv : (b.toNat % 128 + 128 * rest) / 128 = rest := by omega
          have hmod : (b.toNat % 128 + 128 * rest) % 128 = b.toNat % 128 := by omega
          obtain ⟨hlt, -, hwidth, hprefix⟩ :=
            ih.mp ⟨hrest, .inr (by rwa [Nat.add_sub_cancel_left])⟩
          rw [digits, if_neg (by omega), hdiv, hmod, or_mark (by omega), List.length_cons, ← hwidth]
          refine ⟨?_, Nat.succ_pos _, rfl, List.cons_prefix_cons.mpr ⟨rfl, hprefix⟩⟩
          rw [Nat.pow_succ]
          omega
        · rintro ⟨hlt, -, hwidth, h⟩
          rw [digits] at h hwidth
          split_ifs at h hwidth with hzero
          · obtain ⟨rfl, -⟩ := List.cons_prefix_cons.mp h
            rw [show ((n % 128).toUInt8).toNat = n % 128 from Nat.mod_eq_of_lt (by omega)] at hb
            omega
          · obtain ⟨rfl, hprefix⟩ := List.cons_prefix_cons.mp h
            have hturns : 0 < turns := by
              by_contra h0
              obtain rfl : turns = 0 := by omega
              omega
            rw [Nat.pow_succ] at hlt
            obtain ⟨hrest, hfull⟩ := ih.mpr ⟨by omega, hturns, rfl, hprefix⟩
            have hmark : (((n % 128).toUInt8 ||| 0x80).toNat) % 128 = n % 128 := by
              rw [toNat_or_mark (Nat.mod_lt _ (by decide))]
              omega
            rw [digitScan_more turns hb, hrest]
            dsimp only
            rw [hmark, Nat.mod_add_div, hwidth, List.length_cons]
            refine ⟨rfl, .inr ?_⟩
            rw [Nat.add_sub_cancel]
            obtain ⟨hpos, -, -⟩ := digitScan_eq_whole hrest
            obtain ⟨k, hk⟩ := Nat.exists_eq_add_of_le hpos
            rw [hk, Nat.add_comm 1 k, Nat.pow_succ]
            rw [hk, Nat.add_sub_cancel_left] at hfull
            rcases hfull with hfull | hfull
            · obtain rfl : k = 0 := by omega
              rw [Nat.pow_zero]
              omega
            · omega

def lengthScan : Scan UInt8 ℕ :=
  (digitScan 4).only fun n width => width = variableLengthEncodedSize n

theorem digits_succ {turns n : ℕ} (hpos : 0 < turns) (h : n < 128 ^ turns) :
    digits (turns + 1) n = digits turns n := by
  induction turns generalizing n with
  | zero => exact absurd hpos (Nat.lt_irrefl 0)
  | succ turns ih =>
    rw [digits]
    conv_rhs => rw [digits]
    split_ifs with hzero
    · rfl
    · rw [Nat.pow_succ] at h
      have hturns : 0 < turns := by
        by_contra h0
        obtain rfl : turns = 0 := by omega
        omega
      rw [ih hturns (by omega)]

theorem lengthScan_eq_whole {bytes : List UInt8} {n width : ℕ} :
    lengthScan bytes = .whole n width ↔
      n ≤ maxRemainingLength ∧ width = variableLengthEncodedSize n ∧
        encodedLength n <+: bytes := by
  rw [lengthScan, Scan.only_eq_whole, decide_eq_true_eq]
  constructor
  · rintro ⟨hscan, hwidth⟩
    obtain ⟨hpos, hle, hlt⟩ := digitScan_eq_whole hscan
    obtain ⟨hn, hturns, -, hprefix⟩ := digitScan_eq_whole_iff.mp
      ⟨hscan, (eq_variableLengthEncodedSize_iff hpos hle hlt).mp hwidth⟩
    rw [encodedLength, digits_succ hturns hn]
    exact ⟨Nat.le_of_lt_succ hn, hwidth, hprefix⟩
  · rintro ⟨hn, hwidth, hprefix⟩
    have hlt : n < 128 ^ 4 := Nat.lt_succ_of_le hn
    rw [encodedLength, digits_succ (by decide) hlt] at hprefix
    have hlength := length_encodedLength hn
    rw [encodedLength, digits_succ (by decide) hlt] at hlength
    exact ⟨(digitScan_eq_whole_iff.mpr
      ⟨hlt, by decide, hwidth.trans hlength.symm, hprefix⟩).1, hwidth⟩

theorem lengthScan_append {n : ℕ} (hn : n ≤ maxRemainingLength) (rest : List UInt8) :
    lengthScan (encodedLength n ++ rest) = .whole n (variableLengthEncodedSize n) :=
  lengthScan_eq_whole.mpr ⟨hn, rfl, List.prefix_append _ _⟩

theorem incremental_lengthScan : lengthScan.Incremental where
  toSteady := (steady_digitScan 4).only
  live := by
    intro bytes h
    obtain ⟨more, n, width, hscan, hn⟩ := digitScan_live (Scan.only_eq_short.mp h)
    obtain ⟨hpos, hle, hlt⟩ := digitScan_eq_whole hscan
    exact ⟨more, n, width, Scan.only_eq_whole.mpr ⟨hscan, decide_eq_true
      ((eq_variableLengthEncodedSize_iff hpos hle hlt).mpr (.inr hn))⟩⟩

/-- An arithmetic that is right as long as its results are 32-bit numbers. -/
structure Arithmetic.Exact (arith : Arithmetic) : Prop where
  add : ∀ {a b}, a + b ≤ u32Max → arith.add a b = a + b
  mul : ∀ {a b}, a * b ≤ u32Max → arith.mul a b = a * b

theorem exact_wrapping : wrapping.Exact where
  add h := Nat.mod_eq_of_lt (Nat.lt_succ_of_le h)
  mul h := Nat.mod_eq_of_lt (Nat.lt_succ_of_le h)

theorem exact_saturating : saturating.Exact where
  add h := Nat.min_eq_left h
  mul h := Nat.min_eq_left h

theorem Arithmetic.Exact.digit {arith : Arithmetic} (h : arith.Exact) {decoded value : ℕ}
    (hdecoded : decoded < 4) (hvalue : value < 128 ^ decoded) (b : UInt8) :
    arith.add value (arith.mul (b &&& 0x7F).toNat (128 ^ decoded)) =
        value + 128 ^ decoded * (b.toNat % 128) ∧
      arith.mul (128 ^ decoded) 128 = 128 ^ (decoded + 1) ∧
      value + 128 ^ decoded * (b.toNat % 128) < 128 ^ (decoded + 1) ∧
      128 ^ (decoded + 1) ≤ maxRemainingLength + 1 ∧ 128 ^ decoded ≤ 2097152 := by
  have hpow : 128 ^ decoded ≤ 2097152 :=
    Nat.pow_le_pow_right (n := 128) (j := 3) (by decide) (Nat.le_of_lt_succ hdecoded)
  have hdigit : b.toNat % 128 < 128 := Nat.mod_lt _ (by decide)
  rw [toNat_and_digit, Nat.mul_comm (128 ^ decoded) (b.toNat % 128)]
  have hproduct : b.toNat % 128 * 128 ^ decoded ≤ 127 * 128 ^ decoded :=
    Nat.mul_le_mul_right _ (Nat.le_of_lt_succ hdigit)
  have hmul : arith.mul (b.toNat % 128) (128 ^ decoded) = b.toNat % 128 * 128 ^ decoded :=
    h.mul (by rw [u32Max]; omega)
  have hstep : arith.mul (128 ^ decoded) 128 = 128 ^ decoded * 128 :=
    h.mul (by rw [u32Max]; omega)
  rw [hmul, hstep, Nat.pow_succ, maxRemainingLength]
  exact ⟨h.add (by rw [u32Max]; omega), rfl, by omega, by omega, hpow⟩

/-- A loop over a buffer reads the digits that are there. -/
theorem decodeFrom_eq {ε : Type} {arith : Arithmetic} (harith : arith.Exact)
    {next : ℕ → Except ε UInt8} {outOfRange : ℕ → Bool}
    (hrange : ∀ n ≤ maxRemainingLength, outOfRange n = false) (short bad : ε)
    {turns decoded value : ℕ} {bytes : List UInt8} (hturns : decoded + turns = 4)
    (hvalue : value < 128 ^ decoded)
    (hnext : ∀ i, next (decoded + i) = bytes[i]?.elim (.error short) .ok) :
    decodeFrom arith next outOfRange (.error bad) (turns + 1) value (128 ^ decoded) decoded =
      match digitScan turns bytes with
      | .whole n width => .ok (value + 128 ^ decoded * n, decoded + width)
      | .short => .error short
      | .bad => .error bad := by
  induction turns generalizing decoded value bytes with
  | zero =>
    obtain rfl : decoded = 4 := by omega
    rfl
  | succ turns ih =>
    rw [decodeFrom]
    cases bytes with
    | nil =>
      obtain ⟨-, -, -, -, hguard⟩ := harith.digit (by omega) hvalue 0
      rw [if_neg (by omega), show next decoded = .error short from hnext 0]
      rfl
    | cons b bytes =>
      obtain ⟨hadd, hmul, hlt, hmax, hguard⟩ := harith.digit (by omega) hvalue b
      rw [if_neg (by omega), show next decoded = .ok b from hnext 0]
      change (if _ then _ else _) = _
      rw [hadd, hmul, hrange _ (by omega), if_neg Bool.false_ne_true]
      by_cases hb : b.toNat < 128
      · rw [if_pos ((and_mark_eq_zero b).mpr hb), digitScan_last turns hb, Nat.mod_eq_of_lt hb]
        rfl
      · rw [if_neg fun h => hb ((and_mark_eq_zero b).mp h), digitScan_more turns hb,
          ih (by omega) hlt fun i => by
            rw [Nat.add_assoc, Nat.add_comm 1 i]
            exact hnext (i + 1)]
        cases digitScan turns bytes with
        | whole n width =>
          dsimp only
          rw [Nat.pow_succ, Nat.mul_add, Nat.add_assoc, Nat.mul_assoc, Nat.add_assoc,
            Nat.add_comm 1 width]
        | short => rfl
        | bad => rfl

theorem decodeFrom_start {ε : Type} {arith : Arithmetic} (harith : arith.Exact)
    {next : ℕ → Except ε UInt8} {outOfRange : ℕ → Bool}
    (hrange : ∀ n ≤ maxRemainingLength, outOfRange n = false) (short bad : ε)
    {bytes : List UInt8} (hnext : ∀ i, next i = bytes[i]?.elim (.error short) .ok) :
    decodeFrom arith next outOfRange (.error bad) 5 0 1 0 =
      (digitScan 4 bytes).toExcept short bad := by
  have hzero (i : ℕ) : next (0 + i) = bytes[i]?.elim (.error short) .ok := by
    rw [Nat.zero_add]
    exact hnext i
  rw [← Nat.pow_zero 128, decodeFrom_eq harith hrange short bad rfl (by decide) hzero]
  cases digitScan 4 bytes with
  | whole n width => simp only [Front.toExcept, Nat.pow_zero, Nat.one_mul, Nat.zero_add]
  | short => rfl
  | bad => rfl

theorem digitScan_bind {ε α : Type} (short bad : ε) (bytes : List UInt8)
    (f : ℕ × ℕ → Except ε α) :
    ((digitScan 4 bytes).toExcept short bad >>= fun p =>
        refuseIf (p.2 ≠ variableLengthEncodedSize p.1) bad >>= fun _ => f p) =
      (lengthScan bytes).toExcept short bad >>= f := by
  rw [lengthScan, Scan.only]
  cases digitScan 4 bytes with
  | whole n width =>
    by_cases hwidth : width = variableLengthEncodedSize n
    · simp [hwidth, refuseIf, bind, Except.bind, Front.toExcept]
    · simp [hwidth, refuseIf, bind, Except.bind, Front.toExcept]
  | short => rfl
  | bad => rfl

theorem decodeVariableLength_eq (bytes : List UInt8) :
    decodeVariableLength bytes =
      ((lengthScan bytes).toExcept ParseError.badResponse .badResponse).map Prod.fst := by
  have hrange (n : ℕ) (hn : n ≤ maxRemainingLength) : decide (remainingLengthInvalid ≤ n) = false :=
    decide_eq_false (Nat.not_le.mpr (Nat.lt_succ_of_le hn))
  have hnext (i : ℕ) : orBadResponse bytes[i]? = bytes[i]?.elim (.error .badResponse) .ok := by
    cases bytes[i]? <;> rfl
  have hloop := decodeFrom_start exact_saturating hrange ParseError.badResponse .badResponse hnext
  have hcheck := digitScan_bind ParseError.badResponse .badResponse bytes fun p => .ok p.1
  rw [decodeVariableLength, hloop]
  refine hcheck.trans ?_
  cases lengthScan bytes <;> rfl

def PacketHeader.encoded (header : PacketHeader) : List UInt8 :=
  header.packetType :: encodedLength header.remainingLength

structure PacketHeader.WellFormed (header : PacketHeader) : Prop where
  accepted : incomingPacketValid header.packetType = true
  inRange : header.remainingLength ≤ maxRemainingLength
  width : header.headerLength = header.encoded.length

/-- A type that a broker may send, and a length. -/
def headerScan : Scan UInt8 PacketHeader :=
  (Scan.item incomingPacketValid).bind fun packetType =>
    lengthScan.bind fun remainingLength => .done
      { packetType, remainingLength, headerLength := variableLengthEncodedSize remainingLength + 1 }

theorem headerScan_of_invalid {packetType : UInt8} (h : ¬ incomingPacketValid packetType = true)
    (bytes : List UInt8) : headerScan (packetType :: bytes) = .bad := by
  rw [headerScan, Scan.bind, Scan.item, if_neg h]

theorem headerScan_of_valid {packetType : UInt8} (h : incomingPacketValid packetType = true)
    (bytes : List UInt8) : headerScan (packetType :: bytes) =
      match lengthScan bytes with
      | .whole n width => .whole ⟨packetType, n, width + 1⟩ (width + 1)
      | .short => .short
      | .bad => .bad := by
  have hitem : Scan.item incomingPacketValid (packetType :: bytes) = .whole packetType 1 :=
    Scan.item_eq_whole.mpr ⟨rfl, h, rfl⟩
  rw [headerScan, Scan.bind_apply_of_whole hitem, List.drop_succ_cons, List.drop_zero]
  cases hscan : lengthScan bytes with
  | whole n width =>
    obtain ⟨-, rfl, -⟩ := lengthScan_eq_whole.mp hscan
    rw [Scan.bind_apply_of_whole hscan]
    exact congrArg _ (Nat.add_comm 1 _)
  | short => rw [Scan.bind_eq_short.mpr (.inl hscan)]
  | bad => rw [Scan.bind, hscan]

theorem headerScan_eq_whole {bytes : List UInt8} {header : PacketHeader} {used : ℕ} :
    headerScan bytes = .whole header used ↔
      header.WellFormed ∧ used = header.headerLength ∧ header.encoded <+: bytes := by
  constructor
  · intro h
    obtain ⟨packetType, n, m, hitem, hlength, rfl⟩ := Scan.bind_eq_whole.mp h
    obtain ⟨hhead, hvalid, rfl⟩ := Scan.item_eq_whole.mp hitem
    obtain ⟨remainingLength, width, k, hscan, hdone, rfl⟩ := Scan.bind_eq_whole.mp hlength
    cases hdone
    obtain ⟨hrange, rfl, hprefix⟩ := lengthScan_eq_whole.mp hscan
    cases bytes with
    | nil => cases hhead
    | cons b bytes =>
      obtain rfl := Option.some.inj hhead
      refine ⟨⟨hvalid, hrange, ?_⟩, Nat.add_comm _ _, List.cons_prefix_cons.mpr ⟨rfl, hprefix⟩⟩
      rw [PacketHeader.encoded, List.length_cons, length_encodedLength hrange]
  · rintro ⟨hwf, rfl, hprefix⟩
    cases bytes with
    | nil => exact absurd (List.prefix_nil.mp hprefix) (List.cons_ne_nil _ _)
    | cons b bytes =>
      obtain ⟨rfl, hrest⟩ := List.cons_prefix_cons.mp hprefix
      have hwidth := hwf.width
      rw [PacketHeader.encoded, List.length_cons, length_encodedLength hwf.inRange] at hwidth
      have hitem := Scan.item_eq_whole.mpr
        (⟨rfl, hwf.accepted, rfl⟩ : (header.packetType :: bytes).head? = some header.packetType ∧ _)
      have hscan := lengthScan_eq_whole.mpr ⟨hwf.inRange, rfl, hrest⟩
      refine Scan.bind_eq_whole.mpr ⟨_, 1, _, hitem, Scan.bind_eq_whole.mpr
        ⟨_, _, 0, hscan, ?_, rfl⟩, ?_⟩
      · rw [← hwidth]
        rfl
      · rw [hwidth]
        omega

theorem incremental_headerScan : headerScan.Incremental := by
  apply (Scan.incremental_item (b := Packet.connack) (by decide)).bind
  · intro packetType
    apply incremental_lengthScan.bind
    · exact fun _ => Scan.incremental_done _
    · exact fun _ => ⟨[], _, 0, rfl⟩
  · intro packetType
    exact ⟨encodedLength 0, _, _, Scan.bind_of_whole
      (lengthScan_eq_whole.mpr ⟨Nat.zero_le _, rfl, List.prefix_rfl⟩) rfl⟩

theorem headerByte_eq (buffer : List UInt8) (available i : ℕ) :
    headerByte buffer available i =
      ((buffer.take available).tail[i]?).elim (.error .needMoreBytes) .ok := by
  rw [List.getElem?_tail, headerByte]
  split_ifs with h
  · rw [List.getElem?_eq_none (by rw [List.length_take]; omega)]
    rfl
  · rw [List.getElem?_take_of_lt (by omega)]
    cases buffer[i + 1]? <;> rfl

/-- The buffered reader looks at what has been received and at nothing else. -/
theorem processIncomingPacketTypeAndLength_eq (buffer : List UInt8) (available : ℕ) :
    processIncomingPacketTypeAndLength buffer available =
      if buffer.take available = [] then .error .noDataAvailable
      else ((headerScan (buffer.take available)).toExcept .needMoreBytes .badResponse).map
        Prod.fst := by
  unfold processIncomingPacketTypeAndLength
  by_cases havailable : available < 1
  · obtain rfl : available = 0 := by omega
    rfl
  rw [if_neg havailable]
  cases buffer with
  | nil =>
    rw [List.take_nil]
    rfl
  | cons packetType buffer =>
    obtain ⟨k, rfl⟩ := Nat.exists_eq_add_of_le (Nat.not_lt.mp havailable)
    have hloop := decodeFrom_start exact_wrapping (fun _ _ => rfl) HeaderError.needMoreBytes
      .badResponse (headerByte_eq (packetType :: buffer) (1 + k))
    rw [Nat.add_comm 1 k, List.take_succ_cons, if_neg (List.cons_ne_nil _ _)] at *
    rw [List.tail_cons] at hloop
    dsimp only [List.head?_cons]
    by_cases hvalid : incomingPacketValid packetType = true
    · have hcheck := digitScan_bind HeaderError.needMoreBytes .badResponse (buffer.take k) fun p =>
        .ok (PacketHeader.mk packetType p.1 (p.2 + 1))
      have haccept : (refuseIf (!incomingPacketValid packetType) HeaderError.badResponse) =
          .ok () := by
        rw [hvalid]
        rfl
      rw [haccept, hloop, headerScan_of_valid hvalid]
      refine hcheck.trans ?_
      cases lengthScan (buffer.take k) <;> rfl
    · have hrefuse : (refuseIf (!incomingPacketValid packetType) HeaderError.badResponse) =
          .error .badResponse := by
        rw [refuseIf, if_pos (by simpa using hvalid)]
      rw [headerScan_of_invalid hvalid, hrefuse]
      rfl

theorem processIncomingPacketTypeAndLength_eq_needMoreBytes {buffer : List UInt8} {available : ℕ} :
    processIncomingPacketTypeAndLength buffer available = .error .needMoreBytes ↔
      buffer.take available ≠ [] ∧ headerScan (buffer.take available) = .short := by
  rw [processIncomingPacketTypeAndLength_eq]
  split_ifs with hempty
  · simp [hempty]
  · cases headerScan (buffer.take available) <;> simp [Front.toExcept, Except.map, hempty]

theorem processIncomingPacketTypeAndLength_eq_ok {buffer : List UInt8} {available : ℕ}
    {header : PacketHeader} :
    processIncomingPacketTypeAndLength buffer available = .ok header ↔
      header.WellFormed ∧ header.encoded <+: buffer.take available := by
  rw [processIncomingPacketTypeAndLength_eq]
  constructor
  · intro h
    split_ifs at h
    cases hscan : headerScan (buffer.take available) with
    | whole other used =>
      rw [hscan] at h
      cases h
      obtain ⟨hwf, -, hprefix⟩ := headerScan_eq_whole.mp hscan
      exact ⟨hwf, hprefix⟩
    | short => rw [hscan] at h; cases h
    | bad => rw [hscan] at h; cases h
  · rintro ⟨hwf, hprefix⟩
    have hscan := headerScan_eq_whole.mpr ⟨hwf, rfl, hprefix⟩
    rw [hscan, if_neg]
    · rfl
    · intro hempty
      rw [hempty] at hprefix
      cases List.prefix_nil.mp hprefix

theorem processIncomingPacketTypeAndLength_settled {buffer other : List UInt8} {k j : ℕ}
    (hkj : k ≤ j) (hsame : other.take k = buffer.take k)
    (hmore : processIncomingPacketTypeAndLength buffer k ≠ .error .needMoreBytes)
    (hnone : processIncomingPacketTypeAndLength buffer k ≠ .error .noDataAvailable) :
    processIncomingPacketTypeAndLength other j = processIncomingPacketTypeAndLength buffer k := by
  have hempty : buffer.take k ≠ [] := by
    intro h
    rw [processIncomingPacketTypeAndLength_eq, if_pos h] at hnone
    exact hnone rfl
  have hscan : headerScan (buffer.take k) ≠ .short := fun h =>
    hmore (processIncomingPacketTypeAndLength_eq_needMoreBytes.mpr ⟨hempty, h⟩)
  obtain ⟨more, hother⟩ : ∃ more, other.take j = buffer.take k ++ more := by
    refine ⟨(other.take j).drop k, ?_⟩
    have hwhole := List.take_append_drop k (other.take j)
    rw [List.take_take, Nat.min_eq_left hkj, hsame] at hwhole
    exact hwhole.symm
  rw [processIncomingPacketTypeAndLength_eq, processIncomingPacketTypeAndLength_eq, hother,
    incremental_headerScan.settled more hscan, if_neg hempty, if_neg (by simp [hempty])]

theorem headerScan_eq_short {bytes : List UInt8} :
    headerScan bytes = .short ↔
      (∃ more, ∃ header : PacketHeader, header.WellFormed ∧ bytes ++ more = header.encoded) ∧
        ¬ ∃ header : PacketHeader, header.WellFormed ∧ header.encoded <+: bytes := by
  rw [incremental_headerScan.eq_short_iff]
  constructor
  · rintro ⟨⟨more, header, used, hmore⟩, hnot⟩
    obtain ⟨hwf, rfl, hprefix⟩ := headerScan_eq_whole.mp hmore
    have hnone : ¬ ∃ header : PacketHeader, header.WellFormed ∧ header.encoded <+: bytes := by
      rintro ⟨other, hother, hinside⟩
      exact hnot other _ (headerScan_eq_whole.mpr ⟨hother, rfl, hinside⟩)
    refine ⟨?_, hnone⟩
    rcases List.prefix_or_prefix_of_prefix hprefix (List.prefix_append bytes more) with h | h
    · exact absurd ⟨header, hwf, h⟩ hnone
    · obtain ⟨rest, hrest⟩ := h
      exact ⟨rest, header, hwf, hrest⟩
  · rintro ⟨⟨more, header, hwf, hmore⟩, hnot⟩
    constructor
    · refine ⟨more, header, _, headerScan_eq_whole.mpr ⟨hwf, rfl, ?_⟩⟩
      exact hmore ▸ List.prefix_rfl
    · intro other used h
      obtain ⟨hother, -, hprefix⟩ := headerScan_eq_whole.mp h
      exact hnot ⟨other, hother, hprefix⟩

end RtosMqtt
