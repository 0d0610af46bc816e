import RtosMqtt.Wire.Publication

/-! # Exact sizes

Five calculators add up a packet in three ways, all with saturating sums and all
against one limit. None of the sums saturates where the limit lets it through, so
what they answer is what the integers say.
-/

namespace RtosMqtt

def packetLength (n : ℕ) : ℕ := 1 + variableLengthEncodedSize n + n

def trueSize (n : ℕ) : PacketSize where
  remainingLength := n
  packetSize := packetLength n

/-- The remaining length of an acknowledgement with a reason code and properties. -/
def ackLength (propertyLength : ℕ) : ℕ :=
  3 + variableLengthEncodedSize propertyLength + propertyLength

def listLength (which : SubscriptionType) (lengths : List ℕ) (propertyLength : ℕ) : ℕ :=
  2 + variableLengthEncodedSize propertyLength + propertyLength + filtersSize which lengths

def connectLength (connect : Connect) : ℕ :=
  10 + connect.properties.length + variableLengthEncodedSize connect.properties.length +
    (connect.clientIdentifier.length + 2) +
    connect.will.elim 0 (fun will => will.properties.length +
      variableLengthEncodedSize will.properties.length + (will.topicName.length + 2) +
        (will.payload.length + 2)) +
    connect.info.username.elim 0 (·.length + 2) + connect.info.password.elim 0 (·.length + 2)

def disconnectLength (reasonCode : Option UInt8) (propertyLength : ℕ) : ℕ :=
  (if reasonCode.isSome then 1 else 0) + variableLengthEncodedSize propertyLength + propertyLength

theorem satAdd_satAdd_left (a b c : ℕ) : satAdd (satAdd a b) c = min (a + b + c) u32Max := by
  simp only [satAdd]
  omega

theorem satAdd_min (a b : ℕ) : satAdd (min a u32Max) b = min (a + b) u32Max := by
  rw [satAdd]
  omega

theorem min_add_min (a b : ℕ) : min (a + min b u32Max) u32Max = min (a + b) u32Max := by
  omega

theorem min_u32Max_le {n : ℕ} : min n u32Max ≤ maxRemainingLength ↔ n ≤ maxRemainingLength := by
  rw [u32Max, maxRemainingLength]
  omega

theorem min_u32Max_eq {n : ℕ} (h : n ≤ maxRemainingLength) : min n u32Max = n := by
  rw [maxRemainingLength] at h
  rw [u32Max]
  omega

theorem wholePacketSize_eq_packetLength {n : ℕ} (h : n ≤ maxRemainingLength) :
    wholePacketSize n = packetLength n := wholePacketSize_eq h

theorem satAdd_one_eq_packetLength {n : ℕ} (h : n ≤ maxRemainingLength) :
    satAdd (satAdd n 1) (variableLengthEncodedSize n) = packetLength n := by
  have hsize := variableLengthEncodedSize_le n
  rw [maxRemainingLength] at h
  rw [satAdd_satAdd_left, packetLength, u32Max]
  omega

theorem ne_zero_of_packetLength_le {n maxPacketSize : ℕ} (h : packetLength n ≤ maxPacketSize) :
    maxPacketSize ≠ 0 := by
  rw [packetLength] at h
  omega

theorem ackPacketSize_eq_ok_iff {maxPacketSize propertyLength : ℕ} {size : PacketSize} :
    ackPacketSize maxPacketSize propertyLength = .ok size ↔
      ackLength propertyLength ≤ maxRemainingLength ∧
        packetLength (ackLength propertyLength) ≤ maxPacketSize ∧
        size = trueSize (ackLength propertyLength) := by
  have hsum : satAdd (satAdd 3 (variableLengthEncodedSize propertyLength)) propertyLength =
      min (ackLength propertyLength) u32Max := satAdd_satAdd_left _ _ _
  simp only [ackPacketSize, refuseIf_bind_eq_ok, pure, Except.pure, Except.ok.injEq, hsum,
    Nat.not_lt, min_u32Max_le]
  constructor
  · rintro ⟨-, -, -, hlength, hpacket, rfl⟩
    rw [min_u32Max_eq hlength, satAdd_one_eq_packetLength hlength] at hpacket ⊢
    exact ⟨hlength, hpacket, rfl⟩
  · rintro ⟨hlength, hpacket, rfl⟩
    rw [min_u32Max_eq hlength, satAdd_one_eq_packetLength hlength]
    refine ⟨ne_zero_of_packetLength_le hpacket, ?_, ?_, hlength, hpacket, rfl⟩
    · rw [ackLength, maxRemainingLength] at hlength
      rw [u32Max]
      omega
    · rw [ackLength] at hlength
      omega

/-- The bound inside the loop refuses nothing that the last one lets through. -/
theorem listRemainingLength_eq_ok_iff {which : SubscriptionType} {lengths : List ℕ} {start n : ℕ} :
    (listRemainingLength which lengths (min start u32Max) = .ok n ∧ n ≤ maxRemainingLength) ↔
      (∀ length ∈ lengths, length ≤ u16Max) ∧
        start + filtersSize which lengths ≤ maxRemainingLength ∧
        n = start + filtersSize which lengths := by
  induction lengths generalizing start with
  | nil =>
    simp only [listRemainingLength, filtersSize, Except.ok.injEq, List.not_mem_nil,
      IsEmpty.forall_iff, implies_true, true_and, Nat.add_zero]
    constructor
    · rintro ⟨rfl, hle⟩
      rw [min_u32Max_le] at hle
      exact ⟨hle, min_u32Max_eq hle⟩
    · rintro ⟨hle, rfl⟩
      exact ⟨min_u32Max_eq hle, hle⟩
  | cons length lengths ih =>
    have hnext : (if which = .subscribe
        then satAdd (satAdd (satAdd (min start u32Max) length) 2) 1
        else satAdd (satAdd (min start u32Max) length) 2) =
          min (start + (length + 2 + if which = .subscribe then 1 else 0)) u32Max := by
      rw [satAdd_min, satAdd_min]
      split_ifs
      · rw [satAdd_min]
        simp only [Nat.add_assoc]
      · simp only [Nat.add_assoc, Nat.add_zero]
    simp only [listRemainingLength, refuseIf_bind_eq_ok, hnext, List.forall_mem_cons, filtersSize,
      ← Nat.add_assoc]
    constructor
    · rintro ⟨⟨hlength, -, h⟩, hle⟩
      obtain ⟨hall, hsum⟩ := ih.mp ⟨h, hle⟩
      exact ⟨⟨Nat.not_lt.mp hlength, hall⟩, hsum⟩
    · rintro ⟨⟨hlength, hall⟩, hsum⟩
      obtain ⟨h, hle⟩ := ih.mpr ⟨hall, hsum⟩
      refine ⟨⟨Nat.not_lt.mpr hlength, ?_, h⟩, hle⟩
      have hbound := hsum.1
      rw [satAdd_min, satAdd_min, remainingLengthInvalid]
      rw [maxRemainingLength] at hbound
      omega

theorem listPacketSize_eq_ok_iff {which : SubscriptionType} {lengths : List ℕ}
    {propertyLength maxPacketSize : ℕ} {size : PacketSize} :
    listPacketSize which lengths propertyLength maxPacketSize = .ok size ↔
      (lengths ≠ [] ∧ ∀ length ∈ lengths, length ≤ u16Max) ∧
        listLength which lengths propertyLength ≤ maxRemainingLength ∧
        packetLength (listLength which lengths propertyLength) ≤ maxPacketSize ∧
        size = trueSize (listLength which lengths propertyLength) := by
  have hstart : satAdd (satAdd 2 propertyLength) (variableLengthEncodedSize propertyLength) =
      min (2 + variableLengthEncodedSize propertyLength + propertyLength) u32Max := by
    rw [satAdd_satAdd_left, Nat.add_right_comm]
  rw [listPacketSize, refuseIf_bind_eq_ok, refuseIf_bind_eq_ok, except_bind_eq_ok, hstart]
  simp only [refuseIf_bind_eq_ok, pure, Except.pure, Except.ok.injEq, Nat.not_lt]
  constructor
  · rintro ⟨-, -, n, hn, hsome, hle, hpacket, rfl⟩
    obtain ⟨hall, hsum, rfl⟩ := listRemainingLength_eq_ok_iff.mp ⟨hn, hle⟩
    rw [satAdd_one_eq_packetLength hle] at hpacket ⊢
    exact ⟨⟨hsome, hall⟩, hsum, hpacket, rfl⟩
  · rintro ⟨⟨hsome, hall⟩, hsum, hpacket, rfl⟩
    obtain ⟨hn, hle⟩ := listRemainingLength_eq_ok_iff.mpr ⟨hall, hsum, rfl⟩
    refine ⟨ne_zero_of_packetLength_le hpacket, ?_, _, hn, hsome, hle, ?_, ?_⟩
    · rw [listLength] at hsum
      omega
    · rwa [satAdd_one_eq_packetLength hle]
    · rw [satAdd_one_eq_packetLength hle]
      rfl

theorem publishPacketSize_exact {publish : OutgoingPublish} {maxPacketSize : ℕ}
    {size : PacketSize} :
    publishPacketSize publish maxPacketSize = .ok size ↔
      publish.topicName.length ≤ u16Max ∧ publishLength publish ≤ maxRemainingLength ∧
        packetLength (publishLength publish) ≤ maxPacketSize ∧
        size = trueSize (publishLength publish) := by
  rw [publishPacketSize_eq_ok_iff]
  constructor
  · rintro ⟨⟨htopic, hlength⟩, hpacket, rfl⟩
    rw [wholePacketSize_eq_packetLength hlength] at hpacket ⊢
    exact ⟨htopic, hlength, hpacket, rfl⟩
  · rintro ⟨htopic, hlength, hpacket, rfl⟩
    rw [wholePacketSize_eq_packetLength hlength]
    exact ⟨⟨htopic, hlength⟩, hpacket, rfl⟩

theorem disconnectPacketSize_eq_ok_iff {reasonCode : Option UInt8}
    {propertyLength maxPacketSize : ℕ} {size : PacketSize} :
    disconnectPacketSize reasonCode propertyLength maxPacketSize = .ok size ↔
      ((reasonCode = none → propertyLength = 0) ∧
          ∀ code, reasonCode = some code → reasonCodeAllowed code false = true) ∧
        disconnectLength reasonCode propertyLength ≤ maxRemainingLength ∧
        packetLength (disconnectLength reasonCode propertyLength) ≤ maxPacketSize ∧
        size = trueSize (disconnectLength reasonCode propertyLength) := by
  have hcode : ¬ reasonCode.any (fun code => !reasonCodeAllowed code false) = true ↔
      ∀ code, reasonCode = some code → reasonCodeAllowed code false = true := by
    cases reasonCode <;> simp
  have hreason : ¬ (reasonCode = none ∧ propertyLength ≠ 0) ↔
      (reasonCode = none → propertyLength = 0) := by
    rw [not_and, not_not]
  have hsum : satAdd (satAdd (if reasonCode.isSome then 1 else 0)
      (variableLengthEncodedSize propertyLength)) propertyLength =
        min (disconnectLength reasonCode propertyLength) u32Max := satAdd_satAdd_left _ _ _
  have hbefore : remainingLengthInvalid ≤ satAdd (satAdd propertyLength
      (variableLengthEncodedSize propertyLength)) (if reasonCode.isSome then 1 else 0) ↔
        ¬ disconnectLength reasonCode propertyLength ≤ maxRemainingLength := by
    rw [satAdd_satAdd_left, disconnectLength, remainingLengthInvalid, maxRemainingLength, u32Max]
    generalize (if reasonCode.isSome then 1 else 0) = reason
    omega
  simp only [disconnectPacketSize, refuseIf_bind_eq_ok, pure, Except.pure, Except.ok.injEq, hcode,
    hreason, hsum, hbefore, not_not, Nat.not_lt]
  constructor
  · rintro ⟨hnone, -, hallowed, -, hlength, hpacket, rfl⟩
    rw [min_u32Max_eq hlength, wholePacketSize_eq_packetLength hlength] at hpacket ⊢
    exact ⟨⟨hnone, hallowed⟩, hlength, hpacket, rfl⟩
  · rintro ⟨⟨hnone, hallowed⟩, hlength, hpacket, rfl⟩
    rw [min_u32Max_eq hlength, wholePacketSize_eq_packetLength hlength]
    refine ⟨hnone, ne_zero_of_packetLength_le hpacket, hallowed, ?_, hlength, hpacket, rfl⟩
    rw [disconnectLength, maxRemainingLength] at hlength
    rw [remainingLengthInvalid]
    omega

theorem fieldSize_min (length : ℕ) : fieldSize length = min (length + 2) u32Max := satAdd_min _ _

/-- The sum that is compared, before the lengths of its sections are known. -/
def connectSum (connect : Connect) (propertyLength willPropertyLength : ℕ) : ℕ :=
  let length := satAdd (satAdd (satAdd connectHeaderSize propertyLength)
    (variableLengthEncodedSize propertyLength)) (fieldSize connect.clientIdentifier.length)
  let length :=
    match connect.will with
    | none => length
    | some will => satAdd (satAdd (satAdd (satAdd length willPropertyLength)
        (variableLengthEncodedSize willPropertyLength)) (fieldSize will.topicName.length))
        (fieldSize will.payload.length)
  let length :=
    match connect.info.username with
    | none => length
    | some username => satAdd length (fieldSize username.length)
  match connect.info.password with
  | none => length
  | some password => satAdd length (fieldSize password.length)

theorem connectSum_eq (connect : Connect) :
    connectSum connect connect.properties.length
      (connect.will.elim 0 (·.properties.length)) = min (connectLength connect) u32Max := by
  obtain ⟨⟨cleanSession, keepAlive, username, password⟩, identifier, properties, will⟩ := connect
  have hstart : satAdd connectHeaderSize properties.length =
      min (10 + properties.length) u32Max := rfl
  cases will <;> cases username <;> cases password <;>
    simp only [connectSum, connectLength, Option.elim, hstart, fieldSize_min, satAdd_min,
      min_add_min, ← Nat.add_assoc, Nat.add_zero]

/-- The length of the section of a will, when there is a will. -/
def willSectionLength (connect : Connect) : Except EncodeError ℕ :=
  match connect.will with
  | none => .ok 0
  | some will => connectSectionLength will.properties

theorem willSectionLength_eq_ok {connect : Connect} {length : ℕ} :
    willSectionLength connect = .ok length ↔
      (∀ will, connect.will = some will → will.properties.length ≤ maxRemainingLength) ∧
        length = connect.will.elim 0 (·.properties.length) := by
  rw [willSectionLength]
  cases connect.will with
  | none => simp [eq_comm]
  | some will => simp [connectSectionLength_eq_ok]

theorem connectPacketSize_eq (connect : Connect) : connectPacketSize connect = (do
    refuseIf (connect.clientIdentifier.head? = some 0) .badParameter
    refuseIf (u16Max < connect.clientIdentifier.length) .badParameter
    refuseIf (connect.info.username.any (u16Max < ·.length)) .badParameter
    refuseIf (connect.info.password.any (u16Max < ·.length)) .badParameter
    refuseIf (connect.will.any fun will =>
      u16Max < will.payload.length ∨ u16Max < will.topicName.length) .badParameter
    let propertyLength ← connectSectionLength connect.properties
    let willPropertyLength ← willSectionLength connect
    refuseIf (maxRemainingLength < connectSum connect propertyLength willPropertyLength)
      .badParameter
    pure {
      remainingLength := connectSum connect propertyLength willPropertyLength
      packetSize := wholePacketSize (connectSum connect propertyLength willPropertyLength) }) := rfl

theorem connectPacketSize_eq_ok_iff {connect : Connect} {size : PacketSize} :
    connectPacketSize connect = .ok size ↔
      (connect.clientIdentifier.head? ≠ some 0 ∧ connect.Fits) ∧
        connectLength connect ≤ maxRemainingLength ∧ size = trueSize (connectLength connect) := by
  have hwill : ¬ (connect.will.any fun will =>
      decide (u16Max < will.payload.length ∨ u16Max < will.topicName.length)) = true ↔
        ∀ will, connect.will = some will →
          will.payload.length ≤ u16Max ∧ will.topicName.length ≤ u16Max := by
    cases connect.will <;> simp
  rw [connectPacketSize_eq, refuseIf_bind_eq_ok, refuseIf_bind_eq_ok, refuseIf_bind_eq_ok,
    refuseIf_bind_eq_ok, refuseIf_bind_eq_ok, except_bind_eq_ok]
  constructor
  · rintro ⟨hhead, hidentifier, husername, hpassword, hbounds, length, hlength, h⟩
    obtain ⟨hproperties, rfl⟩ := connectSectionLength_eq_ok.mp hlength
    rw [except_bind_eq_ok] at h
    obtain ⟨willLength, hwillLength, h⟩ := h
    obtain ⟨hwillProperties, rfl⟩ := willSectionLength_eq_ok.mp hwillLength
    rw [refuseIf_bind_eq_ok, connectSum_eq, Nat.not_lt, min_u32Max_le] at h
    obtain ⟨hle, h⟩ := h
    rw [min_u32Max_eq hle, wholePacketSize_eq_packetLength hle] at h
    refine ⟨⟨hhead, Nat.not_lt.mp hidentifier, hproperties, not_any_iff.mp husername,
      not_any_iff.mp hpassword, ?_⟩, hle, (Except.ok.inj h).symm⟩
    intro will hsome
    obtain ⟨hpayload, htopic⟩ := hwill.mp hbounds will hsome
    exact ⟨htopic, hpayload, hwillProperties will hsome⟩
  · rintro ⟨⟨hhead, hfits⟩, hle, rfl⟩
    refine ⟨hhead, Nat.not_lt.mpr hfits.identifier, not_any_iff.mpr hfits.username,
      not_any_iff.mpr hfits.password, hwill.mpr fun will hsome => ?_, _,
      connectSectionLength_eq_ok.mpr ⟨hfits.properties, rfl⟩, ?_⟩
    · exact ⟨(hfits.will will hsome).2.1, (hfits.will will hsome).1⟩
    · rw [except_bind_eq_ok]
      refine ⟨_, willSectionLength_eq_ok.mpr ⟨fun will hsome => (hfits.will will hsome).2.2, rfl⟩, ?_⟩
      rw [refuseIf_bind_eq_ok, connectSum_eq, min_u32Max_eq hle,
        wholePacketSize_eq_packetLength hle]
      exact ⟨Nat.not_lt.mpr hle, rfl⟩

/-- A calculator answers, and answers the true sizes, exactly when the fields of the packet pass,
its remaining length is within the limit, and it is no longer than the maximum, where there is
one. -/
def Exact (answer : Except EncodeError PacketSize) (fields : Prop) (length : ℕ)
    (maximum : Option ℕ) : Prop :=
  ∀ size, answer = .ok size ↔ fields ∧ length ≤ maxRemainingLength ∧
    (∀ limit, maximum = some limit → packetLength length ≤ limit) ∧ size = trueSize length

theorem exact_of {answer : Except EncodeError PacketSize} {fields : Prop} {length limit : ℕ}
    (h : ∀ size, answer = .ok size ↔ fields ∧ length ≤ maxRemainingLength ∧
      packetLength length ≤ limit ∧ size = trueSize length) :
    Exact answer fields length (some limit) := by
  intro size
  rw [h]
  simp

/-- Every calculator is exact, with one limit for all. -/
theorem sizes_exact :
    (∀ maxPacketSize propertyLength, Exact (ackPacketSize maxPacketSize propertyLength) True
      (ackLength propertyLength) (some maxPacketSize)) ∧
    (∀ which lengths propertyLength maxPacketSize,
      Exact (listPacketSize which lengths propertyLength maxPacketSize)
        (lengths ≠ [] ∧ ∀ length ∈ lengths, length ≤ u16Max)
        (listLength which lengths propertyLength) (some maxPacketSize)) ∧
    (∀ publish maxPacketSize, Exact (publishPacketSize publish maxPacketSize)
      (publish.topicName.length ≤ u16Max) (publishLength publish) (some maxPacketSize)) ∧
    (∀ connect, Exact (connectPacketSize connect)
      (connect.clientIdentifier.head? ≠ some 0 ∧ connect.Fits) (connectLength connect) none) ∧
    ∀ reasonCode propertyLength maxPacketSize,
      Exact (disconnectPacketSize reasonCode propertyLength maxPacketSize)
        ((reasonCode = none → propertyLength = 0) ∧
          ∀ code, reasonCode = some code → reasonCodeAllowed code false = true)
        (disconnectLength reasonCode propertyLength) (some maxPacketSize) := by
  refine ⟨?_, ?_, ?_, ?_, ?_⟩
  · intro maxPacketSize propertyLength
    apply exact_of
    intro size
    rw [ackPacketSize_eq_ok_iff, true_and]
  · exact fun _ _ _ _ => exact_of fun _ => listPacketSize_eq_ok_iff
  · exact fun _ _ => exact_of fun _ => publishPacketSize_exact
  · intro connect size
    rw [connectPacketSize_eq_ok_iff]
    simp
  · exact fun _ _ _ => exact_of fun _ => disconnectPacketSize_eq_ok_iff

end RtosMqtt
