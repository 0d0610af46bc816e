import RtosMqtt.Wire.Outgoing

/-! # What the serializers lay out

A serializer that is given room writes one field after the other, so what it
wrote is the concatenation of its fields and the rest of the destination is as
it was.
-/

namespace RtosMqtt

/-- The digits of a number, least significant first, all but the last one marked. -/
def digits : (turns n : ℕ) → List UInt8
  | 0, _ => []
  | turns + 1, n =>
    if n / 128 = 0 then [(n % 128).toUInt8]
    else ((n % 128).toUInt8 ||| 0x80) :: digits turns (n / 128)

def encodedLength (n : ℕ) : List UInt8 := digits 5 n

theorem length_encodedLength {n : ℕ} (h : n ≤ maxRemainingLength) :
    (encodedLength n).length = variableLengthEncodedSize n := by
  rw [maxRemainingLength] at h
  unfold variableLengthEncodedSize
  simp only [encodedLength, digits, Nat.div_div_eq_div_mul]
  split_ifs <;> first | rfl | omega

theorem variableLengthEncodedSize_le (n : ℕ) : variableLengthEncodedSize n ≤ 4 := by
  unfold variableLengthEncodedSize; split_ifs <;> omega

theorem variableLengthEncodedSize_pos (n : ℕ) : 0 < variableLengthEncodedSize n := by
  unfold variableLengthEncodedSize; split_ifs <;> omega

theorem encodeFrom_append (turns n : ℕ) (before rest : List UInt8)
    (h : (digits turns n).length ≤ rest.length) :
    encodeFrom turns n before.length (before ++ rest) =
      (before.length + (digits turns n).length,
        before ++ digits turns n ++ rest.drop (digits turns n).length) := by
  induction turns generalizing n before rest with
  | zero => simp [encodeFrom, digits]
  | succ turns ih =>
    cases rest with
    | nil => rw [digits] at h; split_ifs at h <;> simp at h
    | cons byte rest =>
      have hset (b : UInt8) : (before ++ byte :: rest).set before.length b =
          (before ++ [b]) ++ rest := by simp
      rw [digits] at h ⊢
      rw [encodeFrom, if_pos (by simp)]
      split_ifs at h ⊢ with hlast hzero
      · omega
      · rw [hset]; simp
      · have hrest := ih (n / 128) (before ++ [(n % 128).toUInt8 ||| 0x80]) rest (by simpa using h)
        rw [List.length_append, List.length_singleton] at hrest
        rw [hset, hrest, List.length_cons, List.drop_succ_cons, Nat.add_assoc, Nat.add_comm 1]
        simp
      · omega

theorem writeAt_append {ε : Type} (e : ε) (before rest bytes : List UInt8)
    (h : bytes.length ≤ rest.length) :
    writeAt e before.length bytes (before ++ rest) =
      (.ok (), before ++ bytes ++ rest.drop bytes.length) := by
  rw [writeAt, if_pos (by rw [List.length_append]; omega), List.take_left, List.drop_append]
  simp

theorem encodeVariableLength_eq {n : ℕ} (hn : n ≤ maxRemainingLength) {destination : List UInt8}
    (h : variableLengthEncodedSize n ≤ destination.length) :
    encodeVariableLength destination n =
      (variableLengthEncodedSize n,
        encodedLength n ++ destination.drop (variableLengthEncodedSize n)) := by
  have hlength := length_encodedLength hn
  have hdigits := encodeFrom_append 5 n [] destination (by rw [← encodedLength, hlength]; exact h)
  rw [← encodedLength, hlength] at hdigits
  simp only [List.length_nil, List.nil_append, Nat.zero_add] at hdigits
  rw [encodeVariableLength, if_neg (by omega), hdigits]

theorem encodeAt_append {ε : Type} (e : ε) (before rest : List UInt8) {n : ℕ}
    (hn : n ≤ maxRemainingLength) (h : variableLengthEncodedSize n ≤ rest.length) :
    encodeAt e before.length n (before ++ rest) =
      (.ok (variableLengthEncodedSize n),
        before ++ encodedLength n ++ rest.drop (variableLengthEncodedSize n)) := by
  rw [encodeAt, if_neg (by simp), List.drop_left, List.take_left, encodeVariableLength_eq hn h,
    List.append_assoc]

theorem encodeVariableLength_four {n : ℕ} (hn : n ≤ maxRemainingLength) :
    encodeVariableLength (List.replicate 4 0) n =
      (variableLengthEncodedSize n,
        encodedLength n ++ List.replicate (4 - variableLengthEncodedSize n) 0) := by
  rw [encodeVariableLength_eq hn (by simpa using variableLengthEncodedSize_le n),
    List.drop_replicate]

theorem encodeVariableLength_spec {n : ℕ} (hn : n ≤ maxRemainingLength) :
    (encodeVariableLength (List.replicate 4 0) n).1 = variableLengthEncodedSize n ∧
      (encodeVariableLength (List.replicate 4 0) n).2.take (variableLengthEncodedSize n) =
        encodedLength n := by
  rw [encodeVariableLength_four hn, ← length_encodedLength hn, List.take_left]
  exact ⟨rfl, rfl⟩

theorem lt_of_decodeFrom {ε : Type} {arith : Arithmetic} {next : ℕ → Except ε UInt8}
    {outOfRange : ℕ → Bool} {e : ε} {turns value multiplier start result stop : ℕ}
    (h : decodeFrom arith next outOfRange (.error e) turns value multiplier start =
      .ok (result, stop)) : start < stop := by
  induction turns generalizing value multiplier start with
  | zero => cases h
  | succ turns ih =>
    rw [decodeFrom] at h
    by_cases hmul : multiplier > 2097152
    · rw [if_pos hmul] at h; cases h
    rw [if_neg hmul, except_bind_eq_ok] at h
    obtain ⟨byte, -, h⟩ := h
    by_cases hout : outOfRange (arith.add value (arith.mul (byte &&& 0x7F).toNat multiplier)) = true
    · rw [if_pos hout] at h; cases h
    rw [if_neg hout] at h
    by_cases hlast : byte &&& 0x80 = 0
    · rw [if_pos hlast] at h
      cases h
      exact Nat.lt_succ_self _
    · rw [if_neg hlast] at h
      exact Nat.lt_of_le_of_lt (Nat.le_succ _) (ih h)

/-- What a measured header says of its buffer: the type is its first byte, which is one that a
broker may send, and at least one byte of length follows. -/
theorem header_eq_ok {buffer : List UInt8} {available : ℕ} {header : PacketHeader}
    (h : processIncomingPacketTypeAndLength buffer available = .ok header) :
    buffer.head? = some header.packetType ∧ incomingPacketValid header.packetType = true ∧
      2 ≤ header.headerLength := by
  unfold processIncomingPacketTypeAndLength at h
  split_ifs at h
  cases hhead : buffer.head? with
  | none => rw [hhead] at h; cases h
  | some packetType =>
    rw [hhead] at h
    dsimp only at h
    rw [refuseIf_bind_eq_ok, except_bind_eq_ok] at h
    obtain ⟨hvalid, ⟨remainingLength, bytesDecoded⟩, hdecode, h⟩ := h
    dsimp only at h
    rw [refuseIf_bind_eq_ok] at h
    cases h.2
    exact ⟨rfl, by simpa using hvalid, Nat.succ_le_succ (lt_of_decodeFrom hdecode)⟩

namespace Writing

theorem header_eq (packetType : UInt8) {n total : ℕ} (hn : n ≤ maxRemainingLength)
    {destination : List UInt8} (htotal : total ≤ destination.length)
    (hroom : 1 + variableLengthEncodedSize n ≤ destination.length) :
    header packetType n total destination =
      (.ok (), packetType :: encodedLength n ++
        destination.drop (1 + variableLengthEncodedSize n)) := by
  have hput := writeAt_append () [] destination [packetType] (by rw [List.length_singleton]; omega)
  have hlength := encodeAt_append () [packetType] (destination.drop 1) hn
    (by rw [List.length_drop]; omega)
  rw [List.length_nil, List.nil_append, List.nil_append, List.length_singleton] at hput
  rw [List.length_singleton, List.drop_drop] at hlength
  rw [header, Prog.get_bind_apply, Prog.refuse_bind_of_not (Nat.not_lt.mpr htotal), put,
    Prog.bind_of_ok hput, Prog.bind_of_ok hlength, Prog.refuse_apply, if_neg (not_not.mpr rfl)]
  rfl

theorem header_apply (packetType : UInt8) {n : ℕ} (total room : ℕ) (hn : n ≤ maxRemainingLength)
    (htotal : total ≤ room) (hroom : 1 + variableLengthEncodedSize n ≤ room) :
    header packetType n total (List.replicate room 0) =
      (.ok (), packetType :: encodedLength n ++
        List.replicate (room - (1 + variableLengthEncodedSize n)) 0) := by
  rw [header_eq packetType hn (by rwa [List.length_replicate]) (by rwa [List.length_replicate]),
    List.drop_replicate]

end Writing

/-- A whole acknowledgement: its type, the length of the rest, its identifier, and what follows. -/
def ackPacket (packetType : UInt8) (packetId : UInt16) (rest : List UInt8) : List UInt8 :=
  packetType :: encodedLength (2 + rest.length) ++ toBeBytes16 packetId ++ rest

theorem serializeAck_bare {packetType : UInt8} {packetId : UInt16}
    (hkind : isPublishAck packetType = true) (hid : packetId ≠ 0) :
    serializeAck packetType packetId none [] (List.replicate publishAckPacketSize 0) =
      (.ok 4, ackPacket packetType packetId []) := by
  rw [serializeAck, Prog.get_bind_apply, Prog.refuse_bind_of_not (by simp),
    Prog.refuse_bind_of_not hid, Prog.refuse_bind_of_not (by simp),
    Prog.refuse_bind_of_not (by simp [ackKindAllowed, hkind])]
  rfl

theorem not_ok_serializeAck_zero {packetType : UInt8} {written : ℕ} :
    (serializeAck packetType 0 none [] (List.replicate publishAckPacketSize 0)).1 ≠
      .ok written := by
  rw [serializeAck, Prog.get_bind_apply, Prog.refuse_bind_of_not (by simp), Prog.refuse_bind_apply,
    if_pos rfl]
  simp

theorem serializeAck_bare_eq_ok {packetType : UInt8} {packetId : UInt16} {written : ℕ}
    (hkind : isPublishAck packetType = true)
    (h : (serializeAck packetType packetId none [] (List.replicate publishAckPacketSize 0)).1 =
      .ok written) :
    written = 4 ∧ (serializeAck packetType packetId none []
      (List.replicate publishAckPacketSize 0)).2 = ackPacket packetType packetId [] := by
  by_cases hid : packetId = 0
  · exact absurd (hid ▸ h) not_ok_serializeAck_zero
  · rw [serializeAck_bare hkind hid] at h ⊢
    exact ⟨(Except.ok.inj h).symm, rfl⟩

theorem serializeAckFixed_eq (packetType : UInt8) (packetId : UInt16) {n : ℕ}
    (hn : n ≤ maxRemainingLength) (reasonCode : UInt8) :
    serializeAckFixed (List.replicate 8 0) packetType packetId n reasonCode =
      (1 + variableLengthEncodedSize n + 2 + 1,
        packetType :: encodedLength n ++ toBeBytes16 packetId ++ [reasonCode] ++
          List.replicate (4 - variableLengthEncodedSize n) 0) := by
  have hsize := variableLengthEncodedSize_le n
  have hhead := Writing.header_apply packetType
    (1 + variableLengthEncodedSize n + 2 + 1) 8 hn (by omega) (by omega)
  have hlength : (packetType :: encodedLength n).length = 1 + variableLengthEncodedSize n := by
    rw [List.length_cons, length_encodedLength hn, Nat.add_comm]
  have hid := writeAt_append () (packetType :: encodedLength n)
    (List.replicate (8 - (1 + variableLengthEncodedSize n)) 0) (toBeBytes16 packetId)
    (by simp [toBeBytes16]; omega)
  have hreason := writeAt_append () (packetType :: encodedLength n ++ toBeBytes16 packetId)
    (List.replicate (8 - (1 + variableLengthEncodedSize n) - 2) 0) [reasonCode] (by simp; omega)
  rw [hlength] at hid
  rw [List.length_append, hlength] at hreason
  have htwo : (toBeBytes16 packetId).length = 2 := rfl
  rw [htwo, List.drop_replicate] at hid
  rw [htwo, List.length_singleton, List.drop_replicate] at hreason
  have hrest : 8 - (1 + variableLengthEncodedSize n) - 2 - 1 = 4 - variableLengthEncodedSize n := by
    omega
  rw [serializeAckFixed, Writing.written, Prog.bind_of_ok hhead, Writing.putU16,
    Prog.bind_of_ok hid, Writing.put, Prog.bind_of_ok hreason, Prog.pure_apply, hrest]

theorem serializeAckFixed_spec (packetType : UInt8) (packetId : UInt16) {n : ℕ}
    (hn : n ≤ maxRemainingLength) (reasonCode : UInt8) :
    (serializeAckFixed (List.replicate 8 0) packetType packetId n reasonCode).1 =
        1 + variableLengthEncodedSize n + 2 + 1 ∧
      (serializeAckFixed (List.replicate 8 0) packetType packetId n reasonCode).2.take
        (1 + variableLengthEncodedSize n + 2 + 1) =
          packetType :: encodedLength n ++ toBeBytes16 packetId ++ [reasonCode] := by
  rw [serializeAckFixed_eq _ _ hn]
  refine ⟨rfl, List.take_left' ?_⟩
  simp [length_encodedLength hn, toBeBytes16]
  omega

def disconnectHead (reasonCode : Option UInt8) (n : ℕ) : List UInt8 :=
  Packet.disconnect :: encodedLength n ++ reasonCode.toList

theorem length_disconnectHead (reasonCode : Option UInt8) {n : ℕ} (hn : n ≤ maxRemainingLength) :
    (disconnectHead reasonCode n).length =
      1 + variableLengthEncodedSize n + if reasonCode.isSome then 1 else 0 := by
  rw [disconnectHead, List.length_append, List.length_cons, length_encodedLength hn, Nat.add_comm 1]
  cases reasonCode <;> rfl

theorem serializeDisconnectFixed_eq (reasonCode : Option UInt8) {n : ℕ}
    (hn : n ≤ maxRemainingLength) (destination : List UInt8)
    (hroom : (disconnectHead reasonCode n).length ≤ destination.length) :
    serializeDisconnectFixed destination reasonCode n =
      ((disconnectHead reasonCode n).length,
        disconnectHead reasonCode n ++ destination.drop (disconnectHead reasonCode n).length) := by
  rw [length_disconnectHead reasonCode hn] at hroom ⊢
  have hhead := Writing.header_eq Packet.disconnect hn hroom (by omega)
  unfold serializeDisconnectFixed
  dsimp only
  rw [Writing.written, Prog.bind_of_ok hhead]
  cases reasonCode with
  | none =>
    rw [disconnectHead, Option.toList_none, List.append_nil]
    rfl
  | some reason =>
    have hlength : (Packet.disconnect :: encodedLength n).length =
        1 + variableLengthEncodedSize n := by
      rw [List.length_cons, length_encodedLength hn, Nat.add_comm]
    have hreason := writeAt_append () (Packet.disconnect :: encodedLength n)
      (destination.drop (1 + variableLengthEncodedSize n)) [reason]
      (by rw [Option.isSome_some, if_pos rfl] at hroom; simp; omega)
    rw [hlength, List.drop_drop] at hreason
    dsimp only
    rw [Writing.put, Prog.bind_of_ok hreason]
    rfl

theorem serializeDisconnectFixed_spec (reasonCode : Option UInt8) {n : ℕ}
    (hn : n ≤ maxRemainingLength) :
    (serializeDisconnectFixed (List.replicate 6 0) reasonCode n).1 =
        (disconnectHead reasonCode n).length ∧
      (serializeDisconnectFixed (List.replicate 6 0) reasonCode n).2.take
        (disconnectHead reasonCode n).length = disconnectHead reasonCode n := by
  have hsize := variableLengthEncodedSize_le n
  have hroom : (disconnectHead reasonCode n).length ≤ (List.replicate 6 (0 : UInt8)).length := by
    rw [length_disconnectHead reasonCode hn, List.length_replicate]
    split_ifs <;> omega
  rw [serializeDisconnectFixed_eq reasonCode hn _ hroom]
  exact ⟨rfl, List.take_left' rfl⟩

theorem ackPacketSize_eq_ok {maxPacketSize propertyLength : ℕ} {size : PacketSize}
    (h : ackPacketSize maxPacketSize propertyLength = .ok size) :
    propertyLength ≤ maxRemainingLength ∧ size.remainingLength ≤ maxRemainingLength ∧
      size.remainingLength = 3 + variableLengthEncodedSize propertyLength + propertyLength := by
  have hsmall := variableLengthEncodedSize_le propertyLength
  simp only [ackPacketSize, refuseIf_bind_eq_ok, pure, Except.pure, Except.ok.injEq] at h
  obtain ⟨-, -, hlength, hremaining, -, rfl⟩ := h
  simp only [satAdd, u32Max, maxRemainingLength] at *
  omega

theorem le_of_ackPacketSize {maxPacketSize propertyLength : ℕ} {size : PacketSize}
    (h : ackPacketSize maxPacketSize propertyLength = .ok size) :
    1 + variableLengthEncodedSize size.remainingLength + size.remainingLength ≤ maxPacketSize := by
  simp only [ackPacketSize, refuseIf_bind_eq_ok, pure, Except.pure, Except.ok.injEq] at h
  obtain ⟨-, -, -, hremaining, hsize, rfl⟩ := h
  have hsmall := variableLengthEncodedSize_le
    (satAdd (satAdd 3 (variableLengthEncodedSize propertyLength)) propertyLength)
  simp only [satAdd, u32Max, maxRemainingLength] at *
  omega

theorem serializePublishHeaderWithoutTopic_eq_ok {publish : OutgoingPublish} {n written : ℕ}
    {destination rest : List UInt8}
    (h : serializePublishHeaderWithoutTopic publish n destination = (.ok written, rest)) :
    written = 1 + variableLengthEncodedSize n + 2 :=
  (Prog.Answers.bind fun _ => .bind fun _ => .bind fun _ => .bind fun _ => .bind fun _ =>
    .bind fun _ => .bind fun _ => Prog.answers_pure _ :
      (serializePublishHeaderWithoutTopic publish n).Answers _) destination written rest h

theorem disconnectPacketSize_eq_ok {reasonCode : Option UInt8} {propertyLength maxPacketSize : ℕ}
    {size : PacketSize}
    (h : disconnectPacketSize reasonCode propertyLength maxPacketSize = .ok size) :
    propertyLength ≤ maxRemainingLength ∧ size.remainingLength ≤ maxRemainingLength ∧
      size.remainingLength = (if reasonCode.isSome then 1 else 0) +
        variableLengthEncodedSize propertyLength + propertyLength ∧
      1 + variableLengthEncodedSize size.remainingLength + size.remainingLength ≤ maxPacketSize := by
  have hsmall := variableLengthEncodedSize_le propertyLength
  simp only [disconnectPacketSize, refuseIf_bind_eq_ok, pure, Except.pure, Except.ok.injEq] at h
  obtain ⟨-, -, -, hlength, htotal, hsize, rfl⟩ := h
  dsimp only
  have hone : (if reasonCode.isSome then 1 else 0) ≤ 1 := by split_ifs <;> omega
  generalize (if reasonCode.isSome then 1 else 0) = reason at *
  have hwhole := variableLengthEncodedSize_le
    (satAdd (satAdd reason (variableLengthEncodedSize propertyLength)) propertyLength)
  simp only [wholePacketSize, satAdd, u32Max, maxRemainingLength, remainingLengthInvalid] at *
  omega

theorem publishPacketSize_eq_ok {publish : OutgoingPublish} {maxPacketSize : ℕ} {size : PacketSize}
    (h : publishPacketSize publish maxPacketSize = .ok size) :
    publish.properties.length ≤ maxRemainingLength ∧
      1 + variableLengthEncodedSize size.remainingLength + 2 + publish.topicName.length +
        packetIdCost publish.qos + variableLengthEncodedSize publish.properties.length +
        publish.properties.length + publish.payload.length ≤ maxPacketSize := by
  have hsmall := variableLengthEncodedSize_le publish.properties.length
  have hcost : packetIdCost publish.qos ≤ 2 := by unfold packetIdCost; split_ifs <;> omega
  simp only [publishPacketSize, refuseIf_bind_eq_ok, pure, Except.pure, Except.ok.injEq] at h
  obtain ⟨-, hlength, htopic, -, hpayload, hbudget, hrest, hsize, rfl⟩ := h
  dsimp only
  generalize hn : satAdd (satAdd (satAdd (satAdd (satAdd publish.topicName.length 2)
    (packetIdCost publish.qos)) (variableLengthEncodedSize publish.properties.length))
    publish.properties.length) publish.payload.length = n at *
  have hwhole := variableLengthEncodedSize_le n
  have hlimit : maxRemainingLength + 16 < u32Max ∧ u16Max + 16 < maxRemainingLength := by decide
  simp only [wholePacketSize, satAdd] at *
  generalize maxRemainingLength = limit at *
  generalize u32Max = most at *
  omega

/-- The bytes that a list of filters takes after the header and the properties. -/
def filtersSize (which : SubscriptionType) : List ℕ → ℕ
  | [] => 0
  | length :: lengths =>
    length + 2 + (if which = .subscribe then 1 else 0) + filtersSize which lengths

theorem listRemainingLength_eq_ok {which : SubscriptionType} {lengths : List ℕ} {start n : ℕ}
    (h : listRemainingLength which lengths start = .ok n) :
    start + filtersSize which lengths = n ∧ ∀ length ∈ lengths, length ≤ u16Max := by
  induction lengths generalizing start with
  | nil => simpa [listRemainingLength, filtersSize] using h
  | cons length lengths ih =>
    simp only [listRemainingLength, refuseIf_bind_eq_ok] at h
    obtain ⟨htopic, hroom, h⟩ := h
    obtain ⟨hsum, hall⟩ := ih h
    constructor
    · rw [filtersSize, ← hsum]
      simp only [satAdd, u32Max, u16Max, remainingLengthInvalid] at *
      split_ifs <;> omega
    · exact List.forall_mem_cons.mpr ⟨Nat.not_lt.mp htopic, hall⟩

theorem listPacketSize_eq_ok {which : SubscriptionType} {lengths : List ℕ}
    {propertyLength maxPacketSize : ℕ} {size : PacketSize}
    (h : listPacketSize which lengths propertyLength maxPacketSize = .ok size) :
    propertyLength ≤ maxRemainingLength ∧ size.remainingLength ≤ maxRemainingLength ∧
      size.remainingLength = 2 + variableLengthEncodedSize propertyLength + propertyLength +
        filtersSize which lengths ∧
      1 + variableLengthEncodedSize size.remainingLength + size.remainingLength ≤ maxPacketSize ∧
      ∀ length ∈ lengths, length ≤ u16Max := by
  have hsmall := variableLengthEncodedSize_le propertyLength
  simp only [listPacketSize, refuseIf_bind_eq_ok] at h
  obtain ⟨-, hlength, h⟩ := h
  obtain ⟨n, hlist, h⟩ := except_bind_eq_ok.mp h
  simp only [refuseIf_bind_eq_ok, pure, Except.pure, Except.ok.injEq] at h
  obtain ⟨-, hn, hsize, rfl⟩ := h
  obtain ⟨hsum, hall⟩ := listRemainingLength_eq_ok hlist
  dsimp only
  rw [← and_assoc, ← and_assoc, ← and_assoc]
  refine ⟨?_, hall⟩
  generalize filtersSize which lengths = topics at *
  have hwhole := variableLengthEncodedSize_le n
  simp only [satAdd, u32Max, maxRemainingLength] at *
  omega

def SameHead (before after : List UInt8) : Prop := after.head? = before.head?

instance : IsPreorder (List UInt8) SameHead where
  refl _ := rfl
  trans _ _ _ h h' := h'.trans h

theorem writeAt_sameHead {ε : Type} (e : ε) {start : ℕ} (hstart : 0 < start)
    (bytes : List UInt8) : (writeAt e start bytes).Moves SameHead := by
  intro destination
  unfold writeAt
  split_ifs with hroom
  · cases destination with
    | nil =>
      rw [List.length_nil] at hroom
      omega
    | cons first rest =>
      obtain ⟨n, rfl⟩ := Nat.exists_eq_succ_of_ne_zero (Nat.ne_of_gt hstart)
      rfl
  · rfl

theorem encodeAt_sameHead {ε : Type} (e : ε) {start : ℕ} (hstart : 0 < start) (length : ℕ) :
    (encodeAt e start length).Moves SameHead := by
  intro destination
  unfold encodeAt
  split_ifs with hroom
  · rfl
  · cases destination with
    | nil => exact absurd hstart hroom
    | cons first rest =>
      obtain ⟨n, rfl⟩ := Nat.exists_eq_succ_of_ne_zero (Nat.ne_of_gt hstart)
      rfl

/-- A header that was written starts with its type. -/
theorem Writing.head_written {packetType : UInt8} {n total : ℕ} {f : Unit → Writing ℕ}
    (hf : (f ()).Moves SameHead) {destination : List UInt8}
    (h : (Writing.written (Writing.header packetType n total >>= f) destination).1 ≠ 0) :
    ((Writing.written (Writing.header packetType n total >>= f) destination).2.take
      (Writing.written (Writing.header packetType n total >>= f) destination).1).head? =
        some packetType := by
  unfold Writing.written at *
  rcases hw : (Writing.header packetType n total >>= f) destination with ⟨_ | written, rest⟩
  · rw [hw] at h
    exact absurd rfl h
  rw [hw] at h
  obtain ⟨_, after, hheader, hrest⟩ := Prog.bind_eq_ok.mp hw
  unfold Writing.header at hheader
  rw [Prog.get_bind_apply, Prog.refuse_bind_eq_ok] at hheader
  obtain ⟨-, hheader⟩ := hheader
  obtain ⟨_, first, hput, hheader⟩ := Prog.bind_eq_ok.mp hheader
  obtain ⟨digits, encoded, hencode, hheader⟩ := Prog.bind_eq_ok.mp hheader
  have hfirst : first.head? = some packetType := by
    unfold Writing.put writeAt at hput
    split_ifs at hput with hroom
    · obtain ⟨-, rfl⟩ := Prod.mk.inj hput
      rfl
    · cases hput
  have hencoded := encodeAt_sameHead () Nat.one_pos n first
  rw [hencode] at hencoded
  have hafter : after = encoded := by
    rw [Prog.refuse_apply] at hheader
    exact (Prod.mk.inj hheader).2.symm
  have hlast := hf after
  rw [hrest] at hlast
  have hhead : rest.head? = some packetType := by
    rw [show rest.head? = after.head? from hlast, hafter,
      show encoded.head? = first.head? from hencoded, hfirst]
  cases rest with
  | nil => cases hhead
  | cons byte rest =>
    obtain ⟨m, hm⟩ := Nat.exists_eq_succ_of_ne_zero h
    dsimp only at hm ⊢
    rw [hm]
    exact hhead

theorem serializeConnectFixedHeader_head (destination : List UInt8) (info : ConnectInfo)
    (will : Option WillInfo) (n : ℕ)
    (h : (serializeConnectFixedHeader destination info will n).1 ≠ 0) :
    ((serializeConnectFixedHeader destination info will n).2.take
      (serializeConnectFixedHeader destination info will n).1).head? = some Packet.connect :=
  Writing.head_written ((writeAt_sameHead () (by omega) _).bind fun _ =>
    (writeAt_sameHead () (by omega) _).bind fun _ => (writeAt_sameHead () (by omega) _).bind fun _ =>
      (writeAt_sameHead () (by omega) _).bind fun _ => (writeAt_sameHead () (by omega) _).bind
        fun _ => .pure _) h

end RtosMqtt
