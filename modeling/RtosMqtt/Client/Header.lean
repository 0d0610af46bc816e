import RtosMqtt.Client.Opened
import RtosMqtt.Client.Scripted
import RtosMqtt.Wire.Length

/-! # Reading a header off the transport

The reader that asks the transport for a byte at a time reads what the buffered
one does, as long as the transport has bytes to hand over. Where the buffered
one needs more of them, this one has failed.
-/

namespace RtosMqtt

namespace Client

variable {W : Type}

/-- Asked for one byte after the other, the transport hands these over. -/
def Delivers (env : Environment W) : List UInt8 → W → W → Prop
  | [], w, w' => w' = w
  | b :: bytes, w, w' => ∃ u, env.recv [0] w = ((.bytes 1, [b]), u) ∧ Delivers env bytes u w'

def Dry (env : Environment W) (w : W) : Prop :=
  ∀ count data, (env.recv [0] w).1 = (.bytes count, data) → count = 0

variable {env : Environment W}

theorem recvOne_of_delivers (nothing failed : ClientError) {b : UInt8} {u : W} {s : Sys W}
    (h : env.recv [0] s.world = ((.bytes 1, [b]), u)) :
    ∃ t, recvOne env nothing failed s = (.ok b, t) ∧ t.world = u := by
  have hrecv : recv env [0] s = (.ok (.bytes 1, [b]),
      { s with world := u, log := s.log ++ [.received [b] (.bytes 1)] }) := by
    rw [recv, Prog.answer_apply, h]
    rfl
  exact ⟨_, Prog.bind_of_ok hrecv, rfl⟩

theorem recvOne_of_dry {e : ClientError} {s : Sys W} (h : Dry env s.world) :
    (recvOne env e e s).1 = .error (.error e) := by
  rcases hrecv : env.recv [0] s.world with ⟨⟨outcome, data⟩, u⟩
  have hrun : recv env [0] s = (.ok (outcome, overlay data [0]),
      { s with world := u, log := s.log ++ [.received (overlay data [0]) outcome] }) := by
    rw [recv, Prog.answer_apply, hrecv]
  rw [recvOne, Prog.bind_of_ok hrun]
  cases outcome with
  | bytes count =>
    obtain rfl := h count data (by rw [hrecv])
    rfl
  | nothing => rfl
  | failed => rfl

/-- What a reader makes of the bytes that a scan has looked at. -/
structure ReadAs {α β : Type} (env : Environment W) (bytes : List UInt8) (first last : W)
    (front : Front α) (value : α → ℕ → β) (run : Except Stop β × Sys W) : Prop where
  whole : ∀ {a used}, front = .whole a used →
    run.1 = .ok (value a used) ∧ Delivers env (bytes.take used) first run.2.world
  bad : front = .bad → run.1 = .error (.error .badResponse)
  short : front = .short → Dry env last → run.1 = .error (.error .badResponse)

section ReadAs

variable {α β : Type} {bytes : List UInt8} {first last : W} {value : α → ℕ → β}
  {run : Except Stop β × Sys W}

theorem readAs_whole {a : α} {used : ℕ} (hok : run.1 = .ok (value a used))
    (hused : Delivers env (bytes.take used) first run.2.world) :
    ReadAs env bytes first last (.whole a used) value run := by
  constructor
  · intro b used' h
    cases h
    exact ⟨hok, hused⟩
  · intro h
    cases h
  · intro h
    cases h

theorem readAs_bad (h : run.1 = .error (.error .badResponse)) :
    ReadAs env bytes first last .bad value run :=
  ⟨nofun, fun _ => h, nofun⟩

theorem readAs_short (h : Dry env last → run.1 = .error (.error .badResponse)) :
    ReadAs env bytes first last .short value run :=
  ⟨nofun, nofun, fun _ => h⟩

end ReadAs

/-- A loop over the transport reads the digits that it hands over. -/
theorem decodeFrom_readAs {turns decoded value : ℕ} {bytes : List UInt8} {s : Sys W} {last : W}
    (hturns : decoded + turns = 4) (hvalue : value < 128 ^ decoded)
    (hbytes : Delivers env bytes s.world last) :
    ReadAs env bytes s.world last (digitScan turns bytes)
      (fun n width => (value + 128 ^ decoded * n, decoded + width))
      (decodeFrom saturating (fun _ => recvOne env .badResponse .badResponse) (fun _ => false)
        (fail .badResponse) (turns + 1) value (128 ^ decoded) decoded s) := by
  induction turns generalizing decoded value bytes s with
  | zero =>
    obtain rfl : decoded = 4 := by omega
    exact readAs_bad rfl
  | succ turns ih =>
    rw [decodeFrom]
    cases bytes with
    | nil =>
      obtain ⟨-, -, -, -, hguard⟩ := exact_saturating.digit (by omega) hvalue 0
      rw [if_neg (by omega)]
      apply readAs_short
      intro hdry
      obtain rfl : last = s.world := hbytes
      have hone := recvOne_of_dry (e := .badResponse) hdry
      rw [Prog.bind_of_error (Prod.ext hone rfl)]
    | cons b bytes =>
      obtain ⟨u, hrecv, hrest⟩ := hbytes
      obtain ⟨hadd, hmul, hlt, hmax, hguard⟩ := exact_saturating.digit (by omega) hvalue b
      obtain ⟨t, hone, ht⟩ := recvOne_of_delivers .badResponse .badResponse hrecv
      rw [if_neg (by omega), Prog.bind_of_ok hone]
      change ReadAs _ _ _ _ _ _ ((if _ then _ else if _ then _ else _ : Client W _) t)
      rw [hadd, hmul, if_neg Bool.false_ne_true]
      by_cases hb : b.toNat < 128
      · rw [if_pos ((and_mark_eq_zero b).mpr hb), digitScan_last turns hb, Nat.mod_eq_of_lt hb]
        exact readAs_whole rfl ⟨u, hrecv, ht⟩
      · rw [if_neg fun h => hb ((and_mark_eq_zero b).mp h), digitScan_more turns hb]
        rw [← ht] at hrest
        have hloop := ih (by omega) hlt hrest
        cases hscan : digitScan turns bytes with
        | whole n width =>
          obtain ⟨hok, hused⟩ := hloop.whole hscan
          refine readAs_whole (hok.trans ?_) ⟨u, hrecv, by rwa [← ht]⟩
          rw [Nat.pow_succ, Nat.mul_add, Nat.add_assoc, Nat.mul_assoc, Nat.add_assoc,
            Nat.add_comm 1 width]
        | short => exact readAs_short (hloop.short hscan)
        | bad => exact readAs_bad (hloop.bad hscan)

theorem readRemainingLength_readAs {bytes : List UInt8} {s : Sys W} {last : W}
    (hbytes : Delivers env bytes s.world last) :
    ReadAs env bytes s.world last (lengthScan bytes) Prod.mk (readRemainingLength env s) := by
  have hloop := decodeFrom_readAs (rfl : 0 + 4 = 4) (by decide : 0 < 128 ^ 0) hbytes
  rw [Nat.pow_zero] at hloop
  rw [lengthScan, Scan.only]
  cases hscan : digitScan 4 bytes with
  | whole n width =>
    obtain ⟨hok, hused⟩ := hloop.whole hscan
    obtain ⟨-, hle, hlt⟩ := digitScan_eq_whole hscan
    have hrange : ¬ remainingLengthInvalid ≤ n :=
      Nat.not_le.mpr (hlt.trans_le (Nat.pow_le_pow_right (by decide) hle))
    rw [Nat.one_mul, Nat.zero_add, Nat.zero_add] at hok
    have hrun := Prog.eq_of_fst_ok hok
    dsimp only
    rw [readRemainingLength, Prog.bind_of_ok hrun]
    dsimp only [Client.refuse]
    rw [Prog.refuse_bind_of_not hrange, Prog.refuse_bind_apply]
    by_cases hwidth : width = variableLengthEncodedSize n
    · rw [if_pos (decide_eq_true hwidth), if_neg (not_not.mpr hwidth)]
      exact readAs_whole rfl hused
    · rw [if_neg (by simpa using hwidth), if_pos hwidth]
      exact readAs_bad rfl
  | short =>
    apply readAs_short
    intro hdry
    rw [readRemainingLength, Prog.bind_of_error (Prod.ext (hloop.short hscan hdry) rfl)]
  | bad =>
    apply readAs_bad
    rw [readRemainingLength, Prog.bind_of_error (Prod.ext (hloop.bad hscan) rfl)]

/-- The two readers of a fixed header. -/
theorem readHeader_readAs {bytes : List UInt8} {s : Sys W} {last : W}
    (hbytes : Delivers env bytes s.world last) :
    (∀ {header used}, headerScan bytes = .whole header used →
        (readHeader env s).1 = .ok header ∧
          Delivers env (bytes.take used) s.world (readHeader env s).2.world) ∧
      (headerScan bytes = .bad → (readHeader env s).1 = .error (.error .badResponse)) := by
  cases bytes with
  | nil =>
    constructor
    · intro header used h
      cases h
    · intro h
      cases h
  | cons packetType bytes =>
    obtain ⟨u, hrecv, hrest⟩ := hbytes
    obtain ⟨t, hone, ht⟩ := recvOne_of_delivers .noDataAvailable .recvFailed hrecv
    rw [← ht] at hrest
    have hlength := readRemainingLength_readAs hrest
    rw [readHeader, Prog.bind_of_ok hone, Client.refuse, Prog.refuse_bind_apply]
    by_cases hvalid : incomingPacketValid packetType = true
    · rw [if_neg (by simpa using hvalid), headerScan_of_valid hvalid]
      cases hscan : lengthScan bytes with
      | whole n width =>
        obtain ⟨hok, hused⟩ := hlength.whole hscan
        rw [Prog.bind_of_ok (Prog.eq_of_fst_ok hok)]
        constructor
        · intro header used h
          cases h
          exact ⟨rfl, u, hrecv, by rwa [← ht]⟩
        · intro h
          cases h
      | short =>
        constructor
        · intro header used h
          cases h
        · intro h
          cases h
      | bad =>
        rw [Prog.bind_of_error (Prod.ext (hlength.bad hscan) rfl)]
        constructor
        · intro header used h
          cases h
        · intro _
          rfl
    · rw [if_pos (by simpa using hvalid), headerScan_of_invalid hvalid]
      constructor
      · intro header used h
        cases h
      · intro _
        rfl

/-- The encoder writes, and every decoder reads, one spelling of each length. -/
theorem lengths_decode_alike (env : Environment W) :
    (∀ n ≤ maxRemainingLength, ∀ destination rest : List UInt8,
      variableLengthEncodedSize n ≤ destination.length →
        encodeVariableLength destination n = (variableLengthEncodedSize n,
            encodedLength n ++ destination.drop (variableLengthEncodedSize n)) ∧
          (encodedLength n).length = variableLengthEncodedSize n ∧
          (∀ packetType, incomingPacketValid packetType = true →
            processIncomingPacketTypeAndLength (packetType :: encodedLength n ++ rest)
                (packetType :: encodedLength n ++ rest).length =
              .ok { packetType
                    remainingLength := n
                    headerLength := variableLengthEncodedSize n + 1 }) ∧
          (∀ (s : Sys W) (last : W), Delivers env (encodedLength n ++ rest) s.world last →
            ∃ t, readRemainingLength env s = (.ok (n, variableLengthEncodedSize n), t) ∧
              Delivers env (encodedLength n) s.world t.world) ∧
          decodeVariableLength (encodedLength n ++ rest) = .ok n) ∧
    ∀ (bytes : List UInt8) (packetType : UInt8) (s : Sys W) (last : W),
      incomingPacketValid packetType = true → Delivers env bytes s.world last → Dry env last →
        (∃ n ≤ maxRemainingLength, encodedLength n <+: bytes ∧
          (∀ m ≤ maxRemainingLength, encodedLength m <+: bytes → m = n) ∧
          processIncomingPacketTypeAndLength (packetType :: bytes) (bytes.length + 1) =
            .ok { packetType
                  remainingLength := n
                  headerLength := variableLengthEncodedSize n + 1 } ∧
          (readRemainingLength env s).1 = .ok (n, variableLengthEncodedSize n) ∧
          decodeVariableLength bytes = .ok n) ∨
        ((∀ n ≤ maxRemainingLength, ¬ encodedLength n <+: bytes) ∧
          (processIncomingPacketTypeAndLength (packetType :: bytes) (bytes.length + 1) =
              .error .needMoreBytes ∨
            processIncomingPacketTypeAndLength (packetType :: bytes) (bytes.length + 1) =
              .error .badResponse) ∧
          (readRemainingLength env s).1 = .error (.error .badResponse) ∧
          decodeVariableLength bytes = .error .badResponse) := by
  have hbuffered (packetType : UInt8) (bytes : List UInt8) :
      processIncomingPacketTypeAndLength (packetType :: bytes) (bytes.length + 1) =
        ((headerScan (packetType :: bytes)).toExcept .needMoreBytes .badResponse).map Prod.fst := by
    rw [processIncomingPacketTypeAndLength_eq, List.take_of_length_le (by simp),
      if_neg (List.cons_ne_nil _ _)]
  constructor
  · intro n hn destination rest hroom
    have hscan := lengthScan_append hn rest
    refine ⟨encodeVariableLength_eq hn hroom, length_encodedLength hn, ?_, ?_, ?_⟩
    · intro packetType hvalid
      rw [List.cons_append, List.length_cons, hbuffered, headerScan_of_valid hvalid, hscan]
      rfl
    · intro s last hbytes
      obtain ⟨hok, hused⟩ := (readRemainingLength_readAs hbytes).whole hscan
      rw [← length_encodedLength hn, List.take_left] at hused
      exact ⟨_, Prog.eq_of_fst_ok hok, hused⟩
    · rw [decodeVariableLength_eq, hscan]
      rfl
  · intro bytes packetType s last hvalid hbytes hdry
    have hread := readRemainingLength_readAs hbytes
    have hnone (h : ∀ n width, lengthScan bytes ≠ .whole n width) :
        ∀ n ≤ maxRemainingLength, ¬ encodedLength n <+: bytes :=
      fun n hn hprefix => h _ _ (lengthScan_eq_whole.mpr ⟨hn, rfl, hprefix⟩)
    rw [hbuffered, headerScan_of_valid hvalid, decodeVariableLength_eq]
    cases hscan : lengthScan bytes with
    | whole n width =>
      obtain ⟨hn, rfl, hprefix⟩ := lengthScan_eq_whole.mp hscan
      refine .inl ⟨n, hn, hprefix, ?_, rfl, (hread.whole hscan).1, rfl⟩
      intro m hm hother
      have hsame := lengthScan_eq_whole.mpr ⟨hm, rfl, hother⟩
      rw [hscan] at hsame
      cases hsame
      rfl
    | short =>
      refine .inr ⟨hnone ?_, .inl rfl, hread.short hscan hdry, rfl⟩
      rw [hscan]
      exact nofun
    | bad =>
      refine .inr ⟨hnone ?_, .inr rfl, hread.bad hscan, rfl⟩
      rw [hscan]
      exact nofun

/-- Over the same bytes the two readers of a fixed header answer alike, and the buffered one
may be asked again whenever more has arrived. -/
theorem header_readers_agree (env : Environment W) :
    (∀ (bytes : List UInt8) (s : Sys W) (last : W), Delivers env bytes s.world last →
      (∀ header, processIncomingPacketTypeAndLength bytes bytes.length = .ok header →
        ∃ t, readHeader env s = (.ok header, t) ∧
          Delivers env (bytes.take header.headerLength) s.world t.world) ∧
      (processIncomingPacketTypeAndLength bytes bytes.length = .error .badResponse →
        (readHeader env s).1 = .error (.error .badResponse))) ∧
    (∀ (buffer other : List UInt8) (k : ℕ), other.take k = buffer.take k →
      processIncomingPacketTypeAndLength other k = processIncomingPacketTypeAndLength buffer k) ∧
    (∀ (buffer : List UInt8) (k : ℕ), buffer.take k ≠ [] →
      (processIncomingPacketTypeAndLength buffer k = .error .needMoreBytes ↔
        (∃ more, ∃ header : PacketHeader, header.WellFormed ∧
          buffer.take k ++ more = header.encoded) ∧
        ¬ ∃ header : PacketHeader, header.WellFormed ∧ header.encoded <+: buffer.take k)) ∧
    ∀ (buffer other : List UInt8) (k j : ℕ), k ≤ j → other.take k = buffer.take k →
      processIncomingPacketTypeAndLength buffer k ≠ .error .needMoreBytes →
      processIncomingPacketTypeAndLength buffer k ≠ .error .noDataAvailable →
        processIncomingPacketTypeAndLength other j =
          processIncomingPacketTypeAndLength buffer k := by
  refine ⟨?_, ?_, ?_, fun _ _ _ _ => processIncomingPacketTypeAndLength_settled⟩
  · intro bytes s last hbytes
    obtain ⟨hwhole, hbad⟩ := readHeader_readAs hbytes
    rw [processIncomingPacketTypeAndLength_eq, List.take_length]
    cases bytes with
    | nil => exact ⟨nofun, nofun⟩
    | cons packetType bytes =>
      rw [if_neg (List.cons_ne_nil _ _)]
      cases hscan : headerScan (packetType :: bytes) with
      | whole found used =>
        refine ⟨?_, nofun⟩
        intro header h
        obtain ⟨hok, hused⟩ := hwhole hscan
        obtain ⟨-, rfl, -⟩ := headerScan_eq_whole.mp hscan
        cases h
        exact ⟨_, Prog.eq_of_fst_ok hok, hused⟩
      | short => exact ⟨nofun, nofun⟩
      | bad => exact ⟨nofun, fun _ => hbad hscan⟩
  · intro buffer other k hsame
    rw [processIncomingPacketTypeAndLength_eq, processIncomingPacketTypeAndLength_eq, hsame]
  · intro buffer k hsome
    rw [processIncomingPacketTypeAndLength_eq_needMoreBytes, headerScan_eq_short]
    exact ⟨fun h => h.2, fun h => ⟨hsome, h⟩⟩

end Client

end RtosMqtt
