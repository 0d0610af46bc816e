import RtosMqtt.Client.Opening

/-! # Loops that wait

Both senders, the reader of a body and the wait for a CONNACK go round until the transport has
done what they ask or a time is over. Each reading of the clock is later than the one before, but
the clock wraps.
-/

namespace RtosMqtt

variable {W α β : Type}

def halfRange : ℕ := 2147483648

/-- The clock advances at each reading, by less than half of what it counts; `Last` is what it
read last, and nothing but a reading changes that. -/
structure Ticks (env : Environment W) (Last : W → UInt32 → Prop) : Prop where
  clock : ∀ {w l}, Last w l → 1 ≤ (elapsedMs (env.nowMs w).1 l).toNat ∧
    (elapsedMs (env.nowMs w).1 l).toNat < halfRange ∧ Last (env.nowMs w).2 (env.nowMs w).1
  recv : ∀ {w l} into, Last w l → Last (env.recv into w).2 l
  send : ∀ {w l} bytes, Last w l → Last (env.send bytes w).2 l
  writev : ∀ {w l} parts, Last w l → Last (env.writev parts w).2 l

/-- The same environment, with another bound on the turns of its loops. -/
def Environment.patient (env : Environment W) (patience : ℕ) : Environment W :=
  { env with patience }

theorem elapsedMs_eq_add (start l now : UInt32) :
    elapsedMs now start = elapsedMs l start + elapsedMs now l := by
  simp only [elapsedMs]
  grind

theorem toNat_elapsedMs {start l now : UInt32}
    (h : (elapsedMs l start).toNat + (elapsedMs now l).toNat < 4294967296) :
    (elapsedMs now start).toNat = (elapsedMs l start).toNat + (elapsedMs now l).toNat := by
  rw [elapsedMs_eq_add start l now, UInt32.toNat_add]
  exact Nat.mod_eq_of_lt h

theorem toNat_elapsedMs_of_le {start l now : UInt32} (hnow : (elapsedMs now l).toNat < halfRange)
    (h : elapsedMs l start ≤ elapsedMs now start) :
    (elapsedMs now start).toNat = (elapsedMs l start).toNat + (elapsedMs now l).toNat := by
  rw [UInt32.le_iff_toNat_le, elapsedMs_eq_add start l now, UInt32.toNat_add] at h
  rw [elapsedMs_eq_add start l now, UInt32.toNat_add]
  rw [halfRange] at hnow
  have hl := (elapsedMs l start).toNat_lt
  omega

namespace Client

variable {env : Environment W} {Last : W → UInt32 → Prop}

variable (env) in
/-- Of the next two readings the second comes round to the start of a send. -/
def ComesRound (start : UInt32) (w : W) : Prop :=
  elapsedMs (env.nowMs (env.nowMs w).2).1 start < elapsedMs (env.nowMs w).1 start

variable (env) in
/-- The transport takes no byte of what it is offered and says so, and the clock comes round. -/
def BufferStalls (buffer : List UInt8) (start : UInt32) (sent : ℕ) (s : Sys W) : Prop :=
  (env.send (buffer.drop sent) s.world).1 = .bytes 0 ∧
    ComesRound env start (env.send (buffer.drop sent) s.world).2

variable (env) in
def VectorsStalls (start : UInt32) (place : ℕ × List (List UInt8)) (s : Sys W) : Prop :=
  (env.writev place.2 s.world).1 = .bytes 0 ∧
    ComesRound env start (env.writev place.2 s.world).2

/-- The bytes to go and the time that is left, in one number. -/
def Waits (Last : W → UInt32 → Prop) (limit total : ℕ) (start : UInt32) (m sent : ℕ) (w : W) :
    Prop :=
  ∃ l, Last w l ∧ (elapsedMs l start).toNat < limit ∧
    m = (total - sent) * (limit + 1) + (limit - (elapsedMs l start).toNat)

variable {limit total m sent sent' : ℕ} {start : UInt32} {w : W}

theorem Waits.later (hticks : Ticks env Last) (h : Waits Last limit total start m sent w)
    (hlimit : limit ≤ halfRange) {v : W} (hlast : ∀ l, Last w l → Last v l)
    (hwaits : (elapsedMs (env.nowMs v).1 start).toNat < limit) :
    ∃ m', Waits Last limit total start m' sent (env.nowMs v).2 ∧ m' < m := by
  obtain ⟨l, hl, helapsed, rfl⟩ := h
  obtain ⟨hpos, hstep, hnow⟩ := hticks.clock (hlast l hl)
  rw [halfRange] at hlimit hstep
  have hsum := @toNat_elapsedMs start l (env.nowMs v).1 (by omega)
  exact ⟨_, ⟨_, hnow, hwaits, rfl⟩, by omega⟩

theorem Waits.twice (hticks : Ticks env Last) (h : Waits Last limit total start m sent w)
    (hlimit : limit ≤ halfRange) {v : W} (hlast : ∀ l, Last w l → Last v l)
    (hwaits : (elapsedMs (env.nowMs (env.nowMs v).2).1 start).toNat < limit) :
    ∃ m', Waits Last limit total start m' sent' (env.nowMs (env.nowMs v).2).2 ∧
      (sent < sent' ∧ sent < total ∨ sent = sent' ∧ ¬ ComesRound env start v → m' < m) := by
  obtain ⟨l, hl, helapsed, rfl⟩ := h
  obtain ⟨hpos, hstep, hnow⟩ := hticks.clock (hlast l hl)
  obtain ⟨hpos', hstep', hnow'⟩ := hticks.clock hnow
  refine ⟨_, ⟨_, hnow', hwaits, rfl⟩, ?_⟩
  rintro (⟨hmore, htotal⟩ | ⟨rfl, hround⟩)
  · have hbytes := Nat.mul_le_mul_right (limit + 1) (show total - sent' + 1 ≤ total - sent by omega)
    rw [Nat.add_mul, Nat.one_mul] at hbytes
    omega
  · have hsum' := toNat_elapsedMs_of_le hstep' (UInt32.not_lt.mp hround)
    rw [halfRange] at hlimit hstep
    have hsum := @toNat_elapsedMs start l (env.nowMs v).1 (by omega)
    omega

theorem bufferTurn_bounded (hticks : Ticks env Last) (buffer : List UInt8) (start : UInt32) :
    Prog.Bounded (bufferTurn env buffer start) (BufferStalls env buffer start)
      fun m sent s => Waits Last sendTimeoutMs.toNat buffer.length start m sent s.world := by
  intro m sent s h
  have hlast {outcome : Sent} {u : Sys W} (hsend : send env (buffer.drop sent) s = (.ok outcome, u))
      (l : UInt32) (hl : Last s.world l) : Last u.world l := by
    rw [of_send hsend]
    exact hticks.send _ hl
  have hturn := bufferTurn_cases env buffer start sent s
  generalize bufferTurn env buffer start sent s = run at hturn ⊢
  cases hturn with
  | whole => exact .inl ⟨_, _, rfl⟩
  | failed => exact .inl ⟨_, _, rfl⟩
  | nothing hlen hsend =>
    split_ifs with hlate
    · exact .inl ⟨_, _, rfl⟩
    obtain ⟨m', hwaits, hless⟩ := h.later hticks (by decide) (hlast hsend)
      (UInt32.lt_iff_toNat_lt.mp (UInt32.not_le.mp hlate))
    exact .inr ⟨sent, _, m', rfl, hwaits, fun _ => hless⟩
  | @bytes u count n hlen hsend hn =>
    split_ifs with hlate
    · exact .inl ⟨_, _, rfl⟩
    obtain ⟨m', hwaits, hless⟩ := @Waits.twice _ _ _ _ _ _ _ n _ _ hticks h (by decide) u.world
      (hlast hsend) (UInt32.lt_iff_toNat_lt.mp (UInt32.not_le.mp hlate))
    refine .inr ⟨n, _, m', rfl, hwaits, fun hstalls => hless ?_⟩
    obtain rfl | hcount := Nat.eq_zero_or_pos count
    · refine .inr ⟨by rw [hn, Nat.zero_min, Nat.add_zero], fun hround => hstalls ?_⟩
      obtain ⟨houtcome, rfl⟩ := Prod.mk.inj hsend
      exact ⟨Except.ok.inj houtcome, hround⟩
    · exact .inl ⟨by omega, by omega⟩

theorem vectorsTurn_bounded (hticks : Ticks env Last) (total : ℕ) (start : UInt32) :
    Prog.Bounded (vectorsTurn env total start) (VectorsStalls env start)
      fun m place s => Waits Last (sendTimeoutMs.toNat + 1) total start m place.1 s.world := by
  intro m place s h
  have hlast {outcome : Sent} {u : Sys W} (hsend : writev env place.2 s = (.ok outcome, u))
      (l : UInt32) (hl : Last s.world l) : Last u.world l := by
    rw [of_writev hsend]
    exact hticks.writev _ hl
  have hintime {now : UInt32} (hlate : ¬ sendTimeoutMs < elapsedMs now start) :
      (elapsedMs now start).toNat < sendTimeoutMs.toNat + 1 :=
    Nat.lt_succ_of_le (UInt32.le_iff_toNat_le.mp (UInt32.not_lt.mp hlate))
  have hturn := vectorsTurn_cases env total start place s
  generalize vectorsTurn env total start place s = run at hturn ⊢
  cases hturn with
  | whole => exact .inl ⟨_, _, rfl⟩
  | failed => exact .inl ⟨_, _, rfl⟩
  | nothing hlen hsend =>
    split_ifs with hlate
    · exact .inl ⟨_, _, rfl⟩
    obtain ⟨m', hwaits, hless⟩ := h.later hticks (by decide) (hlast hsend) (hintime hlate)
    exact .inr ⟨_, _, m', rfl, hwaits, fun _ => hless⟩
  | @bytes u count taken hmore hsend htaken =>
    split_ifs with hlate
    · exact .inl ⟨_, _, rfl⟩
    obtain ⟨m', hwaits, hless⟩ := @Waits.twice _ _ _ _ _ _ _ (place.1 + taken) _ _ hticks h
      (by decide) u.world (hlast hsend) (hintime hlate)
    refine .inr ⟨_, _, m', rfl, hwaits, fun hstalls => hless ?_⟩
    obtain rfl | hcount := Nat.eq_zero_or_pos count
    · refine .inr ⟨by rw [htaken, Nat.zero_min, Nat.add_zero], fun hround => hstalls ?_⟩
      obtain ⟨houtcome, rfl⟩ := Prod.mk.inj hsend
      exact ⟨Except.ok.inj houtcome, hround⟩
    · exact .inl ⟨by omega, by omega⟩
  | last => exact .inl ⟨_, _, rfl⟩

theorem waits_start (hticks : Ticks env Last) {l : UInt32} (hlast : Last w l) (hlimit : 0 < limit)
    (total sent : ℕ) : Waits Last limit total (env.nowMs w).1
      ((total - sent) * (limit + 1) + limit) sent (env.nowMs w).2 := by
  obtain ⟨-, -, hnow⟩ := hticks.clock hlast
  have hzero : (elapsedMs (env.nowMs w).1 (env.nowMs w).1).toNat = 0 := by
    rw [elapsedMs, UInt32.sub_self]
    rfl
  exact ⟨_, hnow, hzero ▸ hlimit, by rw [hzero, Nat.sub_zero]⟩

theorem sendBuffer_finishes_iff (hticks : Ticks env Last) (buffer : List UInt8) {s : Sys W}
    {l : UInt32} (hlast : Last s.world l) :
    (∃ patience, (sendBuffer (env.patient patience) buffer).Finishes s) ↔
      Prog.Calm (bufferTurn env buffer (env.nowMs s.world).1)
        (BufferStalls env buffer (env.nowMs s.world).1) 0 (nowMs env s).2 := by
  have hstart : 0 < sendTimeoutMs.toNat := by decide
  have hm := waits_start hticks hlast hstart buffer.length 0
  refine Iff.trans (exists_congr fun patience => ?_)
    (Prog.finishes_iff_calm .blocked (bufferTurn_bounded hticks buffer _) (s := (nowMs env s).2) hm)
  rw [sendBuffer, Prog.finishes_bind_of_ok (rfl : nowMs (env.patient patience) s = _)]
  rfl

theorem sendVectors_finishes_iff (hticks : Ticks env Last) (vectors : List (List UInt8))
    {s : Sys W} {l : UInt32} (hlast : Last s.world l) :
    (∃ patience, (sendVectors (env.patient patience) vectors).Finishes s) ↔
      Prog.Calm (vectorsTurn env vectors.flatten.length (env.nowMs s.world).1)
        (VectorsStalls env (env.nowMs s.world).1) (0, vectors) (nowMs env s).2 := by
  have hstart : 0 < sendTimeoutMs.toNat + 1 := Nat.succ_pos _
  have hm := waits_start hticks hlast hstart vectors.flatten.length 0
  refine Iff.trans (exists_congr fun patience => ?_)
    (Prog.finishes_iff_calm .blocked (vectorsTurn_bounded hticks _ _) (k := (0, vectors))
      (s := (nowMs env s).2) hm)
  rw [sendVectors, Prog.finishes_bind_of_ok (rfl : nowMs (env.patient patience) s = _)]
  rfl

variable (env) in
/-- What the reader of a body does with an answer of the transport. -/
def recvAnswered (wanted total : ℕ) (lastData : UInt32)
    (next : ℕ → UInt32 → Client W ReadOutcome) : Recv → Client W ReadOutcome
  | .failed => do
    connectionLost
    pure .failed
  | .nothing => do
    let now ← nowMs env
    if recvPollingTimeoutMs ≤ elapsedMs now lastData then pure (.bytes total)
    else next total lastData
  | .bytes count => do
    let now ← nowMs env
    if count = 0 then
      if recvPollingTimeoutMs ≤ elapsedMs now lastData then pure (.bytes total)
      else next total lastData
    else next (total + min count (wanted - total)) now

theorem recvExactFrom_cases {wanted total : ℕ} {lastData : UInt32} (s : Sys W) :
    (∃ outcome, ∀ turns,
        recvExactFrom env wanted (turns + 1) total lastData s = (.ok outcome, s)) ∨
      total < wanted ∧ ∃ into t, into.length = wanted - total ∧
        t.world = (env.recv into s.world).2 ∧ ∀ turns,
          recvExactFrom env wanted (turns + 1) total lastData s =
            recvAnswered env wanted total lastData (recvExactFrom env wanted turns)
              (env.recv into s.world).1.1 t := by
  by_cases hdone : wanted ≤ total
  · refine .inl ⟨.bytes total, fun turns => ?_⟩
    rw [recvExactFrom, if_pos hdone]
    rfl
  cases hslice : slice? s.context.network total wanted with
  | none =>
    refine .inl ⟨.failed, fun turns => ?_⟩
    rw [recvExactFrom, if_neg hdone, Prog.bind_of_ok (context_apply s), hslice]
    rfl
  | some into =>
    refine .inr ⟨Nat.not_le.mp hdone, into, { (recv env into s).2 with
      context := { s.context with
        network := s.context.network.take total ++ overlay (env.recv into s.world).1.2 into ++
          s.context.network.drop wanted } }, length_of_slice? hslice, rfl, fun turns => ?_⟩
    rw [recvExactFrom, if_neg hdone, Prog.bind_of_ok (context_apply s), hslice]
    rfl

/-- The body is read, or given up. -/
theorem recvExactFrom_finishes (hticks : Ticks env Last) {wanted m total : ℕ} {lastData : UInt32}
    {s : Sys W} (h : Waits Last recvPollingTimeoutMs.toNat wanted lastData m total s.world) :
    ∃ turns, (recvExactFrom env wanted turns total lastData).Finishes s := by
  induction m using Nat.strongRecOn generalizing total lastData s with
  | ind m ih =>
    obtain ⟨outcome, hends⟩ | ⟨hmore, into, t, -, ht, hstep⟩ :=
      @recvExactFrom_cases _ env wanted total lastData s
    · exact ⟨1, outcome, s, hends 0⟩
    have hlast : ∀ l, Last s.world l → Last t.world l := fun l hl => ht ▸ hticks.recv into hl
    have hempty (hread : ∀ next, recvAnswered env wanted total lastData next
        (env.recv into s.world).1.1 t =
          (if recvPollingTimeoutMs ≤ elapsedMs (env.nowMs t.world).1 lastData then pure (.bytes total)
            else next total lastData) (nowMs env t).2) :
        ∃ turns, (recvExactFrom env wanted turns total lastData).Finishes s := by
      by_cases hlate : recvPollingTimeoutMs ≤ elapsedMs (env.nowMs t.world).1 lastData
      · refine ⟨1, .bytes total, (nowMs env t).2, (hstep 0).trans ?_⟩
        rw [hread, if_pos hlate]
        rfl
      · obtain ⟨m', hwaits, hless⟩ := h.later hticks (by decide) hlast
          (UInt32.lt_iff_toNat_lt.mp (UInt32.not_le.mp hlate))
        obtain ⟨turns, r, u, hrest⟩ := @ih m' hless total lastData (nowMs env t).2 hwaits
        refine ⟨turns + 1, r, u, (hstep turns).trans ?_⟩
        rw [hread, if_neg hlate, hrest]
    cases houtcome : (env.recv into s.world).1.1 with
    | failed =>
      refine ⟨1, .failed, (connectionLost t).2, (hstep 0).trans ?_⟩
      rw [houtcome]
      rfl
    | nothing =>
      apply hempty
      intro next
      rw [houtcome]
      rfl
    | bytes count =>
      by_cases hzero : count = 0
      · apply hempty
        intro next
        rw [houtcome, hzero]
        rfl
      · obtain ⟨l, hl, helapsed, rfl⟩ := h
        have hpoll : 0 < recvPollingTimeoutMs.toNat := by decide
        have hwaits := waits_start hticks (hlast l hl) hpoll wanted
          (total + min count (wanted - total))
        have hbytes := Nat.mul_le_mul_right (recvPollingTimeoutMs.toNat + 1)
          (show wanted - (total + min count (wanted - total)) + 1 ≤ wanted - total by omega)
        rw [Nat.add_mul, Nat.one_mul] at hbytes
        obtain ⟨turns, r, u, hrest⟩ := @ih _ (by omega) _ _ (nowMs env t).2 hwaits
        refine ⟨turns + 1, r, u, (hstep turns).trans ?_⟩
        rw [houtcome, recvAnswered, Prog.bind_of_ok (nowMs_apply env t), if_neg hzero]
        exact hrest

theorem recvExactFrom_patient (patience wanted turns total : ℕ) (lastData : UInt32) :
    recvExactFrom (env.patient patience) wanted turns total lastData =
      recvExactFrom env wanted turns total lastData := by
  induction turns generalizing total lastData with
  | zero => rfl
  | succ turns ih =>
    simp only [recvExactFrom, ih]
    rfl

theorem recvExact_finishes (hticks : Ticks env Last) (wanted : ℕ) {s : Sys W} {l : UInt32}
    (hlast : Last s.world l) :
    ∃ patience, (recvExact (env.patient patience) wanted).Finishes s := by
  have hpoll : 0 < recvPollingTimeoutMs.toNat := by decide
  obtain ⟨turns, hfinishes⟩ := @recvExactFrom_finishes _ _ _ hticks wanted _ 0 _ (nowMs env s).2
    (waits_start hticks hlast hpoll wanted 0)
  refine ⟨turns, ?_⟩
  rw [recvExact, Prog.finishes_bind_of_ok (rfl : nowMs (env.patient turns) s = _),
    recvExactFrom_patient]
  exact hfinishes

def Returns (p : Client W α) : Prop := ∀ s, (p s).1 ≠ .error .blocked

theorem returns_pure (a : α) : Returns (pure a : Client W α) := fun _ => nofun

theorem returns_fail (e : ClientError) : Returns (fail e : Client W α) := by
  intro s h
  cases h

theorem Returns.bind {p : Client W α} {f : α → Client W β} (hp : Returns p)
    (hf : ∀ a, Returns (f a)) : Returns (p >>= f) := by
  intro s
  rcases hrun : p s with ⟨e | a, t⟩
  · rw [Prog.bind_of_error hrun]
    have hs := hp s
    rw [hrun] at hs
    exact fun h => hs (congrArg Except.error (Except.error.inj h))
  · rw [Prog.bind_of_ok hrun]
    exact hf a t

theorem Returns.ite {c : Prop} [Decidable c] {p q : Client W α} (hp : Returns p) (hq : Returns q) :
    Returns (if c then p else q) := by
  split_ifs
  · exact hp
  · exact hq

theorem returns_refuse (c : Prop) [Decidable c] (e : ClientError) :
    Returns (refuse c e : Client W Unit) := by
  intro s
  rw [refuse, Prog.refuse_apply]
  split_ifs <;> simp

theorem recvOne_returns (nothing failed : ClientError) : Returns (recvOne env nothing failed) := by
  refine Returns.bind (fun _ => nofun) fun answer => ?_
  obtain ⟨outcome, byte⟩ := answer
  cases outcome with
  | failed => exact returns_fail _
  | nothing => exact returns_fail _
  | bytes count =>
    apply Returns.ite (returns_fail _)
    cases byte with
    | nil => exact returns_fail _
    | cons b byte => exact returns_pure b

theorem decodeFrom_returns {arith : Arithmetic} {next : ℕ → Client W UInt8} {outOfRange : ℕ → Bool}
    {bad : Client W (ℕ × ℕ)} (hnext : ∀ n, Returns (next n)) (hbad : Returns bad)
    (turns value multiplier decoded : ℕ) :
    Returns (decodeFrom arith next outOfRange bad turns value multiplier decoded) := by
  induction turns generalizing value multiplier decoded with
  | zero => exact hbad
  | succ turns ih =>
    exact .ite hbad ((hnext _).bind fun _ => .ite hbad (.ite (returns_pure _) (ih _ _ _)))

theorem readHeader_returns : Returns (readHeader env) :=
  (recvOne_returns _ _).bind fun _ => (returns_refuse _ _).bind fun _ =>
    Returns.bind ((decodeFrom_returns (fun _ => recvOne_returns _ _) (returns_fail _) _ _ _ _).bind
      fun _ => (returns_refuse _ _).bind fun _ => (returns_refuse _ _).bind fun _ =>
        returns_pure _) fun _ => returns_pure _

def Untimed (Last : W → UInt32 → Prop) (s t : Sys W) : Prop := ∀ l, Last s.world l → Last t.world l

instance : IsPreorder (Sys W) (Untimed Last) where
  refl _ _ h := h
  trans _ _ _ hst htu l h := htu l (hst l h)

theorem attempt_readHeader (hticks : Ticks env Last) (s : Sys W) :
    ∃ header t, attempt (readHeader env) s = (.ok header, t) ∧ Untimed Last s t := by
  have hmoves : (attempt (readHeader env)).Moves (Untimed Last) :=
    attempt_moves (readHeader_moves fun into s l hl => hticks.recv into hl)
  rcases hrun : attempt (readHeader env) s with ⟨stop | header, t⟩
  · obtain rfl := attempt_eq_error hrun
    rcases hread : readHeader env s with ⟨(e | _) | _, u⟩
    · rw [attempt, hread] at hrun
      cases hrun
    · exact absurd (congrArg Prod.fst hread) (readHeader_returns s)
    · rw [attempt, hread] at hrun
      cases hrun
  · refine ⟨header, t, rfl, ?_⟩
    have hs := hmoves s
    rwa [hrun] at hs

def connackHeader (env : Environment W) (timeoutMs : UInt32) :
    Client W (Except ClientError PacketHeader) := do
  let entry ← nowMs env
  readConnackHeader env entry timeoutMs env.patience 0

theorem readConnackHeader_patient (patience : ℕ) (entry timeoutMs : UInt32)
    (turns loopCount : ℕ) :
    readConnackHeader (env.patient patience) entry timeoutMs turns loopCount =
      readConnackHeader env entry timeoutMs turns loopCount := by
  induction turns generalizing loopCount with
  | zero => rfl
  | succ turns ih =>
    simp only [readConnackHeader, ih]
    rfl

/-- What the wait does with a header, or with the error there was instead. -/
def headerAnswered (giveUp : Bool) (next : Client W (Except ClientError PacketHeader)) :
    Except ClientError PacketHeader → Client W (Except ClientError PacketHeader)
  | .error .noDataAvailable => if giveUp then pure (.error .noDataAvailable) else next
  | header => pure header

theorem headerAnswered_finishes {giveUp : Bool}
    {next : Client W (Except ClientError PacketHeader)} (header : Except ClientError PacketHeader)
    {s : Sys W} (h : giveUp = false → next.Finishes s) :
    (headerAnswered giveUp next header).Finishes s := by
  cases header with
  | ok header => exact Prog.finishes_pure _
  | error e =>
    cases e with
    | noDataAvailable =>
      cases giveUp with
      | true => exact Prog.finishes_pure _
      | false => exact h rfl
    | _ => exact Prog.finishes_pure _

section Header

variable {entry timeoutMs : UInt32} {s t : Sys W} {header : Except ClientError PacketHeader}

theorem readConnackHeader_of_timeout (htimeout : 0 < timeoutMs)
    (hattempt : attempt (readHeader env) s = (.ok header, t)) (turns loopCount : ℕ) :
    readConnackHeader env entry timeoutMs (turns + 1) loopCount s =
      headerAnswered (decide (timeoutMs ≤ elapsedMs (env.nowMs t.world).1 entry))
        (readConnackHeader env entry timeoutMs turns (loopCount + 1)) header (nowMs env t).2 := by
  rw [readConnackHeader, Prog.bind_of_ok hattempt, if_pos htimeout]
  rfl

theorem readConnackHeader_of_retries (hattempt : attempt (readHeader env) s = (.ok header, t))
    (turns loopCount : ℕ) :
    readConnackHeader env entry 0 (turns + 1) loopCount s =
      headerAnswered (decide (maxConnackReceiveRetryCount ≤ loopCount))
        (readConnackHeader env entry 0 turns (loopCount + 1)) header t := by
  rw [readConnackHeader, Prog.bind_of_ok hattempt, if_neg (UInt32.lt_irrefl 0)]
  rfl

theorem readConnackHeader_finishes (hticks : Ticks env Last) (htimeout : 0 < timeoutMs)
    (hlimit : timeoutMs.toNat ≤ halfRange) {m loopCount : ℕ}
    (h : Waits Last timeoutMs.toNat 0 entry m 0 s.world) :
    ∃ turns, (readConnackHeader env entry timeoutMs turns loopCount).Finishes s := by
  induction m using Nat.strongRecOn generalizing loopCount s with
  | ind m ih =>
    obtain ⟨header, t, hattempt, huntimed⟩ := attempt_readHeader hticks s
    have hstep := @readConnackHeader_of_timeout _ env entry _ _ _ _ htimeout hattempt
    by_cases hlate : timeoutMs ≤ elapsedMs (env.nowMs t.world).1 entry
    · refine ⟨1, ?_⟩
      rw [Prog.Finishes, hstep]
      exact headerAnswered_finishes header fun h => absurd hlate (of_decide_eq_false h)
    · obtain ⟨m', hwaits, hless⟩ := h.later hticks hlimit huntimed
        (UInt32.lt_iff_toNat_lt.mp (UInt32.not_le.mp hlate))
      obtain ⟨turns, hrest⟩ := @ih m' hless (nowMs env t).2 (loopCount + 1) hwaits
      refine ⟨turns + 1, ?_⟩
      rw [Prog.Finishes, hstep]
      exact headerAnswered_finishes header fun _ => hrest

theorem readConnackHeader_zero_finishes (hticks : Ticks env Last) (left : ℕ) {loopCount : ℕ}
    (h : maxConnackReceiveRetryCount ≤ loopCount + left) (s : Sys W) :
    (readConnackHeader env entry 0 (left + 1) loopCount).Finishes s := by
  obtain ⟨header, t, hattempt, -⟩ := attempt_readHeader hticks s
  induction left generalizing loopCount s t header with
  | zero =>
    rw [Prog.Finishes, readConnackHeader_of_retries hattempt]
    exact headerAnswered_finishes header fun hgo => absurd h (of_decide_eq_false hgo)
  | succ left ih =>
    rw [Prog.Finishes, readConnackHeader_of_retries hattempt]
    apply headerAnswered_finishes
    intro _
    obtain ⟨header', u, hattempt', -⟩ := attempt_readHeader hticks t
    exact ih (by omega) t header' u hattempt'

end Header

theorem connackHeader_finishes (hticks : Ticks env Last) {timeoutMs : UInt32}
    (hlimit : timeoutMs.toNat ≤ halfRange) {s : Sys W} {l : UInt32} (hlast : Last s.world l) :
    ∃ patience, (connackHeader (env.patient patience) timeoutMs).Finishes s := by
  have hstart (patience : ℕ) : (connackHeader (env.patient patience) timeoutMs).Finishes s ↔
      (readConnackHeader env (env.nowMs s.world).1 timeoutMs patience 0).Finishes
        (nowMs env s).2 := by
    rw [connackHeader, Prog.finishes_bind_of_ok (rfl : nowMs (env.patient patience) s = _),
      readConnackHeader_patient]
    rfl
  by_cases htimeout : 0 < timeoutMs
  · obtain ⟨turns, hfinishes⟩ := @readConnackHeader_finishes _ _ _ _ _ (nowMs env s).2 hticks
      htimeout hlimit _ 0 (waits_start hticks hlast (UInt32.lt_iff_toNat_lt.mp htimeout) 0 0)
    exact ⟨turns, (hstart turns).mpr hfinishes⟩
  · obtain rfl : timeoutMs = 0 := UInt32.le_zero_iff.mp (UInt32.not_lt.mp htimeout)
    exact ⟨_, (hstart _).mpr (readConnackHeader_zero_finishes hticks maxConnackReceiveRetryCount
      (Nat.le_add_left _ _) _)⟩

/-- What waits comes to an end: a buffer and vectors that are sent, a body that is read, and a
header that is waited for. -/
structure WaitsEnd (env : Environment W) (buffer : List UInt8) (vectors : List (List UInt8))
    (wanted : ℕ) (timeoutMs : UInt32) (s : Sys W) : Prop where
  sendBuffer : ∃ patience, (Client.sendBuffer (env.patient patience) buffer).Finishes s
  sendVectors : ∃ patience, (Client.sendVectors (env.patient patience) vectors).Finishes s
  recvExact : ∃ patience, (Client.recvExact (env.patient patience) wanted).Finishes s
  connackHeader : ∃ patience, (Client.connackHeader (env.patient patience) timeoutMs).Finishes s

end Client

open Client

/-- Every wait ends, exactly when in neither sender the transport goes on for ever to say that it
took no bytes, while the clock comes round between the two readings behind that. -/
theorem waits_end_iff {env : Environment W} {Last : W → UInt32 → Prop} (hticks : Ticks env Last)
    (buffer : List UInt8) (vectors : List (List UInt8)) (wanted : ℕ) {timeoutMs : UInt32}
    (htimeout : timeoutMs.toNat ≤ halfRange) {s : Sys W} {l : UInt32} (hlast : Last s.world l) :
    WaitsEnd env buffer vectors wanted timeoutMs s ↔
      Prog.Calm (bufferTurn env buffer (env.nowMs s.world).1)
        (BufferStalls env buffer (env.nowMs s.world).1) 0 (nowMs env s).2 ∧
      Prog.Calm (vectorsTurn env vectors.flatten.length (env.nowMs s.world).1)
        (VectorsStalls env (env.nowMs s.world).1) (0, vectors) (nowMs env s).2 := by
  rw [← sendBuffer_finishes_iff hticks buffer hlast, ← sendVectors_finishes_iff hticks vectors hlast]
  constructor
  · rintro ⟨hbuffer, hvectors, -, -⟩
    exact ⟨hbuffer, hvectors⟩
  · rintro ⟨hbuffer, hvectors⟩
    exact ⟨hbuffer, hvectors, recvExact_finishes hticks wanted hlast,
      connackHeader_finishes hticks htimeout hlast⟩

/-- A transport with one answer, and a clock that its last reading sets. -/
def oneAnswer (answer : Sent) (advance : UInt32 → UInt32) : Environment UInt32 where
  recv _ w := ((.nothing, []), w)
  send _ w := (answer, w)
  writev _ w := (answer, w)
  nowMs w := (advance w, advance w)
  storing := false
  store _ _ w := (true, w)
  retrieve _ w := (none, w)
  clear _ w := w
  onEvent _ _ w := (([], true), w)
  patience := 0

theorem oneAnswer_ticks {answer : Sent} {advance : UInt32 → UInt32}
    (h : ∀ l, 1 ≤ (elapsedMs (advance l) l).toNat ∧ (elapsedMs (advance l) l).toNat < halfRange) :
    Ticks (oneAnswer answer advance) Eq where
  clock := by
    rintro w _ rfl
    exact ⟨(h w).1, (h w).2, rfl⟩
  recv _ hl := hl
  send _ hl := hl
  writev _ hl := hl

/-- Next to a transport that never takes a byte, and a clock of a millisecond a reading. -/
theorem waits_end_of_nothing :
    WaitsEnd (oneAnswer .nothing (· + 1)) [0xC0, 0x00] [[1]] 3 0
      { context := .new [0, 0, 0, 0], world := 0xFFFFFFFF } := by
  have hticks : Ticks (oneAnswer .nothing (· + 1)) Eq := by
    apply oneAnswer_ticks
    intro l
    have hone : elapsedMs (l + 1) l = 1 := by
      rw [elapsedMs]
      grind
    rw [hone]
    decide
  refine (waits_end_iff hticks [0xC0, 0x00] [[1]] 3 (by decide) rfl).mpr ⟨⟨0, ?_⟩, ⟨0, ?_⟩⟩
  · rintro m - k t - ⟨hanswer, -⟩
    cases hanswer
  · rintro m - k t - ⟨hanswer, -⟩
    cases hanswer

/-- Twice a millisecond and twice as much as it may. -/
def advanceRound (w : UInt32) : UInt32 := if w < 2 then w + 1 else w + 2147483647

/-- A transport that says for ever that it took no byte, while the clock comes round, keeps the
sender of a buffer from its end. -/
theorem sender_waits_for_ever :
    ¬ ∀ (W : Type) (env : Environment W) (Last : W → UInt32 → Prop), Ticks env Last →
      ∀ (buffer : List UInt8) (vectors : List (List UInt8)) (wanted : ℕ) (timeoutMs : UInt32),
        timeoutMs.toNat ≤ halfRange → ∀ (s : Sys W) (l : UInt32), Last s.world l →
          WaitsEnd env buffer vectors wanted timeoutMs s := by
  intro h
  have hticks : Ticks (oneAnswer (.bytes 0) advanceRound) Eq := by
    apply oneAnswer_ticks
    intro l
    have hadd (d : UInt32) : elapsedMs (l + d) l = d := by
      rw [elapsedMs]
      grind
    unfold advanceRound
    split_ifs
    · rw [hadd]
      decide
    · rw [hadd]
      decide
  obtain ⟨patience, hfinishes⟩ := (h UInt32 _ Eq hticks [0xC0, 0x00] [] 0 0 (by decide)
    { context := .new [], world := 2147483649 } _ rfl).sendBuffer
  rw [sendBuffer, Prog.finishes_bind_of_ok (nowMs_apply _ _)] at hfinishes
  have hturn (t : Sys UInt32) :
      ∃ u, bufferTurn ((oneAnswer (.bytes 0) advanceRound).patient patience) [0xC0, 0x00] 0 0 t =
          (.ok (if sendTimeoutMs ≤ elapsedMs (advanceRound (advanceRound t.world)) 0 then
            .inr (.sent 0) else .inl 0), u) ∧
        u.world = advanceRound (advanceRound t.world) := ⟨_, rfl, rfl⟩
  refine Prog.not_finishes_of_next (I := fun sent t => sent = 0 ∧ (t.world = 0 ∨ t.world = 2)) ?_
    ⟨rfl, .inl rfl⟩ patience hfinishes
  rintro _ t ⟨rfl, ht⟩
  obtain ⟨u, hu, hworld⟩ := hturn t
  obtain ht | ht := ht
  · rw [ht] at hu hworld
    exact ⟨0, u, hu, rfl, .inr hworld⟩
  · rw [ht] at hu hworld
    exact ⟨0, u, hu, rfl, .inl hworld⟩

end RtosMqtt
