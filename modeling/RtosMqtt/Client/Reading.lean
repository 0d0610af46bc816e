import RtosMqtt.Client.Header
import RtosMqtt.Client.Unsent

/-! # Reading the CONNACK

The transport hands over one stream, in whatever pieces it likes. The header is read a byte at a
time and the body into the front of the buffer, and neither takes a byte that is not its own:
how the body is cut, and how often the transport had nothing, makes no difference.
-/

namespace RtosMqtt

/-- What the reader of a body hears: the last reading of the clock that did not come behind an
empty read, whether the last read was empty, and whether the silence was once too long. -/
structure Hearing where
  last : UInt32 := 0
  empty : Bool := false
  late : Bool := false

namespace Hearing

def note (h : Hearing) : Observation → Hearing
  | .received _ outcome => { h with empty := outcome = .nothing ∨ outcome = .bytes 0 }
  | .clock now =>
    if h.empty then { h with late := h.late || decide (recvPollingTimeoutMs ≤ elapsedMs now h.last) }
    else { h with last := now }
  | _ => h

def notes (h : Hearing) (log : List Observation) : Hearing := log.foldl note h

theorem notes_append (h : Hearing) (log log' : List Observation) :
    h.notes (log ++ log') = (h.notes log).notes log' := List.foldl_append

theorem late_notes {h : Hearing} {log : List Observation} (hlate : (h.notes log).late = false) :
    h.late = false := by
  induction log generalizing h with
  | nil => exact hlate
  | cons o log ih =>
    have hone : (h.note o).late = false := ih hlate
    cases o with
    | clock now =>
      unfold note at hone
      split_ifs at hone with hempty
      · exact (Bool.or_eq_false_iff.mp hone).1
      · exact hone
    | _ => exact hone

end Hearing

variable {W α : Type}

/-- What was heard from one state to a later one. -/
def Hears (h : Hearing) (s : Sys W) (h' : Hearing) (t : Sys W) : Prop :=
  ∃ log, t.log = s.log ++ log ∧ h' = h.notes log

def Punctual (s t : Sys W) : Prop := ∀ h, Hears {} s h t → h.late = false

section Hears

variable {h h' h'' : Hearing} {s t u : Sys W}

theorem hears_of_log {log : List Observation} (ht : t.log = s.log ++ log) :
    Hears h s (h.notes log) t := ⟨log, ht, rfl⟩

theorem hears_self : Hears h s h s := ⟨[], (List.append_nil _).symm, rfl⟩

theorem hears_of_grows (hgrows : Grows s t) : ∃ h', Hears h s h' t := by
  obtain ⟨log, ht, -⟩ := hgrows
  exact ⟨_, hears_of_log ht⟩

theorem Hears.trans (hst : Hears h s h' t) (htu : Hears h' t h'' u) : Hears h s h'' u := by
  obtain ⟨log, ht, rfl⟩ := hst
  obtain ⟨log', hu, rfl⟩ := htu
  refine ⟨log ++ log', ?_, (h.notes_append log log').symm⟩
  rw [hu, ht, List.append_assoc]

theorem Hears.late (hst : Hears h s h' t) (hlate : h'.late = false) : h.late = false := by
  obtain ⟨log, -, rfl⟩ := hst
  exact Hearing.late_notes hlate

end Hears

/-- The packet is a CONNACK, and the buffer holds its body. -/
def MqttContext.Takes (c : MqttContext) (header : PacketHeader) : Prop :=
  header.packetType = Packet.connack ∧ header.remainingLength ≤ c.network.length

/-- What the client makes of the packet it asks for. -/
def MqttContext.acknowledgedBy (c : MqttContext) (header : PacketHeader) (body : List UInt8) :
    Except ClientError ConnAck := do
  refuseIf (header.packetType ≠ Packet.connack) .badResponse
  refuseIf (c.network.length < header.remainingLength) .recvFailed
  (deserializeConnack
    { packetType := header.packetType
      remainingLength := header.remainingLength
      remainingData := body }
    { maxPacketSize := c.properties.client.maxPacketSize
      requestResponseInfo := c.properties.client.requestResponseInfo }).mapError .ofParse

/-- The transport hands over a stream, as much as it likes of it at a time. It has a byte of the
stream whenever it is asked for one, until only `late` bytes are left. -/
structure Feeds (env : Environment W) (pending : W → List UInt8) (late : ℕ) : Prop where
  bytes : ∀ {into w count data w'}, env.recv into w = ((.bytes count, data), w') →
    min count into.length ≤ (pending w).length ∧
      data.take (min count into.length) = (pending w).take (min count into.length) ∧
        pending w' = (pending w).drop (min count into.length)
  nothing : ∀ {into w data w'}, env.recv into w = ((.nothing, data), w') → pending w' = pending w
  failed : ∀ {into w data w'}, env.recv into w = ((.failed, data), w') → pending w = []
  prompt : ∀ {w}, late < (pending w).length → ∃ b w', env.recv [0] w = ((.bytes 1, [b]), w')
  clock : ∀ w, pending (env.nowMs w).2 = pending w
  send : ∀ bytes w, pending (env.send bytes w).2 = pending w
  writev : ∀ parts w, pending (env.writev parts w).2 = pending w
  store : ∀ key parts w, pending (env.store key parts w).2 = pending w
  retrieve : ∀ key w, pending (env.retrieve key w).2 = pending w
  clear : ∀ key w, pending (env.clear key w) = pending w

theorem take_overlay {data into : List UInt8} {n : ℕ} (hdata : n ≤ data.length)
    (hinto : n ≤ into.length) : (Client.overlay data into).take n = data.take n := by
  rw [Client.overlay, List.take_take, Nat.min_eq_left hinto, List.take_append_of_le_length hdata]

theorem length_overlay (data into : List UInt8) :
    (Client.overlay data into).length = into.length := by
  simp [Client.overlay]
  omega

namespace Client

variable {env : Environment W} {pending : W → List UInt8} {late : ℕ}

/-- The buffer of a context, while the front of it is read off a stream. -/
structure Filled (pending : W → List UInt8) (before : Sys W) (wanted total : ℕ) (s : Sys W) :
    Prop where
  le : total ≤ wanted
  context : ∃ middle, middle.length = wanted - total ∧ s.context = { before.context with
    network := (pending before.world).take total ++ middle ++ before.context.network.drop wanted }
  pending : pending s.world = (pending before.world).drop total
  present : s.sessionPresent = before.sessionPresent

variable {before : Sys W} {wanted total : ℕ} {s t : Sys W}

/-- The bytes that were read go behind those that are there. -/
theorem Filled.read (hs : Filled pending before wanted total s)
    (hstream : wanted ≤ (pending before.world).length) {into data : List UInt8} {n : ℕ} {w : W}
    (hinto : slice? s.context.network total wanted = some into) (hn : n ≤ into.length)
    (hdata : data.take n = (pending s.world).take n) (hw : pending w = (pending s.world).drop n)
    (log : List Observation) :
    Filled pending before wanted (total + n) { s with
      context := { s.context with
        network := s.context.network.take total ++ overlay data into ++
          s.context.network.drop wanted }
      world := w
      log := log } := by
  obtain ⟨hle, ⟨middle, hmiddle, hcontext⟩, hpending, hpresent⟩ := hs
  have hfront : ((pending before.world).take total).length = total := by
    rw [List.length_take]
    omega
  have hnetwork : s.context.network =
      (pending before.world).take total ++ (middle ++ before.context.network.drop wanted) := by
    rw [hcontext, List.append_assoc]
  have hlength : into.length = wanted - total := length_of_slice? hinto
  have htaken : (pending s.world).take n = (overlay data into).take n := by
    rw [take_overlay _ hn, hdata]
    have hshort := congrArg List.length hdata
    rw [List.length_take, List.length_take, hpending, List.length_drop] at hshort
    omega
  constructor
  · omega
  · refine ⟨(overlay data into).drop n, ?_, ?_⟩
    · rw [List.length_drop, length_overlay]
      omega
    · have htail : s.context.network.drop wanted = before.context.network.drop wanted := by
        rw [hnetwork, ← List.append_assoc, List.drop_left']
        rw [List.length_append, hfront]
        omega
      have hhead : s.context.network.take total = (pending before.world).take total := by
        rw [hnetwork, List.take_left' hfront]
      dsimp only
      rw [hhead, htail, hcontext, List.take_add, ← hpending, htaken]
      simp
  · rw [hw, hpending, List.drop_drop]
  · exact hpresent

theorem Filled.slice (hs : Filled pending before wanted total s)
    (hroom : wanted ≤ before.context.network.length)
    (hstream : wanted ≤ (pending before.world).length) :
    ∃ into, slice? s.context.network total wanted = some into := by
  obtain ⟨hle, ⟨middle, hmiddle, hcontext⟩, -, -⟩ := hs
  have hlength : s.context.network.length = before.context.network.length := by
    rw [hcontext]
    simp only [List.length_append, List.length_take, List.length_drop]
    omega
  exact ⟨_, if_pos ⟨hle, by rwa [hlength]⟩⟩

/-- A body is read whole, and nothing behind it, unless a silence was too long. -/
theorem recvExactFrom_filled (hfeeds : Feeds env pending late)
    (hroom : wanted ≤ before.context.network.length)
    (hstream : wanted ≤ (pending before.world).length) {h₀ h : Hearing} {turns : ℕ}
    {lastData : UInt32} {r : Except Stop ReadOutcome}
    (hs : Filled pending before wanted total s) (hh : Hears h₀ before h s) (hlast : h.last = lastData)
    (hrun : recvExactFrom env wanted turns total lastData s = (r, t)) (hr : r ≠ .error .blocked) :
    ∃ h', Hears h₀ before h' t ∧
      (h'.late = false → r = .ok (.bytes wanted) ∧ Filled pending before wanted wanted t) := by
  induction turns generalizing total lastData s h with
  | zero =>
    obtain ⟨rfl, -⟩ := Prod.mk.inj hrun
    exact absurd rfl hr
  | succ turns ih =>
    rw [recvExactFrom] at hrun
    by_cases hdone : wanted ≤ total
    · rw [if_pos hdone] at hrun
      obtain ⟨rfl, rfl⟩ := Prod.mk.inj hrun
      obtain rfl := le_antisymm hdone hs.le
      exact ⟨h, hh, fun _ => ⟨rfl, hs⟩⟩
    rw [if_neg hdone, Prog.bind_of_ok (context_apply s)] at hrun
    obtain ⟨into, hinto⟩ := hs.slice hroom hstream
    have hlength := length_of_slice? hinto
    rcases hrecv : env.recv into s.world with ⟨⟨outcome, data⟩, w⟩
    have hrecv' : recv env into s = (.ok (outcome, overlay data into),
        { s with world := w, log := s.log ++ [.received (overlay data into) outcome] }) := by
      rw [recv, Prog.answer_apply, hrecv]
    rw [hinto] at hrun
    dsimp only at hrun
    rw [Prog.bind_of_ok hrecv'] at hrun
    dsimp only at hrun
    rw [Prog.bind_of_ok (update_apply _ _)] at hrun
    obtain ⟨v, hv⟩ : ∃ v : Sys W, v = { s with
      context := { s.context with
        network := s.context.network.take total ++ overlay data into ++
          s.context.network.drop wanted }
      world := (env.nowMs w).2
      log := s.log ++ ([.received (overlay data into) outcome] ++ [.clock (env.nowMs w).1]) } :=
      ⟨_, rfl⟩
    have hheard : Hears h₀ before
        (h.notes [.received (overlay data into) outcome, .clock (env.nowMs w).1]) v := by
      apply hh.trans (hears_of_log _)
      rw [hv]
      rfl
    have hfilled {n : ℕ} (hn : n ≤ into.length) (hdata : data.take n = (pending s.world).take n)
        (hw : pending w = (pending s.world).drop n) :
        Filled pending before wanted (total + n) v := by
      rw [hv]
      exact hs.read hstream hinto hn hdata ((hfeeds.clock w).trans hw) _
    have hempty (houtcome : outcome = .nothing ∨ outcome = .bytes 0)
        (hw : pending w = pending s.world)
        (hrest : (if recvPollingTimeoutMs ≤ elapsedMs (env.nowMs w).1 lastData then
          pure (.bytes total) else recvExactFrom env wanted turns total lastData) v = (r, t)) :
        ∃ h', Hears h₀ before h' t ∧
          (h'.late = false → r = .ok (.bytes wanted) ∧ Filled pending before wanted wanted t) := by
      have hnotes : h.notes [.received (overlay data into) outcome, .clock (env.nowMs w).1] =
          { last := lastData, empty := true, late := h.late ||
              decide (recvPollingTimeoutMs ≤ elapsedMs (env.nowMs w).1 lastData) } := by
        simp [Hearing.notes, Hearing.note, houtcome, hlast]
      rw [hnotes] at hheard
      split_ifs at hrest with hlate
      · obtain ⟨-, rfl⟩ := Prod.mk.inj hrest
        refine ⟨_, hheard, ?_⟩
        simp [hlate]
      · exact ih (hfilled (Nat.zero_le _) rfl hw) hheard rfl hrest
    cases outcome with
    | failed =>
      have hover := hfeeds.failed hrecv
      rw [hs.pending, List.drop_eq_nil_iff] at hover
      omega
    | nothing =>
      apply hempty (.inl rfl) (hfeeds.nothing hrecv)
      rw [hv, ← List.append_assoc]
      exact hrun
    | bytes count =>
      obtain ⟨hcount, hdata, hw⟩ := hfeeds.bytes hrecv
      dsimp only at hrun
      rw [Prog.bind_of_ok (nowMs_apply env _)] at hrun
      by_cases hzero : count = 0
      · rw [if_pos hzero] at hrun
        apply hempty (.inr (by rw [hzero])) (by simpa [hzero] using hw)
        rw [hv, ← List.append_assoc]
        exact hrun
      · rw [if_neg hzero] at hrun
        have hnotes : h.notes [.received (overlay data into) (.bytes count),
            .clock (env.nowMs w).1] =
              { h with last := (env.nowMs w).1, empty := false } := by
          simp [Hearing.notes, Hearing.note, hzero]
        rw [hnotes] at hheard
        have hread := hfilled (Nat.min_le_right _ _) hdata hw
        rw [hlength] at hread
        refine ih hread hheard rfl ?_
        rw [hv, ← List.append_assoc]
        exact hrun

theorem recvExact_filled (hfeeds : Feeds env pending late) (hroom : wanted ≤ s.context.network.length)
    (hstream : wanted ≤ (pending s.world).length) {h : Hearing} (hempty : h.empty = false)
    {r : Except Stop ReadOutcome} (hrun : recvExact env wanted s = (r, t)) (hr : r ≠ .error .blocked) :
    ∃ h', Hears h s h' t ∧
      (h'.late = false → r = .ok (.bytes wanted) ∧ Filled pending s wanted wanted t) := by
  rw [recvExact, Prog.bind_of_ok (nowMs_apply env s)] at hrun
  have hstart : Filled pending s wanted 0 (nowMs env s).2 := by
    refine ⟨Nat.zero_le _, ⟨s.context.network.take wanted, ?_, ?_⟩, ?_, rfl⟩
    · rw [List.length_take]
      omega
    · simp
    · exact hfeeds.clock s.world
  refine recvExactFrom_filled hfeeds hroom hstream hstart (hears_of_log rfl) ?_ hrun hr
  simp [Hearing.notes, Hearing.note, hempty]

theorem Filled.whole (hs : Filled pending before wanted wanted s) : s.context = { before.context with
    network := (pending before.world).take wanted ++ before.context.network.drop wanted } := by
  obtain ⟨middle, hmiddle, hcontext⟩ := hs.context
  rw [Nat.sub_self, List.length_eq_zero_iff] at hmiddle
  rw [hcontext, hmiddle, List.append_nil]

structure Heard (s t : Sys W) : Prop where
  context : t.context = s.context
  present : t.sessionPresent = s.sessionPresent
  hears : ∀ h : Hearing, h.empty = false → Hears h s h t

instance : IsPreorder (Sys W) Heard where
  refl _ := ⟨rfl, rfl, fun _ _ => hears_self⟩
  trans _ _ _ h h' := ⟨h'.context.trans h.context, h'.present.trans h.present,
    fun _ hempty => (h.hears _ hempty).trans (h'.hears _ hempty)⟩

theorem readHeader_heard : (readHeader env).Yields Heard := by
  apply readHeader_yields
  intro s count data t hrecv hzero
  obtain ⟨houtcome, rfl⟩ := Prod.mk.inj hrecv
  obtain ⟨hcount, rfl⟩ := Prod.mk.inj (Except.ok.inj houtcome)
  refine ⟨rfl, rfl, fun h hempty => ⟨_, rfl, ?_⟩⟩
  obtain ⟨last, empty, late⟩ := h
  obtain rfl : empty = false := hempty
  simp [Hearing.notes, Hearing.note, hcount, hzero]

variable {bytes rest : List UInt8} {w w' : W}

theorem delivers_of_feeds (hfeeds : Feeds env pending late) (hlate : late ≤ rest.length)
    (hw : pending w = bytes ++ rest) : ∃ last, Delivers env bytes w last := by
  induction bytes generalizing w with
  | nil => exact ⟨w, rfl⟩
  | cons b bytes ih =>
    have hsome : late < (pending w).length := by
      rw [hw, List.length_append, List.length_cons]
      omega
    obtain ⟨b', u, hrecv⟩ := hfeeds.prompt hsome
    obtain ⟨-, hdata, hu⟩ := hfeeds.bytes hrecv
    rw [hw] at hdata hu
    obtain ⟨last, hlast⟩ := ih hu
    obtain rfl : b' = b := List.head_eq_of_cons_eq hdata
    exact ⟨last, u, hrecv, hlast⟩

theorem pending_of_delivers (hfeeds : Feeds env pending late) (h : Delivers env bytes w w')
    (hw : bytes.length ≤ (pending w).length) : pending w = bytes ++ pending w' := by
  induction bytes generalizing w with
  | nil =>
    obtain rfl : w' = w := h
    rfl
  | cons b bytes ih =>
    obtain ⟨u, hrecv, hrest⟩ := h
    obtain ⟨-, hdata, hu⟩ := hfeeds.bytes hrecv
    rw [List.length_cons] at hw
    cases hp : pending w with
    | nil =>
      rw [hp, List.length_nil] at hw
      omega
    | cons first stream =>
      rw [hp] at hdata hu hw
      have hstream : pending u = stream := hu
      obtain rfl : b = first := List.head_eq_of_cons_eq hdata
      rw [← hstream, List.cons_append, ← ih hrest]
      rw [hstream]
      exact Nat.le_of_succ_le_succ hw

theorem readHeader_fed (hfeeds : Feeds env pending late) (hlate : late ≤ rest.length)
    {header : PacketHeader} (hwf : header.WellFormed)
    (hs : pending s.world = header.encoded ++ rest) :
    ∃ t, readHeader env s = (.ok header, t) ∧ Heard s t ∧ pending t.world = rest := by
  obtain ⟨last, hdelivers⟩ := delivers_of_feeds hfeeds hlate hs
  obtain ⟨hok, hused⟩ := (readHeader_readAs hdelivers).1
    (headerScan_eq_whole.mpr ⟨hwf, rfl, List.prefix_rfl⟩)
  rw [hwf.width, List.take_length] at hused
  have hrun := Prog.eq_of_fst_ok hok
  refine ⟨_, hrun, readHeader_heard s header _ hrun, ?_⟩
  have hpending := pending_of_delivers hfeeds hused (by rw [hs]; simp)
  rw [hs] at hpending
  exact (List.append_cancel_left hpending).symm

theorem readConnackHeader_fed (hfeeds : Feeds env pending late) (hlate : late ≤ rest.length)
    {header : PacketHeader} (hwf : header.WellFormed)
    (hs : pending s.world = header.encoded ++ rest) {entry timeoutMs : UInt32} {turns loopCount : ℕ}
    {r : Except Stop (Except ClientError PacketHeader)}
    (hrun : readConnackHeader env entry timeoutMs turns loopCount s = (r, t))
    (hr : r ≠ .error .blocked) {h : Hearing} (hempty : h.empty = false) :
    r = .ok (.ok header) ∧ t.context = s.context ∧ t.sessionPresent = s.sessionPresent ∧
      pending t.world = rest ∧ ∃ h', Hears h s h' t ∧ h'.empty = false := by
  cases turns with
  | zero =>
    obtain ⟨rfl, -⟩ := Prod.mk.inj hrun
    exact absurd rfl hr
  | succ turns =>
    obtain ⟨u, hread, hheard, hpending⟩ := readHeader_fed hfeeds hlate hwf hs
    have hcaught : attempt (readHeader env) s = (.ok (.ok header), u) := by
      rw [attempt, hread]
    rw [readConnackHeader, Prog.bind_of_ok hcaught] at hrun
    have hhears := hheard.hears h hempty
    split_ifs at hrun with htimeout
    · rw [Prog.bind_assoc, Prog.bind_of_ok (nowMs_apply env u)] at hrun
      obtain ⟨rfl, rfl⟩ := Prod.mk.inj hrun
      refine ⟨rfl, hheard.context, hheard.present, (hfeeds.clock _).trans hpending, _,
        hhears.trans (hears_of_log rfl), ?_⟩
      simp [Hearing.notes, Hearing.note, hempty]
    · obtain ⟨rfl, rfl⟩ := Prod.mk.inj hrun
      exact ⟨rfl, hheard.context, hheard.present, hpending, h, hhears, hempty⟩

/-- What is left of a packet when it was read off a stream. -/
structure ReadOff (pending : W → List UInt8) (header : PacketHeader) (body rest : List UInt8)
    (s : Sys W) (r : Except Stop ConnAck) (t : Sys W) : Prop where
  result : r = (s.context.acknowledgedBy header body).mapError Stop.error
  present : t.sessionPresent = s.sessionPresent
  taken : s.context.Takes header → pending t.world = rest ∧ t.context = { s.context with
    network := body ++ s.context.network.drop header.remainingLength }
  refused : ¬ s.context.Takes header → pending t.world = body ++ rest ∧ t.context = s.context

/-- Of a stream that starts with a packet, the reader takes the packet and nothing else. -/
theorem readConnack_fed (hfeeds : Feeds env pending late) {header : PacketHeader}
    {body : List UInt8} (hlate : late ≤ (body ++ rest).length) (hwf : header.WellFormed)
    (hbody : body.length = header.remainingLength)
    (hs : pending s.world = header.encoded ++ (body ++ rest)) {timeoutMs : UInt32}
    {r : Except Stop ConnAck} (hrun : readConnack env timeoutMs s = (r, t))
    (hr : r ≠ .error .blocked) {h : Hearing} (hempty : h.empty = false) :
    ∃ h', Hears h s h' t ∧ (h'.late = false → ReadOff pending header body rest s r t) := by
  obtain ⟨s₁, hclock, hs₁, hcontext₁, hpresent₁, h₁, hh₁, hempty₁⟩ : ∃ s₁,
      nowMs env s = (.ok (env.nowMs s.world).1, s₁) ∧ pending s₁.world = pending s.world ∧
        s₁.context = s.context ∧ s₁.sessionPresent = s.sessionPresent ∧
          ∃ h₁, Hears h s h₁ s₁ ∧ h₁.empty = false := by
    refine ⟨_, rfl, hfeeds.clock _, rfl, rfl, _, hears_of_log rfl, ?_⟩
    simp [Hearing.notes, Hearing.note, hempty]
  rw [readConnack, Prog.bind_of_ok hclock] at hrun
  rcases hread : readConnackHeader env (env.nowMs s.world).1 timeoutMs env.patience 0 s₁ with ⟨r₁, u⟩
  have hr₁ : r₁ ≠ .error .blocked := by
    rintro rfl
    rw [Prog.bind_of_error hread] at hrun
    exact hr (Prod.mk.inj hrun).1.symm
  obtain ⟨rfl, hcontext, hpresent, hpending, h₂, hh₂, hempty₂⟩ :=
    readConnackHeader_fed hfeeds hlate hwf (hs₁.trans hs) hread hr₁ hempty₁
  rw [hcontext₁] at hcontext
  have hh := hh₁.trans hh₂
  rw [Prog.bind_of_ok hread, check_bind_of_ok rfl, Client.refuse] at hrun
  by_cases htype : header.packetType ≠ Packet.connack
  · rw [Prog.refuse_bind_apply, if_pos htype] at hrun
    obtain ⟨rfl, rfl⟩ := Prod.mk.inj hrun
    refine ⟨h₂, hh, fun _ => ⟨?_, hpresent.trans hpresent₁, ?_, fun _ => ⟨hpending, hcontext⟩⟩⟩
    · rw [MqttContext.acknowledgedBy, refuseIf, if_pos htype]
      rfl
    · exact fun htakes => absurd htakes.1 htype
  rw [Prog.refuse_bind_of_not htype, receiveConnackPacket, Prog.bind_assoc,
    Prog.bind_of_ok (context_apply u), Client.refuse, Prog.bind_assoc] at hrun
  by_cases hroom : u.context.network.length < header.remainingLength
  · rw [Prog.refuse_bind_apply, if_pos hroom] at hrun
    rw [hcontext] at hroom
    obtain ⟨rfl, rfl⟩ := Prod.mk.inj hrun
    refine ⟨h₂, hh, fun _ => ⟨?_, hpresent.trans hpresent₁, ?_, fun _ => ⟨hpending, hcontext⟩⟩⟩
    · rw [MqttContext.acknowledgedBy, refuseIf, if_neg htype, refuseIf, if_pos hroom]
      rfl
    · exact fun htakes => absurd htakes.2 (Nat.not_le.mpr hroom)
  rw [Prog.refuse_bind_of_not hroom, Prog.bind_assoc] at hrun
  rcases hexact : recvExact env header.remainingLength u with ⟨r₂, v⟩
  have hr₂ : r₂ ≠ .error .blocked := by
    rintro rfl
    rw [Prog.bind_of_error hexact] at hrun
    exact hr (Prod.mk.inj hrun).1.symm
  obtain ⟨h₃, hh₃, hfilled⟩ := recvExact_filled hfeeds (Nat.not_lt.mp hroom)
    (by rw [hpending, List.length_append]; omega) hempty₂ hexact hr₂
  have ht : t = v := by
    have hstill := congrArg Prod.snd hrun
    rw [Prog.bind_snd_of_still, hexact] at hstill
    · exact hstill.symm
    · intro outcome t
      rw [Client.refuse, Prog.refuse_bind_apply]
      split_ifs
      · rfl
      · rfl
  subst ht
  refine ⟨h₃, hh.trans hh₃, fun hlate => ?_⟩
  obtain ⟨rfl, hwhole⟩ := hfilled hlate
  have htaken : (pending u.world).take header.remainingLength = body := by
    rw [hpending, ← hbody, List.take_left]
  have hnetwork := hwhole.whole
  rw [htaken, hcontext] at hnetwork
  rw [Prog.bind_of_ok hexact, Client.refuse, Prog.refuse_bind_of_not (not_not_intro rfl),
    Prog.bind_of_ok (context_apply t), hnetwork] at hrun
  rw [hcontext] at hroom
  have htakes : s.context.Takes header := ⟨not_not.mp htype, Nat.not_lt.mp hroom⟩
  have hfront : (body ++ s.context.network.drop header.remainingLength).take
      header.remainingLength = body := List.take_left' hbody
  dsimp only at hrun
  rw [hfront] at hrun
  constructor
  · rw [MqttContext.acknowledgedBy, refuseIf, if_neg htype, refuseIf, if_neg hroom]
    obtain ⟨hresult, -⟩ := Prod.mk.inj hrun
    rw [← hresult]
    rcases deserializeConnack _ _ with e | connack
    · rfl
    · rfl
  · rw [hwhole.present, hpresent, hpresent₁]
  · refine fun _ => ⟨?_, hnetwork⟩
    rw [hwhole.pending, hpending, ← hbody, List.drop_left]
  · exact fun hnot => absurd htakes hnot

end Client

end RtosMqtt
