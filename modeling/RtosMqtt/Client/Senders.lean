import RtosMqtt.Client.Frames
import Mathlib.Data.List.TakeDrop

/-! # What the senders deliver

A transport takes a first part of what it is offered, or nothing, or fails. What a sender has
it take is a first part of the packet, and the sender says how long that part is.
-/

namespace RtosMqtt

variable {W : Type}

/-- The transport takes a first part of the bytes it is offered and says how long that part is. -/
def TakesFirst (accepted : W → List UInt8) (offered : List UInt8) (w : W) : Sent × W → Prop
  | (.bytes count, w') =>
    count ≤ offered.length ∧ accepted w' = accepted w ++ offered.take count
  | (_, w') => accepted w' = accepted w

/-- `writev` of a transport that has none of its own: the first vector alone. -/
def Environment.perVector (env : Environment W) : List (List UInt8) → W → Sent × W
  | [], w => (.nothing, w)
  | first :: _, w => env.send first w

/-- What is relied on of a transport, with the bytes that it took. A `writev` is the one that
offers a vector at a time, or one that takes across vectors. -/
structure Faithful (env : Environment W) (accepted : W → List UInt8) : Prop where
  send : ∀ bytes w, TakesFirst accepted bytes w (env.send bytes w)
  writev : ∀ parts w, env.writev parts w = env.perVector parts w ∨
    TakesFirst accepted parts.flatten w (env.writev parts w)
  clock : ∀ w, accepted (env.nowMs w).2 = accepted w

theorem TakesFirst.append {accepted : W → List UInt8} {offered : List UInt8} {w : W}
    {answer : Sent × W} (h : TakesFirst accepted offered w answer) (rest : List UInt8) :
    TakesFirst accepted (offered ++ rest) w answer := by
  obtain ⟨sent, w'⟩ := answer
  cases sent with
  | bytes count =>
    obtain ⟨hcount, haccepted⟩ := h
    refine ⟨hcount.trans ?_, ?_⟩
    · rw [List.length_append]
      exact Nat.le_add_right _ _
    · rw [haccepted, List.take_append_of_le_length hcount]
  | nothing => exact h
  | failed => exact h

theorem Faithful.takesFirst {env : Environment W} {accepted : W → List UInt8}
    (h : Faithful env accepted) (parts : List (List UInt8)) (w : W) :
    TakesFirst accepted parts.flatten w (env.writev parts w) := by
  rcases h.writev parts w with heq | hgathers
  · rw [heq]
    cases parts with
    | nil => rfl
    | cons first rest =>
      rw [List.flatten_cons]
      exact (h.send first w).append _
  · exact hgathers

/-- What the log says was taken since is what the transport took. -/
def Accounted (accepted : W → List UInt8) (s t : Sys W) : Prop :=
  ∃ more, t.log = s.log ++ more ∧ accepted t.world = accepted s.world ++ wire more

section Accounted

variable {accepted : W → List UInt8} {s t : Sys W}

instance : IsPreorder (Sys W) (Accounted accepted) where
  refl s := ⟨[], (List.append_nil _).symm, (List.append_nil _).symm⟩
  trans _ _ _ h h' := by
    obtain ⟨more, hlog, htaken⟩ := h
    obtain ⟨more', hlog', htaken'⟩ := h'
    refine ⟨more ++ more', by rw [hlog', hlog, List.append_assoc], ?_⟩
    rw [htaken', htaken, wire_append, List.append_assoc]

theorem Accounted.same (hlog : t.log = s.log) (hworld : t.world = s.world) :
    Accounted accepted s t := by
  refine ⟨[], ?_, ?_⟩
  · rw [hlog, List.append_nil]
  · rw [hworld, wire_nil, List.append_nil]

theorem TakesFirst.accounted {parts : List (List UInt8)} {offered : List UInt8}
    {answer : Sent × W} (h : TakesFirst accepted offered s.world answer)
    (hparts : parts.flatten = offered)
    (hlog : t.log = s.log ++ [.sent parts answer.1 s.context.standing])
    (hworld : t.world = answer.2) : Accounted accepted s t := by
  subst hparts
  refine ⟨_, hlog, ?_⟩
  obtain ⟨sent, w⟩ := answer
  rw [hworld, wire_singleton]
  cases sent with
  | bytes count => exact h.2
  | nothing => exact h.trans (List.append_nil _).symm
  | failed => exact h.trans (List.append_nil _).symm

end Accounted

/-- A call of a sender delivered a first part of its packet: what it reports is how long that part
is, and it reports the whole packet just when all of it was taken. A call that is cut short when all
was taken reports so once it has one turn more. -/
structure SendsFront (accepted : W → List UInt8) (packet : List UInt8) (s : Sys W)
    (run : Except Stop SendOutcome × Sys W)
    (later : ℕ → Except Stop SendOutcome × Sys W) (taken : List UInt8) : Prop where
  accepted : accepted run.2.world = accepted s.world ++ taken
  first : taken <+: packet
  sent : ∀ n, run.1 = .ok (.sent n) → n = taken.length
  whole : ∀ outcome, run.1 = .ok outcome → (outcome = .sent packet.length ↔ taken = packet)
  cut : ∀ stop, run.1 = .error stop → stop = .blocked ∧
    (taken = packet → ∀ more, later (more + 1) = (.ok (.sent packet.length), run.2))

namespace Client

variable {env : Environment W} {accepted : W → List UInt8}

theorem passes_accounted (h : Faithful env accepted) : Passes env (Accounted accepted) where
  clock := by
    intro s
    refine ⟨_, rfl, ?_⟩
    rw [wire_singleton]
    exact (h.clock s.world).trans (List.append_nil _).symm
  stamp _ _ := .same rfl rfl
  lost _ := .same rfl rfl

theorem sendBuffer_accounted (h : Faithful env accepted) (buffer : List UInt8) :
    (sendBuffer env buffer).Moves (Accounted accepted) := by
  refine sendBuffer_moves (passes_accounted h) fun sent s => ?_
  exact (h.send (buffer.drop sent) s.world).accounted List.flatten_singleton rfl rfl

theorem sendVectors_accounted (h : Faithful env accepted) (vectors : List (List UInt8)) :
    (sendVectors env vectors).Moves (Accounted accepted) :=
  sendVectors_moves (passes_accounted h) fun parts _ s =>
    (h.takesFirst parts s.world).accounted rfl rfl rfl

theorem WentOut.delivered {s t : Sys W} {bytes : List UInt8} (h : WentOut bytes s.log t.log)
    (haccounted : Accounted accepted s t) : accepted t.world = accepted s.world ++ bytes := by
  obtain ⟨io, hio, -, rfl⟩ := h
  obtain ⟨more, hmore, htaken⟩ := haccounted
  obtain rfl := List.append_cancel_left (hio.symm.trans hmore)
  exact htaken

theorem take_eq_packet_iff {packet : List UInt8} {n : ℕ} (h : n ≤ packet.length) :
    packet.take n = packet ↔ n = packet.length := by
  rw [List.take_eq_self_iff]
  exact ⟨fun h' => le_antisymm h h', fun h' => h'.ge⟩

section Loop

variable {κ : Type} {turn : κ → Client W (κ ⊕ SendOutcome)} {I : κ → Sys W → Prop}
  {packet : List UInt8} {s t : Sys W} {reached : κ → ℕ} {k : κ}

variable (reached) in
/-- A sender is a loop that takes up where it was cut short, and ends when all was taken. -/
theorem sendsFront_of_loop (hupto : ∀ k t, I k t → Upto packet (reached k) s t)
    (hturn : ∀ k t, I k t → Prog.Turned I (Ended packet s) (turn k t))
    (hdone : ∀ k t, packet.length ≤ reached k → turn k t = (.ok (.inr (.sent (reached k))), t))
    (h : I k t) (turns : ℕ)
    (haccounted : Accounted accepted s (Prog.loop turn .blocked turns k t).2) :
    ∃ taken, SendsFront accepted packet s (Prog.loop turn .blocked turns k t)
      (fun more => Prog.loop turn .blocked (turns + more) k t) taken := by
  rcases Prog.loop_cases hturn h turns with ⟨hended, -⟩ | ⟨k', u, hcut, hrun, hmore⟩
  · rcases hrun : Prog.loop turn .blocked turns k t with ⟨stop | n | -, u⟩
    · rw [hrun] at hended
      exact hended.elim
    · rw [hrun] at hended haccounted
      have hn : Upto packet n s u := hended
      refine ⟨packet.take n, hn.out.delivered haccounted, List.take_prefix _ _, ?_, ?_, nofun⟩
      · rintro _ ⟨⟩
        exact (List.length_take_of_le hn.inside).symm
      · rintro _ ⟨⟩
        rw [take_eq_packet_iff hn.inside]
        constructor
        · rintro ⟨⟩
          rfl
        · rintro rfl
          rfl
    · rw [hrun] at hended haccounted
      obtain ⟨n, hlt, hn⟩ := hended
      refine ⟨packet.take n, hn.out.delivered haccounted, List.take_prefix _ _, nofun, ?_, nofun⟩
      rintro _ ⟨⟩
      rw [take_eq_packet_iff hn.inside]
      constructor
      · intro h
        cases h
      · intro h
        exact absurd h hlt.ne
  · have hn := hupto k' u hcut
    rw [hrun] at haccounted ⊢
    refine ⟨packet.take (reached k'), hn.out.delivered haccounted, List.take_prefix _ _, nofun,
      nofun, ?_⟩
    rintro _ ⟨⟩
    refine ⟨rfl, fun hwhole more => ?_⟩
    rw [take_eq_packet_iff hn.inside] at hwhole
    have hlast := hdone k' u hwhole.ge
    rw [hwhole] at hlast
    dsimp only
    rw [hmore, Prog.loop_of_done hlast]

end Loop

def waiting (env : Environment W) (more : ℕ) : Environment W :=
  { env with patience := env.patience + more }

/-- Whatever part of each offer is taken, and wherever the clock stops it, a sender delivers its
packet from the front and says how far it came. -/
theorem senders_deliver (h : Faithful env accepted) (s : Sys W) :
    (∀ buffer, ∃ taken, SendsFront accepted buffer s (sendBuffer env buffer s)
      (fun more => sendBuffer (waiting env more) buffer s) taken) ∧
    ∀ vectors, ∃ taken, SendsFront accepted vectors.flatten s (sendVectors env vectors s)
      (fun more => sendVectors (waiting env more) vectors s) taken := by
  constructor
  · intro buffer
    have haccounted := sendBuffer_accounted h buffer s
    have heq (more : ℕ) : sendBuffer (waiting env more) buffer s =
        Prog.loop (bufferTurn env buffer (env.nowMs s.world).1) .blocked (env.patience + more) 0
          (nowMs env s).2 := by
      rw [sendBuffer, Prog.bind_of_ok (nowMs_apply _ s)]
      rfl
    rw [show sendBuffer env buffer s = _ from heq 0] at haccounted ⊢
    simp only [heq]
    exact sendsFront_of_loop id (fun n t h => h) (fun n t h => bufferTurn_turned env _ h)
      (fun n t h => by rw [bufferTurn, if_pos h]; rfl) (upto_zero (.clock .nothing)) _ haccounted
  · intro vectors
    have haccounted := sendVectors_accounted h vectors s
    have heq (more : ℕ) : sendVectors (waiting env more) vectors s =
        Prog.loop (vectorsTurn env vectors.flatten.length (env.nowMs s.world).1) .blocked
          (env.patience + more) (0, vectors) (nowMs env s).2 := by
      rw [sendVectors, Prog.bind_of_ok (nowMs_apply _ s)]
      rfl
    rw [show sendVectors env vectors s = _ from heq 0] at haccounted ⊢
    simp only [heq]
    exact sendsFront_of_loop _ (fun place t h => h.upto) (fun place t h => vectorsTurn_turned env _ h)
      (fun place t h => by rw [vectorsTurn, if_pos (Or.inl h)]; rfl)
      ⟨upto_zero (.clock .nothing), rfl⟩ _ haccounted

/-- A line that takes of each offer as much as it is told to, and keeps what it took. -/
structure Line where
  answers : List Sent
  accepted : List UInt8 := []

def Line.take (bytes : List UInt8) (w : Line) : Sent × Line :=
  match w.answers with
  | [] => (.nothing, w)
  | .bytes count :: answers =>
    (.bytes (min count bytes.length), { answers, accepted := w.accepted ++ bytes.take count })
  | answer :: answers => (answer, { w with answers })

def lineEnvironment : Environment Line where
  recv into w := ((.nothing, into), w)
  send := Line.take
  writev parts w :=
    match parts with
    | [] => (.nothing, w)
    | first :: _ => Line.take first w
  nowMs w := (0, w)
  storing := false
  store _ _ w := (false, w)
  retrieve _ w := (none, w)
  clear _ w := w
  onEvent _ _ w := (([], true), w)
  patience := 8

theorem faithful_line : Faithful lineEnvironment Line.accepted where
  send := by
    rintro bytes ⟨answers, accepted⟩
    rcases answers with - | ⟨count | - | -, answers⟩
    · rfl
    · refine ⟨min_le_right _ _, ?_⟩
      rw [← List.take_eq_take_min]
    · rfl
    · rfl
  writev parts w := by
    left
    cases parts with
    | nil => rfl
    | cons first rest => rfl
  clock _ := rfl

def lineStart (answers : List Sent) : Sys Line :=
  { context := MqttContext.new [], world := { answers } }

/-- Three vectors, the second of them empty, a byte at a time. -/
theorem senders_deliver_of_line :
    (sendVectors lineEnvironment [[1, 2], [], [3]]
        (lineStart [.bytes 1, .nothing, .bytes 4, .bytes 0, .bytes 1])).1 = .ok (.sent 3) ∧
      ∃ taken, SendsFront Line.accepted [1, 2, 3]
        (lineStart [.bytes 1, .nothing, .bytes 4, .bytes 0, .bytes 1])
        (sendVectors lineEnvironment [[1, 2], [], [3]]
          (lineStart [.bytes 1, .nothing, .bytes 4, .bytes 0, .bytes 1]))
        (fun more => sendVectors (waiting lineEnvironment more) [[1, 2], [], [3]]
          (lineStart [.bytes 1, .nothing, .bytes 4, .bytes 0, .bytes 1])) taken :=
  ⟨by decide +kernel, (senders_deliver faithful_line _).2 [[1, 2], [], [3]]⟩

end Client

end RtosMqtt
