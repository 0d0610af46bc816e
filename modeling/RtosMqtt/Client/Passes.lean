import RtosMqtt.Client.Consumption
import RtosMqtt.Client.Reading
import RtosMqtt.Client.Scripted

/-! # Passes over a stream of packets

A stream of packets arrives in reads of any size. A client that is fit for the packets that are left
finds each of them at the front of its buffer when the last of its bytes has arrived, and a pass
ends when the next packet is not whole.
-/

namespace RtosMqtt

variable {W : Type}

/-- A fixed header, and as many bytes behind it as it says. -/
def IsWhole (packet : List UInt8) : Prop :=
  ∃ header : PacketHeader, header.WellFormed ∧ header.encoded <+: packet ∧
    packet.length = header.remainingLength + header.headerLength

/-- Nothing, or a first part of a packet that the buffer has room for. -/
def IsBegun (room : ℕ) (part : List UInt8) : Prop :=
  part ≠ [] → ∃ packet, IsWhole packet ∧ packet.length ≤ room ∧ part <+: packet ∧
    part.length < packet.length

theorem IsBegun.shorten {room : ℕ} {part shorter : List UInt8} (h : IsBegun room part)
    (hpre : shorter <+: part) : IsBegun room shorter := by
  intro hsome
  have hpart : part ≠ [] := by
    rintro rfl
    exact hsome (List.prefix_nil.mp hpre)
  obtain ⟨packet, hwhole, hroom, hpacket, hless⟩ := h hpart
  exact ⟨packet, hwhole, hroom, hpre.trans hpacket, hpre.length_le.trans_lt hless⟩

theorem IsWhole.two_le {packet : List UInt8} (h : IsWhole packet) : 2 ≤ packet.length := by
  obtain ⟨header, hwf, -, hlength⟩ := h
  have hwidth := hwf.width
  rw [PacketHeader.encoded, List.length_cons, length_encodedLength hwf.inRange] at hwidth
  have hpos : 1 ≤ variableLengthEncodedSize header.remainingLength := by
    unfold variableLengthEncodedSize
    split_ifs <;> omega
  omega

namespace MqttContext

/-- The length of the packet at the front of the buffer, once all of it is there. -/
def front (c : MqttContext) : Except ClientError ℕ := do
  let total ← c.measure
  refuseIf (c.network.length < total) .recvFailed
  refuseIf (c.index < total) .needMoreBytes
  pure total

theorem length_received {c : MqttContext} (h : c.index ≤ c.network.length) :
    c.received.length = c.index := by
  rw [received, List.length_take, Nat.min_eq_left h]

theorem header_of_received {c : MqttContext} {header : PacketHeader} (hwf : header.WellFormed)
    (hpre : header.encoded <+: c.received) :
    processIncomingPacketTypeAndLength c.network c.index = .ok header :=
  processIncomingPacketTypeAndLength_eq_ok.mpr ⟨hwf, hpre⟩

theorem measure_of_header {c : MqttContext} {header : PacketHeader}
    (h : processIncomingPacketTypeAndLength c.network c.index = .ok header) :
    c.measure = .ok (header.remainingLength + header.headerLength) := by
  rw [measure, h]

theorem front_of_measure {c : MqttContext} {total : ℕ} (h : c.measure = .ok total) :
    c.front = if c.network.length < total then .error .recvFailed
      else if c.index < total then .error .needMoreBytes else .ok total := by
  rw [front, h]
  by_cases hlong : c.network.length < total
  · simp [refuseIf, hlong, bind, Except.bind]
  by_cases hpart : c.index < total
  · simp [refuseIf, hlong, hpart, bind, Except.bind]
  · simp [refuseIf, hlong, hpart, bind, Except.bind, pure, Except.pure]

theorem front_of_whole {c : MqttContext} {packet : List UInt8} (hindex : c.index ≤ c.network.length)
    (h : IsWhole packet) (hpre : packet <+: c.received) : c.front = .ok packet.length := by
  obtain ⟨header, hwf, hhead, hlength⟩ := h
  have hle := hpre.length_le
  rw [length_received hindex] at hle
  have hmeasure := measure_of_header (header_of_received hwf (hhead.trans hpre))
  rw [← hlength] at hmeasure
  rw [front_of_measure hmeasure, if_neg (Nat.not_lt.mpr (hle.trans hindex)),
    if_neg (Nat.not_lt.mpr hle)]

/-- A part of a packet is waited for. -/
theorem front_of_begun {c : MqttContext} (hindex : c.index ≤ c.network.length)
    (h : IsBegun c.network.length c.received) :
    c.front = .error .noDataAvailable ∨ c.front = .error .needMoreBytes := by
  by_cases hempty : c.received = []
  · have hnone : processIncomingPacketTypeAndLength c.network c.index =
        .error .noDataAvailable := by
      rw [processIncomingPacketTypeAndLength_eq]
      exact if_pos hempty
    left
    rw [front, measure, hnone]
    rfl
  right
  obtain ⟨packet, ⟨header, hwf, hhead, hlength⟩, hroom, hpre, hless⟩ := h hempty
  rw [length_received hindex] at hless
  by_cases hread : header.encoded <+: c.received
  · have hmeasure := measure_of_header (header_of_received hwf hread)
    rw [← hlength] at hmeasure
    rw [front_of_measure hmeasure, if_neg (Nat.not_lt.mpr hroom), if_pos hless]
  · obtain ⟨more, hmore⟩ : c.received <+: header.encoded :=
      (List.prefix_or_prefix_of_prefix hhead hpre).resolve_left hread
    have hshort : headerScan c.received = .short := by
      refine headerScan_eq_short.mpr ⟨⟨more, header, hwf, hmore⟩, ?_⟩
      rintro ⟨other, hother, hinside⟩
      have hsame := headerScan_eq_whole.mpr ⟨hother, rfl, hinside.trans ⟨more, hmore⟩⟩
      rw [headerScan_eq_whole.mpr ⟨hwf, rfl, List.prefix_rfl⟩] at hsame
      cases hsame
      exact hread hinside
    rw [front, measure, processIncomingPacketTypeAndLength_eq_needMoreBytes.mpr ⟨hempty, hshort⟩]
    rfl

end MqttContext

/-- The transport hands over the next bytes of a stream, as many as it likes and no more than it is
asked for. -/
structure Supplies (env : Environment W) (pending : W → List UInt8) : Prop where
  read : ∀ into w, (∃ n, (env.recv into w).1.1 = .bytes n ∧ n ≤ into.length ∧
      n ≤ (pending w).length ∧ (env.recv into w).1.2.take n = (pending w).take n ∧
      pending (env.recv into w).2 = (pending w).drop n) ∨
    (env.recv into w).1.1 = .nothing ∧ pending (env.recv into w).2 = pending w
  clock : ∀ w, pending (env.nowMs w).2 = pending w
  send : ∀ bytes w, pending (env.send bytes w).2 = pending w
  writev : ∀ parts w, pending (env.writev parts w).2 = pending w
  store : ∀ key parts w, pending (env.store key parts w).2 = pending w
  clear : ∀ key w, pending (env.clear key w) = pending w
  event : ∀ e reply w, pending (env.onEvent e reply w).2 = pending w

namespace Client

section Turn

variable (env : Environment W)

/-- A packet that was handled is off the buffer, and the rest has moved up. -/
theorem processPacket_buffer {total : ℕ} {manageKeepAlive : Bool} {s t : Sys W}
    (h : processPacket env total manageKeepAlive s = (.ok (), t)) :
    t.context.index = s.context.index - total ∧
      t.context.network = (s.context.consume total).network := by
  rcases hhandled : handlePacket env total manageKeepAlive s with ⟨e | _, u⟩
  · rw [processPacket_of_error env hhandled] at h
    cases h
  have hdone : t = { u with
      context := { u.context.consume total with lastPacketRxTime := (env.nowMs u.world).1 }
      world := (env.nowMs u.world).2
      log := u.log ++ [.clock (env.nowMs u.world).1] } := by
    rw [processPacket, Prog.bind_of_ok hhandled] at h
    exact (Prod.mk.inj h).2.symm
  have hfinished : (handlePacket env total manageKeepAlive).Finishes s := ⟨(), u, hhandled⟩
  have hbuffer := handlePacket_buffer env total manageKeepAlive s
  rw [hhandled] at hbuffer
  rcases hbuffer with ⟨⟨packetType, hhead, view, hview, htype, ⟨e, hread⟩, -⟩, -⟩ | ⟨-, hsteady⟩
  · obtain ⟨packetType', hhead', view', hview', haccepted⟩ :=
      (finishes_handlePacket env total manageKeepAlive s).mp hfinished
    rw [hhead, Option.some.injEq] at hhead'
    rw [hview, Option.some.injEq] at hview'
    subst hhead' hview' htype
    rw [PacketAccepted, if_neg (by decide), if_pos rfl] at haccepted
    obtain ⟨incoming, hincoming, -⟩ := haccepted
    rw [hread] at hincoming
    cases hincoming
  · rw [hdone]
    refine ⟨?_, ?_⟩
    · exact congrArg (· - total) hsteady.index
    · dsimp only [MqttContext.consume]
      rw [hsteady.network]

def Brings (received : Recv) (n : ℕ) : Prop := received = .bytes n ∨ received = .nothing ∧ n = 0

/-- The buffer once what was read has been counted. -/
def filled (n : ℕ) (s : Sys W) : Sys W :=
  { s with context := { s.context with index := s.context.index + n } }

theorem measure_of_empty {c : MqttContext} (h : c.index = 0) :
    c.measure = .error .noDataAvailable := by
  rw [MqttContext.measure, processIncomingPacketTypeAndLength, if_pos (by omega)]
  rfl

theorem arrival_brings {received : Recv} {n : ℕ} (h : Brings received n) {s : Sys W}
    (hroom : s.context.index + n ≤ usizeMax) :
    arrival received s = (.ok (filled n s).context.measure, filled n s) := by
  rw [arrival, Prog.bind_of_ok (context_apply s)]
  by_cases hempty : n = 0 ∧ s.context.index = 0
  · obtain ⟨rfl, hindex⟩ := hempty
    rw [show (filled 0 s).context.measure = .error .noDataAvailable from measure_of_empty hindex]
    rcases h with rfl | ⟨rfl, -⟩
    · dsimp only
      rw [if_pos ⟨rfl, hindex⟩]
      rfl
    · dsimp only
      rw [if_pos hindex]
      rfl
  rcases h with rfl | ⟨rfl, rfl⟩
  · dsimp only
    rw [if_neg hempty, Prog.bind_of_ok (update_apply _ s), Nat.min_eq_left hroom]
    rfl
  · dsimp only
    rw [if_neg fun hindex => hempty ⟨rfl, hindex⟩]
    rfl

theorem nextPacket_brings {received : Recv} {n : ℕ} (h : Brings received n) {s : Sys W}
    (hroom : s.context.index + n ≤ usizeMax) :
    nextPacket env false received s =
      ((filled n s).context.front.mapError Stop.error, filled n s) := by
  rw [nextPacket, Prog.bind_of_ok (arrival_brings h hroom), keepAliveTurn, if_neg (by simp),
    Prog.pure_bind]
  cases hmeasure : (filled n s).context.measure with
  | error e =>
    rw [MqttContext.front, hmeasure]
    rfl
  | ok total =>
    have hchecked : (check id (.ok total) : Client W ℕ) (filled n s) =
        (.ok total, filled n s) := rfl
    rw [Prog.bind_of_ok hchecked, Prog.bind_of_ok (context_apply _), Client.refuse,
      Prog.refuse_bind_apply, Client.refuse, Prog.refuse_bind_apply,
      MqttContext.front_of_measure hmeasure]
    split_ifs
    · rfl
    · rfl
    · rfl

/-- The client after a read of the free part of its buffer. -/
def handed (s : Sys W) : Sys W :=
  let into := s.context.network.drop s.context.index
  let data := overlay (env.recv into s.world).1.2 into
  { s with
    context := { s.context with network := s.context.network.take s.context.index ++ data }
    world := (env.recv into s.world).2
    log := s.log ++ [.received data (env.recv into s.world).1.1] }

theorem readIn_apply {s : Sys W} (hindex : s.context.index ≤ s.context.network.length) :
    readIn env s = (.ok (env.recv (s.context.network.drop s.context.index) s.world).1.1,
      handed env s) := by
  have hslice : slice? s.context.network s.context.index s.context.network.length =
      some (s.context.network.drop s.context.index) := by
    rw [slice?, if_pos ⟨hindex, le_rfl⟩, List.take_length]
  rw [readIn, Prog.bind_of_ok (context_apply s), hslice]
  rfl

end Turn

section Queued

variable {env : Environment W} {pending : W → List UInt8} {Fit : List (List UInt8) → Sys W → Prop}
  {tail packet : List UInt8} {left : List (List UInt8)} {s u : Sys W}

variable (pending Fit tail left s) in
/-- In front of a client are packets that it is fit for, and a first part of one more. -/
structure Queued : Prop where
  stream : s.context.received ++ pending s.world = left.flatten ++ tail
  whole : ∀ packet ∈ left, IsWhole packet ∧ packet.length ≤ s.context.network.length
  begun : IsBegun s.context.network.length tail
  index : s.context.index ≤ s.context.network.length
  fit : Fit left s

theorem Queued.front_cases (h : Queued pending Fit tail left u) :
    (∃ packet left', left = packet :: left' ∧ packet <+: u.context.received ∧
        u.context.front = .ok packet.length) ∨
      (∀ packet ∈ left.head?, u.context.index < packet.length) ∧
        (u.context.front = .error .noDataAvailable ∨ u.context.front = .error .needMoreBytes) := by
  have hpre : u.context.received <+: left.flatten ++ tail := ⟨pending u.world, h.stream⟩
  cases left with
  | nil =>
    refine .inr ⟨by simp, ?_⟩
    exact MqttContext.front_of_begun h.index (h.begun.shorten hpre)
  | cons packet left =>
    obtain ⟨hwhole, hroom⟩ := h.whole packet List.mem_cons_self
    rw [List.flatten_cons, List.append_assoc] at hpre
    by_cases hthere : packet.length ≤ u.context.index
    · have hpacket : packet <+: u.context.received :=
        List.prefix_of_prefix_length_le (List.prefix_append _ _) hpre
          (by rwa [MqttContext.length_received h.index])
      exact .inl ⟨packet, left, rfl, hpacket, MqttContext.front_of_whole h.index hwhole hpacket⟩
    · have hless : u.context.received.length < packet.length := by
        rw [MqttContext.length_received h.index]
        omega
      have hpart : u.context.received <+: packet :=
        List.prefix_of_prefix_length_le hpre (List.prefix_append _ _) hless.le
      refine .inr ⟨?_, MqttContext.front_of_begun h.index fun _ =>
        ⟨packet, hwhole, hroom, hpart, hless⟩⟩
      rintro _ ⟨⟩
      exact Nat.not_le.mp hthere

/-- How a pass ends that has handled every packet it found. -/
def Settled (r : Except Stop Unit) : Prop :=
  r = .ok () ∨ r = .error (.error .noDataAvailable) ∨ r = .error (.error .needMoreBytes)

theorem brings_next {received : Recv} {n : ℕ} (h : Brings received n) :
    Brings (if arrivedNothing received then received else .bytes 0) 0 := by
  rcases h with rfl | ⟨rfl, -⟩
  · by_cases hnone : n = 0
    · subst hnone
      exact .inl rfl
    · rw [if_neg (by simpa [arrivedNothing] using hnone)]
      exact .inl rfl
  · exact .inr ⟨rfl, rfl⟩

variable (env pending Fit) in
/-- A client that handles the first of the packets it is fit for and is then fit for the others.
Nothing is read meanwhile, and a read makes it no less fit. -/
structure Takes : Prop where
  first : ∀ {packet left u}, Fit (packet :: left) u → IsWhole packet →
    packet <+: u.context.received → ∃ v, processPacket env packet.length false u = (.ok (), v) ∧
      Fit left v ∧ pending v.world = pending u.world
  reads : ∀ {left s} n, Fit left s → Fit left (filled n (handed env s))

/-- A packet that is there is handled. -/
theorem Takes.step (htakes : Takes env pending Fit) (h : Queued pending Fit tail (packet :: left) u)
    (hpacket : packet <+: u.context.received) :
    ∃ v, processPacket env packet.length false u = (.ok (), v) ∧
      Queued pending Fit tail left v ∧ v.context.index = u.context.index - packet.length ∧
      v.context.network.length = u.context.network.length := by
  obtain ⟨hwhole, hroom⟩ := h.whole packet List.mem_cons_self
  obtain ⟨v, hdone, hfit, hpending⟩ := htakes.first h.fit hwhole hpacket
  obtain ⟨hindex, hnetwork⟩ := processPacket_buffer env hdone
  have hle := hpacket.length_le
  rw [MqttContext.length_received h.index] at hle
  have hlength : v.context.network.length = u.context.network.length := by
    rw [hnetwork, MqttContext.consume, List.length_append, List.length_drop, List.length_drop]
    omega
  have hreceived : v.context.received = u.context.received.drop packet.length := by
    rw [MqttContext.received, MqttContext.received, hindex, hnetwork, MqttContext.consume,
      List.drop_take, List.take_append_of_le_length]
    rw [List.length_drop]
    have := h.index
    omega
  refine ⟨v, hdone, ⟨?_, ?_, ?_, ?_, hfit⟩, hindex, hlength⟩
  · obtain ⟨more, hmore⟩ := hpacket
    have hstream := h.stream
    rw [← hmore, List.flatten_cons, List.append_assoc, List.append_assoc,
      List.append_cancel_left_eq] at hstream
    rw [hreceived, hpending, ← hmore, List.drop_left, hstream]
  · intro other hmem
    rw [hlength]
    exact h.whole other (List.mem_cons_of_mem _ hmem)
  · rw [hlength]
    exact h.begun
  · rw [hindex, hlength]
    exact (Nat.sub_le _ _).trans h.index

/-- The turns of a pass go on while there is a packet. -/
theorem Takes.turns (htakes : Takes env pending Fit) (turns : ℕ) {received : Recv} {n : ℕ}
    (hbrings : Brings received n) (hsize : s.context.network.length ≤ usizeMax)
    (hturns : (s.context.index + n) / 2 < turns) (h : Queued pending Fit tail left (filled n s)) :
    ∃ left', Queued pending Fit tail left' (turnsFrom env false turns received s).2 ∧
      (∀ packet ∈ left'.head?,
        (turnsFrom env false turns received s).2.context.index < packet.length) ∧
      Settled (turnsFrom env false turns received s).1 ∧
      (turnsFrom env false turns received s).2.context.network.length =
        s.context.network.length := by
  induction turns generalizing received n s left with
  | zero => omega
  | succ turns ih =>
    have hindex : s.context.index + n ≤ s.context.network.length := h.index
    have hnext := nextPacket_brings env hbrings (hindex.trans hsize)
    rw [turnsFrom]
    rcases h.front_cases with ⟨packet, left', rfl, hpacket, hfront⟩ | ⟨hnone, hwaits⟩
    · rw [hfront] at hnext
      obtain ⟨v, hdone, hv, hvindex, hvlength⟩ := htakes.step h hpacket
      have htwo := (h.whole packet List.mem_cons_self).1.two_le
      have hvlength' : v.context.network.length = s.context.network.length := hvlength
      have hvindex' : v.context.index = s.context.index + n - packet.length := hvindex
      rw [Prog.bind_of_ok hnext, Prog.bind_of_ok hdone, Prog.bind_of_ok (context_apply v)]
      by_cases hempty : v.context.index = 0
      · rw [if_pos hempty]
        refine ⟨left', hv, ?_, .inl rfl, hvlength'⟩
        intro other hother
        have htwo' := (hv.whole other (List.mem_of_mem_head? hother)).1.two_le
        show v.context.index < other.length
        omega
      · rw [if_neg hempty]
        obtain ⟨left'', hlast, hwait, hend, hlength⟩ :=
          ih (s := v) (n := 0) (brings_next hbrings) (by omega) (by omega) hv
        exact ⟨left'', hlast, hwait, hend, hlength.trans hvlength'⟩
    · rcases hwaits with hfront | hfront
      · rw [hfront] at hnext
        rw [Prog.bind_of_error hnext]
        exact ⟨left, h, hnone, .inr (.inl rfl), rfl⟩
      · rw [hfront] at hnext
        rw [Prog.bind_of_error hnext]
        exact ⟨left, h, hnone, .inr (.inr rfl), rfl⟩

/-- A read puts the next bytes of the stream behind those that are there. -/
theorem readIn_supplied (hsupplies : Supplies env pending)
    (hindex : s.context.index ≤ s.context.network.length) :
    ∃ n received, readIn env s = (.ok received, handed env s) ∧ Brings received n ∧
      (handed env s).context.network.length = s.context.network.length ∧
      s.context.index + n ≤ s.context.network.length ∧
      (filled n (handed env s)).context.received ++ pending (handed env s).world =
        s.context.received ++ pending s.world := by
  set into := s.context.network.drop s.context.index with hinto
  have hroom : into.length = s.context.network.length - s.context.index := by
    rw [hinto, List.length_drop]
  have htaken : (s.context.network.take s.context.index).length = s.context.index := by
    rw [List.length_take, Nat.min_eq_left hindex]
  have hlength : (handed env s).context.network.length = s.context.network.length := by
    dsimp only [handed]
    rw [List.length_append, length_overlay, htaken, ← hinto, hroom]
    omega
  have hfilled {n : ℕ} : (filled n (handed env s)).context.received = s.context.received ++
      (overlay (env.recv into s.world).1.2 into).take n := by
    dsimp only [filled, handed, MqttContext.received]
    rw [List.take_append, htaken, Nat.add_sub_cancel_left, List.take_take,
      Nat.min_eq_right (Nat.le_add_right _ _)]
  have hread := readIn_apply env hindex
  rcases hsupplies.read into s.world with ⟨n, hcount, hn, hle, hdata, hpending⟩ | ⟨hnone, hpending⟩
  · have hgiven : n ≤ (env.recv into s.world).1.2.length := by
      have hlengths := congrArg List.length hdata
      rw [List.length_take, List.length_take] at hlengths
      omega
    refine ⟨n, _, hread, .inl hcount, hlength, by omega, ?_⟩
    rw [hfilled, take_overlay hgiven hn, hdata, List.append_assoc]
    show _ ++ (_ ++ pending (env.recv into s.world).2) = _
    rw [hpending, List.take_append_drop]
  · refine ⟨0, _, hread, .inr ⟨hnone, rfl⟩, hlength, hindex, ?_⟩
    rw [hfilled, List.take_zero, List.append_nil]
    exact congrArg (_ ++ ·) hpending

theorem finish_settled {r : Except Stop Unit} (h : Settled r) {p : Client W Unit} {t u : Sys W}
    (hp : p t = (r, u)) : ∃ answer, (attempt p >>= fun outcome => check id (finish outcome)) t =
      (answer, u) ∧ (answer = .ok () ∨ answer = .error (.error .needMoreBytes)) := by
  rcases h with rfl | rfl | rfl
  · have hcaught : attempt p t = (.ok (.ok ()), u) := by rw [attempt, hp]
    exact ⟨.ok (), Prog.bind_of_ok hcaught, .inl rfl⟩
  · have hcaught : attempt p t = (.ok (.error .noDataAvailable), u) := by rw [attempt, hp]
    exact ⟨.ok (), Prog.bind_of_ok hcaught, .inl rfl⟩
  · have hcaught : attempt p t = (.ok (.error .needMoreBytes), u) := by rw [attempt, hp]
    exact ⟨_, Prog.bind_of_ok hcaught, .inr rfl⟩

variable (env) in
def passes (n : ℕ) : List (Environment W × Request) :=
  List.replicate n (env, .traffic .receiveLoop)

section Passes

variable (htakes : Takes env pending Fit) (hsupplies : Supplies env pending)

include htakes hsupplies

theorem receiveLoop_queued (hsize : s.context.network.length ≤ usizeMax)
    (hpatience : s.context.network.length / 2 < env.patience)
    (h : Queued pending Fit tail left s) :
    ∃ left' answer t, receiveLoop env s = (answer, t) ∧
      (answer = .ok () ∨ answer = .error (.error .needMoreBytes)) ∧
      Queued pending Fit tail left' t ∧ (∀ packet ∈ left'.head?, t.context.index < packet.length) ∧
      t.context.network.length = s.context.network.length := by
  obtain ⟨n, received, hread, hbrings, hlength, hroom, hstream⟩ :=
    readIn_supplied hsupplies h.index
  set t := handed env s
  have hcounted : (filled n t).context.network.length = s.context.network.length := hlength
  have hqueued : Queued pending Fit tail left (filled n t) := by
    refine ⟨hstream.trans h.stream, ?_, ?_, ?_, htakes.reads n h.fit⟩
    · rw [hcounted]
      exact h.whole
    · rw [hcounted]
      exact h.begun
    · rw [hcounted]
      exact hroom
  have hturns : (t.context.index + n) / 2 < env.patience := by
    show (s.context.index + n) / 2 < env.patience
    omega
  obtain ⟨left', hlast, hwaits, hsettled, hsame⟩ :=
    htakes.turns env.patience hbrings (hlength ▸ hsize) hturns hqueued
  obtain ⟨answer, hrun, hanswer⟩ := finish_settled hsettled rfl
  refine ⟨left', answer, (turnsFrom env false env.patience received t).2, ?_, hanswer, hlast,
    hwaits, hsame.trans hlength⟩
  rw [receiveLoop, receiveSingleIteration, Prog.bind_of_ok hread]
  exact hrun

/-- Any number of passes. -/
theorem passes_queued (n : ℕ) (hsize : s.context.network.length ≤ usizeMax)
    (hpatience : s.context.network.length / 2 < env.patience)
    (h : Queued pending Fit tail left s) :
    ∃ left', (∀ answer ∈ ((machine W).run (passes env n) s).1,
        answer = .ok () ∨ answer = .error (.error .needMoreBytes)) ∧
      Queued pending Fit tail left' (after s (passes env n)) ∧
      ((0 < n ∨ ∀ packet ∈ left.head?, s.context.index < packet.length) →
        ∀ packet ∈ left'.head?, (after s (passes env n)).context.index < packet.length) := by
  induction n generalizing s left with
  | zero =>
    refine ⟨left, ?_, h, fun hn => hn.resolve_left (Nat.lt_irrefl 0)⟩
    intro answer hanswer
    cases hanswer
  | succ n ih =>
    obtain ⟨left', answer, t, hrun, hanswer, hnext, hwaits, hlength⟩ :=
      receiveLoop_queued htakes hsupplies hsize hpatience h
    have hstep : (machine W).step (env, .traffic .receiveLoop) s = (answer, t) := hrun
    obtain ⟨left'', hanswers, hlast, hwaits'⟩ := ih (hlength ▸ hsize) (hlength ▸ hpatience) hnext
    have hafter : after s (passes env (n + 1)) = after t (passes env n) := by
      show ((machine W).run (_ :: passes env n) s).2 = _
      rw [Machine.run_cons, hstep]
      rfl
    rw [hafter]
    refine ⟨left'', ?_, hlast, fun _ => hwaits' (.inr hwaits)⟩
    intro other hother
    have hcons : ((machine W).run (passes env (n + 1)) s).1 =
        answer :: ((machine W).run (passes env n) t).1 := by
      show ((machine W).run (_ :: passes env n) s).1 = _
      rw [Machine.run_cons, hstep]
    rw [hcons] at hother
    rcases List.mem_cons.mp hother with rfl | hother
    · exact hanswer
    · exact hanswers other hother

/-- Once the stream has been read every packet has been handled, and what is left of the stream is
in the buffer. -/
theorem passes_read {n : ℕ} (hsize : s.context.network.length ≤ usizeMax)
    (hpatience : s.context.network.length / 2 < env.patience)
    (h : Queued pending Fit tail left s) (hn : 0 < n)
    (hread : pending (after s (passes env n)).world = []) :
    (after s (passes env n)).context.received = tail ∧ Fit [] (after s (passes env n)) := by
  obtain ⟨left', -, hlast, hwaits⟩ := passes_queued htakes hsupplies n hsize hpatience h
  have hstream := hlast.stream
  rw [hread, List.append_nil] at hstream
  obtain rfl : left' = [] := by
    cases left' with
    | nil => rfl
    | cons packet left' =>
      have hless := hwaits (.inl hn) packet rfl
      have hlength := congrArg List.length hstream
      rw [MqttContext.length_received hlast.index, List.flatten_cons, List.length_append,
        List.length_append] at hlength
      omega
  exact ⟨hstream, hlast.fit⟩

end Passes

end Queued

/-- A script hands over its chunks one after the other. -/
theorem supplies_script (storing : Bool) :
    Supplies (Script.environment storing) fun w => w.reads.flatten where
  read into w := by
    rcases hreads : w.reads with _ | ⟨chunk, reads⟩
    · right
      simp [Script.environment, Script.recv, hreads]
    left
    refine ⟨(chunk.take into.length).length, ?_⟩
    have hflat : (if chunk.drop into.length = [] then reads
        else chunk.drop into.length :: reads).flatten =
          chunk.drop into.length ++ reads.flatten := by
      split_ifs with hrest
      · rw [hrest, List.nil_append]
      · exact List.flatten_cons
    simp only [Script.environment, Script.recv, hreads, hflat, List.flatten_cons, List.length_take,
      List.length_append, true_and]
    refine ⟨min_le_left _ _, ?_, ?_, ?_⟩
    · omega
    · rw [List.take_take, Nat.min_eq_left (Nat.min_le_left _ _),
        List.take_append_of_le_length (min_le_right _ _)]
    · rw [List.drop_append_of_le_length (min_le_right _ _)]
      congr 1
      rcases Nat.le_total into.length chunk.length with hle | hle
      · rw [Nat.min_eq_left hle]
      · rw [Nat.min_eq_right hle, List.drop_of_length_le hle, List.drop_length]
  clock _ := rfl
  send _ w := by
    rcases hsends : w.sends with _ | ⟨answer, sends⟩ <;>
      simp [Script.environment, Script.take, hsends]
  writev _ w := by
    rcases hsends : w.sends with _ | ⟨answer, sends⟩ <;>
      simp [Script.environment, Script.take, hsends]
  store _ _ _ := rfl
  clear _ _ := rfl
  event _ _ w := by
    rcases hanswers : w.answers with _ | ⟨answer, answers⟩ <;>
      simp [Script.environment, Script.onEvent, hanswers]

end Client

end RtosMqtt
