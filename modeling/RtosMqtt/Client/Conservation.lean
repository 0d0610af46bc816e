import RtosMqtt.Client.Assembly
import RtosMqtt.Client.Packets
import RtosMqtt.Client.Reassembly

/-! # Every byte that is read is handled once

What the transport delivered is in the buffer until the packet it belongs to has
been handled to the end. So what was in the buffer, and everything that was read,
are together the packets that were handled to the end, in order, and what is left
in the buffer. Only a DISCONNECT that cannot be read makes the client drop bytes.
-/

namespace RtosMqtt

variable {W α : Type}

def Observation.delivered : Observation → List UInt8
  | .received into (.bytes count) => into.take count
  | _ => []

def readings (log : List Observation) : List UInt8 := log.flatMap Observation.delivered

@[simp] theorem readings_nil : readings [] = [] := rfl

@[simp] theorem readings_append (log log' : List Observation) :
    readings (log ++ log') = readings log ++ readings log' := List.flatMap_append

abbrev Deaf : Sys W → Sys W → Prop := Logs fun o => o.delivered = []

theorem readings_of_deaf {log : List Observation} (h : ∀ o ∈ log, o.delivered = []) :
    readings log = [] := List.flatMap_eq_nil_iff.mpr h

theorem delivered_of_passive {o : Observation} (h : o.passive = true) : o.delivered = [] := by
  cases o with
  | received => cases h
  | _ => rfl

theorem Offered.deaf {env : Environment W} {packet : List UInt8} {s t : Sys W}
    (h : Offered env packet s t) : Deaf s t := by
  have hpasses : Client.Passes env (Deaf : Sys W → Sys W → Prop) :=
    ⟨fun _ => .one rfl rfl, fun _ _ => .same rfl, fun _ => .same rfl⟩
  obtain ⟨parts, -, rfl | ⟨buffer, -, rfl⟩⟩ := h
  · exact Client.sendVectors_moves hpasses (fun _ _ _ => .one rfl rfl) s
  · exact Client.sendBuffer_moves hpasses (fun _ _ => .one rfl rfl) s

theorem Course.deaf {env : Environment W} {may : Act → Prop} {s t : Sys W}
    (h : Course env may s t) (hmay : ¬ may .read) : Deaf s t := by
  apply h.keeps
  intro act s t hact hpiece
  cases hpiece with
  | note _ hlog _ =>
    obtain ⟨more, hmore, hpassive⟩ := hlog
    exact ⟨more, hmore, fun o ho => delivered_of_passive (hpassive o ho)⟩
  | mark h =>
    obtain ⟨_, _, _, _, rfl⟩ := h
    exact .same rfl
  | event => exact .one rfl rfl
  | call => exact .one rfl rfl
  | read => exact absurd hact hmay
  | send _ ho => exact ho.deaf
  | adjust _ _ hlog => exact .same hlog
  | lose => exact .same rfl
  | farewell _ _ _ _ ho => exact ho.deaf
  | close _ _ hlog => exact .same hlog
  | replace _ _ hlog => exact .same hlog
  | establish _ _ _ hlog => exact .same hlog
  | restore => exact .same rfl

/-- The buffer holds what it counts, and slices are no longer than an index can be. -/
structure MqttContext.Sized (c : MqttContext) : Prop where
  index : c.index ≤ c.network.length
  network : c.network.length ≤ usizeMax

theorem Steady.sized {s t : Sys W} (h : Steady s t) (hs : s.context.Sized) : t.context.Sized := by
  obtain ⟨hindex, hnetwork⟩ := hs
  constructor
  · rwa [h.index, h.network]
  · rwa [h.network]

theorem Steady.received {s t : Sys W} (h : Steady s t) :
    t.context.received = s.context.received := by
  rw [MqttContext.received, MqttContext.received, h.network, h.index]

theorem MqttContext.received_consume {c : MqttContext} (h : c.Sized) (total : ℕ) :
    (c.consume total).received = c.received.drop total := by
  have hlength : c.index - total ≤ (c.network.drop total).length := by
    rw [List.length_drop]
    have := h.index
    omega
  rw [MqttContext.received, MqttContext.received, MqttContext.consume,
    List.take_append_of_le_length hlength, List.drop_take]

theorem MqttContext.sized_consume {c : MqttContext} (h : c.Sized) (total : ℕ) :
    (c.consume total).Sized := by
  have hlength : (c.consume total).network.length = c.network.length := by
    simp only [MqttContext.consume, List.length_append, List.length_drop]
    omega
  have hindex := h.index
  constructor
  · rw [hlength]
    exact (Nat.sub_le _ _).trans hindex
  · rw [hlength]
    exact h.network

theorem MqttContext.isWhole_of_measure {c : MqttContext} {total : ℕ} (h : c.measure = .ok total)
    (hindex : total ≤ c.index) (hnetwork : total ≤ c.network.length) :
    IsWhole (c.network.take total) := by
  rw [MqttContext.measure] at h
  cases hheader : processIncomingPacketTypeAndLength c.network c.index with
  | error e =>
    rw [hheader] at h
    cases h
  | ok header =>
    rw [hheader] at h
    obtain rfl := Except.ok.inj h
    obtain ⟨hwf, hpre⟩ := processIncomingPacketTypeAndLength_eq_ok.mp hheader
    refine ⟨header, hwf, ?_, List.length_take_of_le hnetwork⟩
    have hfront := hpre.trans (List.take_prefix c.index c.network)
    apply List.prefix_of_prefix_length_le hfront (List.take_prefix _ _)
    rw [List.length_take_of_le hnetwork, hwf.width]
    omega

namespace Client

variable {env : Environment W}

theorem filled_sized {n : ℕ} {s : Sys W} (hs : s.context.Sized)
    (hroom : s.context.index + n ≤ s.context.network.length) : (filled n s).context.Sized :=
  ⟨hroom, hs.network⟩

theorem nextPacket_filled {manageKeepAlive : Bool} {received : Recv} {n : ℕ}
    (hbrings : Brings received n) {s : Sys W} (hroom : s.context.index + n ≤ usizeMax) :
    Steady (filled n s) (nextPacket env manageKeepAlive received s).2 := by
  rw [nextPacket, Prog.bind_of_ok (arrival_brings hbrings hroom)]
  exact Prog.rel_bind (steady_of_course env (keepAliveTurn_course (fun _ h => h) _ _ _ _)) fun _ =>
    (check_moves _ _).bind fun _ => context_moves.bind fun _ => (refuse_moves _ _).bind fun _ =>
      (refuse_moves _ _).bind fun _ => .pure _

theorem nextPacket_whole {manageKeepAlive : Bool} {received : Recv} {n total : ℕ}
    (hbrings : Brings received n) {s u : Sys W} (hroom : s.context.index + n ≤ usizeMax)
    (h : nextPacket env manageKeepAlive received s = (.ok total, u)) :
    IsWhole (u.context.network.take total) ∧ total ≤ u.context.index ∧
      total ≤ u.context.network.length := by
  rw [nextPacket, Prog.bind_of_ok (arrival_brings hbrings hroom), Prog.bind_eq_ok] at h
  obtain ⟨status, v, hturn, h⟩ := h
  rw [Prog.bind_eq_ok] at h
  obtain ⟨total', w, hcheck, h⟩ := h
  obtain ⟨hok, rfl⟩ := check_eq_ok.mp hcheck
  rw [Prog.bind_of_ok (context_apply w), Client.refuse, Prog.refuse_bind_eq_ok, Client.refuse,
    Prog.refuse_bind_eq_ok] at h
  obtain ⟨hnetwork, hindex, h⟩ := h
  obtain ⟨rfl, rfl⟩ : total' = total ∧ w = u := by simpa using h
  have hsteady := steady_of_course env
    (keepAliveTurn_course (fun _ h => h) manageKeepAlive received (filled n s).context.measure
      (filled n s))
  rw [hturn] at hsteady
  have hmeasure : w.context.measure = .ok total' := by
    rw [MqttContext.measure, hsteady.network, hsteady.index]
    exact keepAliveTurn_ok env hturn hok
  have hindex' := not_lt.mp hindex
  have hnetwork' := not_lt.mp hnetwork
  exact ⟨MqttContext.isWhole_of_measure hmeasure hindex' hnetwork', hindex', hnetwork'⟩

/-- The bytes of a packet that is handled to the end. -/
def spent (env : Environment W) (manageKeepAlive : Bool) (p : ℕ × Sys W) : List UInt8 :=
  if (processPacket env p.1 manageKeepAlive p.2).1 = .ok () then p.2.context.network.take p.1
  else []

/-- What the buffer held went to packets that were handled, and the rest is still there. -/
structure Conserves (s t : Sys W) (handled : List UInt8) : Prop where
  sized : t.context.Sized
  length : t.context.network.length = s.context.network.length
  bytes : s.context.received = handled ++ t.context.received

theorem Conserves.trans {s t u : Sys W} {handled handled' : List UInt8} (h : Conserves s t handled)
    (h' : Conserves t u handled') : Conserves s u (handled ++ handled') where
  sized := h'.sized
  length := h'.length.trans h.length
  bytes := by rw [h.bytes, h'.bytes, List.append_assoc]

theorem conserves_of_steady {s t : Sys W} (hs : s.context.Sized) (h : Steady s t) :
    Conserves s t [] where
  sized := h.sized hs
  length := congrArg List.length h.network
  bytes := h.received.symm

theorem processPacket_conserves {manageKeepAlive : Bool} {total : ℕ} {s : Sys W}
    (hs : s.context.Sized) (hindex : total ≤ s.context.index) (hdisturbs : ¬ Disturbs total s) :
    Conserves s (processPacket env total manageKeepAlive s).2
      (spent env manageKeepAlive (total, s)) := by
  rcases hhandled : handlePacket env total manageKeepAlive s with ⟨e | _, u⟩
  · have hsteady := (handlePacket_buffer env total manageKeepAlive s).resolve_left
      fun h => hdisturbs h.1
    rw [hhandled] at hsteady
    rw [spent, processPacket_of_error env hhandled, if_neg (by simp)]
    exact conserves_of_steady hs hsteady.2
  · obtain ⟨v, hdone, -⟩ := processPacket_of_ok env hhandled
    obtain ⟨hv, hnetwork⟩ := processPacket_buffer env hdone
    have hsized := MqttContext.sized_consume hs total
    have hbytes := MqttContext.received_consume hs total
    rw [spent, hdone, if_pos rfl]
    constructor
    · constructor
      · rw [hv, hnetwork]
        exact hsized.index
      · rw [hnetwork]
        exact hsized.network
    · simp only [hnetwork, MqttContext.consume, List.length_append, List.length_drop]
      have hle := hs.index
      omega
    · have hrest : v.context.received = s.context.received.drop total := by
        rw [← hbytes, MqttContext.received, MqttContext.received, hnetwork, hv]
        rfl
      have hpacket : s.context.network.take total = s.context.received.take total := by
        rw [MqttContext.received, List.take_take, Nat.min_eq_left hindex]
      rw [hrest, hpacket, List.take_append_drop]

theorem turnsFrom_conserves {manageKeepAlive : Bool} {turns : ℕ} {received : Recv} {n : ℕ}
    (hbrings : Brings received n) (hturns : 0 < turns ∨ n = 0) {s : Sys W} (hs : s.context.Sized)
    (hroom : s.context.index + n ≤ s.context.network.length)
    (hdisturbs : ∀ p ∈ handledFrom env manageKeepAlive turns received s, ¬ Disturbs p.1 p.2) :
    Conserves (filled n s) (turnsFrom env manageKeepAlive turns received s).2
        ((handledFrom env manageKeepAlive turns received s).flatMap (spent env manageKeepAlive)) ∧
      ∀ p ∈ handledFrom env manageKeepAlive turns received s,
        IsWhole (p.2.context.network.take p.1) := by
  induction turns generalizing received n s with
  | zero =>
    obtain rfl : n = 0 := hturns.resolve_left (Nat.lt_irrefl 0)
    exact ⟨conserves_of_steady (s := filled 0 s) hs (refl_of Steady _), fun p hp => by cases hp⟩
  | succ turns ih =>
    have hsized := filled_sized hs hroom
    have hle := hroom.trans hs.network
    have hsteady : Steady (filled n s) (nextPacket env manageKeepAlive received s).2 :=
      nextPacket_filled hbrings hle
    rw [handledFrom] at hdisturbs ⊢
    rw [turnsFrom]
    rcases hnext : nextPacket env manageKeepAlive received s with ⟨e | total, u⟩
    · rw [hnext] at hsteady
      rw [Prog.bind_of_error hnext]
      exact ⟨conserves_of_steady hsized hsteady, fun p hp => by cases hp⟩
    rw [hnext] at hsteady hdisturbs
    rw [Prog.bind_of_ok hnext]
    obtain ⟨hwhole, hindex, -⟩ := nextPacket_whole hbrings hle hnext
    have hfirst : Conserves (filled n s) (processPacket env total manageKeepAlive u).2
        (spent env manageKeepAlive (total, u)) :=
      (conserves_of_steady hsized hsteady).trans (processPacket_conserves (hsteady.sized hsized)
        hindex (hdisturbs _ List.mem_cons_self))
    dsimp only at hdisturbs ⊢
    rcases hdone : processPacket env total manageKeepAlive u with ⟨e | _, v⟩
    · rw [hdone] at hfirst
      rw [Prog.bind_of_error hdone]
      exact ⟨by simpa using hfirst, by simpa using hwhole⟩
    rw [hdone] at hfirst hdisturbs
    rw [Prog.bind_of_ok hdone, Prog.bind_of_ok (context_apply v)]
    dsimp only at hfirst hdisturbs ⊢
    by_cases hempty : v.context.index = 0
    · rw [if_pos hempty, if_pos hempty]
      exact ⟨by simpa using hfirst, by simpa using hwhole⟩
    · rw [if_neg hempty] at hdisturbs
      rw [if_neg hempty, if_neg hempty]
      obtain ⟨hrest, hwholes⟩ := ih (brings_next hbrings) (.inr rfl) hfirst.sized hfirst.sized.index
        fun p hp => hdisturbs p (List.mem_cons_of_mem _ hp)
      exact ⟨hfirst.trans hrest, List.forall_mem_cons.mpr ⟨hwhole, hwholes⟩⟩

end Client

/-- A transport says no more than it was asked for, and a pass makes at least one turn. -/
structure Honest (env : Environment W) : Prop where
  count : ∀ {into w n}, (env.recv into w).1.1 = .bytes n → n ≤ into.length
  turns : 0 < env.patience

/-- What was in the buffer and what was read went to packets that were handled, and the rest is in
the buffer. -/
structure Accounts (s t : Sys W) (handled : List UInt8) : Prop where
  sized : t.context.Sized
  length : t.context.network.length = s.context.network.length
  bytes : ∃ more, t.log = s.log ++ more ∧
    s.context.received ++ readings more = handled ++ t.context.received

theorem Accounts.trans {s t u : Sys W} {handled handled' : List UInt8}
    (h : Accounts s t handled) (h' : Accounts t u handled') :
    Accounts s u (handled ++ handled') := by
  obtain ⟨more, ht, hbytes⟩ := h.bytes
  obtain ⟨rest, hu, hrest⟩ := h'.bytes
  refine ⟨h'.sized, h'.length.trans h.length, more ++ rest, by rw [hu, ht, List.append_assoc], ?_⟩
  rw [readings_append, ← List.append_assoc, hbytes, List.append_assoc, hrest, List.append_assoc]

theorem Accounts.noted {s t : Sys W} {handled : List UInt8} (h : Accounts s t handled) :
    s.context.received ++ readings (noted s t) = handled ++ t.context.received := by
  obtain ⟨more, hlog, hbytes⟩ := h.bytes
  rwa [noted_eq hlog]

namespace Client

variable {env : Environment W}

theorem Conserves.accounts {s t : Sys W} {handled : List UInt8} (h : Conserves s t handled)
    (hdeaf : Deaf s t) : Accounts s t handled := by
  obtain ⟨more, hlog, hnone⟩ := hdeaf
  refine ⟨h.sized, h.length, more, hlog, ?_⟩
  rw [readings_of_deaf hnone, List.append_nil]
  exact h.bytes

/-- What was read is counted by the turn after it. -/
theorem handed_accounts {s : Sys W} (hs : s.context.Sized) {n : ℕ}
    (hcount : (env.recv (s.context.network.drop s.context.index) s.world).1.1 = .bytes n ∨ n = 0 ∧
      ∀ count, (env.recv (s.context.network.drop s.context.index) s.world).1.1 ≠ .bytes count)
    (hroom : s.context.index + n ≤ s.context.network.length) :
    Accounts s (filled n (handed env s)) [] := by
  have htaken : (s.context.network.take s.context.index).length = s.context.index := by
    rw [List.length_take, Nat.min_eq_left hs.index]
  have hlength : (handed env s).context.network.length = s.context.network.length := by
    dsimp only [handed]
    rw [List.length_append, length_overlay, htaken, List.length_drop]
    have := hs.index
    omega
  refine ⟨⟨?_, ?_⟩, hlength, _, rfl, ?_⟩
  · exact hroom.trans hlength.ge
  · exact hlength.le.trans hs.network
  · have hfilled : (filled n (handed env s)).context.received = s.context.received ++
        (overlay (env.recv (s.context.network.drop s.context.index) s.world).1.2
          (s.context.network.drop s.context.index)).take n := by
      dsimp only [filled, handed, MqttContext.received]
      rw [List.take_append, htaken, Nat.add_sub_cancel_left, List.take_take,
        Nat.min_eq_right (Nat.le_add_right _ _)]
    rw [hfilled, List.nil_append]
    congr 1
    rcases hcount with hcount | ⟨rfl, hnone⟩
    · simp [readings, Observation.delivered, hcount]
    · cases hkind : (env.recv (s.context.network.drop s.context.index) s.world).1.1 with
      | bytes count => exact absurd hkind (hnone count)
      | nothing => simp [readings, Observation.delivered]
      | failed => simp [readings, Observation.delivered]

theorem turnsFrom_failed_steady (manageKeepAlive : Bool) (turns : ℕ) (s : Sys W) :
    Steady s (turnsFrom env manageKeepAlive turns .failed s).2 ∧
      handledFrom env manageKeepAlive turns .failed s = [] := by
  cases turns with
  | zero => exact ⟨refl_of Steady s, rfl⟩
  | succ turns =>
    have hnext : nextPacket env manageKeepAlive .failed s =
        (.error (.error .recvFailed), (connectionLost s).2) := rfl
    rw [turnsFrom, handledFrom, Prog.bind_of_error hnext, hnext]
    exact ⟨(connectionLost_io s).steady, rfl⟩

/-- One pass: what was read went to the packets that were handled, or is in the buffer. -/
theorem receiveSingleIteration_accounts (henv : Honest env) (manageKeepAlive : Bool) {s : Sys W}
    (hs : s.context.Sized)
    (hdisturbs : ∀ p ∈ handledIn env manageKeepAlive s, ¬ Disturbs p.1 p.2) :
    Accounts s (receiveSingleIteration env manageKeepAlive s).2
        ((handledIn env manageKeepAlive s).flatMap (spent env manageKeepAlive)) ∧
      ∀ p ∈ handledIn env manageKeepAlive s, IsWhole (p.2.context.network.take p.1) := by
  have hread := readIn_apply env hs.index
  rw [handledIn, hread] at hdisturbs ⊢
  rw [receiveSingleIteration, Prog.bind_of_ok hread, attempt_bind_snd fun _ _ => rfl]
  dsimp only at hdisturbs ⊢
  have hdeaf (received : Recv) (t : Sys W) :
      Deaf t (turnsFrom env manageKeepAlive env.patience received t).2 :=
    Course.deaf (@turnsFrom_course W env (fun act => act.looping = true) (fun _ h => h)
      manageKeepAlive env.patience received t) (by decide)
  have hturns {received : Recv} {n : ℕ} (hbrings : Brings received n)
      (hhanded : Accounts s (filled n (handed env s)) [])
      (hdisturbs : ∀ p ∈ handledFrom env manageKeepAlive env.patience received (handed env s),
        ¬ Disturbs p.1 p.2) :
      Accounts s (turnsFrom env manageKeepAlive env.patience received (handed env s)).2
          ((handledFrom env manageKeepAlive env.patience received (handed env s)).flatMap
            (spent env manageKeepAlive)) ∧
        ∀ p ∈ handledFrom env manageKeepAlive env.patience received (handed env s),
          IsWhole (p.2.context.network.take p.1) := by
    have hroom := hhanded.sized.index
    have hsized : (handed env s).context.Sized :=
      ⟨(Nat.le_add_right _ n).trans hroom, hhanded.sized.network⟩
    obtain ⟨hconserves, hwhole⟩ := turnsFrom_conserves hbrings (.inl henv.turns) hsized hroom
      hdisturbs
    exact ⟨hhanded.trans (hconserves.accounts (hdeaf _ _)), hwhole⟩
  have hdrop : (s.context.network.drop s.context.index).length =
      s.context.network.length - s.context.index := List.length_drop
  have hlength := hs.index
  cases hkind : (env.recv (s.context.network.drop s.context.index) s.world).1.1 with
  | bytes n =>
    have hn := henv.count hkind
    rw [hkind] at hdisturbs
    exact hturns (.inl rfl) (handed_accounts hs (.inl hkind) (by omega)) hdisturbs
  | nothing =>
    rw [hkind] at hdisturbs
    exact hturns (.inr ⟨rfl, rfl⟩)
      (handed_accounts hs (.inr ⟨rfl, fun count h => by rw [hkind] at h; cases h⟩) hlength)
      hdisturbs
  | failed =>
    have hhanded : Accounts s (filled 0 (handed env s)) [] :=
      handed_accounts hs (.inr ⟨rfl, fun count h => by rw [hkind] at h; cases h⟩) hlength
    obtain ⟨hsteady, hnone⟩ :=
      @turnsFrom_failed_steady W env manageKeepAlive env.patience (handed env s)
    have hrest : Accounts (filled 0 (handed env s)) _ [] :=
      (conserves_of_steady hhanded.sized hsteady).accounts (hdeaf .failed (handed env s))
    rw [hnone]
    exact ⟨hhanded.trans hrest, fun p hp => by cases hp⟩

end Client

/-- The calls that leave the buffer to the loop. -/
def Invocation.keepsBuffer : Invocation → Bool
  | .request (.connect _ _) | .request (.traffic (.disconnect _ _)) | .recvExact _ => false
  | _ => true

namespace Client

variable {env : Environment W}

def Handled.packet (h : Handled W) : List UInt8 := h.before.context.network.take h.total

/-- The bytes of the packet, if it was handled to the end. -/
def Handled.spent (h : Handled W) : List UInt8 :=
  Client.spent h.env h.manageKeepAlive (h.total, h.before)

theorem accounts_of_kept {s t : Sys W} (hs : s.context.Sized)
    (hnetwork : t.context.network = s.context.network) (hindex : t.context.index = s.context.index)
    (hdeaf : Deaf s t) : Accounts s t [] := by
  have hconserves : Conserves s t [] := by
    constructor
    · exact ⟨by rw [hindex, hnetwork]; exact hs.index, by rw [hnetwork]; exact hs.network⟩
    · rw [hnetwork]
    · rw [List.nil_append, MqttContext.received, MqttContext.received, hindex, hnetwork]
  exact hconserves.accounts hdeaf

theorem accounts_of_handling {env : Environment W} {p : Client W α}
    (hcourse : p.Moves (Course env fun act => act.handling = true)) {s : Sys W}
    (hs : s.context.Sized) : Accounts s (p s).2 [] := by
  have hsteady := steady_of_course env (hcourse s)
  exact accounts_of_kept hs hsteady.network hsteady.index ((hcourse s).deaf (by simp [Act.handling]))

theorem accounts_of_update {f : MqttContext → MqttContext}
    (hf : ∀ c, (f c).network = c.network ∧ (f c).index = c.index) {s : Sys W}
    (hs : s.context.Sized) : Accounts s (update f s).2 [] :=
  accounts_of_kept hs (hf s.context).1 (hf s.context).2 (.same rfl)

theorem sendPublishAcks_steady (packetId : UInt16) (state : PublishState) :
    (sendPublishAcks env packetId state).Moves Steady := by
  unfold sendPublishAcks
  split
  · exact .pure _
  have hrecorded (ack : AckType) : (updateAck packetId ack .send : Client W _).Moves Steady :=
    (@updateAck_course W env (fun act => act.handling = true) rfl packetId ack .send).mono
      (steady_of_course env)
  exact (check_moves _ _).bind fun _ => connected_moves.bind fun _ =>
    ((sendBuffer_io env _).mono Io.steady).bind fun _ => (sentWhole_moves _ _).bind fun _ =>
      (update_steady fun _ => ⟨by rfl, by rfl, by rfl, by rfl⟩).bind fun _ =>
        (hrecorded _).bind fun _ => (accepted_moves _).bind fun _ => .pure _

/-- A call that runs no pass. -/
theorem perform_accounts {call : Invocation} (hpass : call.passes = false)
    (hcall : call.keepsBuffer = true) {s : Sys W} (hs : s.context.Sized) :
    Accounts s (call.perform env s).2 [] := by
  have hsized (act : Act) (h : act = .send .sized) : act.handling = true := by rw [h]; rfl
  have hlist (list : List Subscription) (packetId : UInt16) (properties : List UInt8)
      (which : SubscriptionType) : (sendList env list packetId properties which).Moves
        (Course env fun act => act.handling = true) := sendList_course (hsized _ rfl) _ _ _ _
  cases call with
  | request call =>
    cases call with
    | enableQos outgoing incoming ackProperties =>
      exact accounts_of_update (fun _ => ⟨by rfl, by rfl⟩) hs
    | connect options timeoutMs => cases hcall
    | traffic call =>
      cases call with
      | processLoop => cases hpass
      | receiveLoop => cases hpass
      | publish message packetId =>
        exact accounts_of_handling (publish_course (fun _ h => h) message packetId) hs
      | cancelCallback packetId =>
        exact accounts_of_handling
          (@cancelCallback_course W env (fun act => act.handling = true) rfl packetId) hs
      | ping => exact accounts_of_handling (ping_course fun _ h => h) hs
      | disconnect reasonCode properties => cases hcall
  | subscribe list packetId properties => exact accounts_of_handling (hlist _ _ _ _) hs
  | unsubscribe list packetId properties => exact accounts_of_handling (hlist _ _ _ _) hs
  | sendPublishAcks packetId state =>
    have hsteady : Steady s (sendPublishAcks env packetId state s).2 :=
      sendPublishAcks_steady packetId state s
    exact accounts_of_kept hs hsteady.network hsteady.index
      ((perform_course (.sendPublishAcks packetId state) s).deaf (by simp [Invocation.may]))
  | recvExact wanted => cases hcall
  | set setting => exact accounts_of_update (fun _ => by cases setting <;> exact ⟨rfl, rfl⟩) hs

theorem handledBy_accounts {call : Environment W × Invocation} (henv : Honest call.1)
    (hcall : call.2.keepsBuffer = true) {s : Sys W} (hs : s.context.Sized)
    (hdisturbs : ∀ h ∈ handledBy call s, ¬ Disturbs h.total h.before) :
    Accounts s (call.2.perform call.1 s).2 ((handledBy call s).flatMap Handled.spent) ∧
      ∀ h ∈ handledBy call s, IsWhole h.packet := by
  obtain ⟨env, call⟩ := call
  have hpass (manageKeepAlive : Bool) (last : Sys W) {u : Sys W} (hu : u.context.Sized)
      (hdisturbs : ∀ h ∈ (handledIn env manageKeepAlive u).map fun p =>
        (⟨env, manageKeepAlive, p.1, p.2, last⟩ : Handled W), ¬ Disturbs h.total h.before) :
      Accounts u (receiveSingleIteration env manageKeepAlive u).2
          (((handledIn env manageKeepAlive u).map fun p =>
            (⟨env, manageKeepAlive, p.1, p.2, last⟩ : Handled W)).flatMap Handled.spent) ∧
        ∀ h ∈ (handledIn env manageKeepAlive u).map fun p =>
          (⟨env, manageKeepAlive, p.1, p.2, last⟩ : Handled W), IsWhole h.packet := by
    rw [List.forall_mem_map] at hdisturbs
    rw [List.forall_mem_map, List.flatMap_map]
    exact receiveSingleIteration_accounts henv manageKeepAlive hu hdisturbs
  have hnone (hpasses : call.passes = false) (hnil : handledBy (env, call) s = []) :
      Accounts s (call.perform env s).2 ((handledBy (env, call) s).flatMap Handled.spent) ∧
        ∀ h ∈ handledBy (env, call) s, IsWhole h.packet := by
    rw [hnil]
    exact ⟨perform_accounts hpasses hcall hs, fun h hh => by cases hh⟩
  rcases call with (_ | _ | traffic) | _ | _ | _ | _ | _
  case request.traffic =>
    cases traffic with
    | processLoop =>
      have hbegun : Accounts s { s with
          context := { s.context with controlPacketSent := false } } [] :=
        accounts_of_kept hs rfl rfl (.same rfl)
      obtain ⟨hbytes, hwhole⟩ := hpass true _ hbegun.sized hdisturbs
      exact ⟨hbegun.trans hbytes, hwhole⟩
    | receiveLoop => exact hpass false _ hs hdisturbs
    | _ => exact hnone rfl rfl
  all_goals exact hnone rfl rfl

/-- In every run of calls that leave the buffer to the loop, whatever arrives and however it is cut:
what was in the buffer and what was read are, byte for byte and in order, the whole packets that
were handled to the end, and what is still in the buffer. -/
theorem bytes_handled_once {calls : List (Environment W × Invocation)}
    (henv : ∀ call ∈ calls, Honest call.1) (hcalls : ∀ call ∈ calls, call.2.keepsBuffer = true)
    {s : Sys W} (hs : s.context.Sized)
    (hdisturbs : ∀ h ∈ handledInRun calls s, ¬ Disturbs h.total h.before) :
    s.context.received ++ readings (noted s (afterAll s calls)) =
        (handledInRun calls s).flatMap Handled.spent ++ (afterAll s calls).context.received ∧
      (∀ h ∈ handledInRun calls s, IsWhole h.packet) ∧ (afterAll s calls).context.Sized := by
  have hrun : Accounts s (afterAll s calls) ((handledInRun calls s).flatMap Handled.spent) ∧
      ∀ h ∈ handledInRun calls s, IsWhole h.packet := by
    induction calls generalizing s with
    | nil =>
      have hsteady : Steady s s := refl_of Steady s
      exact ⟨(conserves_of_steady hs hsteady).accounts (.same rfl), fun h hh => by cases hh⟩
    | cons call calls ih =>
      rw [List.forall_mem_cons] at henv hcalls
      rw [handledInRun, List.forall_mem_append] at hdisturbs
      obtain ⟨hfirst, hwhole⟩ := handledBy_accounts henv.1 hcalls.1 hs hdisturbs.1
      obtain ⟨hrest, hwholes⟩ := ih henv.2 hcalls.2 hfirst.sized hdisturbs.2
      rw [handledInRun, List.flatMap_append, List.forall_mem_append]
      exact ⟨hfirst.trans hrest, hwhole, hwholes⟩
  exact ⟨hrun.1.noted, hrun.2, hrun.1.sized⟩

theorem honest_script (storing : Bool) : Honest (Script.environment storing) where
  count {into w n} h := by
    obtain ⟨reads, sends, kept, answers⟩ := w
    cases reads with
    | nil => cases h
    | cons chunk reads =>
      obtain rfl := Recv.bytes.inj h
      exact List.length_take_le _ _
  turns := Nat.succ_pos 7

/-- Two messages in two reads, cut inside the first one and behind the first byte of a third. -/
def cutMessages : Sys Script :=
  start (List.replicate 16 0)
    { reads := [[0x30, 4, 0, 1, 97], [0, 0x30, 4, 0, 1, 98, 0, 0x30]] }

/-- Both messages are handled whole, and the byte behind them waits. -/
theorem cutMessages_handled_once :
    let calls := List.replicate 2 (Script.environment false, Invocation.request (.traffic .receiveLoop))
    readings (noted cutMessages (afterAll cutMessages calls)) =
        [0x30, 4, 0, 1, 97, 0] ++ [0x30, 4, 0, 1, 98, 0] ++ [0x30] ∧
      cutMessages.context.received ++ readings (noted cutMessages (afterAll cutMessages calls)) =
        (handledInRun calls cutMessages).flatMap Handled.spent ++
          (afterAll cutMessages calls).context.received := by
  intro calls
  have hcall : ∀ call ∈ calls, call = (Script.environment false, .request (.traffic .receiveLoop)) :=
    fun call => List.eq_of_mem_replicate
  have hdisturbs : ∀ h ∈ handledInRun calls cutMessages, ¬ Disturbs h.total h.before := by
    have hheads : ∀ h ∈ handledInRun calls cutMessages,
        h.before.context.network.head? = some 0x30 := by
      decide +kernel
    rintro h hh ⟨packetType, hhead, view, -, rfl, -⟩
    rw [hheads h hh] at hhead
    exact absurd hhead (by decide)
  refine ⟨by decide +kernel, (bytes_handled_once ?_ ?_ ⟨by decide, by decide⟩ hdisturbs).1⟩
  · intro call hmem
    rw [hcall call hmem]
    exact honest_script false
  · intro call hmem
    rw [hcall call hmem]
    rfl

end Client

end RtosMqtt
