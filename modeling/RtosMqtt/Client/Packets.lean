import RtosMqtt.Client.Consumption
import RtosMqtt.Client.Reachable

/-! # What holds at every packet

A pass of the loop reads, measures and handles in turns. What each of these parts
keeps holds whenever a packet is handed over, in every run in which the other
calls keep it too.
-/

namespace RtosMqtt

variable {W : Type}

/-- An invariant is kept from one state to another. -/
def Keeping (I : Sys W → Prop) (s t : Sys W) : Prop := I s → I t

instance (I : Sys W → Prop) : IsPreorder (Sys W) (Keeping I) where
  refl _ h := h
  trans _ _ _ h h' hs := h' (h hs)

structure KeptByPass (env : Environment W) (I : Sys W → Prop) : Prop where
  begin : ∀ s, I s → I { s with context := { s.context with controlPacketSent := false } }
  readIn : (Client.readIn env).Moves (Keeping I)
  nextPacket : ∀ manageKeepAlive received,
    (Client.nextPacket env manageKeepAlive received).Moves (Keeping I)
  processPacket : ∀ total manageKeepAlive,
    (Client.processPacket env total manageKeepAlive).Moves (Keeping I)

/-- The parts of a pass keep an invariant while the packets handed over meet a condition. -/
structure KeptWhile (env : Environment W) (C : Bool → ℕ → Sys W → Prop) (I : Sys W → Prop) :
    Prop where
  begin : ∀ s, I s → I { s with context := { s.context with controlPacketSent := false } }
  readIn : (Client.readIn env).Moves (Keeping I)
  nextPacket : ∀ manageKeepAlive received,
    (Client.nextPacket env manageKeepAlive received).Moves (Keeping I)
  processPacket : ∀ total manageKeepAlive s, I s → C manageKeepAlive total s →
    I (Client.processPacket env total manageKeepAlive s).2

theorem KeptByPass.keptWhile {env : Environment W} {I : Sys W → Prop} (h : KeptByPass env I) :
    KeptWhile env (fun _ _ _ => True) I where
  begin := h.begin
  readIn := h.readIn
  nextPacket := h.nextPacket
  processPacket total manageKeepAlive s hs _ := h.processPacket total manageKeepAlive s hs

namespace Client

variable {env : Environment W} {I : Sys W → Prop}

variable {C : Bool → ℕ → Sys W → Prop}

theorem turnsFrom_while (hpass : KeptWhile env C I) (manageKeepAlive : Bool) (turns : ℕ)
    {received : Recv} {s : Sys W} (hs : I s)
    (hC : ∀ p ∈ handledFrom env manageKeepAlive turns received s, C manageKeepAlive p.1 p.2) :
    (∀ p ∈ handledFrom env manageKeepAlive turns received s, I p.2) ∧
      I (turnsFrom env manageKeepAlive turns received s).2 := by
  induction turns generalizing received s with
  | zero => exact ⟨fun p hp => absurd hp List.not_mem_nil, hs⟩
  | succ turns ih =>
    have hnext := hpass.nextPacket manageKeepAlive received s hs
    rw [handledFrom] at hC ⊢
    rw [turnsFrom]
    rcases h : nextPacket env manageKeepAlive received s with ⟨e | total, u⟩
    · rw [h] at hnext
      rw [Prog.bind_of_error h]
      exact ⟨fun p hp => absurd hp List.not_mem_nil, hnext⟩
    rw [h] at hC hnext
    rw [Prog.bind_of_ok h]
    dsimp only at hC ⊢
    have hprocessed := hpass.processPacket total manageKeepAlive u hnext (hC _ List.mem_cons_self)
    rcases hu : processPacket env total manageKeepAlive u with ⟨e | _, v⟩
    · rw [hu] at hprocessed
      rw [Prog.bind_of_error hu]
      exact ⟨fun p hp => by rwa [List.mem_singleton.mp hp], hprocessed⟩
    rw [hu] at hC hprocessed
    rw [Prog.bind_of_ok hu, Prog.bind_of_ok (context_apply v)]
    dsimp only at hC ⊢
    by_cases hempty : v.context.index = 0
    · rw [if_pos hempty, if_pos hempty]
      exact ⟨fun p hp => by rwa [List.mem_singleton.mp hp], hprocessed⟩
    · rw [if_neg hempty] at hC ⊢
      rw [if_neg hempty]
      obtain ⟨hrest, hlast⟩ := ih hprocessed fun p hp => hC p (List.mem_cons_of_mem _ hp)
      refine ⟨?_, hlast⟩
      intro p hp
      rcases List.mem_cons.mp hp with rfl | hp
      · exact hnext
      · exact hrest p hp

theorem receiveSingleIteration_while (hpass : KeptWhile env C I) (manageKeepAlive : Bool)
    {s : Sys W} (hs : I s)
    (hC : ∀ p ∈ handledIn env manageKeepAlive s, C manageKeepAlive p.1 p.2) :
    (∀ p ∈ handledIn env manageKeepAlive s, I p.2) ∧
      I (receiveSingleIteration env manageKeepAlive s).2 := by
  have hread := hpass.readIn s hs
  rw [handledIn] at hC ⊢
  rw [receiveSingleIteration]
  rcases h : readIn env s with ⟨e | received, t⟩
  · rw [h] at hread
    rw [Prog.bind_of_error h]
    exact ⟨fun p hp => absurd hp List.not_mem_nil, hread⟩
  · rw [h] at hC hread
    rw [Prog.bind_of_ok h, attempt_bind_snd fun _ _ => rfl]
    exact turnsFrom_while hpass manageKeepAlive env.patience hread hC

end Client

/-- The calls that run a pass of the loop. -/
def Invocation.passes : Invocation → Bool
  | .request (.traffic .processLoop) | .request (.traffic .receiveLoop) => true
  | _ => false

namespace Client

variable {env : Environment W} {I : Sys W → Prop}

theorem handledBy_env (call : Environment W × Invocation) (s : Sys W) :
    ∀ h ∈ handledBy call s, h.env = call.1 := by
  obtain ⟨env, call⟩ := call
  intro h hh
  rcases call with (_ | _ | traffic) | _ | _ | _ | _ | _
  case request.traffic =>
    cases traffic with
    | processLoop =>
      obtain ⟨p, -, rfl⟩ := List.mem_map.mp hh
      rfl
    | receiveLoop =>
      obtain ⟨p, -, rfl⟩ := List.mem_map.mp hh
      rfl
    | _ => cases hh
  all_goals cases hh

theorem handledBy_while {C : Bool → ℕ → Sys W → Prop} {call : Environment W × Invocation}
    (hcall : call.2.passes = false → (call.2.perform call.1).Moves (Keeping I))
    (hpass : KeptWhile call.1 C I) {s : Sys W} (hs : I s)
    (hC : ∀ h ∈ handledBy call s, C h.manageKeepAlive h.total h.before) :
    (∀ h ∈ handledBy call s, I h.before) ∧ I (call.2.perform call.1 s).2 := by
  obtain ⟨env, call⟩ := call
  rcases call with (_ | _ | traffic) | _ | _ | _ | _ | _
  case request.traffic =>
    cases traffic with
    | processLoop =>
      obtain ⟨hhanded, hlast⟩ := receiveSingleIteration_while hpass true (hpass.begin s hs)
        fun p hp => hC _ (List.mem_map_of_mem hp)
      refine ⟨?_, hlast⟩
      intro h hh
      obtain ⟨p, hp, rfl⟩ := List.mem_map.mp hh
      exact hhanded p hp
    | receiveLoop =>
      obtain ⟨hhanded, hlast⟩ := receiveSingleIteration_while hpass false hs
        fun p hp => hC _ (List.mem_map_of_mem hp)
      refine ⟨?_, hlast⟩
      intro h hh
      obtain ⟨p, hp, rfl⟩ := List.mem_map.mp hh
      exact hhanded p hp
    | _ => exact ⟨fun h hh => absurd hh List.not_mem_nil, hcall rfl s hs⟩
  all_goals exact ⟨fun h hh => absurd hh List.not_mem_nil, hcall rfl s hs⟩

/-- In every run whose packets meet a condition, what each other call and each part of a pass keeps
under it holds at every packet, and in the end. -/
theorem handledInRun_while {C : Environment W → Bool → ℕ → Sys W → Prop}
    {calls : List (Environment W × Invocation)} {s : Sys W} (hs : I s)
    (hcalls : ∀ call ∈ calls, call.2.passes = false →
      (call.2.perform call.1).Moves (Keeping I))
    (hpass : ∀ call ∈ calls, KeptWhile call.1 (C call.1) I)
    (hC : ∀ h ∈ handledInRun calls s, C h.env h.manageKeepAlive h.total h.before) :
    (∀ h ∈ handledInRun calls s, I h.before) ∧ I (afterAll s calls) := by
  induction calls generalizing s with
  | nil => exact ⟨fun h hh => absurd hh List.not_mem_nil, hs⟩
  | cons call calls ih =>
    have henv : ∀ h ∈ handledBy call s, h.env = call.1 := handledBy_env call s
    obtain ⟨hfirst, hnext⟩ := handledBy_while (hcalls call List.mem_cons_self)
      (hpass call List.mem_cons_self) hs fun h hh => by
        have hmet := hC h (List.mem_append_left _ hh)
        rwa [henv h hh] at hmet
    obtain ⟨hrest, hlast⟩ := ih hnext (fun c hc => hcalls c (List.mem_cons_of_mem call hc))
      (fun c hc => hpass c (List.mem_cons_of_mem call hc))
      fun h hh => hC h (List.mem_append_right _ hh)
    refine ⟨?_, hlast⟩
    intro h hh
    rcases List.mem_append.mp hh with hh | hh
    · exact hfirst h hh
    · exact hrest h hh

theorem handledInRun_of {calls : List (Environment W × Invocation)} {s : Sys W} (hs : I s)
    (hcalls : ∀ call ∈ calls, (call.2.perform call.1).Moves (Keeping I))
    (hpass : ∀ call ∈ calls, KeptByPass call.1 I) : ∀ h ∈ handledInRun calls s, I h.before :=
  (handledInRun_while (C := fun _ _ _ _ => True) hs (fun call hcall _ => hcalls call hcall)
    (fun call hcall => (hpass call hcall).keptWhile) fun _ _ => trivial).1

theorem wellKept_of_course {α : Type} {p : Client W α} {may : Act → Prop}
    (h : p.Moves (Course env may)) (hmay : ∀ act, may act → act ≠ .restore) :
    p.Moves (Keeping fun s => s.context.WellKept) := fun s hs => (h s).wellKept hmay hs

theorem wellKept_pass (env : Environment W) : KeptByPass env fun s => s.context.WellKept := by
  have hmay (act : Act) (h : act = .read ∨ act.looping = true) : act ≠ .restore := by
    rintro rfl
    rcases h with h | h <;> cases h
  exact
    { begin := fun _ hs => hs
      readIn := wellKept_of_course (readIn_course (fun _ h => .inr h) (.inl rfl)) hmay
      nextPacket := fun _ _ => wellKept_of_course
        (nextPacket_course (finding_of_looping fun _ h => .inr h) _ _) hmay
      processPacket := fun _ _ =>
        wellKept_of_course (processPacket_course (fun _ h => .inr h) _ _) hmay }

/-- In every run that leaves the records to the client, they are well formed whenever a packet is
handed over. -/
theorem handled_wellKept {calls : List (Environment W × Invocation)}
    (hcalls : ∀ call ∈ calls, call.2.restores = false) {network : List UInt8} {world : W} :
    ∀ h ∈ handledInRun calls (start network world), h.before.context.WellKept := by
  refine handledInRun_of (I := fun s => s.context.WellKept) ?_ ?_ ?_
  · intro r hr
    cases hr
  · exact fun call hmem s hs => Invocation.wellKept (hcalls call hmem) hs
  · exact fun call _ => wellKept_pass call.1

end Client

end RtosMqtt
