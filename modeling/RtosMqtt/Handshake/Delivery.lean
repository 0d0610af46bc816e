import RtosMqtt.Handshake.Soundness
import RtosMqtt.Handshake.System

/-! # Exactly-once delivery

Every step of the system is, on each lane, a step of the lane or nothing at
all. What holds along every run of a lane therefore holds of every message of
the system.
-/

namespace RtosMqtt.Handshake

open Sparse Roster PublishRecords

namespace System

variable {s s' : System} {i : UInt16}

/-- The step of one identifier's lane, with every other lane left alone. -/
structure Moves (s s' : System) (i : UInt16) : Prop where
  here : (s.lane i).Step (s'.lane i) ∨ s'.lane i = s.lane i
  elsewhere : ∀ j, j ≠ i → s'.lane j = s.lane j

theorem Moves.any (h : Moves s s' i) (j : UInt16) :
    (s.lane j).Step (s'.lane j) ∨ s'.lane j = s.lane j := by
  by_cases hj : j = i
  · exact hj ▸ h.here
  · exact .inr (h.elsewhere j hj)

theorem moves_reserve (hc : s.connected = true) (i : UInt16) : Moves s (s.reserve i) i := by
  have hslot := slot_reserve s.sender i
  unfold reserve
  rcases hres : s.sender.reserve i .exactlyOnce with ⟨_ | ⟨⟩, sender⟩
  · rw [hres] at hslot
    rcases hslot with ⟨hok, -, -⟩ | ⟨-, hrw⟩
    · cases hok
    · exact ⟨.inr (by simp [lane, hrw.here]), fun j hj => by simp [lane, hrw.elsewhere j hj]⟩
  · rw [hres] at hslot
    rcases hslot with ⟨-, hnone, hrw⟩ | ⟨⟨e, he⟩, -⟩
    · refine ⟨.inl ?_, fun j hj => by simp [lane, hrw.elsewhere j hj, hj]⟩
      have hlane := Lane.Step.reserve (l := s.lane i) hc hnone
      simpa [lane, hrw.here] using hlane
    · cases he

theorem moves_stepSender (h : s.Coherent) (hs : s.stepSender i = some s') : Moves s s' i := by
  unfold stepSender at hs
  cases ht : s.senderTask i with
  | idle => rw [ht] at hs; cases hs
  | sendPublish resent =>
    rw [ht] at hs
    obtain rfl := Option.some.inj hs
    have hlane := Lane.Step.sendPublish (l := s.lane i) resent ht
    refine ⟨.inl (by simpa [lane, along_concat] using hlane), fun j hj => ?_⟩
    simp [lane, along_concat, hj, hj.symm]
  | updatePublish =>
    rw [ht] at hs
    obtain rfl := Option.some.inj hs
    have hlane := Lane.Step.updatePublish (l := s.lane i) ht
    have hrw := slot_sent h.sender h.outgoing i
    refine ⟨.inl (by simpa [lane, hrw.here] using hlane), fun j hj => ?_⟩
    simp [lane, hrw.elsewhere j hj, hj]
  | sendPubRel resent =>
    rw [ht] at hs
    obtain rfl := Option.some.inj hs
    have hlane := Lane.Step.sendPubRel (l := s.lane i) resent ht
    refine ⟨.inl (by simpa [lane, along_concat] using hlane), fun j hj => ?_⟩
    simp [lane, along_concat, hj, hj.symm]
  | updatePubRel =>
    rw [ht] at hs
    obtain rfl := Option.some.inj hs
    have hlane := Lane.Step.updatePubRel (l := s.lane i) ht
    have hrw := (slot_ack_outgoing h.sender h.outgoing i .pubRel .send rfl).2
    refine ⟨.inl (by simpa [lane, hrw.here] using hlane), fun j hj => ?_⟩
    simp [lane, hrw.elsewhere j hj, hj]

theorem moves_handlePubRec (h : s.Coherent) {rest : List (UInt16 × Backward)}
    (hp : s.toSender = (i, .pubRec) :: rest) (ht : s.senderTask i = .idle) :
    Moves s (s.handlePubRec i rest) i := by
  obtain ⟨hok, hrw⟩ := slot_ack_outgoing h.sender h.outgoing i .pubRec .receive rfl
  have hhead : along i s.toSender = .pubRec :: along i rest := by rw [hp, along_cons, if_pos rfl]
  have hlane := Lane.Step.pubRec (l := s.lane i) _ hhead ht
  unfold handlePubRec
  rcases hres : s.sender.updateAck i .pubRec .receive with ⟨_ | _, sender⟩
  · rw [hres] at hok hrw
    rw [show ((s.lane i).sender.ack .pubRec .receive).isOk = false from hok.symm] at hlane
    refine ⟨.inl ?_, fun j hj => ?_⟩
    · simpa [lane, hrw.here, ht] using hlane
    · simp [lane, hrw.elsewhere j hj, hp, along_cons, hj.symm]
  · rw [hres] at hok hrw
    rw [show ((s.lane i).sender.ack .pubRec .receive).isOk = true from hok.symm] at hlane
    refine ⟨.inl ?_, fun j hj => ?_⟩
    · simpa [lane, hrw.here] using hlane
    · simp [lane, hrw.elsewhere j hj, hp, along_cons, hj, hj.symm]

theorem moves_handlePubComp (h : s.Coherent) {rest : List (UInt16 × Backward)}
    (hp : s.toSender = (i, .pubComp) :: rest) (ht : s.senderTask i = .idle) :
    Moves s (s.handlePubComp i rest) i := by
  obtain ⟨hok, hrw⟩ :=
    slot_ack_outgoing h.sender h.outgoing i .pubComp .receive rfl
  have hhead : along i s.toSender = .pubComp :: along i rest := by rw [hp, along_cons, if_pos rfl]
  have hlane := Lane.Step.pubComp (l := s.lane i) _ hhead ht
  unfold handlePubComp
  rcases hres : s.sender.updateAck i .pubComp .receive with ⟨_ | _, sender⟩
  · rw [hres] at hok hrw
    rw [show ((s.lane i).sender.ack .pubComp .receive).isOk = false from hok.symm] at hlane
    refine ⟨.inl ?_, fun j hj => ?_⟩
    · simpa [lane, hrw.here] using hlane
    · simp [lane, hrw.elsewhere j hj, hp, along_cons, hj.symm]
  · rw [hres] at hok hrw
    rw [show ((s.lane i).sender.ack .pubComp .receive).isOk = true from hok.symm] at hlane
    refine ⟨.inl ?_, fun j hj => ?_⟩
    · simpa [lane, hrw.here, along_concat] using hlane
    · simp [lane, hrw.elsewhere j hj, hp, along_cons, along_concat, hj.symm]

theorem moves_stepReceiver (h : s.Coherent) (hs : s.stepReceiver i = some s') : Moves s s' i := by
  unfold stepReceiver at hs
  cases ht : s.receiverTask i with
  | idle => rw [ht] at hs; cases hs
  | sendPubRec =>
    rw [ht] at hs
    obtain rfl := Option.some.inj hs
    have hlane := Lane.Step.sendPubRec (l := s.lane i) ht
    refine ⟨.inl (by simpa [lane, along_concat] using hlane), fun j hj => ?_⟩
    simp [lane, along_concat, hj, hj.symm]
  | updatePubRec =>
    rw [ht] at hs
    obtain rfl := Option.some.inj hs
    have hlane := Lane.Step.updatePubRec (l := s.lane i) ht
    have hrw := (slot_ack_incoming h.receiver h.incoming i .pubRec .send rfl).2
    refine ⟨.inl (by simpa [lane, hrw.here] using hlane), fun j hj => ?_⟩
    simp [lane, hrw.elsewhere j hj, hj]
  | sendPubComp =>
    rw [ht] at hs
    obtain rfl := Option.some.inj hs
    have hlane := Lane.Step.sendPubComp (l := s.lane i) ht
    refine ⟨.inl (by simpa [lane, along_concat] using hlane), fun j hj => ?_⟩
    simp [lane, along_concat, hj, hj.symm]
  | updatePubComp =>
    rw [ht] at hs
    obtain rfl := Option.some.inj hs
    have hlane := Lane.Step.updatePubComp (l := s.lane i) ht
    have hrw := (slot_ack_incoming h.receiver h.incoming i .pubComp .send rfl).2
    refine ⟨.inl (by simpa [lane, hrw.here] using hlane), fun j hj => ?_⟩
    simp [lane, hrw.elsewhere j hj, hj]

theorem moves_handlePublish (h : s.Coherent) {round : ℕ} {resent : Bool}
    {rest : List (UInt16 × Forward)} (hp : s.toReceiver = (i, .publish round resent) :: rest)
    (ht : s.receiverTask i = .idle) : Moves s (s.handlePublish i round rest) i := by
  have hhead : along i s.toReceiver = .publish round resent :: along i rest := by
    rw [hp, along_cons, if_pos rfl]
  have hslot := slot_received h.receiver i
  unfold handlePublish
  rcases hres : s.receiver.updatePublish i .receive .exactlyOnce with ⟨answer, receiver⟩
  rw [hres] at hslot
  rcases hslot with ⟨rfl, hnone, hrw⟩ | ⟨rfl, hsome, hrw⟩ | ⟨rfl | rfl, hnone, hrw⟩
  · have hlane := Lane.Step.take (l := s.lane i) round resent _ hhead ht hnone
    refine ⟨.inl (by simpa [lane, hrw.here, along_concat] using hlane), fun j hj => ?_⟩
    simp [lane, hrw.elsewhere j hj, hp, along_cons, along_concat, hj, hj.symm]
  · have hlane := Lane.Step.duplicate (l := s.lane i) round resent _ hhead ht hsome
    refine ⟨.inl (by simpa [lane, hrw.here] using hlane), fun j hj => ?_⟩
    simp [lane, hrw.elsewhere j hj, hp, along_cons, hj, hj.symm]
  · have hlane := Lane.Step.refuse (l := s.lane i) round resent _ hhead ht hnone
    refine ⟨.inl (by simpa [lane, hrw.here] using hlane), fun j hj => ?_⟩
    simp [lane, hrw.elsewhere j hj, hp, along_cons, hj.symm]
  · have hlane := Lane.Step.refuse (l := s.lane i) round resent _ hhead ht hnone
    refine ⟨.inl (by simpa [lane, hrw.here] using hlane), fun j hj => ?_⟩
    simp [lane, hrw.elsewhere j hj, hp, along_cons, hj.symm]

theorem moves_handlePubRel (h : s.Coherent) {resent : Bool} {rest : List (UInt16 × Forward)}
    (hp : s.toReceiver = (i, .pubRel resent) :: rest) (ht : s.receiverTask i = .idle) :
    Moves s (s.handlePubRel i rest) i := by
  obtain ⟨hok, hrw⟩ :=
    slot_ack_incoming h.receiver h.incoming i .pubRel .receive rfl
  have hhead : along i s.toReceiver = .pubRel resent :: along i rest := by
    rw [hp, along_cons, if_pos rfl]
  have hlane := Lane.Step.pubRel (l := s.lane i) resent _ hhead ht
  unfold handlePubRel
  rcases hres : s.receiver.updateAck i .pubRel .receive with ⟨_ | _, receiver⟩
  · rw [hres] at hok hrw
    rw [show ((s.lane i).receiver.ack .pubRel .receive).isOk = false from hok.symm] at hlane
    refine ⟨.inl ?_, fun j hj => ?_⟩
    · simpa [lane, hrw.here, ht] using hlane
    · simp [lane, hrw.elsewhere j hj, hp, along_cons, hj.symm]
  · rw [hres] at hok hrw
    rw [show ((s.lane i).receiver.ack .pubRel .receive).isOk = true from hok.symm] at hlane
    refine ⟨.inl ?_, fun j hj => ?_⟩
    · simpa [lane, hrw.here] using hlane
    · simp [lane, hrw.elsewhere j hj, hp, along_cons, hj, hj.symm]

theorem mem_resends_iff {r : PublishRecords} (h : r.WellFormed) {wanted : List PublishState}
    (hnull : .null ∉ wanted) :
    i ∈ resends (fun cursor => selected (stateSelect r.outgoing wanted cursor))
        r.outgoing.length 0 ↔ ∃ state ∈ wanted, slot r.outgoing i = some state := by
  rw [resends_eq h.outgoing.free hnull le_rfl, wantedIds, List.mem_map]
  constructor
  · rintro ⟨x, hx, hid⟩
    obtain ⟨hmem, hw⟩ := List.mem_filter.mp hx
    exact ⟨x.state, of_decide_eq_true hw, slot_of_mem h.outgoing.distinct hmem hid⟩
  · rintro ⟨state, hw, hslot⟩
    obtain ⟨x, hx, rfl⟩ := Option.map_eq_some_iff.mp hslot
    obtain ⟨hmem, hid⟩ := mem_of_lookup hx
    exact ⟨x, List.mem_filter.mpr ⟨hmem, decide_eq_true hw⟩, hid⟩

theorem resumeTasks_eq {r : PublishRecords} (h : r.WellFormed) (i : UInt16) :
    resumeTasks r i = resumeTask (slot r.outgoing i) := by
  have hrel : i ∈ resends r.pubrelToResend r.outgoing.length 0 ↔
      ∃ state ∈ pubrelWanted, slot r.outgoing i = some state := mem_resends_iff h (by decide)
  have hpub : i ∈ resends r.publishToResend r.outgoing.length 0 ↔
      ∃ state ∈ publishWanted, slot r.outgoing i = some state := mem_resends_iff h (by decide)
  unfold resumeTasks
  rw [if_congr hrel rfl (if_congr hpub rfl rfl)]
  cases hslot : slot r.outgoing i with
  | none => simp [resumeTask]
  | some state => simp [resumeTask]

theorem lane_lose (s : System) (j : UInt16) : (s.lane j).Step (lane { s with
    toReceiver := [], toSender := [], connected := false,
    senderTask := fun packetId => (s.senderTask packetId).cut,
    receiverTask := fun packetId => (s.receiverTask packetId).cut } j) :=
  Lane.Step.lose

theorem lane_resume (h : s.Coherent) (hc : s.connected = false) (j : UInt16) :
    (s.lane j).Step (lane { s with
      senderTask := resumeTasks s.sender, connected := true } j) := by
  have hlane := Lane.Step.resume (l := s.lane j) hc
  simpa [lane, resumeTasks_eq h.sender] using hlane

/-- Every step of the system is a step of each lane, or leaves it alone. -/
theorem lane_step (h : s.Coherent) {a : Action} (hs : s.step a = some s') (j : UInt16) :
    (s.lane j).Step (s'.lane j) ∨ s'.lane j = s.lane j := by
  cases a with
  | reserve i =>
    simp only [step] at hs
    split_ifs at hs with hc
    exact Option.some.inj hs ▸ (moves_reserve hc i).any j
  | sender i => exact (moves_stepSender h hs).any j
  | receiver i => exact (moves_stepReceiver h hs).any j
  | toReceiver =>
    simp only [step] at hs
    rcases hp : s.toReceiver with _ | ⟨⟨i, packet⟩, rest⟩ <;> rw [hp] at hs
    · cases hs
    dsimp only at hs
    split_ifs at hs with ht
    cases packet with
    | publish round resent => exact Option.some.inj hs ▸ (moves_handlePublish h hp ht).any j
    | pubRel resent => exact Option.some.inj hs ▸ (moves_handlePubRel h hp ht).any j
  | toSender =>
    simp only [step] at hs
    rcases hp : s.toSender with _ | ⟨⟨i, packet⟩, rest⟩ <;> rw [hp] at hs
    · cases hs
    dsimp only at hs
    split_ifs at hs with ht
    cases packet with
    | pubRec => exact Option.some.inj hs ▸ (moves_handlePubRec h hp ht).any j
    | pubComp => exact Option.some.inj hs ▸ (moves_handlePubComp h hp ht).any j
  | lose => exact .inl (Option.some.inj hs ▸ lane_lose s j)
  | resume =>
    simp only [step] at hs
    split_ifs at hs with hc
    exact .inl (Option.some.inj hs ▸ lane_resume h (Bool.not_eq_true _ ▸ hc) j)

theorem Coherent.withSender (h : s.Coherent) {r : PublishRecords} (hwf : r.WellFormed)
    {new : Slot} (hrw : Rewrites s.sender.outgoing r.outgoing i new)
    (hs : s'.sender = r) (hr : s'.receiver = s.receiver) : s'.Coherent := by
  subst hs
  exact ⟨hwf, hr ▸ h.receiver, hrw.qos h.outgoing, hr ▸ h.incoming⟩

theorem Coherent.withReceiver (h : s.Coherent) {r : PublishRecords} (hwf : r.WellFormed)
    {new : Slot} (hrw : Rewrites s.receiver.incoming r.incoming i new)
    (hs : s'.sender = s.sender) (hr : s'.receiver = r) : s'.Coherent := by
  subst hr
  exact ⟨hs ▸ h.sender, hwf, hs ▸ h.outgoing, hrw.qos h.incoming⟩

theorem Coherent.same (h : s.Coherent) (hs : s'.sender = s.sender)
    (hr : s'.receiver = s.receiver) : s'.Coherent :=
  ⟨hs ▸ h.sender, hr ▸ h.receiver, hs ▸ h.outgoing, hr ▸ h.incoming⟩

theorem Coherent.reserve (h : s.Coherent) (i : UInt16) : (s.reserve i).Coherent := by
  have hwf := h.sender.reserve i .exactlyOnce
  have hslot := slot_reserve s.sender i
  unfold System.reserve
  rcases hres : s.sender.reserve i .exactlyOnce with ⟨_ | ⟨⟩, sender⟩ <;> rw [hres] at hslot hwf
  · rcases hslot with ⟨-, -, hrw⟩ | ⟨-, hrw⟩ <;> exact h.withSender hwf hrw rfl rfl
  · rcases hslot with ⟨-, -, hrw⟩ | ⟨-, hrw⟩ <;> exact h.withSender hwf hrw rfl rfl

theorem Coherent.stepSender (h : s.Coherent) (hs : s.stepSender i = some s') : s'.Coherent := by
  unfold System.stepSender at hs
  cases ht : s.senderTask i <;> rw [ht] at hs <;> cases hs
  · exact h.same rfl rfl
  · exact h.withSender (h.sender.updatePublish i .send .exactlyOnce)
      (slot_sent h.sender h.outgoing i) rfl rfl
  · exact h.same rfl rfl
  · exact h.withSender (h.sender.updateAck i .pubRel .send)
      (slot_ack_outgoing h.sender h.outgoing i _ _ rfl).2 rfl rfl

theorem Coherent.stepReceiver (h : s.Coherent) (hs : s.stepReceiver i = some s') :
    s'.Coherent := by
  unfold System.stepReceiver at hs
  cases ht : s.receiverTask i <;> rw [ht] at hs <;> cases hs
  · exact h.same rfl rfl
  · exact h.withReceiver (h.receiver.updateAck i .pubRec .send)
      (slot_ack_incoming h.receiver h.incoming i _ _ rfl).2 rfl rfl
  · exact h.same rfl rfl
  · exact h.withReceiver (h.receiver.updateAck i .pubComp .send)
      (slot_ack_incoming h.receiver h.incoming i _ _ rfl).2 rfl rfl

theorem Coherent.handlePublish (h : s.Coherent) (i : UInt16) (round : ℕ)
    (rest : List (UInt16 × Forward)) : (s.handlePublish i round rest).Coherent := by
  have hwf := h.receiver.updatePublish i .receive .exactlyOnce
  have hslot := slot_received h.receiver i
  unfold System.handlePublish
  rcases hres : s.receiver.updatePublish i .receive .exactlyOnce with ⟨answer, receiver⟩
  rw [hres] at hslot hwf
  rcases hslot with ⟨rfl, -, hrw⟩ | ⟨rfl, -, hrw⟩ | ⟨rfl | rfl, -, hrw⟩ <;>
    exact h.withReceiver hwf hrw rfl rfl

theorem Coherent.handlePubRel (h : s.Coherent) (i : UInt16) (rest : List (UInt16 × Forward)) :
    (s.handlePubRel i rest).Coherent := by
  have hwf := h.receiver.updateAck i .pubRel .receive
  have hrw :=
    (slot_ack_incoming h.receiver h.incoming i .pubRel .receive rfl).2
  unfold System.handlePubRel
  rcases hres : s.receiver.updateAck i .pubRel .receive with ⟨_ | _, receiver⟩ <;>
    rw [hres] at hrw hwf <;> exact h.withReceiver hwf hrw rfl rfl

theorem Coherent.handlePubRec (h : s.Coherent) (i : UInt16) (rest : List (UInt16 × Backward)) :
    (s.handlePubRec i rest).Coherent := by
  have hwf := h.sender.updateAck i .pubRec .receive
  have hrw := (slot_ack_outgoing h.sender h.outgoing i .pubRec .receive rfl).2
  unfold System.handlePubRec
  rcases hres : s.sender.updateAck i .pubRec .receive with ⟨_ | _, sender⟩ <;>
    rw [hres] at hrw hwf <;> exact h.withSender hwf hrw rfl rfl

theorem Coherent.handlePubComp (h : s.Coherent) (i : UInt16) (rest : List (UInt16 × Backward)) :
    (s.handlePubComp i rest).Coherent := by
  have hwf := h.sender.updateAck i .pubComp .receive
  have hrw := (slot_ack_outgoing h.sender h.outgoing i .pubComp .receive rfl).2
  unfold System.handlePubComp
  rcases hres : s.sender.updateAck i .pubComp .receive with ⟨_ | _, sender⟩ <;>
    rw [hres] at hrw hwf <;> exact h.withSender hwf hrw rfl rfl

theorem Coherent.step (h : s.Coherent) {a : Action} (hs : s.step a = some s') :
    s'.Coherent := by
  cases a with
  | reserve i =>
    simp only [System.step] at hs
    split_ifs at hs
    exact Option.some.inj hs ▸ h.reserve i
  | sender i => exact h.stepSender hs
  | receiver i => exact h.stepReceiver hs
  | toReceiver =>
    simp only [System.step] at hs
    rcases hp : s.toReceiver with _ | ⟨⟨i, packet⟩, rest⟩ <;> rw [hp] at hs
    · cases hs
    dsimp only at hs
    split_ifs at hs
    cases packet with
    | publish round resent => exact Option.some.inj hs ▸ h.handlePublish i round rest
    | pubRel resent => exact Option.some.inj hs ▸ h.handlePubRel i rest
  | toSender =>
    simp only [System.step] at hs
    rcases hp : s.toSender with _ | ⟨⟨i, packet⟩, rest⟩ <;> rw [hp] at hs
    · cases hs
    dsimp only at hs
    split_ifs at hs
    cases packet with
    | pubRec => exact Option.some.inj hs ▸ h.handlePubRec i rest
    | pubComp => exact Option.some.inj hs ▸ h.handlePubComp i rest
  | lose => exact Option.some.inj hs ▸ h.same rfl rfl
  | resume =>
    simp only [System.step] at hs
    split_ifs at hs
    exact Option.some.inj hs ▸ h.same rfl rfl

/-- The invariant of the system: its records are coherent and its lanes sound. -/
structure Sound (s : System) : Prop where
  coherent : s.Coherent
  lanes : ∀ packetId, (s.lane packetId).Sound

theorem Sound.step (h : s.Sound) {a : Action} (hs : s.step a = some s') : s'.Sound := by
  refine ⟨h.coherent.step hs, fun i => ?_⟩
  rcases lane_step h.coherent hs i with hlane | hlane
  · exact hlane.sound (h.lanes i)
  · exact hlane ▸ h.lanes i

theorem Sound.next (h : s.Sound) (a : Action) : (s.next a).Sound := by
  unfold System.next
  cases hs : s.step a with
  | none => exact h
  | some s' => exact h.step hs

section Runs

variable (senderOutgoing senderIncoming receiverOutgoing receiverIncoming : List Record)

theorem lane_initial (i : UInt16) :
    (initial senderOutgoing senderIncoming receiverOutgoing receiverIncoming).lane i = {} := by
  have hs : slot (senderOutgoing.map fun _ => Record.default) i = none := by
    rw [slot, inFlight_cleared]; rfl
  have hr : slot (receiverIncoming.map fun _ => Record.default) i = none := by
    rw [slot, inFlight_cleared]; rfl
  rw [lane]
  congr 1

theorem sound_initial :
    (initial senderOutgoing senderIncoming receiverOutgoing receiverIncoming).Sound := by
  have hnil : ∀ records : List Record,
      AllExactlyOnce (records.map fun _ => Record.default) := fun records x hx => by
    rw [inFlight_cleared] at hx
    cases hx
  refine ⟨⟨wellFormed_new _ _, wellFormed_new _ _, hnil _, hnil _⟩, fun i => ?_⟩
  rw [lane_initial]
  exact Lane.sound_initial

theorem sound_after (actions : List Action) :
    ((initial senderOutgoing senderIncoming receiverOutgoing receiverIncoming).after
      actions).Sound :=
  Machine.run_invariant (m := machine) (fun a _ h => h.next a) (sound_initial _ _ _ _) actions

/-- However the calls interleave, whatever arrays the parties have and however often the
connection is lost, the receiver takes each reserved message as new at most once, and exactly
once when the sender completes it. -/
theorem delivered_exactly_once (actions : List Action) :
    let s := (initial senderOutgoing senderIncoming receiverOutgoing receiverIncoming).after
      actions
    (∀ message, s.accepted.count message ≤ 1) ∧
      (∀ message ∈ s.accepted, message.2 ≤ s.round message.1) ∧
      ∀ message ∈ s.completed, s.accepted.count message = 1 := by
  intro s
  have h : s.Sound := sound_after _ _ _ _ actions
  have honce : s.accepted.Nodup := nodup_of_along fun i => (h.lanes i).once
  refine ⟨fun message => List.nodup_iff_count_le_one.mp honce message, fun message hm => ?_,
    fun message hm => List.count_eq_one_of_mem honce ?_⟩
  · exact (h.lanes message.1).past _ (mem_along.mpr hm)
  · exact mem_along.mp ((h.lanes message.1).kept _ (mem_along.mpr hm))

end Runs

theorem connected_step {a : Action} (hs : s.step a = some s') (ha : a ≠ .lose)
    (hc : s.connected = true) : s'.connected = true := by
  cases a with
  | reserve i =>
    simp only [System.step] at hs
    split_ifs at hs
    obtain rfl := Option.some.inj hs
    unfold System.reserve
    split <;> exact hc
  | sender i =>
    simp only [System.step, stepSender] at hs
    split at hs <;> cases hs <;> exact hc
  | receiver i =>
    simp only [System.step, stepReceiver] at hs
    split at hs <;> cases hs <;> exact hc
  | toReceiver =>
    simp only [System.step] at hs
    rcases hp : s.toReceiver with _ | ⟨⟨i, packet⟩, rest⟩ <;> rw [hp] at hs
    · cases hs
    dsimp only at hs
    split_ifs at hs
    cases packet <;> obtain rfl := Option.some.inj hs
    · unfold System.handlePublish
      split <;> exact hc
    · unfold System.handlePubRel
      split <;> exact hc
  | toSender =>
    simp only [System.step] at hs
    rcases hp : s.toSender with _ | ⟨⟨i, packet⟩, rest⟩ <;> rw [hp] at hs
    · cases hs
    dsimp only at hs
    split_ifs at hs
    cases packet <;> obtain rfl := Option.some.inj hs
    · unfold System.handlePubRec
      split <;> exact hc
    · unfold System.handlePubComp
      split <;> exact hc
  | lose => exact absurd rfl ha
  | resume => simp [System.step, hc] at hs

def Spares (s : System) (a : Action) : Prop := a = .lose → ∀ p ∈ s.toSender, p.2 ≠ .pubComp

instance (s : System) (a : Action) : Decidable (s.Spares a) := by
  unfold Spares; infer_instance

/-- A run whose losses never meet a PUBCOMP on its way from the receiver to the sender. -/
def SparesPubComp (s : System) : List Action → Prop
  | [] => True
  | a :: actions => s.Spares a ∧ (s.next a).SparesPubComp actions

instance decidableSparesPubComp : (s : System) → (actions : List Action) →
    Decidable (s.SparesPubComp actions)
  | _, [] => .isTrue trivial
  | s, a :: actions =>
    have := decidableSparesPubComp (s.next a) actions
    inferInstanceAs (Decidable (s.Spares a ∧ (s.next a).SparesPubComp actions))

theorem answerable_step (h : s.Sound) (ha : ∀ i, (s.lane i).Answerable) {a : Action}
    (hs : s.step a = some s') (hspare : s.Spares a) (i : UInt16) : (s'.lane i).Answerable := by
  rcases lane_step h.coherent hs i with hlane | hlane
  · refine hlane.answerable (h.lanes i) (ha i) fun hoff hmem => ?_
    by_cases hal : a = .lose
    · exact hspare hal _ (mem_along.mp hmem) rfl
    · obtain ⟨front, rest, hp⟩ := List.mem_iff_append.mp hmem
      cases hc : s.connected with
      | true =>
        have hon := connected_step hs hal hc
        rw [show s'.connected = false from hoff] at hon
        cases hon
      | false =>
        have hempty := (h.lanes i).offline hc
        simp [Lane.transit, hp] at hempty
  · exact hlane ▸ ha i

theorem answerable_after (h : s.Sound) (ha : ∀ i, (s.lane i).Answerable) (actions : List Action)
    (hspare : s.SparesPubComp actions) :
    (s.after actions).Sound ∧ ∀ i, ((s.after actions).lane i).Answerable := by
  induction actions generalizing s with
  | nil => exact ⟨h, ha⟩
  | cons a actions ih =>
    refine ih (h.next a) (fun i => ?_) hspare.2
    unfold System.next
    cases hs : s.step a with
    | none => exact ha i
    | some s' => exact answerable_step h ha hs hspare.1 i

theorem publish_answer (h : s.Coherent) (i : UInt16) (round : ℕ) (resent : Bool) :
    (s.answer i (.publish round resent)).1 ≠ .error .badResponse ∧
      (s.answer i (.publish round resent)).1 ≠ .error .illegalState := by
  simp only [answer]
  rcases slot_received h.receiver i with ⟨he, -⟩ | ⟨he, -⟩ | ⟨he | he, -⟩ <;> rw [he] <;> simp

/-- While no PUBCOMP is lost, whatever the sender resends is accepted by the receiver. -/
theorem resent_accepted (senderOutgoing senderIncoming receiverOutgoing receiverIncoming :
      List Record) (actions : List Action)
    (hspare : (initial senderOutgoing senderIncoming receiverOutgoing
      receiverIncoming).SparesPubComp actions) :
    let s := (initial senderOutgoing senderIncoming receiverOutgoing receiverIncoming).after
      actions
    ∀ packetId packet rest, s.toReceiver = (packetId, packet) :: rest →
      packet.resent = true → s.receiverTask packetId = .idle →
      (s.answer packetId packet).1 ≠ .error .badResponse ∧
        (s.answer packetId packet).1 ≠ .error .illegalState := by
  intro s i packet rest hp _ ht
  obtain ⟨h, ha⟩ := answerable_after (sound_initial senderOutgoing senderIncoming
    receiverOutgoing receiverIncoming) (fun i => by rw [lane_initial]; exact Lane.answerable_initial)
    actions hspare
  cases packet with
  | publish round resent => exact publish_answer h.coherent i round resent
  | pubRel resent =>
    have hhead : along i s.toReceiver = .pubRel resent :: along i rest := by
      rw [hp, along_cons, if_pos rfl]
    obtain ⟨after, hack⟩ := (h.lanes i).pubRel_accepted (ha i) hhead ht
    have hok := (slot_ack_incoming h.coherent.receiver h.coherent.incoming i .pubRel .receive rfl).1
    rw [show (slot s.receiver.incoming i).ack .pubRel .receive = .ok after from hack] at hok
    simp only [answer]
    cases hres : (s.receiver.updateAck i .pubRel .receive).1 with
    | ok _ => simp
    | error e => rw [hres] at hok; cases hok

/-- A handshake up to the PUBREL the sender has recorded. -/
def releasedHandshake : List Action :=
  [.reserve 1, .sender 1, .sender 1, .toReceiver, .receiver 1, .receiver 1, .toSender,
    .sender 1, .sender 1]

/-- A PUBREL lost on its way is sent again and accepted. -/
theorem resent_accepted_lost_pubRel :
    let s := (initial [default] [] [] [default]).after
      (releasedHandshake ++ [.lose, .resume, .sender 1])
    s.toReceiver = [(1, .pubRel true)] ∧ (s.answer 1 (.pubRel true)).1 ≠ .error .badResponse :=
  ⟨by decide, (resent_accepted [default] [] [] [default]
    (releasedHandshake ++ [.lose, .resume, .sender 1]) (by decide) 1 (.pubRel true) []
    (by decide) rfl (by decide)).1⟩

/-- When the PUBCOMP is lost the receiver has dropped its record, and the PUBREL sent again
is refused. -/
theorem resent_refused_lost_pubComp :
    let s := (initial [default] [] [] [default]).after (releasedHandshake ++
      [.toReceiver, .receiver 1, .receiver 1, .lose, .resume, .sender 1])
    s.toReceiver = [(1, .pubRel true)] ∧ s.receiverTask 1 = .idle ∧
      (s.answer 1 (.pubRel true)).1 = .error .badResponse := by
  decide

end System

end RtosMqtt.Handshake
