import Mathlib.Data.List.Nodup
import RtosMqtt.Handshake.Phases

/-! # The lane invariants

A lane stays sound along every run. When no connection is lost with a PUBCOMP
under way, a waiting sender also always has a record at the receiver, or the
PUBCOMP that ends its wait.
-/

namespace RtosMqtt.Handshake

namespace Lane

variable {l l' : Lane}

/-- Only a reservation and a reconnection put something under way. -/
theorem Step.transit_le (st : l.Step l') (h : l.Sound) :
    l'.transit ≤ l.transit ∨ l'.transit ≤ 1 ∧ l'.connected = true ∧
      (l'.senderTask = .idle → l'.transit = 0) := by
  cases st with
  | reserve hc hs =>
    refine .inr ⟨?_, hc, nofun⟩
    cases h.phase with
    | rest _ _ hf hb hr =>
      rcases hr.task with ht | ht <;>
        simp [transit, hf, hb, ht, SenderTask.owes, ReceiverTask.owes]
    | offered hs' _ _ _ => exact absurd hs hs'.sender_ne_none
    | taken hs' _ _ _ _ _ => exact absurd hs hs'.sender_ne_none
    | releasing hs' _ _ => exact absurd hs hs'.sender_ne_none
    | completing hs' _ _ _ _ => exact absurd hs hs'.sender_ne_none
    | orphaned hs' _ _ _ => exact absurd hs hs'.sender_ne_none
  | sendPublish resent ht => left; simp only [transit, ht, SenderTask.owes, List.length_append, List.length_singleton]; omega
  | updatePublish ht => left; simp [transit, ht, SenderTask.owes]
  | sendPubRel resent ht => left; simp only [transit, ht, SenderTask.owes, List.length_append, List.length_singleton]; omega
  | updatePubRel ht => left; simp [transit, ht, SenderTask.owes]
  | take round resent rest hp ht hr => left; simp only [transit, hp, ht, ReceiverTask.owes, List.length_cons]; omega
  | duplicate round resent rest hp ht hr => left; simp only [transit, hp, ht, ReceiverTask.owes, List.length_cons]; omega
  | refuse round resent rest hp ht hr => left; simp [transit, hp]
  | sendPubRec ht => left; simp only [transit, ht, ReceiverTask.owes, List.length_append, List.length_singleton]; omega
  | updatePubRec ht => left; simp [transit, ht, ReceiverTask.owes]
  | pubRec rest hp ht =>
    left
    simp only [transit, hp, ht]
    split
    · simp only [SenderTask.owes, List.length_cons]; omega
    · simp [SenderTask.owes]
  | pubRel resent rest hp ht =>
    left
    simp only [transit, hp, ht]
    split
    · simp only [ReceiverTask.owes, List.length_cons]; omega
    · simp [ReceiverTask.owes]
  | sendPubComp ht => left; simp only [transit, ht, ReceiverTask.owes, List.length_append, List.length_singleton]; omega
  | updatePubComp ht => left; simp [transit, ht, ReceiverTask.owes]
  | pubComp rest hp ht => left; simp [transit, hp]
  | lose => left; simp [transit]
  | resume hc =>
    have hempty := h.offline hc
    simp only [transit] at hempty
    have hone : (resumeTask l.sender).owes ≤ 1 := by
      cases resumeTask l.sender <;> simp [SenderTask.owes]
    refine .inr ⟨by simp only [transit]; omega, rfl, fun hidle => ?_⟩
    have hnone : (resumeTask l.sender).owes = 0 := by
      simp only at hidle; rw [hidle]; rfl
    simp only [transit]
    omega

theorem Step.phase (st : l.Step l') (h : l.Sound) : l'.Phase := by
  cases st with
  | reserve _ hs => exact h.phase_reserve hs
  | sendPublish _ ht => exact h.phase_sendPublish ht
  | updatePublish ht => exact h.phase_updatePublish ht
  | sendPubRel _ ht => exact h.phase_sendPubRel ht
  | updatePubRel ht => exact h.phase_updatePubRel ht
  | take _ _ _ hp ht hr => exact (h.phase_take hp ht hr).2
  | duplicate _ _ _ hp ht hr => exact h.phase_duplicate hp ht hr
  | refuse _ _ _ hp ht hr => exact h.phase_refuse hp ht hr
  | sendPubRec ht => exact h.phase_sendPubRec ht
  | updatePubRec ht => exact h.phase_updatePubRec ht
  | pubRec _ hp ht => exact h.phase_pubRec hp ht
  | pubRel _ _ hp ht => exact h.phase_pubRel hp ht
  | sendPubComp ht => exact h.phase_sendPubComp ht
  | updatePubComp ht => exact h.phase_updatePubComp ht
  | pubComp _ hp ht => exact (h.phase_pubComp hp ht).2.2 _
  | lose => exact h.phase_lose
  | resume hc => exact h.phase_resume hc

theorem Step.offline (st : l.Step l') (h : l.Sound) (hc : l'.connected = false) :
    l'.transit = 0 := by
  rcases st.transit_le h with hle | ⟨-, hc', -⟩
  · cases st with
    | lose => simp [transit]
    | resume _ => cases hc
    | _ => exact Nat.le_zero.mp (h.offline hc ▸ hle)
  · rw [hc] at hc'; cases hc'

theorem Step.stalled (st : l.Step l') (h : l.Sound)
    (hs : l'.sender = some .publishSend ∨ l'.sender = some .pubRelSend)
    (ht : l'.senderTask = .idle) : l'.transit = 0 := by
  have hle := st.transit_le h
  cases st with
  | reserve _ _ => cases ht
  | sendPublish _ _ => cases ht
  | updatePublish ht' =>
    have hsent := (h.phase.publishing (.inr ht')).sent
    simp only [hsent] at hs
    simp at hs
  | sendPubRel _ _ => cases ht
  | updatePubRel ht' =>
    have hsent := (h.phase.releasing_of_task (.inr ht')).sent
    simp only [hsent] at hs
    simp at hs
  | pubRec rest hp ht' =>
    cases hack : l.sender.ack .pubRec .receive with
    | ok slot => simp [hack, Except.isOk, Except.toBool] at ht
    | error e =>
      simp only [hack, Slot.settle] at hs
      exact absurd (h.stalled hs ht') (transit_pos_of_toSender hp)
  | pubComp rest hp ht' =>
    have hpending := (h.phase_pubComp hp ht').1
    have hdone : l.sender.settle (l.sender.ack .pubComp .receive) = none := by rw [hpending]; rfl
    simp only [hdone] at hs
    simp at hs
  | lose => simp [transit]
  | resume _ =>
    rcases hle with hle | ⟨-, -, hidle⟩
    · exact Nat.le_zero.mp (h.offline ‹_› ▸ hle)
    · exact hidle ht
  | _ =>
    rcases hle with hle | ⟨-, -, hidle⟩
    · exact Nat.le_zero.mp (h.stalled hs ht ▸ hle)
    · exact hidle ht

/-- The receiver takes a round as new at most once, and the sender completes only rounds that
were taken. -/
theorem Step.log (st : l.Step l') (h : l.Sound) :
    l'.accepted.Nodup ∧ (∀ k ∈ l'.accepted, k ≤ l'.round) ∧
      ∀ k ∈ l'.completed, k ∈ l'.accepted := by
  cases st with
  | reserve _ _ => exact ⟨h.once, fun k hk => Nat.le_succ_of_le (h.past k hk), h.kept⟩
  | take round _ _ hp ht hr =>
    obtain ⟨⟨rfl, hn⟩, -⟩ := h.phase_take hp ht hr
    refine ⟨List.Nodup.append h.once (List.nodup_singleton _) (by simpa using hn), fun k hk => ?_,
      fun k hk => List.mem_append_left _ (h.kept k hk)⟩
    rcases List.mem_append.mp hk with hk | hk
    · exact h.past k hk
    · exact Nat.le_of_eq (List.mem_singleton.mp hk)
  | pubComp rest hp ht =>
    have ha := (h.phase_pubComp hp ht).2.1
    refine ⟨h.once, h.past, fun k hk => ?_⟩
    simp only at hk
    split at hk
    · rcases List.mem_append.mp hk with hk | hk
      · exact h.kept k hk
      · exact List.mem_singleton.mp hk ▸ ha
    · exact h.kept k hk
  | _ => exact ⟨h.once, h.past, h.kept⟩

theorem Step.sound (st : l.Step l') (h : l.Sound) : l'.Sound := by
  obtain ⟨honce, hpast, hkept⟩ := st.log h
  refine ⟨st.phase h, ?_, st.offline h, st.stalled h, honce, hpast, hkept⟩
  rcases st.transit_le h with hle | ⟨hone, -, -⟩
  · exact Nat.le_trans hle h.single
  · exact hone

/-- While the sender waits for a PUBCOMP, the receiver still holds the record or the PUBCOMP is
under way. -/
def Answerable (l : Lane) : Prop :=
  l.sender = some .pubRelSend ∨ l.sender = some .pubCompPending →
    l.receiver = none ∨ l.receiverTask = .updatePubComp → l.toSender ≠ []

theorem answerable_initial : Answerable {} := by simp [Answerable]

theorem Publishing.not_waiting (h : l.Publishing) :
    ¬ (l.sender = some .pubRelSend ∨ l.sender = some .pubCompPending) := by
  rintro (hs | hs) <;> rcases h.1 with hs' | hs' <;> rw [hs] at hs' <;> cases hs'

theorem Sound.waiting_toSender (h : l.Sound)
    (hs : l.sender = some .pubRelSend ∨ l.sender = some .pubCompPending)
    (hb : l.toSender ≠ []) : .pubComp ∈ l.toSender := by
  have hmem : (∀ p ∈ l.toSender, p = .pubComp) → .pubComp ∈ l.toSender := fun hall => by
    obtain ⟨p, hp⟩ := List.exists_mem_of_ne_nil _ hb
    exact hall p hp ▸ hp
  cases h.phase with
  | rest hs' _ _ _ _ => rw [hs'] at hs; simp at hs
  | offered hs' _ _ _ => exact absurd hs hs'.not_waiting
  | taken hs' _ _ _ _ _ => exact absurd hs hs'.not_waiting
  | releasing _ hb' _ => exact absurd hb' hb
  | completing _ hall _ _ _ => exact hmem hall
  | orphaned _ hall _ _ => exact hmem hall

theorem settle_pubRec_send (slot : Slot) :
    slot.settle (slot.ack .pubRec .send) = none ↔ slot = none := by
  rcases slot with _ | current
  · simp [Slot.ack, Slot.settle]
  · cases current <;> simp [Slot.ack, Slot.settle, calculateStateAck, ackTarget,
      validateTransitionAck]

/-- Unless a connection is lost with a PUBCOMP under way, a waiting sender stays answerable. -/
theorem Step.answerable (st : l.Step l') (h : l.Sound) (ha : l.Answerable)
    (hlose : l'.connected = false → .pubComp ∉ l.toSender) : l'.Answerable := by
  cases st with
  | reserve _ _ => simp [Answerable]
  | sendPublish _ ht => exact ha
  | updatePublish ht =>
    have hsent := (h.phase.publishing (.inr ht)).sent
    simp [Answerable, hsent]
  | sendPubRel _ ht => exact ha
  | updatePubRel ht => exact fun _ => ha (h.phase.releasing_of_task (.inr ht)).1
  | take _ _ _ hp ht _ => exact fun hs => absurd hs (h.publish_under_way hp ht).2.1.not_waiting
  | duplicate _ _ _ hp ht _ =>
    exact fun hs => absurd hs (h.publish_under_way hp ht).2.1.not_waiting
  | refuse _ _ _ hp ht _ => exact ha
  | sendPubRec ht => simp [Answerable]
  | updatePubRec ht =>
    rintro hs (hr | hr)
    · exact ha hs (.inl ((settle_pubRec_send _).mp hr))
    · cases hr
  | pubRec rest hp ht =>
    intro _ hr
    cases h.phase with
    | rest _ _ _ hb _ => rw [hp] at hb; cases hb
    | offered _ _ hb _ => rw [hp] at hb; cases hb
    | taken _ _ _ hr' ht' _ =>
      rcases hr with hr | hr
      · rcases hr' with hr' | hr' <;> simp [hr'] at hr
      · rcases ht' with ht' | ht' | ht' <;> simp [ht'] at hr
    | releasing _ hb _ => rw [hp] at hb; cases hb
    | completing _ hb _ _ _ => cases hb .pubRec (by rw [hp]; simp)
    | orphaned _ hb _ _ => cases hb .pubRec (by rw [hp]; simp)
  | pubRel resent rest hp ht =>
    obtain ⟨hs, hr | hr | hr⟩ := h.pubRel_under_way hp ht
    · rw [hr]
      rintro - (hr' | hr') <;> cases hr'
    · rw [hr]
      rintro - (hr' | hr') <;> cases hr'
    · exact absurd (h.only_toReceiver hp).2.1 (ha hs.1 (.inl hr))
  | sendPubComp ht => simp [Answerable]
  | updatePubComp ht => exact fun hs _ => ha hs (.inr ht)
  | pubComp rest hp ht =>
    have hdone : l.sender.settle (l.sender.ack .pubComp .receive) = none := by
      rw [(h.phase_pubComp hp ht).1]; rfl
    simp [Answerable, hdone]
  | lose =>
    intro hs hr
    have hr' : l.receiver = none ∨ l.receiverTask = .updatePubComp := by
      refine hr.imp_right fun hcut => ?_
      cases ht : l.receiverTask <;> simp only [ht] at hcut <;> cases hcut
      rfl
    exact absurd (h.waiting_toSender hs (ha hs hr')) (hlose rfl)
  | resume hc => exact ha

theorem Sound.pubRel_accepted (h : l.Sound) (ha : l.Answerable) {resent : Bool}
    {rest : List Forward} (hp : l.toReceiver = .pubRel resent :: rest)
    (ht : l.receiverTask = .idle) : ∃ slot, l.receiver.ack .pubRel .receive = .ok slot := by
  obtain ⟨hs, hr | hr | hr⟩ := h.pubRel_under_way hp ht
  · exact ⟨some .pubCompSend, by rw [hr]; rfl⟩
  · exact ⟨some .pubCompSend, by rw [hr]; rfl⟩
  · exact absurd (h.only_toReceiver hp).2.1 (ha hs.1 (.inl hr))

end Lane

end RtosMqtt.Handshake
