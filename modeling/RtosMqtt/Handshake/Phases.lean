import RtosMqtt.Handshake.Lane

/-! # Every step keeps a lane sound

One lemma for each step says which phase it leads to. Since at most one packet
is owed or under way, a step that consumes one finds the rest of the lane
empty.
-/

namespace RtosMqtt.Handshake

namespace Lane

variable {l l' : Lane}

theorem Publishing.sender_ne_none (h : l.Publishing) : l.sender ≠ none := by
  rcases h.1 with hs | hs <;> simp [hs]

theorem Releasing.sender_ne_none (h : l.Releasing) : l.sender ≠ none := by
  rcases h.1 with hs | hs <;> simp [hs]

theorem Publishing.sent (h : l.Publishing) :
    l.sender.settle l.sender.sent = some .pubRecPending := by
  rcases h.1 with hs | hs <;> rw [hs] <;> rfl

theorem Releasing.sent (h : l.Releasing) :
    l.sender.settle (l.sender.ack .pubRel .send) = some .pubCompPending := by
  rcases h.1 with hs | hs <;> rw [hs] <;> rfl

theorem Phase.publishing (h : l.Phase)
    (ht : (∃ resent, l.senderTask = .sendPublish resent) ∨ l.senderTask = .updatePublish) :
    l.Publishing := by
  have hreleasing : ¬ l.Releasing := by
    rintro ⟨-, h' | ⟨_, h'⟩ | h', -⟩ <;> rcases ht with ⟨_, ht⟩ | ht <;> rw [ht] at h' <;> cases h'
  cases h with
  | rest _ ht' _ _ _ => rcases ht with ⟨_, ht⟩ | ht <;> rw [ht] at ht' <;> cases ht'
  | offered hs _ _ _ => exact hs
  | taken hs _ _ _ _ _ => exact hs
  | releasing hs _ _ => exact absurd hs hreleasing
  | completing hs _ _ _ _ => exact absurd hs hreleasing
  | orphaned hs _ _ _ => exact absurd hs hreleasing

theorem Phase.releasing_of_task (h : l.Phase)
    (ht : (∃ resent, l.senderTask = .sendPubRel resent) ∨ l.senderTask = .updatePubRel) :
    l.Releasing := by
  have hpublishing : ¬ l.Publishing := by
    rintro ⟨-, h' | ⟨_, h'⟩ | h', -⟩ <;> rcases ht with ⟨_, ht⟩ | ht <;> rw [ht] at h' <;> cases h'
  cases h with
  | rest _ ht' _ _ _ => rcases ht with ⟨_, ht⟩ | ht <;> rw [ht] at ht' <;> cases ht'
  | offered hs _ _ _ => exact absurd hs hpublishing
  | taken hs _ _ _ _ _ => exact absurd hs hpublishing
  | releasing hs _ _ => exact hs
  | completing hs _ _ _ _ => exact hs
  | orphaned hs _ _ _ => exact hs

/-- A sender that changes nothing but its task, its position within the publishes and the
packets it sent stays in its phase. -/
theorem Phase.publishing_step (h : l.Phase) (hp : l.Publishing) (hp' : l'.Publishing)
    (hr : l'.receiver = l.receiver) (hrt : l'.receiverTask = l.receiverTask)
    (hb : l'.toSender = l.toSender) (hk : l'.round = l.round) (ha : l'.accepted = l.accepted) :
    l'.Phase := by
  have hpub : ¬ l.Releasing := by
    rintro ⟨hs | hs, -⟩ <;> rcases hp.1 with hs' | hs' <;> rw [hs] at hs' <;> cases hs'
  cases h with
  | rest hs _ _ _ _ => exact absurd hs hp.sender_ne_none
  | offered _ hn hb' hr' =>
    exact .offered hp' (by rwa [hk, ha]) (by rw [hb, hb']) (by rwa [Vacated, hr, hrt])
  | taken _ ha' hb' hr' ht' hsent =>
    exact .taken hp' (by rwa [hk, ha]) (by rwa [hb]) (by rwa [hr]) (by rwa [hrt])
      (by rwa [hb, hr, hrt])
  | releasing hs _ _ => exact absurd hs hpub
  | completing hs _ _ _ _ => exact absurd hs hpub
  | orphaned hs _ _ _ => exact absurd hs hpub

theorem Phase.releasing_step (h : l.Phase) (hp : l.Releasing) (hp' : l'.Releasing)
    (hr : l'.receiver = l.receiver) (hrt : l'.receiverTask = l.receiverTask)
    (hb : l'.toSender = l.toSender) : l'.Phase := by
  have hpub : ¬ l.Publishing := by
    rintro ⟨hs | hs, -⟩ <;> rcases hp.1 with hs' | hs' <;> rw [hs] at hs' <;> cases hs'
  cases h with
  | rest hs _ _ _ _ => exact absurd hs hp.sender_ne_none
  | offered hs _ _ _ => exact absurd hs hpub
  | taken hs _ _ _ _ _ => exact absurd hs hpub
  | releasing _ hb' hr' => exact .releasing hp' (by rw [hb, hb']) (by rwa [hr, hrt])
  | completing _ hb' hr' ht' hsent =>
    exact .completing hp' (by rwa [hb]) (by rwa [hr]) (by rwa [hrt]) (by rwa [hb, hrt])
  | orphaned _ hb' hr' ht' => exact .orphaned hp' (by rwa [hb]) (by rwa [hr]) (by rwa [hrt])

theorem Sound.phase_reserve (h : l.Sound) (hs : l.sender = none) :
    Phase { l with
      sender := some .publishSend, senderTask := .sendPublish false, round := l.round + 1 } := by
  cases h.phase with
  | rest _ ht hf hb hr =>
    refine .offered ⟨.inl rfl, .inr (.inl ⟨false, rfl⟩), by simp [hf]⟩ (fun hk => ?_) hb hr
    have := h.past _ hk
    simp only at this
    omega
  | offered hs' _ _ _ => exact absurd hs hs'.sender_ne_none
  | taken hs' _ _ _ _ _ => exact absurd hs hs'.sender_ne_none
  | releasing hs' _ _ => exact absurd hs hs'.sender_ne_none
  | completing hs' _ _ _ _ => exact absurd hs hs'.sender_ne_none
  | orphaned hs' _ _ _ => exact absurd hs hs'.sender_ne_none

theorem Sound.phase_sendPublish (h : l.Sound) {resent : Bool}
    (ht : l.senderTask = .sendPublish resent) :
    Phase { l with
      toReceiver := l.toReceiver ++ [.publish l.round resent], senderTask := .updatePublish } := by
  have hp := h.phase.publishing (.inl ⟨resent, ht⟩)
  refine h.phase.publishing_step hp ⟨hp.1, .inr (.inr rfl), fun p hmem => ?_⟩ rfl rfl rfl rfl rfl
  rcases List.mem_append.mp hmem with hmem | hmem
  · exact hp.2.2 p hmem
  · exact ⟨resent, List.mem_singleton.mp hmem⟩

theorem Sound.phase_updatePublish (h : l.Sound) (ht : l.senderTask = .updatePublish) :
    Phase { l with sender := l.sender.settle l.sender.sent, senderTask := .idle } := by
  have hp := h.phase.publishing (.inr ht)
  exact h.phase.publishing_step hp ⟨.inr hp.sent, .inl rfl, hp.2.2⟩ rfl rfl rfl rfl rfl

theorem Sound.phase_sendPubRel (h : l.Sound) {resent : Bool}
    (ht : l.senderTask = .sendPubRel resent) :
    Phase { l with
      toReceiver := l.toReceiver ++ [.pubRel resent], senderTask := .updatePubRel } := by
  have hp := h.phase.releasing_of_task (.inl ⟨resent, ht⟩)
  refine h.phase.releasing_step hp ⟨hp.1, .inr (.inr rfl), fun p hmem => ?_, hp.2.2.2⟩ rfl rfl rfl
  rcases List.mem_append.mp hmem with hmem | hmem
  · exact hp.2.2.1 p hmem
  · exact ⟨resent, List.mem_singleton.mp hmem⟩

theorem Sound.phase_updatePubRel (h : l.Sound) (ht : l.senderTask = .updatePubRel) :
    Phase { l with
      sender := l.sender.settle (l.sender.ack .pubRel .send), senderTask := .idle } := by
  have hp := h.phase.releasing_of_task (.inr ht)
  exact h.phase.releasing_step hp ⟨.inr hp.sent, .inl rfl, hp.2.2⟩ rfl rfl rfl

theorem Sound.only_toSender (h : l.Sound) {p : Backward} {rest : List Backward}
    (hp : l.toSender = p :: rest) :
    rest = [] ∧ l.toReceiver = [] ∧ l.senderTask.owes = 0 ∧ l.receiverTask.owes = 0 := by
  have hsingle := h.single
  simp only [transit, hp, List.length_cons] at hsingle
  exact ⟨List.eq_nil_of_length_eq_zero (by omega), List.eq_nil_of_length_eq_zero (by omega),
    by omega, by omega⟩

theorem Sound.only_toReceiver (h : l.Sound) {p : Forward} {rest : List Forward}
    (hp : l.toReceiver = p :: rest) :
    rest = [] ∧ l.toSender = [] ∧ l.senderTask.owes = 0 ∧ l.receiverTask.owes = 0 := by
  have hsingle := h.single
  simp only [transit, hp, List.length_cons] at hsingle
  exact ⟨List.eq_nil_of_length_eq_zero (by omega), List.eq_nil_of_length_eq_zero (by omega),
    by omega, by omega⟩

theorem Sound.sender_recorded (h : l.Sound) (ht : l.senderTask = .idle) (hpos : l.transit ≠ 0) :
    l.sender ≠ some .publishSend ∧ l.sender ≠ some .pubRelSend :=
  ⟨fun hs => hpos (h.stalled (.inl hs) ht), fun hs => hpos (h.stalled (.inr hs) ht)⟩

theorem transit_pos_of_toSender {p : Backward} {rest : List Backward}
    (hp : l.toSender = p :: rest) : l.transit ≠ 0 := by
  simp only [transit, hp, List.length_cons]; omega

theorem Sound.phase_pubRec (h : l.Sound) {rest : List Backward} (hp : l.toSender = .pubRec :: rest)
    (ht : l.senderTask = .idle) :
    Phase { l with
      toSender := rest, sender := l.sender.settle (l.sender.ack .pubRec .receive),
      senderTask := if (l.sender.ack .pubRec .receive).isOk then .sendPubRel false else .idle } := by
  obtain ⟨rfl, hf, -, hrt⟩ := h.only_toSender hp
  have hrec := h.sender_recorded ht (transit_pos_of_toSender hp)
  cases h.phase with
  | rest _ _ _ hb _ => rw [hp] at hb; cases hb
  | offered _ _ hb _ => rw [hp] at hb; cases hb
  | taken hs ha _ hr ht' hsent =>
    have hpending : l.sender = some .pubRecPending := hs.1.resolve_left hrec.1
    rw [hpending]
    refine .releasing ⟨.inl rfl, .inr (.inl ⟨false, rfl⟩), by simp [hf], ha⟩ rfl ?_
    rcases hsent (by rw [hp]; simp) with hr' | hu
    · rcases ht' with ht' | ht' | ht'
      · exact .inl ⟨hr', ht'⟩
      · rw [ht'] at hrt; cases hrt
      · exact .inr ⟨.inr hr', ht'⟩
    · exact .inr ⟨hr, hu⟩
  | releasing _ hb _ => rw [hp] at hb; cases hb
  | completing _ hb _ _ _ => cases hb .pubRec (by rw [hp]; simp)
  | orphaned _ hb _ _ => cases hb .pubRec (by rw [hp]; simp)

theorem Sound.phase_pubComp (h : l.Sound) {rest : List Backward}
    (hp : l.toSender = .pubComp :: rest) (ht : l.senderTask = .idle) :
    l.sender = some .pubCompPending ∧ l.round ∈ l.accepted ∧ ∀ completed, Phase { l with
      toSender := rest, sender := l.sender.settle (l.sender.ack .pubComp .receive),
      completed := completed } := by
  obtain ⟨rfl, hf, -, hrt⟩ := h.only_toSender hp
  have hrec := h.sender_recorded ht (transit_pos_of_toSender hp)
  cases h.phase with
  | rest _ _ _ hb _ => rw [hp] at hb; cases hb
  | offered _ _ hb _ => rw [hp] at hb; cases hb
  | taken _ _ hb _ _ _ => cases hb .pubComp (by rw [hp]; simp)
  | releasing _ hb _ => rw [hp] at hb; cases hb
  | completing hs _ hr _ hsent =>
    have hpending : l.sender = some .pubCompPending := hs.1.resolve_left hrec.2
    refine ⟨hpending, hs.2.2.2, fun _ => ?_⟩
    rw [hpending]
    exact .rest rfl ht hf rfl (.inr ⟨hr, hsent (by rw [hp]; simp)⟩)
  | orphaned hs _ hr ht' =>
    have hpending : l.sender = some .pubCompPending := hs.1.resolve_left hrec.2
    refine ⟨hpending, hs.2.2.2, fun _ => ?_⟩
    rw [hpending]
    exact .rest rfl ht hf rfl (.inl ⟨hr, ht'⟩)

/-- A PUBLISH under way belongs to the current round, and the receiver holds no record of it
exactly when it has not been taken. -/
theorem Sound.publish_under_way (h : l.Sound) {round : ℕ} {resent : Bool} {rest : List Forward}
    (hp : l.toReceiver = .publish round resent :: rest) (ht : l.receiverTask = .idle) :
    round = l.round ∧ l.Publishing ∧ (l.receiver = none ∧ l.round ∉ l.accepted ∨
      (l.receiver = some .pubRecSend ∨ l.receiver = some .pubRelPending) ∧
        l.round ∈ l.accepted) := by
  have hround : l.Publishing → round = l.round := fun hs => by
    obtain ⟨_, he⟩ := hs.2.2 (.publish round resent) (by rw [hp]; simp)
    cases he; rfl
  have hreleasing : ¬ l.Releasing := fun hs => by
    obtain ⟨_, he⟩ := hs.2.2.1 (.publish round resent) (by rw [hp]; simp)
    cases he
  cases h.phase with
  | rest _ _ hf _ _ => rw [hp] at hf; cases hf
  | offered hs hn _ hr =>
    refine ⟨hround hs, hs, .inl ⟨?_, hn⟩⟩
    rcases hr with ⟨hr, -⟩ | ⟨-, ht'⟩
    · exact hr
    · rw [ht] at ht'; cases ht'
  | taken hs ha _ hr _ _ => exact ⟨hround hs, hs, .inr ⟨hr, ha⟩⟩
  | releasing hs _ _ => exact absurd hs hreleasing
  | completing hs _ _ _ _ => exact absurd hs hreleasing
  | orphaned hs _ _ _ => exact absurd hs hreleasing

theorem Publishing.consumed (h : l.Publishing) {receiver : Slot} {task : ReceiverTask}
    {accepted : List ℕ} : Publishing { l with
      toReceiver := [], receiver := receiver, receiverTask := task, accepted := accepted } :=
  ⟨h.1, h.2.1, by simp⟩

theorem Sound.phase_take (h : l.Sound) {round : ℕ} {resent : Bool} {rest : List Forward}
    (hp : l.toReceiver = .publish round resent :: rest) (ht : l.receiverTask = .idle)
    (hr : l.receiver = none) :
    (round = l.round ∧ l.round ∉ l.accepted) ∧ Phase { l with
      toReceiver := rest, receiver := some .pubRecSend, receiverTask := .sendPubRec,
      accepted := l.accepted ++ [round] } := by
  obtain ⟨rfl, hb, -, -⟩ := h.only_toReceiver hp
  obtain ⟨rfl, hs, ⟨-, hn⟩ | ⟨hr', -⟩⟩ := h.publish_under_way hp ht
  · exact ⟨⟨rfl, hn⟩, .taken hs.consumed (by simp) (by simp [hb]) (.inl rfl) (.inr (.inl rfl))
      (by simp [hb])⟩
  · simp [hr] at hr'

theorem Sound.phase_duplicate (h : l.Sound) {round : ℕ} {resent : Bool} {rest : List Forward}
    (hp : l.toReceiver = .publish round resent :: rest) (ht : l.receiverTask = .idle)
    (hr : l.receiver ≠ none) :
    Phase { l with toReceiver := rest, receiverTask := .sendPubRec } := by
  obtain ⟨rfl, hb, -, -⟩ := h.only_toReceiver hp
  obtain ⟨-, hs, ⟨hr', -⟩ | ⟨hr', ha⟩⟩ := h.publish_under_way hp ht
  · exact absurd hr' hr
  · exact .taken hs.consumed ha (by simp [hb]) hr' (.inr (.inl rfl)) (by simp [hb])

theorem Sound.phase_refuse (h : l.Sound) {round : ℕ} {resent : Bool} {rest : List Forward}
    (hp : l.toReceiver = .publish round resent :: rest) (ht : l.receiverTask = .idle)
    (hr : l.receiver = none) : Phase { l with toReceiver := rest } := by
  obtain ⟨rfl, hb, -, -⟩ := h.only_toReceiver hp
  obtain ⟨-, hs, ⟨-, hn⟩ | ⟨hr', -⟩⟩ := h.publish_under_way hp ht
  · exact .offered hs.consumed hn hb (.inl ⟨hr, ht⟩)
  · simp [hr] at hr'

theorem Sound.pubRel_under_way (h : l.Sound) {resent : Bool} {rest : List Forward}
    (hp : l.toReceiver = .pubRel resent :: rest) (ht : l.receiverTask = .idle) :
    l.Releasing ∧ (l.receiver = some .pubRelPending ∨ l.receiver = some .pubCompSend ∨
      l.receiver = none) := by
  have hpublishing : ¬ l.Publishing := fun hs => by
    obtain ⟨_, he⟩ := hs.2.2 (.pubRel resent) (by rw [hp]; simp)
    cases he
  cases h.phase with
  | rest _ _ hf _ _ => rw [hp] at hf; cases hf
  | offered hs _ _ _ => exact absurd hs hpublishing
  | taken hs _ _ _ _ _ => exact absurd hs hpublishing
  | releasing hs _ hr =>
    rcases hr with ⟨hr, -⟩ | ⟨-, ht'⟩
    · exact ⟨hs, .inl hr⟩
    · rw [ht] at ht'; cases ht'
  | completing hs _ hr _ _ => exact ⟨hs, .inr (.inl hr)⟩
  | orphaned hs _ hr _ => exact ⟨hs, .inr (.inr hr)⟩

theorem Releasing.consumed (h : l.Releasing) {receiver : Slot} {task : ReceiverTask} :
    Releasing { l with toReceiver := [], receiver := receiver, receiverTask := task } :=
  ⟨h.1, h.2.1, by simp, h.2.2.2⟩

theorem Sound.phase_pubRel (h : l.Sound) {resent : Bool} {rest : List Forward}
    (hp : l.toReceiver = .pubRel resent :: rest) (ht : l.receiverTask = .idle) :
    Phase { l with
      toReceiver := rest, receiver := l.receiver.settle (l.receiver.ack .pubRel .receive),
      receiverTask :=
        if (l.receiver.ack .pubRel .receive).isOk then .sendPubComp else .idle } := by
  obtain ⟨rfl, hb, -, -⟩ := h.only_toReceiver hp
  obtain ⟨hs, hr | hr | hr⟩ := h.pubRel_under_way hp ht <;> rw [hr]
  · exact .completing hs.consumed (by simp [hb]) rfl (.inr (.inl rfl)) (by simp [hb])
  · exact .completing hs.consumed (by simp [hb]) rfl (.inr (.inl rfl)) (by simp [hb])
  · exact .orphaned hs.consumed (by simp [hb]) rfl rfl

theorem Vacated.task (h : l.Vacated) :
    l.receiverTask = .idle ∨ l.receiverTask = .updatePubComp := h.imp And.right And.right

theorem Sound.phase_sendPubRec (h : l.Sound) (ht : l.receiverTask = .sendPubRec) :
    Phase { l with toSender := l.toSender ++ [.pubRec], receiverTask := .updatePubRec } := by
  cases h.phase with
  | rest _ _ _ _ hr => rcases hr.task with ht' | ht' <;> rw [ht] at ht' <;> cases ht'
  | offered _ _ _ hr => rcases hr.task with ht' | ht' <;> rw [ht] at ht' <;> cases ht'
  | taken hs ha hb hr _ _ =>
    refine .taken hs ha (fun p hp => ?_) hr (.inr (.inr rfl)) fun _ => .inr rfl
    rcases List.mem_append.mp hp with hp | hp
    · exact hb p hp
    · exact List.mem_singleton.mp hp
  | releasing _ _ hr => rcases hr with ⟨-, ht'⟩ | ⟨-, ht'⟩ <;> rw [ht] at ht' <;> cases ht'
  | completing _ _ _ ht' _ => rcases ht' with ht' | ht' | ht' <;> rw [ht] at ht' <;> cases ht'
  | orphaned _ _ _ ht' => rw [ht] at ht'; cases ht'

theorem Sound.phase_updatePubRec (h : l.Sound) (ht : l.receiverTask = .updatePubRec) :
    Phase { l with
      receiver := l.receiver.settle (l.receiver.ack .pubRec .send), receiverTask := .idle } := by
  have hpending : l.receiver = some .pubRecSend ∨ l.receiver = some .pubRelPending →
      l.receiver.settle (l.receiver.ack .pubRec .send) = some .pubRelPending := by
    rintro (hr | hr) <;> rw [hr] <;> rfl
  cases h.phase with
  | rest _ _ _ _ hr => rcases hr.task with ht' | ht' <;> rw [ht] at ht' <;> cases ht'
  | offered _ _ _ hr => rcases hr.task with ht' | ht' <;> rw [ht] at ht' <;> cases ht'
  | taken hs ha hb hr _ _ =>
    exact .taken hs ha hb (.inr (hpending hr)) (.inl rfl) fun _ => .inl (hpending hr)
  | releasing hs hb hr =>
    rcases hr with ⟨-, ht'⟩ | ⟨hr, -⟩
    · rw [ht] at ht'; cases ht'
    · exact .releasing hs hb (.inl ⟨hpending hr, rfl⟩)
  | completing _ _ _ ht' _ => rcases ht' with ht' | ht' | ht' <;> rw [ht] at ht' <;> cases ht'
  | orphaned _ _ _ ht' => rw [ht] at ht'; cases ht'

theorem Sound.phase_sendPubComp (h : l.Sound) (ht : l.receiverTask = .sendPubComp) :
    Phase { l with toSender := l.toSender ++ [.pubComp], receiverTask := .updatePubComp } := by
  cases h.phase with
  | rest _ _ _ _ hr => rcases hr.task with ht' | ht' <;> rw [ht] at ht' <;> cases ht'
  | offered _ _ _ hr => rcases hr.task with ht' | ht' <;> rw [ht] at ht' <;> cases ht'
  | taken _ _ _ _ ht' _ => rcases ht' with ht' | ht' | ht' <;> rw [ht] at ht' <;> cases ht'
  | releasing _ _ hr => rcases hr with ⟨-, ht'⟩ | ⟨-, ht'⟩ <;> rw [ht] at ht' <;> cases ht'
  | completing hs hb hr _ _ =>
    refine .completing hs (fun p hp => ?_) hr (.inr (.inr rfl)) fun _ => rfl
    rcases List.mem_append.mp hp with hp | hp
    · exact hb p hp
    · exact List.mem_singleton.mp hp
  | orphaned _ _ _ ht' => rw [ht] at ht'; cases ht'

theorem Sound.phase_updatePubComp (h : l.Sound) (ht : l.receiverTask = .updatePubComp) :
    Phase { l with
      receiver := l.receiver.settle (l.receiver.ack .pubComp .send), receiverTask := .idle } := by
  have hdone : l.receiver = some .pubCompSend →
      l.receiver.settle (l.receiver.ack .pubComp .send) = none := by
    intro hr; rw [hr]; rfl
  have hvacated : l.Vacated → Vacated { l with
      receiver := l.receiver.settle (l.receiver.ack .pubComp .send), receiverTask := .idle } := by
    rintro (⟨-, ht'⟩ | ⟨hr, -⟩)
    · rw [ht] at ht'; cases ht'
    · exact .inl ⟨hdone hr, rfl⟩
  cases h.phase with
  | rest hs ht' hf hb hr => exact .rest hs ht' hf hb (hvacated hr)
  | offered hs hn hb hr => exact .offered hs hn hb (hvacated hr)
  | taken _ _ _ _ ht' _ => rcases ht' with ht' | ht' | ht' <;> rw [ht] at ht' <;> cases ht'
  | releasing _ _ hr => rcases hr with ⟨-, ht'⟩ | ⟨-, ht'⟩ <;> rw [ht] at ht' <;> cases ht'
  | completing hs hb hr _ _ => exact .orphaned hs hb (hdone hr) rfl
  | orphaned _ _ _ ht' => rw [ht] at ht'; cases ht'

theorem Publishing.cut (h : l.Publishing) {toSender : List Backward} {task : ReceiverTask}
    {connected : Bool} : Publishing { l with
      toReceiver := [], toSender := toSender, senderTask := l.senderTask.cut,
      receiverTask := task, connected := connected } := by
  refine ⟨h.1, ?_, by simp⟩
  rcases h.2.1 with ht | ⟨_, ht⟩ | ht <;> simp [ht, SenderTask.cut]

theorem Releasing.cut (h : l.Releasing) {toSender : List Backward} {task : ReceiverTask}
    {connected : Bool} : Releasing { l with
      toReceiver := [], toSender := toSender, senderTask := l.senderTask.cut,
      receiverTask := task, connected := connected } := by
  refine ⟨h.1, ?_, by simp, h.2.2.2⟩
  rcases h.2.1 with ht | ⟨_, ht⟩ | ht <;> simp [ht, SenderTask.cut]

theorem Vacated.cut (h : l.Vacated) {toSender : List Backward} {task : SenderTask}
    {connected : Bool} : Vacated { l with
      toReceiver := [], toSender := toSender, senderTask := task,
      receiverTask := l.receiverTask.cut, connected := connected } := by
  rcases h with ⟨hr, ht⟩ | ⟨hr, ht⟩
  · exact .inl ⟨hr, by simp [ht, ReceiverTask.cut]⟩
  · exact .inr ⟨hr, by simp [ht, ReceiverTask.cut]⟩

theorem Sound.phase_lose (h : l.Sound) :
    Phase { l with
      toReceiver := [], toSender := [], senderTask := l.senderTask.cut,
      receiverTask := l.receiverTask.cut, connected := false } := by
  cases h.phase with
  | rest hs ht _ _ hr => exact .rest hs (by simp [ht, SenderTask.cut]) rfl rfl hr.cut
  | offered hs hn _ hr => exact .offered hs.cut hn rfl hr.cut
  | taken hs ha _ hr ht _ =>
    refine .taken hs.cut ha (by simp) hr ?_ (by simp)
    rcases ht with ht | ht | ht <;> simp [ht, ReceiverTask.cut]
  | releasing hs _ hr =>
    refine .releasing hs.cut rfl ?_
    rcases hr with ⟨hr, ht⟩ | ⟨hr, ht⟩
    · exact .inl ⟨hr, by simp [ht, ReceiverTask.cut]⟩
    · exact .inr ⟨hr, by simp [ht, ReceiverTask.cut]⟩
  | completing hs _ hr ht _ =>
    refine .completing hs.cut (by simp) hr ?_ (by simp)
    rcases ht with ht | ht | ht <;> simp [ht, ReceiverTask.cut]
  | orphaned hs _ hr ht => exact .orphaned hs.cut (by simp) hr (by simp [ht, ReceiverTask.cut])

theorem Sound.phase_resume (h : l.Sound) (hc : l.connected = false) :
    Phase { l with senderTask := resumeTask l.sender, connected := true } := by
  have hempty := h.offline hc
  have hf : l.toReceiver = [] := List.eq_nil_of_length_eq_zero (by simp only [transit] at hempty; omega)
  have hpub : l.Publishing →
      Publishing { l with senderTask := resumeTask l.sender, connected := true } := fun hs => by
    refine ⟨hs.1, .inr (.inl ⟨true, ?_⟩), by simp [hf]⟩
    rcases hs.1 with hs | hs <;> rw [hs] <;> rfl
  have hrel : l.Releasing →
      Releasing { l with senderTask := resumeTask l.sender, connected := true } := fun hs => by
    refine ⟨hs.1, .inr (.inl ⟨true, ?_⟩), by simp [hf], hs.2.2.2⟩
    rcases hs.1 with hs | hs <;> rw [hs] <;> rfl
  cases h.phase with
  | rest hs _ _ hb hr => exact .rest hs (by rw [hs]; rfl) hf hb hr
  | offered hs hn hb hr => exact .offered (hpub hs) hn hb hr
  | taken hs ha hb hr ht hsent => exact .taken (hpub hs) ha hb hr ht hsent
  | releasing hs hb hr => exact .releasing (hrel hs) hb hr
  | completing hs hb hr ht hsent => exact .completing (hrel hs) hb hr ht hsent
  | orphaned hs hb hr ht => exact .orphaned (hrel hs) hb hr ht

end Lane

end RtosMqtt.Handshake
