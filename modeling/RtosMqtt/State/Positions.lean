import RtosMqtt.State.Incoming
import RtosMqtt.State.Resend

/-! # How far a handshake has got

The positions of a handshake come in an order, and an acknowledgement moves a
message forward or leaves it. What a resumed session owes for a message, and what
it waits for once it has sent that, depend on the position alone.
-/

namespace RtosMqtt

open Sparse Roster

/-- How many steps of its handshake a message has behind it. -/
def PublishState.rank : PublishState → ℕ
  | .null | .publishSend => 0
  | .pubAckSend | .pubRecSend | .pubAckPending | .pubRecPending => 1
  | .pubRelSend | .pubRelPending => 2
  | .pubCompSend | .pubCompPending => 3
  | .publishDone => 4

theorem validateTransitionAck_rank {current new : PublishState}
    (h : validateTransitionAck current new = true) : current.rank ≤ new.rank := by
  cases current <;> cases new <;> first | exact absurd h (by decide) | decide

structure Record.Succeeds (x y : Record) : Prop where
  packetId : y.packetId = x.packetId
  qos : y.qos = x.qos
  rank : x.state.rank ≤ y.state.rank

theorem Record.Succeeds.refl (x : Record) : x.Succeeds x := ⟨rfl, rfl, le_rfl⟩

theorem Record.Succeeds.trans {x y z : Record} (h : x.Succeeds y) (h' : y.Succeeds z) :
    x.Succeeds z :=
  ⟨h'.packetId.trans h.packetId, h'.qos.trans h.qos, h.rank.trans h'.rank⟩

/-- What a resumed session owes for a message is its PUBREL, and otherwise its PUBLISH. -/
def Record.owesPubRel (x : Record) : Bool := x.state ∈ PublishRecords.pubrelWanted

def Record.awaited (x : Record) : AckType :=
  if x.owesPubRel then .pubComp else if x.qos = .exactlyOnce then .pubRec else .pubAck

def OccupiedBelow (records : List Record) (n : ℕ) : Prop :=
  ∀ i x, records[i]? = some x → x.packetId ≠ packetIdInvalid → i < n

theorem inFlight_take_eq_iff {records : List Record} {n : ℕ} :
    inFlight (records.take n) = inFlight records ↔ OccupiedBelow records n := by
  have hsplit : inFlight records = inFlight (records.take n) ++ inFlight (records.drop n) := by
    conv_lhs => rw [← List.take_append_drop n records]
    exact live_append _ _
  rw [hsplit]
  constructor
  · intro h i x hx hid
    have hnil : inFlight (records.drop n) = [] := List.self_eq_append_right.mp h
    by_contra hin
    have hmem : x ∈ records.drop n :=
      List.mem_of_getElem? (i := i - n) (by rw [List.getElem?_drop, Nat.add_sub_of_le (by omega), hx])
    have hlive := mem_inFlight.mpr ⟨hmem, hid⟩
    rw [hnil] at hlive
    cases hlive
  · intro h
    have hnil : inFlight (records.drop n) = [] := by
      apply live_eq_nil
      intro x hx
      obtain ⟨i, hi⟩ := List.mem_iff_getElem?.mp hx
      rw [List.getElem?_drop] at hi
      rw [isEmpty_iff]
      by_contra hid
      have hlt := h (n + i) x hi hid
      omega
    rw [hnil, List.append_nil]

theorem occupiedBelow_of_ids {records : List Record} {n : ℕ} (hn : (inFlightIds records).Nodup)
    (h : ∀ x ∈ inFlight records, x.packetId ∈ inFlightIds (records.take n)) :
    OccupiedBelow records n := by
  rw [← inFlight_take_eq_iff]
  have hids : inFlightIds records =
      inFlightIds (records.take n) ++ inFlightIds (records.drop n) := by
    conv_lhs => rw [← List.take_append_drop n records]
    rw [inFlightIds, inFlight, live_append, List.map_append]
    rfl
  have hsplit : inFlight records = inFlight (records.take n) ++ inFlight (records.drop n) := by
    conv_lhs => rw [← List.take_append_drop n records]
    exact live_append _ _
  rw [hids, List.nodup_append] at hn
  have hnil : inFlight (records.drop n) = [] := by
    apply List.eq_nil_iff_forall_not_mem.mpr
    intro x hx
    have hin := h x (by rw [hsplit]; exact List.mem_append_right _ hx)
    exact hn.2.2 _ hin x.packetId (List.mem_map_of_mem hx) rfl
  rw [hsplit, hnil, List.append_nil]

/-- Every message in flight is in another array, no less far. -/
def Survive (records records' : List Record) : Prop :=
  ∀ x ∈ inFlight records, ∃ y ∈ inFlight records', x.Succeeds y

theorem survive_take_iff {records : List Record} {n : ℕ} (hn : (inFlightIds records).Nodup) :
    Survive records (records.take n) ↔ OccupiedBelow records n := by
  constructor
  · intro h
    apply occupiedBelow_of_ids hn
    intro x hx
    obtain ⟨y, hy, hxy⟩ := h x hx
    rw [← hxy.packetId]
    exact List.mem_map_of_mem hy
  · intro h x hx
    exact ⟨x, by rwa [inFlight_take_eq_iff.mpr h], .refl x⟩

namespace PublishRecords

variable {r : PublishRecords}

@[simp] theorem cap_outgoing (outgoing incoming : ℕ) :
    (r.cap outgoing incoming).outgoing = r.outgoing.take outgoing := by
  simp only [cap]
  split_ifs with h
  · rfl
  · exact (List.take_of_length_le (Nat.le_of_not_lt h)).symm

@[simp] theorem cap_incoming (outgoing incoming : ℕ) :
    (r.cap outgoing incoming).incoming = r.incoming.take incoming := by
  simp only [cap]
  split_ifs with h
  · rfl
  · exact (List.take_of_length_le (Nat.le_of_not_lt h)).symm

theorem updateAck_accepted_iff (h : r.WellFormed) {x : Record} (hx : x ∈ inFlight r.outgoing)
    {ack : AckType} {op : Operation} (hout : isPublishOutgoing ack op = true) :
    (∃ state, (r.updateAck x.packetId ack op).1 = .ok state) ↔
      validateTransitionAck x.state (calculateStateAck ack op x.qos) = true := by
  have hsame {y : Record} (hy : y ∈ inFlight r.outgoing) (hid : y.packetId = x.packetId) :
      y = x := List.inj_on_of_nodup_map h.outgoing.distinct hy hx hid
  have heff := updateAck_spec h x.packetId ack op
  generalize r.updateAck x.packetId ack op = answer at heff
  cases heff with
  | zero hid => exact absurd hid (mem_inFlight.mp hx).2
  | incoming _ hin => rw [hin] at hout; cases hout
  | outgoing _ _ result heff =>
    cases heff with
    | unknown hnot => exact absurd (List.mem_map_of_mem hx) hnot
    | illegal y hy hid hv =>
      obtain rfl := hsame hy hid
      simp [hv]
    | repeated y hy hid hv hnew =>
      obtain rfl := hsame hy hid
      simp [hnew, hv]
    | finished y _ hy hid hv hnew =>
      obtain rfl := hsame hy hid
      simp [hnew, hv]
    | released y _ hy hid hv hnew =>
      obtain rfl := hsame hy hid
      simp [hnew, hv]
    | moved y _ _ hy hid hv hnew =>
      obtain rfl := hsame hy hid
      simp [hnew, hv]

/-- The broker's answer to what a resumed session sends for a message is accepted exactly when the
message had been sent before. -/
theorem awaited_accepted_iff (h : r.WellFormed) {x : Record} (hx : x ∈ inFlight r.outgoing) :
    (∃ state, (r.updateAck x.packetId x.awaited .receive).1 = .ok state) ↔
      x.state ≠ .publishSend ∧ x.state ≠ .pubRelSend := by
  have hout : isPublishOutgoing x.awaited .receive = true := by
    unfold Record.awaited
    split_ifs <;> rfl
  rw [updateAck_accepted_iff h hx hout]
  have hlegal := h.outgoing.legal x hx
  obtain ⟨packetId, qos, state⟩ := x
  rcases hlegal with ⟨rfl, rfl | rfl⟩ | ⟨rfl, rfl | rfl | rfl | rfl⟩ <;>
    simp [Record.awaited, Record.owesPubRel, pubrelWanted, calculateStateAck, ackTarget,
      validateTransitionAck]

theorem mem_resent (h : r.WellFormed) {x : Record} (hx : x ∈ inFlight r.outgoing) :
    if x.owesPubRel then x.packetId ∈ r.pubrelIds else x.packetId ∈ r.publishIds := by
  have hlegal := h.outgoing.legal x hx
  split_ifs with howes
  · exact List.mem_map_of_mem (List.mem_filter.mpr ⟨hx, howes⟩)
  · refine List.mem_map_of_mem (List.mem_filter.mpr ⟨hx, ?_⟩)
    unfold Record.owesPubRel at howes
    rcases hlegal with ⟨-, hstate | hstate⟩ | ⟨-, hstate | hstate | hstate | hstate⟩ <;>
      rw [hstate] at howes ⊢ <;> revert howes <;> decide

theorem mem_ids_of_ackEffect {records : List Record} {packetId : UInt16} {ack : AckType}
    {op : Operation} {result : Except StateError PublishState × List Record}
    (h : AckEffect records packetId ack op result)
    (hnever : ∀ qos, calculateStateAck ack op qos ≠ .publishDone) :
    ∀ other ∈ inFlightIds records, other ∈ inFlightIds result.2 := by
  cases h with
  | unknown => exact fun _ hmem => hmem
  | illegal => exact fun _ hmem => hmem
  | repeated => exact fun _ hmem => hmem
  | finished x _ _ _ _ hnew => exact absurd hnew (hnever _)
  | released x array hx hid hv hnew hlive =>
    intro other hother
    rw [inFlightIds, hlive, List.map_append]
    by_cases heq : other = packetId
    · exact List.mem_append_right _ (by simp [heq])
    · obtain ⟨y, hy, rfl⟩ := List.mem_map.mp hother
      exact List.mem_append_left _ (List.mem_map_of_mem (mem_remove.mpr ⟨hy, heq⟩))
  | moved x new array _ _ _ _ _ _ hlive =>
    intro other hother
    rwa [inFlightIds, hlive, map_key_amend]

/-- An outgoing message stays recorded unless an acknowledgement that was received ends its
handshake. -/
theorem mem_outgoing_updateAck (h : r.WellFormed) (packetId : UInt16) {ack : AckType}
    {op : Operation} (hkeeps : isPublishOutgoing ack op = true →
      ∀ qos, calculateStateAck ack op qos ≠ .publishDone) :
    ∀ other ∈ inFlightIds r.outgoing,
      other ∈ inFlightIds (r.updateAck packetId ack op).2.outgoing := by
  have heff := updateAck_spec h packetId ack op
  generalize r.updateAck packetId ack op = answer at heff ⊢
  cases heff with
  | zero => exact fun _ hmem => hmem
  | incoming => exact fun _ hmem => hmem
  | outgoing _ hout result heff => exact mem_ids_of_ackEffect heff (hkeeps hout)

/-- An incoming message stays recorded unless an acknowledgement that was sent ends its
handshake. -/
theorem mem_incoming_updateAck (h : r.WellFormed) (packetId : UInt16) {ack : AckType}
    {op : Operation} (hkeeps : isPublishOutgoing ack op = false →
      ∀ qos, calculateStateAck ack op qos ≠ .publishDone) :
    ∀ other ∈ inFlightIds r.incoming,
      other ∈ inFlightIds (r.updateAck packetId ack op).2.incoming := by
  have heff := updateAck_spec h packetId ack op
  generalize r.updateAck packetId ack op = answer at heff ⊢
  cases heff with
  | zero => exact fun _ hmem => hmem
  | outgoing => exact fun _ hmem => hmem
  | incoming _ hout result heff => exact mem_ids_of_ackEffect heff (hkeeps hout)

theorem updatePublish_collision_iff (h : r.WellFormed) {packetId : UInt16} {qos : QoS}
    (hqos : qos ≠ .atMostOnce) :
    (r.updatePublish packetId .receive qos).1 = .error .stateCollision ↔
      packetId ∈ inFlightIds r.incoming := by
  have heff := updatePublish_spec h.outgoing.distinct packetId .receive qos
  generalize r.updatePublish packetId .receive qos = answer at heff ⊢
  cases heff with
  | unrecorded _ hq => exact absurd hq hqos
  | zero _ _ hid => exact iff_of_false nofun (hid ▸ packetIdInvalid_not_mem _)
  | received _ _ result hadd =>
    cases hadd with
    | collision hin => exact iff_of_true rfl hin
    | full hnot => exact iff_of_false nofun hnot
    | appended _ hnot => exact iff_of_false nofun hnot

theorem updatePublish_exactlyOnce_eq_ok {packetId : UInt16} {state : PublishState}
    (hok : (r.updatePublish packetId .receive .exactlyOnce).1 = .ok state) :
    state = .pubRecSend ∧
      packetId ∈ inFlightIds (r.updatePublish packetId .receive .exactlyOnce).2.incoming := by
  obtain ⟨hid, -, hretains⟩ := retains_of_received hok
  refine ⟨?_, hretains.mem_inFlightIds hid⟩
  rw [updatePublish_received hid] at hok
  revert hok
  rcases addRecord r.incoming packetId .exactlyOnce .pubRecSend with ⟨_ | _, _⟩
  · nofun
  · rintro ⟨⟩
    rfl

theorem mem_incoming_updatePublish (h : r.WellFormed) (packetId : UInt16) (qos : QoS) :
    ∀ other ∈ inFlightIds r.incoming,
      other ∈ inFlightIds (r.updatePublish packetId .receive qos).2.incoming := by
  have heff := updatePublish_spec h.outgoing.distinct packetId .receive qos
  generalize r.updatePublish packetId .receive qos = answer at heff ⊢
  cases heff with
  | unrecorded => exact fun _ hmem => hmem
  | zero => exact fun _ hmem => hmem
  | received _ _ result hadd =>
    cases hadd with
    | collision => exact fun _ hmem => by rwa [inFlightIds, inFlight_settled]
    | full => exact fun _ hmem => by rwa [inFlightIds, inFlight_settled]
    | appended array _ _ hlive =>
      intro other hother
      rw [inFlightIds, hlive, List.map_append]
      exact List.mem_append_left _ hother

/-- A PUBREC that is accepted moves its message to the end, waiting for its PUBREL to go out. -/
theorem updateAck_pubRec_received (h : r.WellFormed) {packetId : UInt16} {state : PublishState}
    (hok : (r.updateAck packetId .pubRec .receive).1 = .ok state) : state = .pubRelSend ∧
      (∃ x ∈ inFlight r.outgoing, x.packetId = packetId ∧ x.state = .pubRecPending) ∧
      (r.updateAck packetId .pubRec .receive).2.incoming = r.incoming ∧
      inFlight (r.updateAck packetId .pubRec .receive).2.outgoing =
        Roster.remove Record.packetId packetId (inFlight r.outgoing) ++
          [{ packetId, qos := .exactlyOnce, state := .pubRelSend }] := by
  have htarget {qos : QoS} {state new : PublishState}
      (hv : validateTransitionAck state new = true)
      (hnew : calculateStateAck .pubRec .receive qos = new) :
      new = .pubRelSend ∧ state = .pubRecPending := by
    cases qos <;> cases state <;> revert hv <;> rw [← hnew] <;> decide
  have heff := updateAck_spec h packetId .pubRec .receive
  generalize r.updateAck packetId .pubRec .receive = answer at heff hok ⊢
  cases heff with
  | zero => cases hok
  | incoming _ hin => cases hin
  | outgoing _ _ result heff =>
    cases heff with
    | unknown => cases hok
    | illegal => cases hok
    | repeated x _ _ hv hnew =>
      obtain ⟨hstate, hstate'⟩ := htarget hv hnew
      rw [hstate] at hstate'
      cases hstate'
    | finished x _ _ _ hv hnew => cases (htarget hv hnew).1
    | moved x new _ _ _ hv hnew _ hrel => exact absurd (htarget hv hnew).1 hrel
    | released x array hx hid hv hnew hlive =>
      obtain rfl := Except.ok.inj hok
      exact ⟨rfl, ⟨x, hx, hid, (htarget hv hnew).2⟩, rfl, hlive⟩

theorem updateAck_pubRel_sent (h : r.WellFormed) {packetId : UInt16} {state : PublishState}
    (hok : (r.updateAck packetId .pubRel .send).1 = .ok state) :
    ∃ x ∈ inFlight (r.updateAck packetId .pubRel .send).2.outgoing,
      x.packetId = packetId ∧ x.state = .pubCompPending := by
  have htarget {qos : QoS} {state new : PublishState}
      (hv : validateTransitionAck state new = true)
      (hnew : calculateStateAck .pubRel .send qos = new) : new = .pubCompPending := by
    cases qos <;> cases state <;> revert hv <;> rw [← hnew] <;> decide
  have heff := updateAck_spec h packetId .pubRel .send
  generalize r.updateAck packetId .pubRel .send = answer at heff hok ⊢
  cases heff with
  | zero => cases hok
  | incoming _ hin => cases hin
  | outgoing _ _ result heff =>
    cases heff with
    | unknown => cases hok
    | illegal => cases hok
    | repeated x hx hid hv hnew => exact ⟨x, hx, hid, htarget hv hnew⟩
    | finished x _ _ _ hv hnew => cases htarget hv hnew
    | released x _ _ _ hv hnew => cases htarget hv hnew
    | moved x new _ hx hid hv hnew _ _ hlive =>
      dsimp only
      rw [hlive]
      have hmem : (if x.packetId = x.packetId then { x with state := new } else x) ∈
          amend Record.packetId { x with state := new } (inFlight r.outgoing) :=
        List.mem_map_of_mem hx
      rw [if_pos rfl] at hmem
      exact ⟨_, hmem, hid, htarget hv hnew⟩

structure Carries (r r' : PublishRecords) : Prop where
  wellFormed : r'.WellFormed
  incoming : r'.incoming = r.incoming
  ids : inFlightIds r'.outgoing = inFlightIds r.outgoing
  survives : Survive r.outgoing r'.outgoing

theorem Carries.refl (h : r.WellFormed) : r.Carries r :=
  ⟨h, rfl, rfl, fun x hx => ⟨x, hx, .refl x⟩⟩

theorem Carries.trans {r' r'' : PublishRecords} (h : r.Carries r') (h' : r'.Carries r'') :
    r.Carries r'' := by
  refine ⟨h'.wellFormed, h'.incoming.trans h.incoming, h'.ids.trans h.ids, ?_⟩
  intro x hx
  obtain ⟨y, hy, hxy⟩ := h.survives x hx
  obtain ⟨z, hz, hyz⟩ := h'.survives y hy
  exact ⟨z, hz, hxy.trans hyz⟩

/-- A PUBREL that went out moves its message forward where it stands. -/
theorem carries_pubRel (h : r.WellFormed) (packetId : UInt16) :
    r.Carries (r.updateAck packetId .pubRel .send).2 := by
  have hwf := h.updateAck packetId .pubRel .send
  have hnever (qos : QoS) : calculateStateAck .pubRel .send qos ≠ .publishDone ∧
      calculateStateAck .pubRel .send qos ≠ .pubRelSend := by
    cases qos <;> decide
  have heff := updateAck_spec h packetId .pubRel .send
  generalize r.updateAck packetId .pubRel .send = answer at heff hwf ⊢
  cases heff with
  | zero => exact .refl h
  | incoming _ hin => cases hin
  | outgoing _ _ result heff =>
    cases heff with
    | unknown => exact .refl h
    | illegal => exact .refl h
    | repeated => exact .refl h
    | finished x _ _ _ _ hnew => exact absurd hnew (hnever _).1
    | released x _ _ _ _ hnew => exact absurd hnew (hnever _).2
    | moved x new array hx hid hv hnew _ _ hlive =>
      refine ⟨hwf, rfl, ?_, ?_⟩
      · rw [inFlightIds, hlive, map_key_amend, inFlightIds]
      · intro y hy
        dsimp only
        rw [hlive]
        have hmem : (if y.packetId = x.packetId then { x with state := new } else y) ∈
            amend Record.packetId { x with state := new } (inFlight r.outgoing) :=
          List.mem_map_of_mem hy
        refine ⟨_, hmem, ?_⟩
        split_ifs with heq
        · obtain rfl : y = x := List.inj_on_of_nodup_map h.outgoing.distinct hy hx heq
          exact ⟨rfl, rfl, validateTransitionAck_rank hv⟩
        · exact .refl y

end PublishRecords

end RtosMqtt
