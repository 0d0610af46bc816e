import RtosMqtt.Handshake.Lane
import RtosMqtt.State.Operations

/-! # The record of one identifier

On arrays whose messages are all QoS 2, each record operation acts on the slot
of its own identifier as the lane says, and on no other.
-/

namespace RtosMqtt.Handshake

open Sparse Roster

def slot (records : List Record) (packetId : UInt16) : Slot :=
  (lookup Record.packetId packetId (inFlight records)).map Record.state

def AllExactlyOnce (records : List Record) : Prop := ∀ x ∈ inFlight records, x.qos = .exactlyOnce

/-- One array is another with the slot of one identifier rewritten. -/
structure Rewrites (before after : List Record) (packetId : UInt16) (new : Slot) : Prop where
  here : slot after packetId = new
  elsewhere : ∀ other, other ≠ packetId → slot after other = slot before other
  qos : AllExactlyOnce before → AllExactlyOnce after

section Slot

variable {before after : List Record} {packetId : UInt16}

theorem slot_eq_none : slot before packetId = none ↔ packetId ∉ inFlightIds before := by
  rw [slot, Option.map_eq_none_iff, lookup_eq_none]; rfl

theorem slot_of_mem (hn : (inFlightIds before).Nodup) {x : Record} (hx : x ∈ inFlight before)
    (hid : x.packetId = packetId) : slot before packetId = some x.state := by
  rw [slot, ← hid, lookup_of_mem hn hx]; rfl

theorem slot_packetIdInvalid : slot before packetIdInvalid = none :=
  slot_eq_none.mpr (packetIdInvalid_not_mem before)

theorem rewrites_same (h : inFlight after = inFlight before) :
    Rewrites before after packetId (slot before packetId) :=
  ⟨by rw [slot, h, ← slot], fun _ _ => by rw [slot, h, ← slot],
    fun hq => by unfold AllExactlyOnce; rwa [h]⟩

theorem rewrites_refused (h : inFlight after = inFlight before)
    {result : Except StateError Slot} {e : StateError} (he : result = .error e) :
    Rewrites before after packetId ((slot before packetId).settle result) := by
  rw [he]; exact rewrites_same h

theorem rewrites_append {new : Record} (h : inFlight after = inFlight before ++ [new])
    (hnew : new.packetId ∉ inFlightIds before) (hq : new.qos = .exactlyOnce) :
    Rewrites before after new.packetId (some new.state) := by
  have hslot : ∀ other, slot after other =
      if new.packetId = other then some new.state else slot before other := by
    intro other
    rw [slot, h, lookup_append_singleton hnew, slot]
    split <;> rfl
  refine ⟨by rw [hslot, if_pos rfl], fun other hne => by rw [hslot, if_neg hne.symm],
    fun hall x hx => ?_⟩
  rw [h] at hx
  rcases List.mem_append.mp hx with hx | hx
  · exact hall x hx
  · exact List.mem_singleton.mp hx ▸ hq

theorem slot_remove (h : inFlight after = Roster.remove Record.packetId packetId (inFlight before))
    (other : UInt16) :
    slot after other = if other = packetId then none else slot before other := by
  rw [slot, h, lookup_remove, slot]
  split <;> rfl

theorem rewrites_remove
    (h : inFlight after = Roster.remove Record.packetId packetId (inFlight before)) :
    Rewrites before after packetId none := by
  refine ⟨by rw [slot_remove h, if_pos rfl], fun other hne => by rw [slot_remove h, if_neg hne],
    fun hall x hx => ?_⟩
  rw [h] at hx
  exact hall x (List.mem_of_mem_filter hx)

theorem rewrites_amend (hn : (inFlightIds before).Nodup) {x : Record} (hx : x ∈ inFlight before)
    {new : PublishState}
    (h : inFlight after = amend Record.packetId { x with state := new } (inFlight before)) :
    Rewrites before after x.packetId (some new) := by
  have hslot : ∀ other, slot after other =
      if other = x.packetId then (slot before other).map fun _ => new else slot before other := by
    intro other
    rw [slot, h, lookup_amend, slot]
    split <;> simp [Option.map_map, Function.comp_def]
  refine ⟨by rw [hslot, if_pos rfl, slot_of_mem hn hx rfl]; rfl,
    fun other hne => by rw [hslot, if_neg hne], fun hall y hy => ?_⟩
  rw [h] at hy
  rcases mem_amend hy with rfl | hy
  · exact hall x hx
  · exact hall y hy

theorem rewrites_release {new : PublishState}
    (h : inFlight after = Roster.remove Record.packetId packetId (inFlight before) ++
      [{ packetId, qos := .exactlyOnce, state := new }]) :
    Rewrites before after packetId (some new) := by
  have hslot : ∀ other, slot after other =
      if packetId = other then some new else slot before other := by
    intro other
    have hnot : Record.packetId { packetId, qos := .exactlyOnce, state := new } ∉
        (Roster.remove Record.packetId packetId (inFlight before)).map Record.packetId :=
      not_mem_remove
    rw [slot, h, lookup_append_singleton hnot, lookup_remove, slot]
    by_cases ho : packetId = other
    · rw [if_pos ho, if_pos ho]; rfl
    · rw [if_neg ho, if_neg (Ne.symm ho), if_neg ho]
  refine ⟨by rw [hslot, if_pos rfl], fun other hne => by rw [hslot, if_neg hne.symm],
    fun hall x hx => ?_⟩
  rw [h] at hx
  rcases List.mem_append.mp hx with hx | hx
  · exact hall x (List.mem_of_mem_filter hx)
  · exact List.mem_singleton.mp hx ▸ rfl

theorem rewrites_added {new : Record} {result : Except StateError Unit × List Record}
    (hadd : Added before new result) (hq : new.qos = .exactlyOnce) :
    (result.1 = .ok () ∧ slot before new.packetId = none ∧
        Rewrites before result.2 new.packetId (some new.state)) ∨
      (result.1 = .error .stateCollision ∧ slot before new.packetId ≠ none ∧
        Rewrites before result.2 new.packetId (slot before new.packetId)) ∨
      (result.1 = .error .noMemory ∧ slot before new.packetId = none ∧
        Rewrites before result.2 new.packetId (slot before new.packetId)) := by
  cases hadd with
  | collision hmem =>
    exact .inr (.inl ⟨rfl, mt slot_eq_none.mp (not_not.mpr hmem), rewrites_same (inFlight_settled _)⟩)
  | full hmem _ =>
    exact .inr (.inr ⟨rfl, slot_eq_none.mpr hmem, rewrites_same (inFlight_settled _)⟩)
  | appended array hmem _ hlive _ _ =>
    exact .inl ⟨rfl, slot_eq_none.mpr hmem, rewrites_append hlive hmem hq⟩

/-- An acknowledgement rewrites the slot of its identifier as the lane says. -/
theorem rewrites_ack (hn : (inFlightIds before).Nodup) (hall : AllExactlyOnce before)
    {ack : AckType} {op : Operation} {result : Except StateError PublishState × List Record}
    (heff : AckEffect before packetId ack op result) :
    result.1.isOk = ((slot before packetId).ack ack op).isOk ∧
      Rewrites before result.2 packetId
        ((slot before packetId).settle ((slot before packetId).ack ack op)) := by
  cases heff with
  | unknown hmem =>
    have hack : (slot before packetId).ack ack op = .error .badResponse := by
      rw [slot_eq_none.mpr hmem]; rfl
    exact ⟨by rw [hack]; rfl, rewrites_refused rfl hack⟩
  | illegal x hx hid hv =>
    rw [hall x hx] at hv
    have hslot := slot_of_mem hn hx hid
    have hack : (slot before packetId).ack ack op = .error .illegalState := by
      simp [hslot, Slot.ack, hv]
    rw [hack]
    exact ⟨rfl, rewrites_same rfl⟩
  | repeated x hx hid hv hnew =>
    rw [hall x hx] at hnew
    have hslot := slot_of_mem hn hx hid
    have hack : (slot before packetId).ack ack op = .ok (slot before packetId) := by
      obtain ⟨hdone, -⟩ := self_transition_not_deleting hv
      simp [hslot, Slot.ack, hnew, hv, hdone]
    rw [hack]
    exact ⟨rfl, rewrites_same rfl⟩
  | finished x array hx hid hv hnew hlive _ _ =>
    rw [hall x hx] at hnew
    have hack : (slot before packetId).ack ack op = .ok none := by
      simp [slot_of_mem hn hx hid, Slot.ack, hnew, hv]
    rw [hack]
    exact ⟨rfl, rewrites_remove hlive⟩
  | released x array hx hid hv hnew hlive _ _ =>
    rw [hall x hx] at hnew
    have hack : (slot before packetId).ack ack op = .ok (some .pubRelSend) := by
      simp [slot_of_mem hn hx hid, Slot.ack, hnew, hv]
    rw [hack]
    exact ⟨rfl, rewrites_release hlive⟩
  | moved x new array hx hid hv hnew hdone _ hlive _ _ =>
    rw [hall x hx] at hnew
    have hack : (slot before packetId).ack ack op = .ok (some new) := by
      simp [slot_of_mem hn hx hid, Slot.ack, hnew, hv, hdone]
    rw [hack]
    exact ⟨rfl, hid ▸ rewrites_amend hn hx hlive⟩

end Slot

section Calls

variable {r : PublishRecords} {packetId : UInt16}

theorem slot_reserve (r : PublishRecords) (packetId : UInt16) :
    (r.reserve packetId .exactlyOnce).1 = .ok () ∧ slot r.outgoing packetId = none ∧
        Rewrites r.outgoing (r.reserve packetId .exactlyOnce).2.outgoing packetId
          (some .publishSend) ∨
      (∃ e, (r.reserve packetId .exactlyOnce).1 = .error e) ∧
        Rewrites r.outgoing (r.reserve packetId .exactlyOnce).2.outgoing packetId
          (slot r.outgoing packetId) := by
  have heff := PublishRecords.reserve_spec r packetId .exactlyOnce
  generalize r.reserve packetId .exactlyOnce = result at heff
  cases heff with
  | unrecorded hq => cases hq
  | zero _ _ => exact .inr ⟨⟨_, rfl⟩, rewrites_same rfl⟩
  | recorded _ _ result hadd =>
    rcases rewrites_added hadd rfl with ⟨hok, hnone, hrw⟩ | ⟨he, -, hrw⟩ | ⟨he, -, hrw⟩
    · exact .inl ⟨hok, hnone, hrw⟩
    · exact .inr ⟨⟨_, he⟩, hrw⟩
    · exact .inr ⟨⟨_, he⟩, hrw⟩

theorem slot_sent (h : r.WellFormed) (hall : AllExactlyOnce r.outgoing) (packetId : UInt16) :
    Rewrites r.outgoing (r.updatePublish packetId .send .exactlyOnce).2.outgoing packetId
      ((slot r.outgoing packetId).settle (slot r.outgoing packetId).sent) := by
  have hn := h.outgoing.distinct
  have heff := PublishRecords.updatePublish_spec hn packetId .send .exactlyOnce
  generalize r.updatePublish packetId .send .exactlyOnce = result at heff
  cases heff with
  | unrecorded _ hq => cases hq
  | zero _ _ hid =>
    refine rewrites_refused (e := .badParameter) rfl ?_
    rw [hid, slot_packetIdInvalid]; rfl
  | unknown _ _ hmem =>
    refine rewrites_refused (e := .badParameter) rfl ?_
    rw [slot_eq_none.mpr hmem]; rfl
  | mismatch _ x hx _ hne => exact absurd (hall x hx) hne
  | illegal _ x hx hid hxq hv =>
    have hsent : (slot r.outgoing packetId).sent = .error .illegalState := by
      simp [slot_of_mem hn hx hid, Slot.sent, hv]
    rw [hsent]
    exact rewrites_same rfl
  | repeated _ x hx hid hxq hnew =>
    have hslot := slot_of_mem hn hx hid
    have hsent : (slot r.outgoing packetId).sent = .ok (slot r.outgoing packetId) := by
      simp [hslot, Slot.sent, hnew, calculateStatePublish, validateTransitionPublish]
    rw [hsent]
    exact rewrites_same rfl
  | sent _ x array hx hid hxq hv hlive _ _ =>
    have hsent : (slot r.outgoing packetId).sent =
        .ok (some (calculateStatePublish .send .exactlyOnce)) := by
      simp [slot_of_mem hn hx hid, Slot.sent, hv]
    rw [hsent]
    exact hid ▸ rewrites_amend hn hx hlive

theorem slot_received (h : r.WellFormed) (packetId : UInt16) :
    ((r.updatePublish packetId .receive .exactlyOnce).1 = .ok .pubRecSend ∧
        slot r.incoming packetId = none ∧
        Rewrites r.incoming (r.updatePublish packetId .receive .exactlyOnce).2.incoming packetId
          (some .pubRecSend)) ∨
      ((r.updatePublish packetId .receive .exactlyOnce).1 = .error .stateCollision ∧
        slot r.incoming packetId ≠ none ∧
        Rewrites r.incoming (r.updatePublish packetId .receive .exactlyOnce).2.incoming packetId
          (slot r.incoming packetId)) ∨
      (((r.updatePublish packetId .receive .exactlyOnce).1 = .error .noMemory ∨
          (r.updatePublish packetId .receive .exactlyOnce).1 = .error .badParameter) ∧
        slot r.incoming packetId = none ∧
        Rewrites r.incoming (r.updatePublish packetId .receive .exactlyOnce).2.incoming packetId
          (slot r.incoming packetId)) := by
  have heff := PublishRecords.updatePublish_spec h.outgoing.distinct packetId .receive .exactlyOnce
  generalize r.updatePublish packetId .receive .exactlyOnce = result at heff
  cases heff with
  | unrecorded _ hq => cases hq
  | zero _ _ hid => exact .inr (.inr ⟨.inr rfl, hid ▸ slot_packetIdInvalid, rewrites_same rfl⟩)
  | received _ _ result hadd =>
    rcases rewrites_added hadd rfl with ⟨hok, hnone, hrw⟩ | ⟨he, hsome, hrw⟩ | ⟨he, hnone, hrw⟩
    · exact .inl ⟨by rw [hok]; rfl, hnone, hrw⟩
    · exact .inr (.inl ⟨by rw [he]; rfl, hsome, hrw⟩)
    · exact .inr (.inr ⟨.inl (by rw [he]; rfl), hnone, hrw⟩)

theorem rewrites_unknown {records : List Record} {ack : AckType} {op : Operation} :
    Rewrites records records packetIdInvalid
      ((slot records packetIdInvalid).settle ((slot records packetIdInvalid).ack ack op)) := by
  refine rewrites_refused (e := .badResponse) rfl ?_
  rw [slot_packetIdInvalid]; rfl

theorem slot_ack_outgoing (h : r.WellFormed) (hall : AllExactlyOnce r.outgoing)
    (packetId : UInt16) (ack : AckType) (op : Operation)
    (hout : isPublishOutgoing ack op = true) :
    (r.updateAck packetId ack op).1.isOk = ((slot r.outgoing packetId).ack ack op).isOk ∧
      Rewrites r.outgoing (r.updateAck packetId ack op).2.outgoing packetId
        ((slot r.outgoing packetId).settle ((slot r.outgoing packetId).ack ack op)) := by
  have heff := PublishRecords.updateAck_spec h packetId ack op
  generalize r.updateAck packetId ack op = result at heff
  cases heff with
  | zero hid =>
    subst hid
    exact ⟨by rw [slot_packetIdInvalid]; rfl, rewrites_unknown⟩
  | outgoing _ _ result heff => exact rewrites_ack h.outgoing.distinct hall heff
  | incoming _ hin _ _ => rw [hout] at hin; cases hin

theorem slot_ack_incoming (h : r.WellFormed) (hall : AllExactlyOnce r.incoming)
    (packetId : UInt16) (ack : AckType) (op : Operation)
    (hin : isPublishOutgoing ack op = false) :
    (r.updateAck packetId ack op).1.isOk = ((slot r.incoming packetId).ack ack op).isOk ∧
      Rewrites r.incoming (r.updateAck packetId ack op).2.incoming packetId
        ((slot r.incoming packetId).settle ((slot r.incoming packetId).ack ack op)) := by
  have heff := PublishRecords.updateAck_spec h packetId ack op
  generalize r.updateAck packetId ack op = result at heff
  cases heff with
  | zero hid =>
    subst hid
    exact ⟨by rw [slot_packetIdInvalid]; rfl, rewrites_unknown⟩
  | outgoing _ hout _ _ => rw [hin] at hout; cases hout
  | incoming _ _ result heff => exact rewrites_ack h.incoming.distinct hall heff

end Calls

end RtosMqtt.Handshake
