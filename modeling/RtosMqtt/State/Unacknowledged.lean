import RtosMqtt.State.Resend

/-! # Messages without an answer

A message that went out awaits a PUBACK or a PUBREC. Only sending a PUBLISH adds
to these messages, and the acknowledgement it awaits takes one away.
-/

namespace RtosMqtt

open Roster Sparse

/-- A call on behalf of a PUBLISH that went out or arrived. -/
def Call.publishes : Call → Bool
  | .updatePublish _ _ _ => true
  | _ => false

/-- The identifiers of the messages that went out and await their first acknowledgement. -/
def unacknowledged (records : List Record) : List UInt16 :=
  wantedIds [.pubAckPending, .pubRecPending] (inFlight records)

section Records

variable {records array : List Record} {packetId : UInt16}

theorem mem_unacknowledged : packetId ∈ unacknowledged records ↔ ∃ x ∈ inFlight records,
    (x.state = .pubAckPending ∨ x.state = .pubRecPending) ∧ x.packetId = packetId := by
  simp [unacknowledged, wantedIds, and_assoc]

theorem unacknowledged_congr (h : inFlight array = inFlight records) :
    unacknowledged array = unacknowledged records := congrArg (wantedIds _) h

theorem unacknowledged_remove (h : inFlight array =
    Roster.remove Record.packetId packetId (inFlight records)) :
    unacknowledged array ⊆ unacknowledged records := by
  rw [unacknowledged, h]
  exact wantedIds_remove_sublist.subset

theorem unacknowledged_cleared (records : List Record) :
    unacknowledged (records.map fun _ => Record.default) = [] := by
  rw [unacknowledged, inFlight_cleared]
  rfl

theorem unacknowledged_take (records : List Record) (n : ℕ) :
    unacknowledged (records.take n) ⊆ unacknowledged records := by
  intro packetId h
  obtain ⟨x, hx, hstate⟩ := mem_unacknowledged.mp h
  obtain ⟨hmem, hid⟩ := mem_inFlight.mp hx
  exact mem_unacknowledged.mpr ⟨x, mem_inFlight.mpr ⟨List.mem_of_mem_take hmem, hid⟩, hstate⟩

theorem unacknowledged_added {new : Record} {result : Except StateError Unit × List Record}
    (h : Added records new result) (hnew : new.state = .publishSend) :
    unacknowledged result.2 = unacknowledged records := by
  cases h with
  | collision => exact unacknowledged_congr (inFlight_settled _)
  | full => exact unacknowledged_congr (inFlight_settled _)
  | appended array _ _ hlive =>
    rw [unacknowledged, hlive, wantedIds_append, wantedIds_cons, hnew]
    exact List.append_nil _

theorem calculateStateAck_acknowledged (ack : AckType) (op : Operation) (qos : QoS) :
    calculateStateAck ack op qos ≠ .pubAckPending ∧
      calculateStateAck ack op qos ≠ .pubRecPending := by
  cases ack <;> cases op <;> cases qos <;> decide

theorem AckEffect.unacknowledged_subset {ack : AckType} {op : Operation}
    {result : Except StateError PublishState × List Record}
    (h : AckEffect records packetId ack op result) :
    unacknowledged result.2 ⊆ unacknowledged records := by
  cases h with
  | unknown => exact List.Subset.refl _
  | illegal => exact List.Subset.refl _
  | repeated => exact List.Subset.refl _
  | finished x array _ _ _ _ hlive => exact unacknowledged_remove hlive
  | released x array _ _ _ _ hlive =>
    rw [unacknowledged, hlive, wantedIds_append]
    apply List.append_subset.mpr
    exact ⟨wantedIds_remove_sublist.subset, List.nil_subset _⟩
  | moved x new array _ _ _ hnew _ _ hlive =>
    obtain ⟨hack, hrec⟩ := calculateStateAck_acknowledged ack op x.qos
    intro packetId' h'
    obtain ⟨y, hy, hstate, rfl⟩ := mem_unacknowledged.mp h'
    rw [hlive] at hy
    rcases mem_amend hy with rfl | hy
    · rcases hstate with hstate | hstate
      · exact absurd (hnew.trans hstate) hack
      · exact absurd (hnew.trans hstate) hrec
    · exact mem_unacknowledged.mpr ⟨y, hy, hstate, rfl⟩

/-- After an acknowledgement that was accepted, its message awaits none for the first time. -/
theorem AckEffect.acknowledged {ack : AckType} {op : Operation}
    {result : Except StateError PublishState × List Record} {state : PublishState}
    (hdistinct : (inFlightIds records).Nodup) (h : AckEffect records packetId ack op result)
    (hok : result.1 = .ok state) : packetId ∉ unacknowledged result.2 := by
  cases h with
  | unknown => cases hok
  | illegal => cases hok
  | repeated x hx hid hv hnew =>
    intro hmem
    obtain ⟨y, hy, hstate, hyid⟩ := mem_unacknowledged.mp hmem
    obtain rfl := List.inj_on_of_nodup_map hdistinct hx hy (hid.trans hyid.symm)
    obtain ⟨hack, hrec⟩ := calculateStateAck_acknowledged ack op x.qos
    rw [hnew] at hack hrec
    exact hstate.elim hack hrec
  | finished x array _ _ _ _ hlive =>
    intro hmem
    rw [unacknowledged, hlive] at hmem
    exact not_mem_remove (mem_ids_of_mem_wantedIds hmem)
  | released x array _ _ _ _ hlive =>
    intro hmem
    rw [unacknowledged, hlive, wantedIds_append] at hmem
    rcases List.mem_append.mp hmem with hmem | hmem
    · exact not_mem_remove (mem_ids_of_mem_wantedIds hmem)
    · cases hmem
  | moved x new array hx hid _ hnew _ _ hlive =>
    intro hmem
    obtain ⟨y, hy, hstate, hyid⟩ := mem_unacknowledged.mp hmem
    obtain ⟨hack, hrec⟩ := calculateStateAck_acknowledged ack op x.qos
    rw [hnew] at hack hrec
    rw [hlive] at hy
    obtain ⟨z, hz, hzy⟩ := List.mem_map.mp hy
    dsimp only at hzy
    split_ifs at hzy with hzid
    · subst hzy
      exact hstate.elim hack hrec
    · subst hzy
      exact hzid (hyid.trans hid.symm)

end Records

namespace PublishRecords

theorem unacknowledged_call {r : PublishRecords} (h : r.WellFormed) {c : Call}
    (hc : c.publishes = false) :
    unacknowledged (r.call c).2.outgoing ⊆ unacknowledged r.outgoing := by
  cases c with
  | reserve packetId qos =>
    have heff := reserve_spec r packetId qos
    dsimp only [call]
    generalize r.reserve packetId qos = result at heff ⊢
    cases heff with
    | recorded _ _ result hadd => exact (unacknowledged_added hadd rfl) ▸ List.Subset.refl _
    | _ => exact List.Subset.refl _
  | updatePublish => cases hc
  | updateAck packetId ack op =>
    have heff := updateAck_spec h packetId ack op
    dsimp only [call]
    generalize r.updateAck packetId ack op = result at heff ⊢
    cases heff with
    | outgoing _ _ _ heff => exact heff.unacknowledged_subset
    | _ => exact List.Subset.refl _
  | remove packetId =>
    have heff := remove_spec h packetId
    dsimp only [call]
    generalize r.remove packetId = result at heff ⊢
    cases heff with
    | refused => exact List.Subset.refl _
    | removed x array _ _ hlive => exact unacknowledged_remove hlive

theorem unacknowledged_received (r : PublishRecords) (packetId : UInt16) (qos : QoS) :
    (r.updatePublish packetId .receive qos).2.outgoing = r.outgoing := by
  unfold updatePublish
  split_ifs
  · rfl
  · rfl
  · dsimp only
    split_ifs
    · rfl
    · split <;> rfl

theorem unacknowledged_sent {r : PublishRecords} (h : r.WellFormed) (packetId : UInt16)
    (qos : QoS) : unacknowledged (r.updatePublish packetId .send qos).2.outgoing ⊆
      packetId :: unacknowledged r.outgoing := by
  have heff := updatePublish_spec h.outgoing.distinct packetId .send qos
  generalize r.updatePublish packetId .send qos = result at heff ⊢
  cases heff with
  | sent _ x array _ hid _ _ hlive =>
    intro packetId' hmem
    obtain ⟨y, hy, hstate, rfl⟩ := mem_unacknowledged.mp hmem
    rw [hlive] at hy
    rcases mem_amend hy with rfl | hy
    · exact hid ▸ List.mem_cons_self
    · exact List.mem_cons_of_mem _ (mem_unacknowledged.mpr ⟨y, hy, hstate, rfl⟩)
  | _ => exact List.subset_cons_self _ _

theorem acknowledged {r : PublishRecords} (h : r.WellFormed) {packetId : UInt16} {ack : AckType}
    {state : PublishState} (hack : ack = .pubAck ∨ ack = .pubRec)
    (hok : (r.updateAck packetId ack .receive).1 = .ok state) :
    packetId ∉ unacknowledged (r.updateAck packetId ack .receive).2.outgoing := by
  have heff := updateAck_spec h packetId ack .receive
  generalize r.updateAck packetId ack .receive = result at heff hok ⊢
  cases heff with
  | zero => cases hok
  | outgoing _ _ result heff => exact heff.acknowledged h.outgoing.distinct hok
  | incoming _ hin => rcases hack with rfl | rfl <;> cases hin

end PublishRecords

end RtosMqtt
