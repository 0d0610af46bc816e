import RtosMqtt.State.Calls

/-! # The order of retransmission

Publishes are resent in the order they were reserved and PUBRELs in the order
their PUBRECs were accepted. Both orders are read off the history of calls and
survive compaction, holes and the move a PUBREC makes.
-/

namespace RtosMqtt

open Sparse Roster

/-- The calls made so far, each with its answer. -/
abbrev History := List (Call × Except StateError Unit)

def Reserves (packetId : UInt16) (e : Call × Except StateError Unit) : Prop :=
  ∃ qos, qos ≠ .atMostOnce ∧ e = (.reserve packetId qos, .ok ())

def Releases (packetId : UInt16) (e : Call × Except StateError Unit) : Prop :=
  e = (.updateAck packetId .pubRec .receive, .ok ())

/-- The latest event of a kind is at index `i`. -/
def Latest (event : Call × Except StateError Unit → Prop) (history : History) (i : ℕ) : Prop :=
  (∃ e, history[i]? = some e ∧ event e) ∧ ∀ j e, i < j → history[j]? = some e → ¬ event e

/-- The latest event of one identifier precedes the latest event of another. -/
def Earlier (event : UInt16 → Call × Except StateError Unit → Prop) (history : History)
    (a b : UInt16) : Prop :=
  ∃ i j, i < j ∧ Latest (event a) history i ∧ Latest (event b) history j

section Latest

variable {event : Call × Except StateError Unit → Prop} {history : History}
  {e : Call × Except StateError Unit}

theorem Latest.lt_length {i : ℕ} (h : Latest event history i) : i < history.length := by
  obtain ⟨⟨e, he, -⟩, -⟩ := h
  exact (List.getElem?_eq_some_iff.mp he).1

theorem latest_concat (h : event e) : Latest event (history ++ [e]) history.length := by
  refine ⟨⟨e, by simp, h⟩, fun j e' hj he' => ?_⟩
  have hlt := (List.getElem?_eq_some_iff.mp he').1
  rw [List.length_append, List.length_singleton] at hlt
  omega

theorem Latest.concat {i : ℕ} (h : Latest event history i) (he : ¬ event e) :
    Latest event (history ++ [e]) i := by
  have hlt := h.lt_length
  obtain ⟨⟨e', he', hevent⟩, hlast⟩ := h
  refine ⟨⟨e', by rw [List.getElem?_append_left hlt, he'], hevent⟩, fun j f hj hf => ?_⟩
  rcases Nat.lt_or_ge j history.length with hjl | hjl
  · exact hlast j f hj (by rwa [List.getElem?_append_left hjl] at hf)
  · rw [List.getElem?_append_right hjl] at hf
    obtain ⟨-, rfl⟩ : j - history.length = 0 ∧ e = f := by
      cases hk : j - history.length <;> simp_all
    exact he

end Latest

section Earlier

variable {event : UInt16 → Call × Except StateError Unit → Prop} {history : History}
  {e : Call × Except StateError Unit} {ids : List UInt16}

theorem Earlier.concat {a b : UInt16} (h : Earlier event history a b) (ha : ¬ event a e)
    (hb : ¬ event b e) : Earlier event (history ++ [e]) a b := by
  obtain ⟨i, j, hij, hi, hj⟩ := h
  exact ⟨i, j, hij, hi.concat ha, hj.concat hb⟩

/-- Every identifier of a list has an event in the history, in the order of the list. -/
structure InOrder (event : UInt16 → Call × Except StateError Unit → Prop) (history : History)
    (ids : List UInt16) : Prop where
  stamped : ∀ a ∈ ids, ∃ i, Latest (event a) history i
  ordered : ids.Pairwise (Earlier event history)

theorem InOrder.sublist {ids' : List UInt16} (h : InOrder event history ids)
    (hs : ids'.Sublist ids) : InOrder event history ids' :=
  ⟨fun a ha => h.stamped a (hs.subset ha), h.ordered.sublist hs⟩

theorem InOrder.concat (h : InOrder event history ids) (he : ∀ a ∈ ids, ¬ event a e) :
    InOrder event (history ++ [e]) ids := by
  refine ⟨fun a ha => ?_, ?_⟩
  · obtain ⟨i, hi⟩ := h.stamped a ha
    exact ⟨i, hi.concat (he a ha)⟩
  · exact h.ordered.imp_of_mem fun ha hb hab => hab.concat (he _ ha) (he _ hb)

theorem InOrder.concat_new {b : UInt16} (h : InOrder event history ids)
    (he : ∀ a ∈ ids, ¬ event a e) (hb : event b e) :
    InOrder event (history ++ [e]) (ids ++ [b]) := by
  have hold := h.concat he
  refine ⟨fun a ha => ?_, ?_⟩
  · rcases List.mem_append.mp ha with ha | ha
    · exact hold.stamped a ha
    · exact ⟨_, List.mem_singleton.mp ha ▸ latest_concat hb⟩
  · refine List.pairwise_append.mpr ⟨hold.ordered, List.pairwise_singleton _ _, fun a ha c hc => ?_⟩
    obtain rfl := List.mem_singleton.mp hc
    obtain ⟨i, hi⟩ := h.stamped a ha
    exact ⟨i, history.length, hi.lt_length, hi.concat (he a ha), latest_concat hb⟩

end Earlier

/-- The identifiers of the records in one of the wanted positions. -/
def wantedIds (wanted : List PublishState) (records : List Record) : List UInt16 :=
  (records.filter fun x => x.state ∈ wanted).map Record.packetId

section Wanted

variable {wanted : List PublishState} {l : List Record}

theorem wantedIds_cons {x : Record} :
    wantedIds wanted (x :: l) =
      if x.state ∈ wanted then x.packetId :: wantedIds wanted l else wantedIds wanted l := by
  by_cases hw : x.state ∈ wanted <;> simp [wantedIds, hw]

theorem wantedIds_append {l' : List Record} :
    wantedIds wanted (l ++ l') = wantedIds wanted l ++ wantedIds wanted l' := by
  simp [wantedIds]

theorem mem_ids_of_mem_wantedIds {a : UInt16} (h : a ∈ wantedIds wanted l) :
    a ∈ l.map Record.packetId := by
  obtain ⟨x, hx, rfl⟩ := List.mem_map.mp h
  exact List.mem_map_of_mem (List.mem_of_mem_filter hx)

theorem wantedIds_remove_sublist {packetId : UInt16} :
    (wantedIds wanted (Roster.remove Record.packetId packetId l)).Sublist (wantedIds wanted l) :=
  ((List.filter_sublist).filter _).map _

theorem wantedIds_amend {b : Record}
    (h : ∀ x ∈ l, x.packetId = b.packetId → (x.state ∈ wanted ↔ b.state ∈ wanted)) :
    wantedIds wanted (amend Record.packetId b l) = wantedIds wanted l := by
  induction l with
  | nil => rfl
  | cons x l ih =>
    have hl := ih fun y hy => h y (List.mem_cons_of_mem _ hy)
    have hx := h x (List.mem_cons_self ..)
    have hcons : amend Record.packetId b (x :: l) =
      (if x.packetId = b.packetId then b else x) :: amend Record.packetId b l := rfl
    rw [hcons, wantedIds_cons, wantedIds_cons, hl]
    by_cases hid : x.packetId = b.packetId
    · simp [hid, hx hid]
    · simp [hid]

end Wanted

namespace PublishRecords

def publishIds (r : PublishRecords) : List UInt16 := wantedIds publishWanted (inFlight r.outgoing)

def pubrelIds (r : PublishRecords) : List UInt16 := wantedIds pubrelWanted (inFlight r.outgoing)

theorem send_keeps_wanted {qos : QoS} {state : PublishState} (h : OutgoingLegal qos state)
    (hv : validateTransitionPublish state (calculateStatePublish .send qos) .send qos = true) :
    (state ∈ publishWanted ↔ calculateStatePublish .send qos ∈ publishWanted) ∧
      (state ∈ pubrelWanted ↔ calculateStatePublish .send qos ∈ pubrelWanted) := by
  rcases h with ⟨rfl, rfl | rfl⟩ | ⟨rfl, rfl | rfl | rfl | rfl⟩ <;>
    simp_all [validateTransitionPublish, calculateStatePublish, publishWanted, pubrelWanted]

theorem ack_keeps_wanted {qos : QoS} {state new : PublishState} (h : OutgoingLegal qos state)
    (hv : validateTransitionAck state new = true) (hdone : new ≠ .publishDone)
    (hrel : new ≠ .pubRelSend) :
    (state ∈ publishWanted ↔ new ∈ publishWanted) ∧
      (state ∈ pubrelWanted ↔ new ∈ pubrelWanted) := by
  rcases h with ⟨rfl, rfl | rfl⟩ | ⟨rfl, rfl | rfl | rfl | rfl⟩ <;>
    simp_all [validateTransitionAck, publishWanted, pubrelWanted]

structure Chronological (history : History) (r : PublishRecords) : Prop where
  wellFormed : r.WellFormed
  publishes : InOrder Reserves history r.publishIds
  pubrels : InOrder Releases history r.pubrelIds

section Step

variable {history : History} {r r' : PublishRecords} {e : Call × Except StateError Unit}

theorem Chronological.quiet (h : Chronological history r) (hwf : r'.WellFormed)
    (hres : ∀ a, ¬ Reserves a e) (hrel : ∀ a, ¬ Releases a e)
    (hpub : r'.publishIds.Sublist r.publishIds) (hpubrel : r'.pubrelIds.Sublist r.pubrelIds) :
    Chronological (history ++ [e]) r' :=
  ⟨hwf, (h.publishes.sublist hpub).concat fun a _ => hres a,
    (h.pubrels.sublist hpubrel).concat fun a _ => hrel a⟩

theorem Chronological.same (h : Chronological history r) (hwf : r'.WellFormed)
    (hres : ∀ a, ¬ Reserves a e) (hrel : ∀ a, ¬ Releases a e)
    (hlive : inFlight r'.outgoing = inFlight r.outgoing) : Chronological (history ++ [e]) r' := by
  refine h.quiet hwf hres hrel ?_ ?_
  · rw [publishIds, hlive]; exact List.Sublist.refl _
  · rw [pubrelIds, hlive]; exact List.Sublist.refl _

theorem Chronological.dropped (h : Chronological history r) (hwf : r'.WellFormed)
    (hres : ∀ a, ¬ Reserves a e) (hrel : ∀ a, ¬ Releases a e) {packetId : UInt16}
    (hlive : inFlight r'.outgoing =
      Roster.remove Record.packetId packetId (inFlight r.outgoing)) :
    Chronological (history ++ [e]) r' := by
  refine h.quiet hwf hres hrel ?_ ?_
  · rw [publishIds, hlive]; exact wantedIds_remove_sublist
  · rw [pubrelIds, hlive]; exact wantedIds_remove_sublist

theorem Chronological.advanced (h : Chronological history r) (hwf : r'.WellFormed)
    (hres : ∀ a, ¬ Reserves a e) (hrel : ∀ a, ¬ Releases a e) {x : Record}
    {new : PublishState} (hx : x ∈ inFlight r.outgoing)
    (hpub : x.state ∈ publishWanted ↔ new ∈ publishWanted)
    (hpubrel : x.state ∈ pubrelWanted ↔ new ∈ pubrelWanted)
    (hlive : inFlight r'.outgoing =
      amend Record.packetId { x with state := new } (inFlight r.outgoing)) :
    Chronological (history ++ [e]) r' := by
  have honly : ∀ y ∈ inFlight r.outgoing, y.packetId = x.packetId → y = x :=
    fun y hy hid => List.inj_on_of_nodup_map h.wellFormed.outgoing.distinct hy hx hid
  refine h.quiet hwf hres hrel ?_ ?_
  · rw [publishIds, hlive, wantedIds_amend fun y hy hid => honly y hy hid ▸ hpub]
    exact List.Sublist.refl _
  · rw [pubrelIds, hlive, wantedIds_amend fun y hy hid => honly y hy hid ▸ hpubrel]
    exact List.Sublist.refl _

theorem Chronological.reserve (h : Chronological history r) (packetId : UInt16) (qos : QoS) :
    Chronological (history ++ [(.reserve packetId qos, (r.reserve packetId qos).1)])
      (r.reserve packetId qos).2 := by
  have hwf := h.wellFormed.reserve packetId qos
  have heff := reserve_spec r packetId qos
  have hrel : ∀ a, ¬ Releases a (.reserve packetId qos, (r.reserve packetId qos).1) := by
    simp [Releases]
  generalize r.reserve packetId qos = result at heff hwf hrel
  cases heff with
  | unrecorded hq => exact h.same hwf (by simp [Reserves, hq]) hrel rfl
  | zero _ _ => exact h.same hwf (by simp [Reserves]) hrel rfl
  | recorded hq hid result hadd =>
    cases hadd with
    | collision _ => exact h.same hwf (by simp [Reserves]) hrel (inFlight_settled _)
    | full _ _ => exact h.same hwf (by simp [Reserves]) hrel (inFlight_settled _)
    | appended array hmem _ hlive _ _ =>
      refine ⟨hwf, ?_, ?_⟩
      · have hids : publishIds { r with outgoing := array } = r.publishIds ++ [packetId] := by
          rw [publishIds, hlive, wantedIds_append]; rfl
        rw [hids]
        refine h.publishes.concat_new (fun a ha => ?_) ⟨qos, hq, rfl⟩
        rintro ⟨q, -, he⟩
        cases he
        exact hmem (mem_ids_of_mem_wantedIds ha)
      · have hids : pubrelIds { r with outgoing := array } = r.pubrelIds := by
          rw [pubrelIds, hlive, wantedIds_append]; exact List.append_nil _
        rw [hids]
        exact h.pubrels.concat fun a _ => hrel a

theorem Chronological.updatePublish (h : Chronological history r) (packetId : UInt16)
    (op : Operation) (qos : QoS) {answer : Except StateError Unit} :
    Chronological (history ++ [(.updatePublish packetId op qos, answer)])
      (r.updatePublish packetId op qos).2 := by
  have hwf := h.wellFormed.updatePublish packetId op qos
  have heff := updatePublish_spec h.wellFormed.outgoing.distinct packetId op qos
  have hres : ∀ a, ¬ Reserves a (.updatePublish packetId op qos, answer) := by simp [Reserves]
  have hrel : ∀ a, ¬ Releases a (.updatePublish packetId op qos, answer) := by simp [Releases]
  generalize r.updatePublish packetId op qos = result at heff hwf
  cases heff with
  | unrecorded _ _ => exact h.same hwf hres hrel rfl
  | zero _ _ _ => exact h.same hwf hres hrel rfl
  | unknown _ _ _ => exact h.same hwf hres hrel rfl
  | mismatch _ _ _ _ _ => exact h.same hwf hres hrel rfl
  | illegal _ _ _ _ _ _ => exact h.same hwf hres hrel rfl
  | repeated _ _ _ _ _ _ => exact h.same hwf hres hrel rfl
  | sent hq x array hx _ hxq hv hlive _ _ =>
    have hlegal := h.wellFormed.outgoing.legal x hx
    subst hxq
    obtain ⟨hpub, hpubrel⟩ := send_keeps_wanted hlegal hv
    exact h.advanced hwf hres hrel hx hpub hpubrel hlive
  | received _ _ _ _ => exact h.same hwf hres hrel rfl

theorem Chronological.updateAck (h : Chronological history r) (packetId : UInt16)
    (ack : AckType) (op : Operation) :
    Chronological (history ++ [(.updateAck packetId ack op,
      (r.updateAck packetId ack op).1.map fun _ => ())]) (r.updateAck packetId ack op).2 := by
  have hwf := h.wellFormed.updateAck packetId ack op
  have heff := updateAck_spec h.wellFormed packetId ack op
  have hres : ∀ a, ¬ Reserves a (.updateAck packetId ack op,
    (r.updateAck packetId ack op).1.map fun _ => ()) := by simp [Reserves]
  generalize r.updateAck packetId ack op = result at heff hwf hres
  cases heff with
  | zero _ => exact h.same hwf hres (by simp [Releases, Except.map]) rfl
  | incoming _ hout _ _ =>
    refine h.same hwf hres (fun a hrel => ?_) rfl
    cases congrArg Prod.fst hrel
    cases hout
  | outgoing hid hout result heff =>
    cases heff with
    | unknown _ => exact h.same hwf hres (by simp [Releases, Except.map]) rfl
    | illegal _ _ _ _ => exact h.same hwf hres (by simp [Releases, Except.map]) rfl
    | repeated x hx _ hv hnew =>
      refine h.same hwf hres (fun a hrel => ?_) rfl
      cases congrArg Prod.fst hrel
      have hfrom := hv
      rw [← hnew] at hfrom
      obtain ⟨hstate, -, hto⟩ := pubRec_accepted hfrom
      cases hstate.symm.trans hto
    | finished x array hx _ hv hnew hlive _ _ =>
      refine h.dropped hwf hres (fun a hrel => ?_) hlive
      cases congrArg Prod.fst hrel
      cases hnew.symm.trans (pubRec_accepted (hnew.symm ▸ hv)).2.2
    | released x array hx hxid hv hnew hlive _ _ =>
      obtain ⟨rfl, rfl, -⟩ := calculateStateAck_eq_pubRelSend hnew
      have hpub : publishIds { r with outgoing := array } = wantedIds publishWanted
          (Roster.remove Record.packetId packetId (inFlight r.outgoing)) := by
        rw [publishIds, hlive, wantedIds_append]; exact List.append_nil _
      have hpubrel : pubrelIds { r with outgoing := array } = wantedIds pubrelWanted
          (Roster.remove Record.packetId packetId (inFlight r.outgoing)) ++ [packetId] := by
        rw [pubrelIds, hlive, wantedIds_append]; rfl
      refine ⟨hwf, ?_, ?_⟩
      · rw [hpub]
        exact (h.publishes.sublist wantedIds_remove_sublist).concat fun a _ => hres a
      · rw [hpubrel]
        refine (h.pubrels.sublist wantedIds_remove_sublist).concat_new (fun a ha hrel => ?_) rfl
        cases congrArg Prod.fst hrel
        exact not_mem_remove (mem_ids_of_mem_wantedIds ha)
    | moved x new array hx _ hv hnew hdone hrel hlive _ _ =>
      have hlegal := h.wellFormed.outgoing.legal x hx
      obtain ⟨hpub, hpubrel⟩ := ack_keeps_wanted hlegal hv hdone hrel
      refine h.advanced hwf hres (fun a hev => ?_) hx hpub hpubrel hlive
      cases congrArg Prod.fst hev
      exact hrel (hnew.symm.trans (pubRec_accepted (hnew.symm ▸ hv)).2.2)

theorem Chronological.remove (h : Chronological history r) (packetId : UInt16)
    {answer : Except StateError Unit} :
    Chronological (history ++ [(.remove packetId, answer)]) (r.remove packetId).2 := by
  have hwf := h.wellFormed.remove packetId
  have heff := remove_spec h.wellFormed packetId
  have hres : ∀ a, ¬ Reserves a (.remove packetId, answer) := by simp [Reserves]
  have hrel : ∀ a, ¬ Releases a (.remove packetId, answer) := by simp [Releases]
  generalize r.remove packetId = result at heff hwf
  cases heff with
  | refused _ => exact h.same hwf hres hrel rfl
  | removed _ _ _ _ hlive _ _ => exact h.dropped hwf hres hrel hlive

theorem Chronological.call (h : Chronological history r) (c : Call) :
    Chronological (history ++ [(c, (r.call c).1)]) (r.call c).2 := by
  cases c with
  | reserve packetId qos => exact h.reserve packetId qos
  | updatePublish packetId op qos => exact h.updatePublish packetId op qos
  | updateAck packetId ack op => exact h.updateAck packetId ack op
  | remove packetId => exact h.remove packetId

end Step

/-- The history of a run: its calls with their answers. -/
def history (r : PublishRecords) (calls : List Call) : History := calls.zip (machine.run calls r).1

theorem chronological_new (outgoing incoming : List Record) :
    Chronological [] (new outgoing incoming) := by
  have hnil : inFlight (new outgoing incoming).outgoing = [] := inFlight_cleared outgoing
  refine ⟨wellFormed_new outgoing incoming, ?_, ?_⟩
  · rw [publishIds, hnil]; exact ⟨by simp [wantedIds], List.Pairwise.nil⟩
  · rw [pubrelIds, hnil]; exact ⟨by simp [wantedIds], List.Pairwise.nil⟩

theorem Chronological.run {past : History} {r : PublishRecords} (h : Chronological past r)
    (calls : List Call) : Chronological (past ++ r.history calls) (r.after calls) := by
  induction calls generalizing past r with
  | nil => simpa [history, after] using h
  | cons c calls ih =>
    have hstep := ih (h.call c)
    rw [List.append_assoc] at hstep
    exact hstep

section Walk

variable {wanted : List PublishState} {records : List Record}

theorem stateSelectFrom_spec (turns cursor : ℕ) (ht : records.length ≤ cursor + turns) :
    (stateSelectFrom records wanted turns cursor).1 =
        (wantedIds wanted (records.drop cursor)).headD packetIdInvalid ∧
      wantedIds wanted (records.drop (stateSelectFrom records wanted turns cursor).2) =
        (wantedIds wanted (records.drop cursor)).tail := by
  induction turns generalizing cursor with
  | zero =>
    have hdrop : records.drop cursor = [] := List.drop_eq_nil_of_le ht
    simp [stateSelectFrom, hdrop, wantedIds]
  | succ turns ih =>
    rw [stateSelectFrom]
    by_cases hc : cursor < records.length
    · rw [List.getElem?_eq_getElem hc, List.drop_eq_getElem_cons hc]
      dsimp only
      by_cases hw : records[cursor].state ∈ wanted
      · rw [if_pos hw, wantedIds_cons, if_pos hw]
        exact ⟨rfl, rfl⟩
      · rw [if_neg hw, wantedIds_cons, if_neg hw]
        exact ih (cursor + 1) (by omega)
    · have hdrop : records.drop cursor = [] := List.drop_eq_nil_of_le (Nat.le_of_not_lt hc)
      rw [List.getElem?_eq_none (Nat.le_of_not_lt hc)]
      simp [hdrop, wantedIds]

theorem stateSelect_spec (records : List Record) (wanted : List PublishState) (cursor : ℕ) :
    (stateSelect records wanted cursor).1 =
        (wantedIds wanted (records.drop cursor)).headD packetIdInvalid ∧
      wantedIds wanted (records.drop (stateSelect records wanted cursor).2) =
        (wantedIds wanted (records.drop cursor)).tail :=
  stateSelectFrom_spec _ _ (by omega)

theorem wantedIds_inFlight (hf : FreeSlotsDefault records) (hnull : .null ∉ wanted) :
    wantedIds wanted (inFlight records) = wantedIds wanted records := by
  rw [wantedIds, inFlight, live, List.filter_filter, wantedIds]
  congr 1
  refine List.filter_congr fun x hx => ?_
  cases he : x.isEmpty with
  | false => simp
  | true =>
    rw [hf x hx he]
    have hunwanted : Record.default.state ∉ wanted := hnull
    simp [hunwanted]

end Walk

/-- The answer of the call number `k` of a walk that starts at a fresh cursor. -/
def walk (next : ℕ → Option UInt16 × ℕ) : ℕ → Option UInt16 × ℕ
  | 0 => next 0
  | k + 1 => next (walk next k).2

section Selected

variable {records : List Record} {wanted : List PublishState}

theorem selected_spec {cursor n : ℕ}
    (hn : wantedIds wanted (records.drop cursor) = (wantedIds wanted (inFlight records)).drop n) :
    (selected (stateSelect records wanted cursor)).1 = (wantedIds wanted (inFlight records))[n]? ∧
      wantedIds wanted (records.drop (selected (stateSelect records wanted cursor)).2) =
        (wantedIds wanted (inFlight records)).drop (n + 1) := by
  obtain ⟨hid, hrest⟩ := stateSelect_spec records wanted cursor
  refine ⟨?_, by rw [← List.tail_drop, ← hn]; exact hrest⟩
  rw [hn] at hid
  simp only [selected, hid]
  rcases Nat.lt_or_ge n (wantedIds wanted (inFlight records)).length with hlt | hge
  · rw [List.drop_eq_getElem_cons hlt, List.getElem?_eq_getElem hlt, List.headD_cons, if_neg]
    intro hzero
    have hmem := mem_ids_of_mem_wantedIds (List.getElem_mem hlt)
    exact packetIdInvalid_not_mem records (hzero ▸ hmem)
  · rw [List.drop_eq_nil_of_le hge, List.getElem?_eq_none hge]
    rfl

theorem walk_selected (hf : FreeSlotsDefault records) (hnull : .null ∉ wanted) (k : ℕ) :
    (walk (fun cursor => selected (stateSelect records wanted cursor)) k).1 =
        (wantedIds wanted (inFlight records))[k]? ∧
      wantedIds wanted
        (records.drop (walk (fun cursor => selected (stateSelect records wanted cursor)) k).2) =
        (wantedIds wanted (inFlight records)).drop (k + 1) := by
  induction k with
  | zero =>
    exact selected_spec (by rw [List.drop_zero, List.drop_zero, wantedIds_inFlight hf hnull])
  | succ k ih => exact selected_spec ih.2

def resends (next : ℕ → Option UInt16 × ℕ) : (turns cursor : ℕ) → List UInt16
  | 0, _ => []
  | turns + 1, cursor =>
    match next cursor with
    | (none, _) => []
    | (some packetId, cursor) => packetId :: resends next turns cursor

theorem resends_selected {turns cursor n : ℕ}
    (hn : wantedIds wanted (records.drop cursor) = (wantedIds wanted (inFlight records)).drop n) :
    resends (fun cursor => selected (stateSelect records wanted cursor)) turns cursor =
      ((wantedIds wanted (inFlight records)).drop n).take turns := by
  induction turns generalizing cursor n with
  | zero => rfl
  | succ turns ih =>
    obtain ⟨hid, hrest⟩ := selected_spec hn
    have hnext := ih hrest
    rw [resends]
    rcases hsel : selected (stateSelect records wanted cursor) with ⟨_ | packetId, cursor'⟩
    · rw [hsel] at hid
      rw [List.drop_eq_nil_of_le (List.getElem?_eq_none_iff.mp hid.symm)]
      rfl
    · rw [hsel] at hid hnext
      obtain ⟨hlt, hget⟩ := List.getElem?_eq_some_iff.mp hid.symm
      rw [List.drop_eq_getElem_cons hlt, hget, List.take_succ_cons, ← hnext]

theorem resends_eq {turns : ℕ} (hf : FreeSlotsDefault records) (hnull : .null ∉ wanted)
    (hturns : records.length ≤ turns) :
    resends (fun cursor => selected (stateSelect records wanted cursor)) turns 0 =
      wantedIds wanted (inFlight records) := by
  rw [resends_selected (n := 0) (by rw [List.drop_zero, List.drop_zero,
    wantedIds_inFlight hf hnull]), List.drop_zero, List.take_of_length_le]
  rw [wantedIds, List.length_map]
  exact ((List.length_filter_le _ _).trans (length_live_le _)).trans hturns

end Selected

/-- Publishes are resent in the order of their reservations and PUBRELs in the order their
PUBRECs were accepted, each exactly once, after any sequence of calls. -/
theorem resend_order (outgoing incoming : List Record) (calls : List Call) :
    let history := (new outgoing incoming).history calls
    let r := (new outgoing incoming).after calls
    (r.publishIds.Pairwise (Earlier Reserves history) ∧
        r.pubrelIds.Pairwise (Earlier Releases history)) ∧
      (r.publishIds.Nodup ∧ r.pubrelIds.Nodup) ∧
      (∀ k, (walk r.publishToResend k).1 = r.publishIds[k]?) ∧
      ∀ k, (walk r.pubrelToResend k).1 = r.pubrelIds[k]? := by
  intro history r
  have h : Chronological history r := (chronological_new outgoing incoming).run calls
  have hf := h.wellFormed.outgoing.free
  have hnodup : ∀ wanted, (wantedIds wanted (inFlight r.outgoing)).Nodup := fun _ =>
    h.wellFormed.outgoing.distinct.sublist (List.filter_sublist.map _)
  refine ⟨⟨h.publishes.ordered, h.pubrels.ordered⟩, ⟨hnodup _, hnodup _⟩, fun k => ?_, fun k => ?_⟩
  · exact (walk_selected hf (by decide) k).1
  · exact (walk_selected hf (by decide) k).1

end PublishRecords

end RtosMqtt
