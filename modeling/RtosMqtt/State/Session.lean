import RtosMqtt.Library.Roster
import RtosMqtt.State.Calls

/-! # The records refine a session

A session is what the two arrays are for: two bounded ordered lists of messages
with distinct identifiers. Holes, compaction and slot indices are invisible in
it, and a refused call leaves it as it was.
-/

namespace RtosMqtt

open Sparse Roster

/-- A bounded ordered list of messages with distinct identifiers. -/
abbrev Messages := Roster Record.packetId

namespace Messages

def insert (m : Messages) (new : Record) : Except StateError Messages :=
  match m.enrol new with
  | .ok m => .ok m
  | .error .present => .error .stateCollision
  | .error .full => .error .noMemory

def ack (m : Messages) (packetId : UInt16) (ack : AckType) (op : Operation) :
    Except StateError Messages :=
  match lookup Record.packetId packetId m.entries with
  | none => .error .badResponse
  | some x =>
    let new := calculateStateAck ack op x.qos
    if validateTransitionAck x.state new then
      if new = .publishDone then .ok (m.dismiss packetId)
      else if new = .pubRelSend then
        .ok (m.promote { packetId, qos := .exactlyOnce, state := .pubRelSend })
      else .ok (m.revise { x with state := new })
    else .error .illegalState

end Messages

structure Session where
  outgoing : Messages
  incoming : Messages

namespace Session

def reserve (s : Session) (packetId : UInt16) (qos : QoS) : Except StateError Session :=
  if qos = .atMostOnce then .ok s
  else if packetId = packetIdInvalid then .error .badParameter
  else (s.outgoing.insert { packetId, qos, state := .publishSend }).map
    fun outgoing => { s with outgoing }

def sent (s : Session) (packetId : UInt16) (qos : QoS) : Except StateError Session :=
  match lookup Record.packetId packetId s.outgoing.entries with
  | none => .error .badParameter
  | some x =>
    let new := calculateStatePublish .send qos
    if x.qos ≠ qos then .error .badParameter
    else if validateTransitionPublish x.state new .send qos then
      .ok { s with outgoing := s.outgoing.revise { x with state := new } }
    else .error .illegalState

def received (s : Session) (packetId : UInt16) (qos : QoS) : Except StateError Session :=
  (s.incoming.insert { packetId, qos, state := calculateStatePublish .receive qos }).map
    fun incoming => { s with incoming }

def updatePublish (s : Session) (packetId : UInt16) (op : Operation) (qos : QoS) :
    Except StateError Session :=
  if qos = .atMostOnce then .ok s
  else if packetId = packetIdInvalid then .error .badParameter
  else
    match op with
    | .send => s.sent packetId qos
    | .receive => s.received packetId qos

def updateAck (s : Session) (packetId : UInt16) (ack : AckType) (op : Operation) :
    Except StateError Session :=
  if packetId = packetIdInvalid then .error .badParameter
  else if isPublishOutgoing ack op then
    (s.outgoing.ack packetId ack op).map fun outgoing => { s with outgoing }
  else (s.incoming.ack packetId ack op).map fun incoming => { s with incoming }

def remove (s : Session) (packetId : UInt16) : Except StateError Session :=
  if packetId ∈ s.outgoing.entries.map Record.packetId then
    .ok { s with outgoing := s.outgoing.dismiss packetId }
  else .error .badParameter

def accept (s : Session) : Call → Except StateError Session
  | .reserve packetId qos => s.reserve packetId qos
  | .updatePublish packetId op qos => s.updatePublish packetId op qos
  | .updateAck packetId ack op => s.updateAck packetId ack op
  | .remove packetId => s.remove packetId

/-- The session as a machine: a refused call leaves it as it was. -/
def machine : Machine Call Session (Except StateError Unit) where
  step c s :=
    match s.accept c with
    | .ok s' => (.ok (), s')
    | .error e => (.error e, s)

end Session

/-- An array holds these messages, in index order, and has a slot for each place. -/
structure Holds (records : List Record) (m : Messages) : Prop where
  entries : inFlight records = m.entries
  capacity : records.length = m.capacity

/-- An answer and an array follow what a specification makes of the messages. -/
def Follows {α : Type} (result : Except StateError α × List Record) (m : Messages) :
    Except StateError Messages → Prop
  | .ok m' => (∃ a, result.1 = .ok a) ∧ Holds result.2 m'
  | .error e => result.1 = .error e ∧ Holds result.2 m

section Array

variable {records : List Record} {m : Messages}

theorem Holds.ids (h : Holds records m) :
    inFlightIds records = m.entries.map Record.packetId := by rw [inFlightIds, h.entries]

theorem Holds.lookup_eq (h : Holds records m) {x : Record} (hx : x ∈ inFlight records) :
    lookup Record.packetId x.packetId m.entries = some x :=
  lookup_of_mem m.distinct (h.entries ▸ hx)

theorem Holds.settled (h : Holds records m) : Holds (settled records) m :=
  ⟨by rw [inFlight_settled, h.entries], by rw [length_settled, h.capacity]⟩

theorem Holds.insert (h : Holds records m) {new : Record}
    {result : Except StateError Unit × List Record} (hadd : Added records new result) :
    Follows result m (m.insert new) := by
  cases hadd with
  | collision hmem =>
    rw [h.ids] at hmem
    rw [Messages.insert, enrol, dif_pos hmem]
    exact ⟨rfl, h.settled⟩
  | full hmem hfull =>
    rw [h.ids] at hmem
    rw [h.entries, h.capacity] at hfull
    rw [Messages.insert, enrol, dif_neg hmem, dif_neg hfull.not_lt]
    exact ⟨rfl, h.settled⟩
  | appended array hmem hroom hlive hlen hfree =>
    rw [h.ids] at hmem
    rw [h.entries, h.capacity] at hroom
    rw [Messages.insert, enrol, dif_neg hmem, dif_pos hroom]
    exact ⟨⟨_, rfl⟩, by rw [hlive, h.entries], by rw [hlen, h.capacity]⟩

theorem Holds.ack (h : Holds records m) {packetId : UInt16} {ack : AckType} {op : Operation}
    {result : Except StateError PublishState × List Record}
    (heff : AckEffect records packetId ack op result) :
    Follows result m (m.ack packetId ack op) := by
  unfold Messages.ack
  cases heff with
  | unknown hmem =>
    rw [h.ids] at hmem
    rw [lookup_eq_none.mpr hmem]
    exact ⟨rfl, h⟩
  | illegal x hx hid hv =>
    subst hid
    simp only [h.lookup_eq hx, hv, Bool.false_eq_true, if_false]
    exact ⟨rfl, h⟩
  | repeated x hx hid hv hnew =>
    subst hid
    obtain ⟨hdone, hrel⟩ := self_transition_not_deleting hv
    simp only [h.lookup_eq hx, hnew, hv, if_true, if_neg hdone, if_neg hrel]
    have hself := amend_self m.distinct (h.entries ▸ hx)
    exact ⟨⟨_, rfl⟩, by rw [entries_revise, hself, h.entries], h.capacity⟩
  | finished x array hx hid hv hnew hlive hlen hfree =>
    subst hid
    simp only [h.lookup_eq hx, hnew, hv, if_true]
    exact ⟨⟨_, rfl⟩, by rw [hlive, h.entries, entries_dismiss], by rw [hlen, h.capacity]; rfl⟩
  | released x array hx hid hv hnew hlive hlen hfree =>
    subst hid
    simp only [h.lookup_eq hx, hnew, hv, if_true, reduceCtorEq, if_false]
    have hmem : x.packetId ∈ m.entries.map Record.packetId :=
      List.mem_map_of_mem (h.entries ▸ hx)
    refine ⟨⟨_, rfl⟩, ?_, by rw [hlen, h.capacity, capacity_promote]⟩
    rw [hlive, h.entries, entries_promote]
    exact hmem
  | moved x new array hx hid hv hnew hdone hrel hlive hlen hfree =>
    subst hid
    simp only [h.lookup_eq hx, hnew, hv, if_true, if_neg hdone, if_neg hrel]
    exact ⟨⟨_, rfl⟩, by rw [hlive, h.entries, entries_revise], by rw [hlen, h.capacity]; rfl⟩

end Array

structure Represents (r : PublishRecords) (s : Session) : Prop where
  wellFormed : r.WellFormed
  outgoing : Holds r.outgoing s.outgoing
  incoming : Holds r.incoming s.incoming

def PublishRecords.session (r : PublishRecords) (h : r.WellFormed) : Session where
  outgoing := ⟨inFlight r.outgoing, r.outgoing.length, h.outgoing.distinct, length_live_le _⟩
  incoming := ⟨inFlight r.incoming, r.incoming.length, h.incoming.distinct, length_live_le _⟩

theorem represents_session {r : PublishRecords} (h : r.WellFormed) :
    Represents r (r.session h) := ⟨h, ⟨rfl, rfl⟩, ⟨rfl, rfl⟩⟩

/-- An answer and the records follow what a specification makes of the session. -/
def Tracks {α : Type} (result : Except StateError α × PublishRecords) (s : Session) :
    Except StateError Session → Prop
  | .ok s' => (∃ a, result.1 = .ok a) ∧
      Holds result.2.outgoing s'.outgoing ∧ Holds result.2.incoming s'.incoming
  | .error e => result.1 = .error e ∧
      Holds result.2.outgoing s.outgoing ∧ Holds result.2.incoming s.incoming

section Both

variable {r : PublishRecords} {s : Session} {α : Type}

theorem Represents.tracks_outgoing (h : Represents r s) {answer : Except StateError α}
    {array : List Record} {m : Except StateError Messages}
    (hf : Follows (answer, array) s.outgoing m) :
    Tracks (answer, { r with outgoing := array }) s
      (m.map fun outgoing => { s with outgoing }) := by
  cases m with
  | ok m => exact ⟨hf.1, hf.2, h.incoming⟩
  | error e => exact ⟨hf.1, hf.2, h.incoming⟩

theorem Represents.tracks_incoming (h : Represents r s) {answer : Except StateError α}
    {array : List Record} {m : Except StateError Messages}
    (hf : Follows (answer, array) s.incoming m) :
    Tracks (answer, { r with incoming := array }) s
      (m.map fun incoming => { s with incoming }) := by
  cases m with
  | ok m => exact ⟨hf.1, h.outgoing, hf.2⟩
  | error e => exact ⟨hf.1, h.outgoing, hf.2⟩

theorem Follows.map {β : Type} {answer : Except StateError α} {array : List Record}
    {m : Messages} {spec : Except StateError Messages} (f : α → β)
    (h : Follows (answer, array) m spec) : Follows (answer.map f, array) m spec := by
  cases spec with
  | ok m' =>
    obtain ⟨⟨a, rfl⟩, hm⟩ := h
    exact ⟨⟨f a, rfl⟩, hm⟩
  | error e =>
    obtain ⟨rfl, hm⟩ := h
    exact ⟨rfl, hm⟩

theorem Represents.reserve (h : Represents r s) (packetId : UInt16) (qos : QoS) :
    Tracks (r.reserve packetId qos) s (s.reserve packetId qos) := by
  unfold Session.reserve
  have heff := PublishRecords.reserve_spec r packetId qos
  generalize r.reserve packetId qos = result at heff
  cases heff with
  | unrecorded hq => rw [if_pos hq]; exact ⟨⟨_, rfl⟩, h.outgoing, h.incoming⟩
  | zero hq hid => rw [if_neg hq, if_pos hid]; exact ⟨rfl, h.outgoing, h.incoming⟩
  | recorded hq hid result hadd =>
    rw [if_neg hq, if_neg hid]
    exact h.tracks_outgoing (h.outgoing.insert hadd)

theorem Represents.updatePublish (h : Represents r s) (packetId : UInt16) (op : Operation)
    (qos : QoS) :
    Tracks (r.updatePublish packetId op qos) s (s.updatePublish packetId op qos) := by
  have heff := PublishRecords.updatePublish_spec h.wellFormed.outgoing.distinct packetId op qos
  have hnonzero : ∀ {x : Record}, x ∈ inFlight r.outgoing → x.packetId ≠ packetIdInvalid :=
    fun hx => (mem_inFlight.mp hx).2
  generalize r.updatePublish packetId op qos = result at heff
  unfold Session.updatePublish
  cases heff with
  | unrecorded _ hq => rw [if_pos hq]; exact ⟨⟨_, rfl⟩, h.outgoing, h.incoming⟩
  | zero _ hq hid => rw [if_neg hq, if_pos hid]; exact ⟨rfl, h.outgoing, h.incoming⟩
  | unknown hq hid hmem =>
    rw [h.outgoing.ids] at hmem
    rw [if_neg hq, if_neg hid, Session.sent, lookup_eq_none.mpr hmem]
    exact ⟨rfl, h.outgoing, h.incoming⟩
  | mismatch hq x hx hid hne =>
    subst hid
    simp only [if_neg hq, if_neg (hnonzero hx), Session.sent, h.outgoing.lookup_eq hx, if_pos hne]
    exact ⟨rfl, h.outgoing, h.incoming⟩
  | illegal hq x hx hid hxq hv =>
    subst hid hxq
    simp only [if_neg hq, if_neg (hnonzero hx), Session.sent, h.outgoing.lookup_eq hx, ne_eq,
      not_true_eq_false, if_false, hv, Bool.false_eq_true]
    exact ⟨rfl, h.outgoing, h.incoming⟩
  | repeated hq x hx hid hxq hnew =>
    subst hid hxq
    have hv : validateTransitionPublish x.state x.state .send x.qos = true := by
      rw [hnew]; exact validateTransitionPublish_resend hq
    simp only [if_neg hq, if_neg (hnonzero hx), Session.sent, h.outgoing.lookup_eq hx, ne_eq,
      not_true_eq_false, if_false, ← hnew, hv, if_true]
    have hself := amend_self s.outgoing.distinct (h.outgoing.entries ▸ hx)
    exact ⟨⟨_, rfl⟩, ⟨by rw [entries_revise, hself, h.outgoing.entries], h.outgoing.capacity⟩,
      h.incoming⟩
  | sent hq x array hx hid hxq hv hlive hlen hfree =>
    subst hid hxq
    simp only [if_neg hq, if_neg (hnonzero hx), Session.sent, h.outgoing.lookup_eq hx, ne_eq,
      not_true_eq_false, if_false, hv, if_true]
    exact ⟨⟨_, rfl⟩, ⟨by rw [hlive, h.outgoing.entries, entries_revise],
      by rw [hlen, h.outgoing.capacity]; rfl⟩, h.incoming⟩
  | received hq hid result hadd =>
    rw [if_neg hq, if_neg hid]
    exact h.tracks_incoming ((h.incoming.insert hadd).map _)

theorem Represents.updateAck (h : Represents r s) (packetId : UInt16) (ack : AckType)
    (op : Operation) :
    Tracks (r.updateAck packetId ack op) s (s.updateAck packetId ack op) := by
  unfold Session.updateAck
  have heff := PublishRecords.updateAck_spec h.wellFormed packetId ack op
  generalize r.updateAck packetId ack op = result at heff
  cases heff with
  | zero hid => rw [if_pos hid]; exact ⟨rfl, h.outgoing, h.incoming⟩
  | outgoing hid hout result heff =>
    rw [if_neg hid, if_pos hout]
    exact h.tracks_outgoing (h.outgoing.ack heff)
  | incoming hid hout result heff =>
    rw [if_neg hid, if_neg (by rw [hout]; simp)]
    exact h.tracks_incoming (h.incoming.ack heff)

theorem Represents.remove (h : Represents r s) (packetId : UInt16) :
    Tracks (r.remove packetId) s (s.remove packetId) := by
  unfold Session.remove
  have heff := PublishRecords.remove_spec h.wellFormed packetId
  generalize r.remove packetId = result at heff
  cases heff with
  | refused hmem =>
    rw [h.outgoing.ids] at hmem
    rw [if_neg hmem]
    exact ⟨rfl, h.outgoing, h.incoming⟩
  | removed x array hx hid hlive hlen hfree =>
    subst hid
    rw [if_pos (List.mem_map_of_mem (h.outgoing.entries ▸ hx))]
    exact ⟨⟨_, rfl⟩, ⟨by rw [hlive, h.outgoing.entries, entries_dismiss],
      by rw [hlen, h.outgoing.capacity]; rfl⟩, h.incoming⟩

theorem Represents.of_tracks {result : Except StateError α × PublishRecords} {c : Call}
    (hcall : r.call c = (result.1.map fun _ => (), result.2)) (hwf : (r.call c).2.WellFormed)
    (ht : Tracks result s (s.accept c)) :
    (r.call c).1 = (Session.machine.step c s).1 ∧
      Represents (r.call c).2 (Session.machine.step c s).2 := by
  rw [hcall] at hwf ⊢
  simp only [Session.machine]
  cases hacc : s.accept c with
  | ok s' =>
    rw [hacc] at ht
    obtain ⟨⟨a, ha⟩, hout, hin⟩ := ht
    exact ⟨by rw [ha]; rfl, hwf, hout, hin⟩
  | error e =>
    rw [hacc] at ht
    obtain ⟨he, hout, hin⟩ := ht
    exact ⟨by rw [he]; rfl, hwf, hout, hin⟩

theorem Represents.step (h : Represents r s) (c : Call) :
    (r.call c).1 = (Session.machine.step c s).1 ∧
      Represents (r.call c).2 (Session.machine.step c s).2 := by
  have hwf := h.wellFormed.call c
  cases c with
  | reserve packetId qos =>
    refine Represents.of_tracks ?_ hwf (h.reserve packetId qos)
    rw [except_map_unit]; rfl
  | updatePublish packetId op qos =>
    exact Represents.of_tracks rfl hwf (h.updatePublish packetId op qos)
  | updateAck packetId ack op => exact Represents.of_tracks rfl hwf (h.updateAck packetId ack op)
  | remove packetId =>
    refine Represents.of_tracks ?_ hwf (h.remove packetId)
    rw [except_map_unit]; rfl

end Both

/-- A new message is taken at the end exactly when its identifier is free and a slot is. -/
structure Insertion (records : List Record) (new : Record) (answer : Except StateError Unit)
    (array : List Record) : Prop where
  accepted : answer = .ok () ↔
    new.packetId ∉ inFlightIds records ∧ (inFlight records).length < records.length
  collision : answer = .error .stateCollision ↔ new.packetId ∈ inFlightIds records
  full : answer = .error .noMemory ↔
    new.packetId ∉ inFlightIds records ∧ (inFlight records).length = records.length
  appended : answer = .ok () → inFlight array = inFlight records ++ [new]

/-- What an accepted acknowledgement makes of the messages in flight. -/
inductive Progress (packetId : UInt16) (release : Prop) (before : List Record) :
    List Record → Prop
  | deleted (h : packetId ∈ before.map Record.packetId) :
      Progress packetId release before (Roster.remove Record.packetId packetId before)
  | changed (x : Record) (new : PublishState) (hx : x ∈ before) (hid : x.packetId = packetId) :
      Progress packetId release before (amend Record.packetId { x with state := new } before)
  | released (h : packetId ∈ before.map Record.packetId) (hrel : release) :
      Progress packetId release before (Roster.remove Record.packetId packetId before ++
        [{ packetId, qos := .exactlyOnce, state := .pubRelSend }])

theorem Added.insertion {records : List Record} {new : Record}
    {result : Except StateError Unit × List Record} (h : Added records new result) :
    Insertion records new result.1 result.2 := by
  cases h with
  | collision hmem => exact ⟨by simp [hmem], by simp [hmem], by simp [hmem], by simp⟩
  | full hmem hfull => exact ⟨by simp [hfull], by simp [hmem], by simp [hmem, hfull], by simp⟩
  | appended array hmem hroom hlive hlen hfree =>
    exact ⟨by simp [hmem, hroom], by simp [hmem], by simp [hroom.ne], fun _ => hlive⟩

theorem AckEffect.progress {records : List Record} {packetId : UInt16} {ack : AckType}
    {op : Operation} {result : Except StateError PublishState × List Record}
    (h : AckEffect records packetId ack op result) (hn : (inFlightIds records).Nodup)
    {new : PublishState} (hok : result.1 = .ok new) :
    Progress packetId (ack = .pubRec ∧ op = .receive) (inFlight records) (inFlight result.2) := by
  cases h with
  | unknown _ => cases hok
  | illegal _ _ _ _ => cases hok
  | repeated x hx hid _ _ =>
    have hself : amend Record.packetId { x with state := x.state } (inFlight records) =
        inFlight records := amend_self hn hx
    have hchanged : Progress packetId (ack = .pubRec ∧ op = .receive) (inFlight records)
        (amend Record.packetId { x with state := x.state } (inFlight records)) :=
      .changed x x.state hx hid
    rwa [hself] at hchanged
  | finished x _ hx hid _ _ hlive _ _ =>
    exact hlive ▸ .deleted (hid ▸ List.mem_map_of_mem hx)
  | released x _ hx hid _ hnew hlive _ _ =>
    obtain ⟨hack, hop, -⟩ := calculateStateAck_eq_pubRelSend hnew
    exact hlive ▸ .released (hid ▸ List.mem_map_of_mem hx) ⟨hack, hop⟩
  | moved x new _ hx hid _ _ _ _ hlive _ _ => exact hlive ▸ .changed x new hx hid

theorem AckEffect.refusal {records : List Record} {packetId : UInt16} {ack : AckType}
    {op : Operation} {result : Except StateError PublishState × List Record}
    (h : AckEffect records packetId ack op result) :
    result.1 ≠ .error .noMemory ∧ result.1 ≠ .error .stateCollision := by
  cases h <;> simp

namespace PublishRecords

theorem call_reserve {r : PublishRecords} {packetId : UInt16} {qos : QoS}
    (hq : qos ≠ .atMostOnce) (hid : packetId ≠ packetIdInvalid) :
    Insertion r.outgoing { packetId, qos, state := .publishSend }
      (r.call (.reserve packetId qos)).1 (r.call (.reserve packetId qos)).2.outgoing := by
  have heff := reserve_spec r packetId qos
  simp only [call]
  generalize r.reserve packetId qos = result at heff
  cases heff with
  | unrecorded h => exact absurd h hq
  | zero _ h => exact absurd h hid
  | recorded _ _ _ hadd => exact hadd.insertion

theorem call_received {r : PublishRecords} (h : r.WellFormed) {packetId : UInt16} {qos : QoS}
    (hq : qos ≠ .atMostOnce) (hid : packetId ≠ packetIdInvalid) :
    Insertion r.incoming { packetId, qos, state := calculateStatePublish .receive qos }
      (r.call (.updatePublish packetId .receive qos)).1
      (r.call (.updatePublish packetId .receive qos)).2.incoming := by
  have heff := updatePublish_spec h.outgoing.distinct packetId .receive qos
  simp only [call]
  generalize r.updatePublish packetId .receive qos = result at heff
  cases heff with
  | unrecorded _ h => exact absurd h hq
  | zero _ _ h => exact absurd h hid
  | received _ _ result hadd =>
    have hins := hadd.insertion
    obtain ⟨answer, array⟩ := result
    cases answer <;> exact hins

theorem call_updateAck {r : PublishRecords} (h : r.WellFormed) {packetId : UInt16}
    {ack : AckType} {op : Operation} {r' : PublishRecords}
    (hok : r.call (.updateAck packetId ack op) = (.ok (), r')) :
    if isPublishOutgoing ack op then
      Progress packetId (ack = .pubRec ∧ op = .receive) (inFlight r.outgoing)
        (inFlight r'.outgoing) ∧ r'.incoming = r.incoming
    else
      Progress packetId False (inFlight r.incoming) (inFlight r'.incoming) ∧
        r'.outgoing = r.outgoing := by
  have heff := updateAck_spec h packetId ack op
  simp only [call] at hok
  generalize r.updateAck packetId ack op = result at heff hok
  have hanswer : ∃ new, result.1 = .ok new := by
    obtain ⟨answer, r''⟩ := result
    cases answer with
    | ok new => exact ⟨new, rfl⟩
    | error e => simp [Except.map] at hok
  obtain ⟨new, hnew⟩ := hanswer
  have hr' : result.2 = r' := congrArg Prod.snd hok
  cases heff with
  | zero _ => cases hnew
  | outgoing _ hout result heff =>
    subst hr'
    rw [if_pos hout]
    exact ⟨heff.progress h.outgoing.distinct hnew, rfl⟩
  | incoming _ hout result heff =>
    subst hr'
    rw [hout, if_neg (by simp)]
    refine ⟨?_, rfl⟩
    have hprogress := heff.progress h.incoming.distinct hnew
    have hnot : ¬ (ack = .pubRec ∧ op = .receive) := by
      rintro ⟨rfl, rfl⟩
      cases hout
    simpa [hnot] using hprogress

/-- The answers and the messages in flight are those of a session, for every call
after any sequence of calls. -/
theorem records_refine_session (outgoing incoming : List Record) (calls : List Call) :
    let r := (new outgoing incoming).after calls
    (∃ s : Session, Represents r s ∧ ∀ c, (r.call c).1 = (Session.machine.step c s).1 ∧
        Represents (r.call c).2 (Session.machine.step c s).2) ∧
      (∀ packetId qos, qos ≠ .atMostOnce → packetId ≠ packetIdInvalid →
        Insertion r.outgoing { packetId, qos, state := .publishSend }
          (r.call (.reserve packetId qos)).1 (r.call (.reserve packetId qos)).2.outgoing ∧
        Insertion r.incoming { packetId, qos, state := calculateStatePublish .receive qos }
          (r.call (.updatePublish packetId .receive qos)).1
          (r.call (.updatePublish packetId .receive qos)).2.incoming) ∧
      (∀ packetId ack op r', r.call (.updateAck packetId ack op) = (.ok (), r') →
        if isPublishOutgoing ack op then
          Progress packetId (ack = .pubRec ∧ op = .receive) (inFlight r.outgoing)
            (inFlight r'.outgoing) ∧ r'.incoming = r.incoming
        else
          Progress packetId False (inFlight r.incoming) (inFlight r'.incoming) ∧
            r'.outgoing = r.outgoing) ∧
      (∀ packetId r', r.call (.remove packetId) = (.ok (), r') →
        packetId ∈ inFlightIds r.outgoing ∧ r'.incoming = r.incoming ∧
          inFlight r'.outgoing = Roster.remove Record.packetId packetId (inFlight r.outgoing)) ∧
      (∀ c e, (r.call c).1 = .error e →
        inFlight (r.call c).2.outgoing = inFlight r.outgoing ∧
          inFlight (r.call c).2.incoming = inFlight r.incoming) ∧
      (∀ packetId ack op, (r.call (.updateAck packetId ack op)).1 ≠ .error .noMemory ∧
        (r.call (.updateAck packetId ack op)).1 ≠ .error .stateCollision) := by
  intro r
  have h : r.WellFormed := (wellFormed_new outgoing incoming).after calls
  have hs : Represents r (r.session h) := represents_session h
  refine ⟨⟨r.session h, hs, hs.step⟩, fun packetId qos hq hid =>
    ⟨call_reserve hq hid, call_received h hq hid⟩, fun packetId ack op r' => call_updateAck h,
    fun packetId r' hok => ?_, fun c e he => ?_, fun packetId ack op => ?_⟩
  · have heff := remove_spec h packetId
    rw [show r.remove packetId = (.ok (), r') from hok] at heff
    cases heff with
    | removed x array hx hid hlive _ _ => exact ⟨hid ▸ List.mem_map_of_mem hx, rfl, hlive⟩
  · obtain ⟨hanswer, hrep⟩ := hs.step c
    have hsame : (Session.machine.step c (r.session h)).2 = r.session h := by
      rw [he] at hanswer
      simp only [Session.machine] at hanswer ⊢
      cases hacc : (r.session h).accept c with
      | ok s' => rw [hacc] at hanswer; cases hanswer
      | error e => rfl
    rw [hsame] at hrep
    exact ⟨hrep.outgoing.entries, hrep.incoming.entries⟩
  · have heff := updateAck_spec h packetId ack op
    simp only [call]
    generalize r.updateAck packetId ack op = result at heff
    cases heff with
    | zero _ => exact ⟨by simp [Except.map], by simp [Except.map]⟩
    | outgoing _ _ result heff =>
      obtain ⟨hmem, hcol⟩ := heff.refusal
      obtain ⟨_ | _, array⟩ := result <;> simp_all [Except.map]
    | incoming _ _ result heff =>
      obtain ⟨hmem, hcol⟩ := heff.refusal
      obtain ⟨_ | _, array⟩ := result <;> simp_all [Except.map]

end PublishRecords

end RtosMqtt
