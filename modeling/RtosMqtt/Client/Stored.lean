import RtosMqtt.Client.Scripted
import RtosMqtt.Client.Sweep
import RtosMqtt.Client.Unsent
import RtosMqtt.State.Positions
import Mathlib.Logic.Function.Basic

/-! # What the store holds

A store that returns what it accepted is a table of packets. A message goes into it
before its first byte goes out, and it stays there until it is acknowledged for the
first time: whatever was published and not yet answered can be sent again.
-/

namespace RtosMqtt

variable {W : Type}

/-- There is a store, and it is a table: it holds what it accepted until it is told to forget it,
and nothing else touches it. -/
structure KeyValue (env : Environment W) (contents : W → UInt32 → Option (List UInt8)) : Prop where
  storing : env.storing = true
  clock : ∀ w, contents (env.nowMs w).2 = contents w
  recv : ∀ into w, contents (env.recv into w).2 = contents w
  send : ∀ bytes w, contents (env.send bytes w).2 = contents w
  writev : ∀ parts w, contents (env.writev parts w).2 = contents w
  event : ∀ e reply w, contents (env.onEvent e reply w).2 = contents w
  retrieve : ∀ key w, contents (env.retrieve key w).2 = contents w
  returned : ∀ key w, (env.retrieve key w).1 = contents w key
  accepted : ∀ key parts w, (env.store key parts w).1 = true →
    contents (env.store key parts w).2 = Function.update (contents w) key (some parts.flatten)
  refused : ∀ key parts w, (env.store key parts w).1 = false →
    contents (env.store key parts w).2 = contents w
  clear : ∀ key w, contents (env.clear key w) = Function.update (contents w) key none

theorem incomingKey_ne (packetId other : UInt16) : incomingKey packetId ≠ other.toUInt32 := by
  intro h
  have hlow := other.toNat_lt
  have hkey : 0x10000 ≤ (incomingKey packetId).toNat := by
    rw [incomingKey, UInt32.toNat_or]
    exact Nat.right_le_or
  rw [h, UInt16.toNat_toUInt32] at hkey
  omega

theorem Replaces.unacknowledged_subset {before : Option PublishRecords} {r : PublishRecords}
    (h : Replaces before r) : unacknowledged r.outgoing ⊆
      unacknowledged ((before.map PublishRecords.outgoing).getD []) := by
  cases h with
  | fresh before outgoing incoming =>
    rw [show unacknowledged (PublishRecords.new outgoing incoming).outgoing = [] from
      unacknowledged_cleared outgoing]
    exact List.nil_subset _
  | capped r outgoing incoming =>
    rw [PublishRecords.cap_outgoing]
    exact unacknowledged_take _ _
  | cleared r =>
    rw [show unacknowledged r.clearOutgoing.clearIncoming.outgoing = [] from
      unacknowledged_cleared r.outgoing]
    exact List.nil_subset _

/-- Every message without an answer is in the store, and under the key of a message there is nothing
but what `copy` allows. -/
structure Backed (contents : W → UInt32 → Option (List UInt8)) (copy : UInt16 → List UInt8 → Prop)
    (s : Sys W) : Prop where
  wellKept : s.context.WellKept
  held : ∀ packetId ∈ unacknowledged s.context.outgoing, contents s.world packetId.toUInt32 ≠ none
  copied : ∀ packetId packet, contents s.world packetId.toUInt32 = some packet →
    copy packetId packet

/-- What goes into the store for a message: its PUBLISH, marked as sent before. -/
def copyOf (message : OutgoingPublish) (packetId : UInt16) : List UInt8 :=
  publishPacket { message with dup := true } packetId

def replaced (copy : UInt16 → List UInt8 → Prop) (packetId : UInt16) (packet : List UInt8)
    (other : UInt16) (packet' : List UInt8) : Prop :=
  if other = packetId then packet' = packet else copy other packet'

section Backed

variable {contents : W → UInt32 → Option (List UInt8)} {copy : UInt16 → List UInt8 → Prop}
  {s t : Sys W}

theorem Backed.mono {copy' : UInt16 → List UInt8 → Prop} (hs : Backed contents copy s)
    (h : ∀ packetId packet, copy packetId packet → copy' packetId packet) :
    Backed contents copy' s :=
  ⟨hs.wellKept, hs.held, fun packetId packet hp => h _ _ (hs.copied packetId packet hp)⟩

theorem Backed.fewer (hs : Backed contents copy s) (hwell : t.context.WellKept)
    (hworld : ∀ packetId : UInt16,
      contents t.world packetId.toUInt32 = contents s.world packetId.toUInt32)
    (hsub : unacknowledged t.context.outgoing ⊆ unacknowledged s.context.outgoing) :
    Backed contents copy t where
  wellKept := hwell
  held packetId h := by
    rw [hworld]
    exact hs.held packetId (hsub h)
  copied packetId packet h := by
    rw [hworld] at h
    exact hs.copied packetId packet h

theorem Backed.congr (hs : Backed contents copy s)
    (hrecords : t.context.records = s.context.records)
    (hworld : ∀ packetId : UInt16,
      contents t.world packetId.toUInt32 = contents s.world packetId.toUInt32) :
    Backed contents copy t := by
  apply hs.fewer (hs.wellKept.congr hrecords) hworld
  rw [MqttContext.outgoing, MqttContext.outgoing, hrecords]
  exact List.Subset.refl _

theorem Backed.called {r answer : PublishRecords} (hs : Backed contents copy s)
    (hr : s.context.records = some r) (hwell : answer.WellFormed)
    (hsub : unacknowledged answer.outgoing ⊆ unacknowledged r.outgoing)
    (log : List Observation) : Backed contents copy
      { s with context := { s.context with records := some answer }, log := log } := by
  refine hs.fewer ?_ (fun _ => rfl) ?_
  · intro r' hr'
    obtain rfl := Option.some.inj hr'
    exact hwell
  · rw [MqttContext.outgoing, MqttContext.outgoing, hr]
    exact hsub

theorem Backed.forgets (hs : Backed contents copy s)
    (hrecords : t.context.records = s.context.records) {key : UInt32}
    (hworld : contents t.world = Function.update (contents s.world) key none)
    (hkey : ∀ packetId ∈ unacknowledged s.context.outgoing, packetId.toUInt32 ≠ key) :
    Backed contents copy t where
  wellKept := hs.wellKept.congr hrecords
  held packetId h := by
    rw [MqttContext.outgoing, hrecords] at h
    rw [hworld, Function.update_of_ne (hkey packetId h)]
    exact hs.held packetId h
  copied packetId packet h := by
    rw [hworld, Function.update_apply] at h
    split_ifs at h
    exact hs.copied packetId packet h

theorem Backed.sent {r answer : PublishRecords} {packetId : UInt16}
    (hs : Backed contents copy s) (hr : s.context.records = some r) (hwell : answer.WellFormed)
    (hsub : unacknowledged answer.outgoing ⊆ packetId :: unacknowledged r.outgoing)
    (hheld : contents s.world packetId.toUInt32 ≠ none) (log : List Observation) :
    Backed contents copy
      { s with context := { s.context with records := some answer }, log := log } where
  wellKept := by
    intro r' hr'
    obtain rfl := Option.some.inj hr'
    exact hwell
  held other hmem := by
    rcases List.mem_cons.mp (hsub hmem) with rfl | hmem
    · exact hheld
    · apply hs.held other
      rw [MqttContext.outgoing, hr]
      exact hmem
  copied := hs.copied

theorem Backed.stored {packetId : UInt16} {packet : List UInt8} (hs : Backed contents copy s)
    (hrecords : t.context.records = s.context.records)
    (hworld : contents t.world =
      Function.update (contents s.world) packetId.toUInt32 (some packet)) :
    Backed contents (replaced copy packetId packet) t where
  wellKept := hs.wellKept.congr hrecords
  held other hmem := by
    rw [MqttContext.outgoing, hrecords] at hmem
    rw [hworld, Function.update_apply]
    split_ifs
    · exact Option.some_ne_none _
    · exact hs.held other hmem
  copied other packet' hp := by
    rw [hworld, Function.update_apply] at hp
    unfold replaced
    by_cases hother : other = packetId
    · rw [if_pos (congrArg _ hother)] at hp
      rw [if_pos hother]
      exact (Option.some.inj hp).symm
    · rw [if_neg fun heq => hother (UInt16.toUInt32_inj.mp heq)] at hp
      rw [if_neg hother]
      exact hs.copied other packet' hp

end Backed

def SameContents (contents : W → UInt32 → Option (List UInt8)) (s t : Sys W) : Prop :=
  contents t.world = contents s.world

instance (contents : W → UInt32 → Option (List UInt8)) :
    IsPreorder (Sys W) (SameContents contents) where
  refl _ := rfl
  trans _ _ _ h h' := Eq.trans h' h

/-- Something of what the store held may be gone, and the records stay. -/
structure Loses (contents : W → UInt32 → Option (List UInt8)) (s t : Sys W) : Prop where
  records : t.context.records = s.context.records
  world : ∀ key, contents t.world key = contents s.world key ∨ contents t.world key = none

instance (contents : W → UInt32 → Option (List UInt8)) : IsPreorder (Sys W) (Loses contents) where
  refl _ := ⟨rfl, fun _ => .inl rfl⟩
  trans _ _ _ h h' := by
    refine ⟨h'.records.trans h.records, fun key => ?_⟩
    rcases h'.world key with hkept | hgone
    · exact (h.world key).imp hkept.trans hkept.trans
    · exact .inr hgone

theorem Backed.cleared {contents : W → UInt32 → Option (List UInt8)}
    {copy : UInt16 → List UInt8 → Prop} {s t : Sys W} {r : PublishRecords}
    (hs : Backed contents copy s) (hr : s.context.records = some r) (hst : Loses contents s t) :
    Backed contents copy { t with context :=
      { t.context with records := some r.clearOutgoing.clearIncoming } } where
  wellKept := by
    intro r' hr'
    obtain rfl := Option.some.inj hr'
    exact (hs.wellKept r hr).clearOutgoing.clearIncoming
  held packetId hmem := by
    have hnone : unacknowledged r.clearOutgoing.clearIncoming.outgoing = [] :=
      unacknowledged_cleared r.outgoing
    rw [MqttContext.outgoing, Option.map_some, Option.getD_some, hnone] at hmem
    cases hmem
  copied packetId packet hp := by
    rcases hst.world packetId.toUInt32 with hkept | hgone
    · exact hs.copied packetId packet (hkept.symm.trans hp)
    · cases hgone.symm.trans hp

namespace Client

variable {env : Environment W} {contents : W → UInt32 → Option (List UInt8)}
  {copy : UInt16 → List UInt8 → Prop} (h : KeyValue env contents)

theorem keep_of_accepted {key : UInt32} {parts : List (List UInt8)} {s : Sys W}
    (hstoring : env.storing = true) (haccepted : (env.store key parts s.world).1 = true) :
    keep env key parts s = (.ok (), (store env key parts s).2) := by
  rw [keep, if_pos hstoring, Prog.bind_of_ok (store_apply env key parts s), Client.refuse,
    Prog.refuse_apply, store_apply, if_neg (by rw [haccepted]; decide)]

include h

theorem keep_backed (packetId : UInt16) (parts : List (List UInt8)) :
    (keep env (incomingKey packetId) parts).Moves (Keeping (Backed contents copy)) := by
  intro s hs
  have hkeep : (keep env (incomingKey packetId) parts s).2 =
      (store env (incomingKey packetId) parts s).2 := by
    rw [keep, if_pos h.storing]
    exact Prog.bind_snd_of_still fun _ _ => rfl
  rw [hkeep]
  refine hs.congr (t := (store env (incomingKey packetId) parts s).2) rfl ?_
  intro other
  have hother : other.toUInt32 ≠ incomingKey packetId := (incomingKey_ne packetId other).symm
  cases haccepted : (env.store (incomingKey packetId) parts s.world).1 with
  | false => exact congrFun (h.refused _ _ _ haccepted) _
  | true =>
    have hworld := congrFun (h.accepted _ _ _ haccepted) other.toUInt32
    rwa [Function.update_of_ne hother] at hworld

theorem clearStored_backed {key : UInt32} {s : Sys W} (hs : Backed contents copy s)
    (hkey : ∀ packetId ∈ unacknowledged s.context.outgoing, packetId.toUInt32 ≠ key) :
    Backed contents copy (clearStored env key s).2 := by
  rw [clearStored, if_pos h.storing]
  exact hs.forgets rfl (h.clear key s.world) hkey

theorem receiveAck_backed (total : ℕ) :
    (receiveAck env total).Moves (Keeping (Backed contents copy)) := by
  dsimp only [receiveAck]
  refine context_moves.bind fun c => (orFail_moves _ _).bind fun view => (orFail_moves _ _).bind
    fun ack => (check_moves _ _).bind fun info => ?_
  generalize info.packetId.getD 0 = packetId
  intro s hs
  have hforget {u : Sys W} (hu : Backed contents copy u)
      (hkey : ∀ other ∈ unacknowledged u.context.outgoing,
        other.toUInt32 ≠ releasedKey ack packetId)
      (state : Option PublishState) : Backed contents copy ((do
        clearStored env (releasedKey ack packetId)
        pure { view, ack, info, state := state.getD .null } : Client W ReceivedAck) u).2 :=
    Prog.rel_bind (R := Keeping (Backed contents copy)) (fun _ => clearStored_backed h hu hkey)
      (fun _ => .pure _) hu
  cases hr : s.context.records with
  | none =>
    rw [updateAck, Prog.bind_of_ok (onRecords_none hr)]
    apply hforget hs
    intro other hother
    rw [MqttContext.outgoing, hr] at hother
    cases hother
  | some r =>
    have hwell := hs.wellKept r hr
    have hu := hs.called hr (hwell.updateAck packetId ack .receive)
      (PublishRecords.unacknowledged_call hwell
        (rfl : (Call.updateAck packetId ack .receive).publishes = false))
      (s.log ++ [.recorded r (.updateAck packetId ack .receive)
        ((r.updateAck packetId ack .receive).1.map fun _ => ())])
    rw [updateAck, Prog.bind_of_ok (onRecords_some hr)]
    cases hanswer : (r.updateAck packetId ack .receive).1 with
    | error e =>
      rw [hanswer] at hu
      exact hu
    | ok state =>
      rw [hanswer] at hu
      apply hforget hu
      intro other hother heq
      cases ack with
      | pubAck =>
        obtain rfl := UInt16.toUInt32_inj.mp heq
        exact PublishRecords.acknowledged hwell (.inl rfl) hanswer hother
      | pubRec =>
        obtain rfl := UInt16.toUInt32_inj.mp heq
        exact PublishRecords.acknowledged hwell (.inr rfl) hanswer hother
      | pubRel => exact incomingKey_ne packetId other heq.symm
      | pubComp => exact incomingKey_ne packetId other heq.symm

theorem clearAll_run (key : UInt16 → UInt32) (ids : List UInt16) (s : Sys W) :
    ∃ t, clearAll env key ids s = (.ok (), t) ∧ Loses contents s t := by
  induction ids generalizing s with
  | nil => exact ⟨s, rfl, refl_of (Loses contents) s⟩
  | cons packetId ids ih =>
    obtain ⟨t, hrun, ht⟩ := ih (clear env (key packetId) s).2
    have hforget : Loses contents s (clear env (key packetId) s).2 := by
      refine ⟨rfl, fun other => ?_⟩
      have hworld := congrFun (h.clear (key packetId) s.world) other
      rw [Function.update_apply] at hworld
      split_ifs at hworld
      · exact .inr hworld
      · exact .inl hworld
    exact ⟨t, hrun, trans_of (Loses contents) hforget ht⟩

theorem handleCleanSession_backed :
    (handleCleanSession env).Moves (Keeping (Backed contents copy)) := by
  intro s₀ hs₀
  rw [handleCleanSession, Prog.bind_of_ok (update_apply _ s₀)]
  generalize hupdated : ({ s₀ with context := _ } : Sys W) = s
  have hs : Backed contents copy s := by
    subst hupdated
    exact hs₀.congr rfl fun _ => rfl
  rw [Prog.bind_of_ok (context_apply s)]
  cases hr : s.context.records with
  | none => exact hs
  | some r =>
    obtain ⟨t, hfirst, hst⟩ := clearAll_run h UInt16.toUInt32
      (PublishRecords.resends r.publishToResend (r.outgoing.length + 1) 0) s
    obtain ⟨u, hsecond, htu⟩ := clearAll_run h incomingKey
      (PublishRecords.resends r.clearOutgoing.pubrelToResend
        (r.clearOutgoing.outgoing.length + 1) 0) t
    dsimp only
    rw [Prog.when_bind_of h.storing, Prog.bind_of_ok hfirst, Prog.when_bind_of h.storing,
      Prog.bind_of_ok hsecond]
    exact hs.cleared hr (trans_of (Loses contents) hst htu)

theorem backed_openings : Openings env (Keeping (Backed contents copy)) where
  clock s hs := hs.congr rfl fun _ => congrFun (h.clock s.world) _
  recv into s hs := hs.congr rfl fun _ => congrFun (h.recv into s.world) _
  send bytes s hs := hs.congr rfl fun _ => congrFun (h.send bytes s.world) _
  writev parts s hs := hs.congr rfl fun _ => congrFun (h.writev parts s.world) _
  retrieve key s hs := hs.congr rfl fun _ => congrFun (h.retrieve key s.world) _
  keep := keep_backed h
  receiveAck := receiveAck_backed h
  adjust s c hc hs := hs.congr hc.records fun _ => rfl
  handleCleanSession := handleCleanSession_backed h
  update s c hc hs := hs.congr hc fun _ => rfl
  present s _ hs := hs.congr rfl fun _ => rfl
  replace s r hr hs := by
    refine hs.fewer ?_ (fun _ => rfl) hr.unacknowledged_subset
    intro r' hr'
    obtain rfl := Option.some.inj hr'
    exact hr.wellFormed hs.wellKept
  call s r c hr hc hs := by
    have hwell := hs.wellKept r hr
    exact hs.called hr (hwell.call c) (PublishRecords.unacknowledged_call hwell hc) _
  event e wantsReply s _ hs := hs.congr rfl fun _ => congrFun (h.event e _ s.world) _

theorem handleIncomingPublish_backed (total : ℕ) :
    (handleIncomingPublish env total).Moves (Keeping (Backed contents copy)) := by
  apply (backed_openings h).toRounds.handleIncomingPublish
  · apply receivePublish_moves
    intro packetId qos
    refine onRecords_moves (c := .updatePublish packetId .receive qos) (fun _ => rfl) ?_
    intro s r hr hs
    have hwell := hs.wellKept r hr
    refine hs.called hr (hwell.updatePublish packetId .receive qos) ?_ _
    rw [PublishRecords.unacknowledged_received]
    exact List.Subset.refl _
  · exact fun e wantsReply s hs => hs.congr rfl fun _ => congrFun (h.event e _ s.world) _

theorem sendVectors_contents (parts : List (List UInt8)) :
    (sendVectors env parts).Moves (SameContents contents) := by
  apply sendVectors_moves
  · exact ⟨fun s => h.clock s.world, fun _ _ => rfl, fun _ => rfl⟩
  · exact fun parts _ s => h.writev parts s.world

/-- A PUBLISH that is recorded is in the store, or it is refused. -/
theorem registerPublish_backed {message : OutgoingPublish} {packetId : UInt16}
    (hfits : message.Fits) (hqos : message.qos ≠ .atMostOnce) {s : Sys W}
    (hs : Backed contents copy s) :
    (∃ e t, registerPublish env message packetId s = (.error e, t) ∧ Backed contents copy t) ∨
      ∃ t, registerPublish env message packetId s = (.ok (partsOf message packetId), t) ∧
        contents t.world packetId.toUInt32 = some (copyOf message packetId) ∧
        Backed contents (replaced copy packetId (copyOf message packetId)) t := by
  have hreserve : (reservePublish message packetId : Client W Unit).Moves
      (Keeping (Backed contents copy)) :=
    Prog.Moves.bind ((backed_openings h).toRounds.onRecords (c := .reserve packetId message.qos) rfl
      fun r => by rw [except_map_unit]; rfl) fun _ =>
        .when ((accepted_moves _).bind fun _ => .pure _)
  have hparts : (partsOf { message with dup := true } packetId).flatten =
      copyOf message packetId :=
    @flatten_partsOf { message with dup := true } packetId ⟨hfits.topic, hfits.length⟩
  have hu := hreserve s hs
  rw [registerPublish, Prog.when_bind_of hqos]
  rcases hrun : reservePublish message packetId s with ⟨e | _, u⟩
  · rw [hrun] at hu
    exact .inl ⟨e, u, Prog.bind_of_error hrun, hu⟩
  rw [hrun] at hu
  rw [Prog.bind_of_ok hrun, Prog.when_bind_of hqos]
  cases haccepted : (env.store packetId.toUInt32 (partsOf { message with dup := true } packetId)
      u.world).1 with
  | false =>
    refine .inl ⟨_, _,
      Prog.bind_of_error (keep_eq_error.mpr ⟨⟨h.storing, haccepted⟩, rfl, rfl⟩), ?_⟩
    exact hu.congr rfl fun _ => congrFun (h.refused _ _ _ haccepted) _
  | true =>
    have hworld := h.accepted _ _ _ haccepted
    rw [hparts] at hworld
    refine .inr ⟨_, Prog.bind_of_ok (keep_of_accepted h.storing haccepted), ?_,
      hu.stored rfl hworld⟩
    exact (congrFun hworld _).trans (Function.update_self _ _ _)

theorem deliverPublish_backed {message : OutgoingPublish} {packetId : UInt16}
    {parts : List (List UInt8)} {s : Sys W} (hs : Backed contents copy s)
    (hheld : contents s.world packetId.toUInt32 ≠ none) :
    Backed contents copy (deliverPublish env message packetId parts s).2 := by
  have hsent := (backed_openings h).toRounds.sendVectors parts s hs
  have hworld := sendVectors_contents h parts s
  rw [deliverPublish]
  rcases hrun : sendVectors env parts s with ⟨e | outcome, t⟩
  · rw [hrun] at hsent
    rwa [Prog.bind_of_error hrun]
  rw [hrun] at hsent hworld
  rw [Prog.bind_of_ok hrun]
  have hupdate : Backed contents copy
      (updatePublish packetId .send message.qos t : Except Stop _ × Sys W).2 := by
    have hstays : contents t.world packetId.toUInt32 ≠ none := by
      rw [show contents t.world = contents s.world from hworld]
      exact hheld
    cases hr : t.context.records with
    | none =>
      rw [updatePublish, onRecords_none hr]
      exact hsent
    | some r =>
      rw [updatePublish, onRecords_some hr]
      have hwell := hsent.wellKept r hr
      exact hsent.sent hr (hwell.updatePublish packetId .send message.qos)
        (PublishRecords.unacknowledged_sent hwell packetId message.qos) hstays _
  rw [sentWhole, Client.refuse, Prog.refuse_bind_apply]
  split_ifs
  · exact hsent
  unfold Prog.when
  split_ifs
  · rw [Prog.bind_snd_of_still]
    · exact hupdate
    · intro answer u
      rcases answer with _ | _ | _ <;> rfl
  · exact hsent

theorem publish_zero_backed {message : OutgoingPublish} (packetId : UInt16)
    (hqos : message.qos = .atMostOnce) :
    (publish env message packetId).Moves (Keeping (Backed contents copy)) := by
  have hnot : ¬ message.qos ≠ .atMostOnce := not_not.mpr hqos
  intro s hs
  rw [publish_eq, Prog.bind_apply, preparePublish_apply]
  cases checkPublish s.context message packetId with
  | error e => exact hs
  | ok size =>
    dsimp only
    rw [registerPublish, Prog.when_bind_of_not hnot, Prog.when_bind_of_not hnot]
    have hdeliver : (deliverPublish env message packetId (partsOf message packetId)).Moves
        (Keeping (Backed contents copy)) := by
      rw [deliverPublish, Prog.when, if_neg hnot]
      exact ((backed_openings h).toRounds.sendVectors _).bind fun _ =>
        (sentWhole_moves _ _).bind fun _ => .pure _
    exact hdeliver s hs

/-- A PUBLISH that was asked for: its copy is the one in the store if it went well, and otherwise it
may be. -/
theorem publish_backed {message : OutgoingPublish} {packetId : UInt16}
    (hqos : message.qos ≠ .atMostOnce) {s : Sys W} (hs : Backed contents copy s) :
    ((publish env message packetId s).1 ≠ .ok () ∧
        Backed contents copy (publish env message packetId s).2) ∨
      Backed contents (replaced copy packetId (copyOf message packetId))
        (publish env message packetId s).2 := by
  rw [publish_eq, Prog.bind_apply, preparePublish_apply]
  cases hcheck : checkPublish s.context message packetId with
  | error e => exact .inl ⟨(fun hok => by cases hok), hs⟩
  | ok size =>
    obtain ⟨hfits, -, -⟩ := publishPacketSize_eq_ok_iff.mp (checkPublish_eq_ok hcheck).1
    dsimp only
    obtain ⟨e, t, hrun, ht⟩ | ⟨t, hrun, hheld, ht⟩ := registerPublish_backed h hfits hqos hs
    · rw [hrun]
      exact .inl ⟨(fun hok => by cases hok), ht⟩
    · rw [hrun]
      apply Or.inr
      apply deliverPublish_backed h ht
      rw [hheld]
      exact Option.some_ne_none _

end Client

def Invocation.publication : Invocation → Option (OutgoingPublish × UInt16)
  | .request (.traffic (.publish message packetId)) =>
    if message.qos = .atMostOnce then none else some (message, packetId)
  | _ => none

/-- The publishes of a run above QoS 0, with their answers. -/
def publications (calls : List (Environment W × Invocation)) (answers : List (Except Stop Unit)) :
    List ((OutgoingPublish × UInt16) × Except Stop Unit) :=
  (calls.zip answers).filterMap fun e => e.1.2.publication.map fun p => (p, e.2)

/-- A message was published under an identifier, and no later one under it went well. -/
def LastUnder (history : List ((OutgoingPublish × UInt16) × Except Stop Unit)) (packetId : UInt16)
    (message : OutgoingPublish) : Prop :=
  ∃ before answer later, history = before ++ ((message, packetId), answer) :: later ∧
    ∀ entry ∈ later, entry.1.2 = packetId → entry.2 ≠ .ok ()

/-- The copies that a history leaves in the store. -/
def copies (history : List ((OutgoingPublish × UInt16) × Except Stop Unit)) (packetId : UInt16)
    (packet : List UInt8) : Prop :=
  ∃ message, LastUnder history packetId message ∧ packet = copyOf message packetId

section History

variable {history : List ((OutgoingPublish × UInt16) × Except Stop Unit)} {packetId : UInt16}
  {message : OutgoingPublish}

theorem LastUnder.concat (h : LastUnder history packetId message)
    {entry : (OutgoingPublish × UInt16) × Except Stop Unit}
    (hentry : entry.1.2 = packetId → entry.2 ≠ .ok ()) :
    LastUnder (history ++ [entry]) packetId message := by
  obtain ⟨before, answer, later, rfl, hlater⟩ := h
  refine ⟨before, answer, later ++ [entry], by simp, ?_⟩
  intro other hother
  rcases List.mem_append.mp hother with hother | hother
  · exact hlater other hother
  · rwa [List.mem_singleton.mp hother]

theorem lastUnder_concat (answer : Except Stop Unit) :
    LastUnder (history ++ [((message, packetId), answer)]) packetId message :=
  ⟨history, answer, [], rfl, fun _ h => absurd h List.not_mem_nil⟩

end History

theorem publications_cons (call : Environment W × Invocation)
    (calls : List (Environment W × Invocation)) (answer : Except Stop Unit)
    (answers : List (Except Stop Unit)) :
    publications (call :: calls) (answer :: answers) =
      (call.2.publication.map fun p => (p, answer)).toList ++ publications calls answers := by
  rw [publications, List.zip_cons_cons, List.filterMap_cons]
  cases call.2.publication <;> rfl

namespace Client

/-- A call that publishes nothing above QoS 0 keeps what the store holds for each message, and one
that does adds its own copy. -/
theorem perform_backed {env : Environment W} {contents : W → UInt32 → Option (List UInt8)}
    (h : KeyValue env contents) {call : Invocation} (hrestores : call.restores = false)
    {history : List ((OutgoingPublish × UInt16) × Except Stop Unit)} {s : Sys W}
    (hs : Backed contents (copies history) s) :
    Backed contents (copies (history ++
        (call.publication.map fun p => (p, (call.perform env s).1)).toList))
      (call.perform env s).2 := by
  cases hpublication : call.publication with
  | none =>
    rw [Option.map_none, Option.toList_none, List.append_nil]
    apply (backed_openings h).invocation (handleIncomingPublish_backed h) hrestores ?_ s hs
    rintro message packetId rfl
    apply publish_zero_backed h
    by_contra hqos
    rw [Invocation.publication, if_neg hqos] at hpublication
    cases hpublication
  | some p =>
    obtain ⟨message, packetId⟩ := p
    obtain ⟨rfl, hqos⟩ : call = .request (.traffic (.publish message packetId)) ∧
        message.qos ≠ .atMostOnce := by
      unfold Invocation.publication at hpublication
      split at hpublication
      · split_ifs at hpublication with hzero
        obtain ⟨rfl, rfl⟩ := Prod.mk.inj (Option.some.inj hpublication)
        exact ⟨rfl, hzero⟩
      · cases hpublication
    rw [Option.map_some, Option.toList_some]
    rcases @publish_backed W env contents _ h message packetId hqos s hs with ⟨hfailed, ht⟩ | ht
    · apply ht.mono
      rintro other packet ⟨message', hlast, hpacket⟩
      exact ⟨message', hlast.concat fun _ => hfailed, hpacket⟩
    · apply ht.mono
      intro other packet hpacket
      unfold replaced at hpacket
      split_ifs at hpacket with hother
      · subst hother
        exact ⟨message, lastUnder_concat _, hpacket⟩
      · obtain ⟨message', hlast, hcopy⟩ := hpacket
        exact ⟨message', hlast.concat fun heq => absurd heq.symm hother, hcopy⟩

theorem run_backed {contents : W → UInt32 → Option (List UInt8)}
    {calls : List (Environment W × Invocation)} (hstore : ∀ call ∈ calls, KeyValue call.1 contents)
    (hcalls : ∀ call ∈ calls, call.2.restores = false)
    {history : List ((OutgoingPublish × UInt16) × Except Stop Unit)} {s : Sys W}
    (hs : Backed contents (copies history) s) :
    Backed contents (copies (history ++ publications calls ((caller W).run calls s).1))
      ((caller W).run calls s).2 := by
  induction calls generalizing s history with
  | nil => rwa [publications, List.zip_nil_left, List.filterMap_nil, List.append_nil]
  | cons call calls ih =>
    rw [List.forall_mem_cons] at hstore hcalls
    have hnext := ih hstore.2 hcalls.2 (perform_backed hstore.1 hcalls.1 hs)
    rw [Machine.run_cons, publications_cons, ← List.append_assoc]
    exact hnext

theorem backed_start {contents : W → UInt32 → Option (List UInt8)} (network : List UInt8)
    {world : W} (hempty : ∀ packetId : UInt16, contents world packetId.toUInt32 = none) :
    Backed contents (copies []) (start network world) := by
  constructor
  · intro r hr
    cases hr
  · intro packetId hmem
    cases hmem
  · intro packetId packet hp
    cases (hempty packetId).symm.trans hp

/-- In every run of any calls with a store that is a table and holds no message at first, for every
message that went out and was not acknowledged the store holds its PUBLISH with the DUP flag set:
that of the last publish under its identifier that went well, or of a later one under it. And under
the key of a message there is never anything else. -/
theorem unacknowledged_stored {contents : W → UInt32 → Option (List UInt8)}
    {calls : List (Environment W × Invocation)} (hstore : ∀ call ∈ calls, KeyValue call.1 contents)
    (hcalls : ∀ call ∈ calls, call.2.restores = false) (network : List UInt8) {world : W}
    (hempty : ∀ packetId : UInt16, contents world packetId.toUInt32 = none) :
    (∀ packetId ∈ unacknowledged (afterAll (start network world) calls).context.outgoing,
      ∃ message,
        LastUnder (publications calls ((caller W).run calls (start network world)).1) packetId
          message ∧
        contents (afterAll (start network world) calls).world packetId.toUInt32 =
          some (publishPacket { message with dup := true } packetId)) ∧
      ∀ (packetId : UInt16) (packet : List UInt8),
        contents (afterAll (start network world) calls).world packetId.toUInt32 = some packet →
        ∃ message,
          LastUnder (publications calls ((caller W).run calls (start network world)).1) packetId
            message ∧
          packet = publishPacket { message with dup := true } packetId := by
  have hlast := run_backed hstore hcalls (backed_start network hempty)
  rw [List.nil_append] at hlast
  refine ⟨fun packetId hmem => ?_, fun packetId packet hp => hlast.copied packetId packet hp⟩
  obtain ⟨packet, hpacket⟩ := Option.ne_none_iff_exists'.mp (hlast.held packetId hmem)
  obtain ⟨message, hunder, rfl⟩ := hlast.copied packetId packet hpacket
  exact ⟨message, hunder, hpacket⟩

def scriptContents (w : Script) (key : UInt32) : Option (List UInt8) :=
  (w.kept.find? (·.1 = key)).map (·.2)

theorem find?_filter_ne (kept : List (UInt32 × List UInt8)) (key other : UInt32) :
    (kept.filter (·.1 ≠ key)).find? (·.1 = other) =
      if other = key then none else kept.find? (·.1 = other) := by
  rw [List.find?_filter]
  split_ifs with hother
  · subst hother
    rw [List.find?_eq_none]
    simp
  · congr 1
    funext entry
    by_cases hentry : entry.1 = other <;> simp [hentry, hother]

theorem keyValue_script : KeyValue (Script.environment true) scriptContents where
  storing := rfl
  clock _ := rfl
  recv into w := by
    obtain ⟨reads, sends, kept, answers⟩ := w
    cases reads <;> rfl
  send bytes w := by
    obtain ⟨reads, sends, kept, answers⟩ := w
    cases sends <;> rfl
  writev parts w := by
    obtain ⟨reads, sends, kept, answers⟩ := w
    cases sends <;> rfl
  event _ _ w := by
    obtain ⟨reads, sends, kept, answers⟩ := w
    cases answers <;> rfl
  retrieve _ _ := rfl
  returned _ _ := rfl
  accepted key parts w _ := by
    funext other
    rw [Function.update_apply]
    simp only [scriptContents, Script.environment, List.find?_cons, find?_filter_ne]
    by_cases hother : other = key
    · simp [hother]
    · simp [hother, Ne.symm hother]
  refused _ _ _ h := by cases h
  clear key w := by
    funext other
    rw [Function.update_apply]
    simp only [scriptContents, Script.environment, find?_filter_ne]
    split_ifs <;> rfl

/-- A message that goes out, and one whose transport fails. -/
def twoPublished : List (Environment Script × Invocation) :=
  let env := Script.environment true
  let publish (packetId : UInt16) (byte : UInt8) : Environment Script × Invocation :=
    (env, .request (.traffic (.publish
      { dup := false, qos := .exactlyOnce, retain := false, topicName := [97], payload := [byte],
        properties := [] } packetId)))
  [(env, .request (.enableQos (List.replicate 2 Record.default) [] [])),
    (env, .request (.connect (Script.connect true []) 0)), publish 1 10, publish 2 20]

def failsLater : Script where
  reads := [Script.connack false []]
  sends := [.bytes 64, .bytes 64, .failed]

/-- The first awaits its PUBREC, and its copy can be read back. -/
theorem twoPublished_stored :
    unacknowledged (afterAll (start (List.replicate 64 0) failsLater) twoPublished).context.outgoing =
      [1] ∧ ∃ message,
      LastUnder (publications twoPublished
        ((caller Script).run twoPublished (start (List.replicate 64 0) failsLater)).1) 1 message ∧
      scriptContents (afterAll (start (List.replicate 64 0) failsLater) twoPublished).world
        (1 : UInt16).toUInt32 = some (publishPacket { message with dup := true } 1) := by
  have hstore : ∀ call ∈ twoPublished, KeyValue call.1 scriptContents := by
    rintro call (_ | ⟨_, _ | ⟨_, _ | ⟨_, _ | ⟨_, _ | _⟩⟩⟩⟩) <;> exact keyValue_script
  have hcalls : ∀ call ∈ twoPublished, call.2.restores = false := by decide +kernel
  have hawaits : unacknowledged
      (afterAll (start (List.replicate 64 0) failsLater) twoPublished).context.outgoing = [1] := by
    decide +kernel
  refine ⟨hawaits, (unacknowledged_stored hstore hcalls _ fun _ => rfl).1 1 ?_⟩
  rw [hawaits]
  exact List.mem_cons_self

end Client

end RtosMqtt
