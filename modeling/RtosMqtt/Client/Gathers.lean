import RtosMqtt.Client.Course
import RtosMqtt.Wire.Serializers

/-! # The gathers of a list

The filters of a SUBSCRIBE or an UNSUBSCRIBE go out in consecutive blocks, one block a
gather. No gather overflows and every gather but the first takes a filter, so the loop
ends with the list, and the gathers one behind the other are the packet that the buffer
serializer writes.
-/

namespace RtosMqtt

theorem length_topicParts_le (which : SubscriptionType) (entry : Subscription) :
    (topicParts which entry).length ≤ perTopic which := by
  unfold topicParts
  cases which with
  | subscribe => split_ifs <;> simp [perTopic]
  | unsubscribe => split_ifs with _ hwhich hwhich <;> first | cases hwhich | simp [perTopic]

theorem topicParts_ne_nil (which : SubscriptionType) (entry : Subscription) :
    topicParts which entry ≠ [] := by
  rw [topicParts, List.append_assoc]
  exact List.cons_ne_nil _ _

theorem flatten_topicParts (which : SubscriptionType) (entry : Subscription) :
    (topicParts which entry).flatten = filterBytes which entry := by
  unfold topicParts filterBytes prefixed
  split_ifs with hempty hwhich hwhich <;> simp [hempty]

theorem flatten_flatMap_topicParts (which : SubscriptionType) (entries : List Subscription) :
    (entries.flatMap (topicParts which)).flatten = entries.flatMap (filterBytes which) := by
  induction entries with
  | nil => rfl
  | cons entry entries ih =>
    rw [List.flatMap_cons, List.flatMap_cons, List.flatten_append, flatten_topicParts, ih]

theorem takeTopics_spec {which : SubscriptionType} {used taken : ℕ} {list : List Subscription}
    (hused : used ≤ maxVectors)
    (hshort : ∀ entry ∈ list, entry.topicFilter.length ≤ u16Max) :
    ∃ count, takeTopics which used taken list = .ok (taken + count) ∧ count ≤ list.length ∧
      used + ((list.take count).flatMap (topicParts which)).length ≤ maxVectors ∧
      (used ≤ maxVectors - perTopic which → taken < maxVectors → list ≠ [] → 0 < count) := by
  have hstop : used + ((list.take 0).flatMap (topicParts which)).length ≤ maxVectors := hused
  induction list generalizing used taken with
  | nil => exact ⟨0, rfl, le_rfl, hstop, fun _ _ hsome => absurd rfl hsome⟩
  | cons entry list ih =>
    rw [List.forall_mem_cons] at hshort
    rw [takeTopics]
    by_cases hfull : maxVectors - perTopic which < used
    · rw [if_pos hfull]
      exact ⟨0, rfl, Nat.zero_le _, hstop, fun hroom => absurd hfull (Nat.not_lt.mpr hroom)⟩
    rw [if_neg hfull, if_neg (Nat.not_lt.mpr hshort.1)]
    by_cases hfields : maxVectors ≤ taken
    · rw [if_pos hfields]
      exact ⟨0, rfl, Nat.zero_le _, hstop, fun _ hroom => absurd hfields (Nat.not_le.mpr hroom)⟩
    have hparts := length_topicParts_le which entry
    have hfits : used + (topicParts which entry).length ≤ maxVectors := by
      have hsmall : perTopic which ≤ maxVectors := by cases which <;> decide
      omega
    obtain ⟨count, hcount, hle, hvectors, -⟩ := ih hfits hshort.2 hfits
    refine ⟨count + 1, ?_, Nat.succ_le_succ hle, ?_, fun _ _ _ => Nat.succ_pos _⟩
    · rw [if_neg hfields, hcount, Nat.add_assoc, Nat.add_comm 1]
    · rw [List.take_succ_cons, List.flatMap_cons, List.length_append, ← Nat.add_assoc]
      exact hvectors

def Gather.whole (parts : List (List UInt8)) : Gather :=
  { parts, wanted := parts.length, total := parts.flatten.length }

theorem gather_eq_whole {which : SubscriptionType} {carried : List (List UInt8)}
    {entries : List Subscription}
    (h : (carried ++ entries.flatMap (topicParts which)).length ≤ maxVectors) :
    gather which carried carried.flatten.length entries =
      .whole (carried ++ entries.flatMap (topicParts which)) := by
  obtain ⟨hparts, hwanted, htotal⟩ := gather_holds which carried entries
  rw [List.take_of_length_le h] at hparts
  generalize gather which carried carried.flatten.length entries = g at hparts hwanted htotal
  cases g
  cases hparts
  cases hwanted
  cases htotal
  rfl

theorem flatMap_topicParts_ne_nil {which : SubscriptionType} {block : List Subscription}
    (h : block ≠ []) : block.flatMap (topicParts which) ≠ [] := by
  obtain ⟨entry, rest, rfl⟩ := List.exists_cons_of_ne_nil h
  rw [List.flatMap_cons]
  exact List.append_ne_nil_of_left_ne_nil (topicParts_ne_nil which entry) _

namespace Client

variable {W : Type} (env : Environment W)

/-- Nothing follows a gather that did not go out whole. -/
def sendGathers : List Gather → Client W Unit
  | [] => pure ()
  | g :: gathers => do
    let outcome ← sendVectors env g.parts
    sentWhole g.total outcome
    sendGathers gathers

theorem sendListFrom_turn (which : SubscriptionType) (turns : ℕ) {carried : List (List UInt8)}
    {list : List Subscription} (hcarried : carried.length ≤ maxVectors)
    (hshort : ∀ entry ∈ list, entry.topicFilter.length ≤ u16Max) :
    ∃ block rest, list = block ++ rest ∧
      (carried ++ block.flatMap (topicParts which)).length ≤ maxVectors ∧
      (carried = [] → list ≠ [] → block ≠ []) ∧
      sendListFrom env which (turns + 1) carried carried.flatten.length list = (do
        let outcome ← sendVectors env (carried ++ block.flatMap (topicParts which))
        sentWhole (carried ++ block.flatMap (topicParts which)).flatten.length outcome
        if rest = [] then pure () else sendListFrom env which turns [] 0 rest) := by
  obtain ⟨count, htake, hle, hfits, hsome⟩ := takeTopics_spec hcarried hshort
  rw [Nat.zero_add] at htake
  have hroom : (carried ++ (list.take count).flatMap (topicParts which)).length ≤ maxVectors := by
    rwa [List.length_append]
  refine ⟨list.take count, list.drop count, (List.take_append_drop _ _).symm, hroom, ?_, ?_⟩
  · rintro rfl hlist htaken
    have hpos := hsome (Nat.zero_le _) (by decide) hlist
    rw [List.take_eq_nil_iff] at htaken
    exact htaken.elim hpos.ne' hlist
  · have hwhole : ¬ (gather which carried carried.flatten.length (list.take count)).wanted ≠
        (gather which carried carried.flatten.length (list.take count)).parts.length := by
      rw [gather_eq_whole hroom]
      exact not_not.mpr rfl
    rw [sendListFrom, check_bind_of_ok htake]
    dsimp only
    rw [Client.refuse, Prog.refuse_bind_of_not hwhole, gather_eq_whole hroom]
    rfl

variable {env}

/-- After the first gather each takes a filter, so there are no more of them than filters. -/
theorem sendListFrom_rest {which : SubscriptionType} {turns : ℕ} {list : List Subscription}
    (hlist : list ≠ []) (hturns : list.length ≤ turns)
    (hshort : ∀ entry ∈ list, entry.topicFilter.length ≤ u16Max) :
    ∃ blocks : List (List Subscription), list = blocks.flatten ∧
      (∀ block ∈ blocks, block ≠ [] ∧ (block.flatMap (topicParts which)).length ≤ maxVectors) ∧
      sendListFrom env which turns [] 0 list =
        sendGathers env (blocks.map fun block => .whole (block.flatMap (topicParts which))) := by
  induction turns generalizing list with
  | zero => exact absurd (List.length_eq_zero_iff.mp (Nat.le_zero.mp hturns)) hlist
  | succ turns ih =>
    have hnone : ([] : List (List UInt8)).length ≤ maxVectors := Nat.zero_le _
    obtain ⟨block, rest, rfl, hfits, hsome, hturn⟩ :=
      sendListFrom_turn env which turns hnone hshort
    have hblock := hsome rfl hlist
    by_cases hrest : rest = []
    · subst hrest
      refine ⟨[block], ?_, ?_, ?_⟩
      · rw [List.flatten_singleton, List.append_nil]
      · rw [List.forall_mem_singleton]
        exact ⟨hblock, hfits⟩
      · exact hturn
    · have hshorter : rest.length ≤ turns := by
        have hpos := List.length_pos_of_ne_nil hblock
        rw [List.length_append] at hturns
        omega
      obtain ⟨blocks, rfl, hblocks, hafter⟩ := ih hrest hshorter
        (fun entry hmem => hshort entry (List.mem_append_right block hmem))
      refine ⟨block :: blocks, List.flatten_cons.symm, ?_, ?_⟩
      · rw [List.forall_mem_cons]
        exact ⟨⟨hblock, hfits⟩, hblocks⟩
      · rw [if_neg hrest, hafter] at hturn
        exact hturn

/-- A list goes out in gathers of at most four vectors, each filter in one of them, behind its
header. -/
structure Gathered (which : SubscriptionType) (front : List (List UInt8))
    (list : List Subscription) (gathers : List Gather) : Prop where
  vectors : ∀ g ∈ gathers, 1 ≤ g.parts.length ∧ g.parts.length ≤ maxVectors
  total : ∀ g ∈ gathers, g.total = g.parts.flatten.length
  filters : ∃ (first : List Subscription) (rest : List (List Subscription)),
    list = first ++ rest.flatten ∧ gathers.map (·.parts) = (front ++ first.flatMap (topicParts which)) ::
      rest.map (·.flatMap (topicParts which))

theorem Gathered.flatten_eq {which : SubscriptionType} {front : List (List UInt8)}
    {list : List Subscription} {gathers : List Gather} (h : Gathered which front list gathers) :
    (gathers.flatMap (·.parts)).flatten = front.flatten ++ list.flatMap (filterBytes which) := by
  obtain ⟨first, rest, rfl, hparts⟩ := h.filters
  have hrest : (rest.map (·.flatMap (topicParts which))).flatten =
      rest.flatten.flatMap (topicParts which) := by
    rw [List.flatMap_def, List.map_flatten, List.flatten_flatten, List.map_map]
    rfl
  rw [List.flatMap_def, hparts, List.flatten_cons, hrest, List.append_assoc,
    ← List.flatMap_append, List.flatten_append, flatten_flatMap_topicParts]

theorem sendListFrom_gathered {which : SubscriptionType} {front : List (List UInt8)}
    {list : List Subscription} (hfront : front ≠ []) (hfits : front.length ≤ maxVectors)
    (hshort : ∀ entry ∈ list, entry.topicFilter.length ≤ u16Max) :
    ∃ gathers, Gathered which front list gathers ∧
      sendListFrom env which (list.length + 1) front front.flatten.length list =
        sendGathers env gathers := by
  obtain ⟨first, rest, rfl, hfirst, -, hturn⟩ :=
    sendListFrom_turn env which (list.length) hfits hshort
  have hsome : 1 ≤ (front ++ first.flatMap (topicParts which)).length := by
    rw [List.length_append]
    have := List.length_pos_of_ne_nil hfront
    omega
  by_cases hrest : rest = []
  · subst hrest
    refine ⟨[.whole (front ++ first.flatMap (topicParts which))], ⟨?_, ?_, first, [], rfl, rfl⟩,
      hturn⟩
    · rw [List.forall_mem_singleton]
      exact ⟨hsome, hfirst⟩
    · rw [List.forall_mem_singleton]
      rfl
  · have hturns : rest.length ≤ (first ++ rest).length := by
      rw [List.length_append]
      omega
    obtain ⟨blocks, rfl, hblocks, hafter⟩ := sendListFrom_rest hrest hturns
      (fun entry hmem => hshort entry (List.mem_append_right first hmem))
    refine ⟨.whole (front ++ first.flatMap (topicParts which)) ::
      blocks.map fun block => .whole (block.flatMap (topicParts which)),
      ⟨?_, ?_, first, blocks, rfl, ?_⟩, ?_⟩
    · rw [List.forall_mem_cons, List.forall_mem_map]
      refine ⟨⟨hsome, hfirst⟩, ?_⟩
      intro block hmem
      obtain ⟨hblock, hfits⟩ := hblocks block hmem
      exact ⟨List.length_pos_of_ne_nil (flatMap_topicParts_ne_nil hblock), hfits⟩
    · rw [List.forall_mem_cons, List.forall_mem_map]
      exact ⟨rfl, fun _ _ => rfl⟩
    · rw [List.map_cons, List.map_map]
      rfl
    · rw [if_neg hrest, hafter] at hturn
      exact hturn

/-- A list is refused before anything is sent, or goes out in gathers. -/
theorem sendList_gathered (list : List Subscription) (packetId : UInt16) (properties : List UInt8)
    (which : SubscriptionType) (s : Sys W) :
    Refuses (sendList env list packetId properties which) s ∨
      ∃ size gathers, listPacketSize which (filterLengths list) properties.length
          s.context.properties.server.maxPacketSize = .ok size ∧
        Gathered which (listFront which size.remainingLength packetId properties) list gathers ∧
        sendList env list packetId properties which s = sendGathers env gathers s := by
  rw [Refuses, sendList, Prog.bind_of_ok (context_apply s)]
  rcases (checks_check _ _).bind_cases _ s with hrefused | ⟨_, -, heq⟩
  · exact .inl hrefused
  rw [heq]
  rcases (Checks.when (c := properties ≠ []) (checks_check _ _)).bind_cases _ s with hrefused | ⟨_, -, heq⟩
  · exact .inl hrefused
  rw [heq]
  rcases (checks_refuse (u32Max < properties.length) _).bind_cases _ s with hrefused | ⟨_, -, heq⟩
  · exact .inl hrefused
  rw [heq]
  rcases (checks_check _ _).bind_cases _ s with hrefused | ⟨size, hsize, heq⟩
  · exact .inl hrefused
  rw [heq]
  rcases checks_connected.bind_cases _ s with hrefused | ⟨_, -, heq⟩
  · exact .inl hrefused
  rw [heq]
  obtain ⟨hsize, -⟩ := check_eq_ok.mp hsize
  have hshort := (listPacketSize_eq_ok hsize).2.2.2.2
  rw [List.forall_mem_map] at hshort
  have hfront : listFront which size.remainingLength packetId properties ≠ [] :=
    List.cons_ne_nil _ _
  have hfits : (listFront which size.remainingLength packetId properties).length ≤ maxVectors := by
    unfold listFront
    split_ifs <;> simp [maxVectors]
  obtain ⟨gathers, hgathered, hsends⟩ := sendListFrom_gathered hfront hfits hshort
  refine .inr ⟨size, gathers, hsize, hgathered, ?_⟩
  rw [sendListFrom_front env hsize, hsends]

/-- The loop over a list ends, whatever the transport does: a list is refused with nothing offered,
or goes out in gathers of at most four vectors, each with its length, that take the filters apart
and are the packet of the serializer one behind the other. -/
theorem gathers_serialized (env : Environment W) (list : List Subscription) (packetId : UInt16)
    (properties : List UInt8) (s : Sys W) :
    (Refuses (subscribe env list packetId properties) s ∨ ∃ size gathers,
      listPacketSize .subscribe (filterLengths list) properties.length
        s.context.properties.server.maxPacketSize = .ok size ∧
      subscribe env list packetId properties s = sendGathers env gathers s ∧
      Gathered .subscribe (listFront .subscribe size.remainingLength packetId properties) list
        gathers ∧
      ∀ destination written out,
        serializeSubscribe list properties packetId size.remainingLength destination =
          (.ok written, out) → (gathers.flatMap (·.parts)).flatten = out.take written) ∧
    (Refuses (unsubscribe env list packetId properties) s ∨ ∃ size gathers,
      listPacketSize .unsubscribe (filterLengths list) properties.length
        s.context.properties.server.maxPacketSize = .ok size ∧
      unsubscribe env list packetId properties s = sendGathers env gathers s ∧
      Gathered .unsubscribe (listFront .unsubscribe size.remainingLength packetId properties) list
        gathers ∧
      ∀ destination written out,
        serializeUnsubscribe list properties packetId size.remainingLength destination =
          (.ok written, out) → (gathers.flatMap (·.parts)).flatten = out.take written) := by
  have hboth (which : SubscriptionType) : Refuses (sendList env list packetId properties which) s ∨
      ∃ size gathers, listPacketSize which (filterLengths list) properties.length
        s.context.properties.server.maxPacketSize = .ok size ∧
      sendList env list packetId properties which s = sendGathers env gathers s ∧
      Gathered which (listFront which size.remainingLength packetId properties) list gathers ∧
      ∀ destination written out, serializeList which (listPacketType which) list properties packetId
          size.remainingLength destination = (.ok written, out) →
        (gathers.flatMap (·.parts)).flatten = out.take written := by
    rcases sendList_gathered list packetId properties which s with
      hrefused | ⟨size, gathers, hsize, hgathered, hsends⟩
    · exact .inl hrefused
    refine .inr ⟨size, gathers, hsize, hsends, hgathered, ?_⟩
    intro destination written out hwritten
    have hguarded := guarded_of_listPacketSize (listPacketType which) packetId hsize
    rw [hgathered.flatten_eq, hguarded.take_eq hwritten, flatten_listFront, listPacket,
      (listPacketSize_eq_ok_iff.mp hsize).2.2.2, List.append_assoc]
    rfl
  exact ⟨hboth .subscribe, hboth .unsubscribe⟩

end Client

end RtosMqtt
