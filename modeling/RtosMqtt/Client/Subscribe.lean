import RtosMqtt.Client.Requests
import RtosMqtt.Wire.Whole

/-! # Subscribing and unsubscribing

A list of topic filters goes out as one packet in several gathers. A gather holds
four vectors and a filter takes two of them, or three with its options, so the
header of a SUBSCRIBE goes out alone and each filter after it in a gather of its
own.
-/

namespace RtosMqtt

namespace MqttContext

def isWildcard (byte : UInt8) : Bool := byte == 0x23 || byte == 0x2B

def wildcardsForbidden (c : MqttContext) (filter : List UInt8) : Bool :=
  c.properties.server.wildcardAvailable == 0 && filter.any isWildcard

def sharePrefix : List UInt8 := [0x24, 0x73, 0x68, 0x61, 0x72, 0x65, 0x2F]

/-- A filter of exactly the prefix is not a shared subscription. -/
def validateShared (c : MqttContext) (entry : Subscription) : Except ClientError Unit :=
  let filter := entry.topicFilter
  if filter.length ≤ sharePrefix.length ∨ ¬ sharePrefix.isPrefixOf filter then .ok ()
  else
    let rest := filter.drop sharePrefix.length
    match rest.findIdx? (· == 0x2F) with
    | none => .error .badParameter
    | some stop => do
      refuseIf (stop = 0) .badParameter
      refuseIf (entry.noLocal = true) .badParameter
      refuseIf (c.properties.server.sharedAvailable = 0) .badParameter
      refuseIf (sharePrefix.length + stop = filter.length - 1) .badParameter
      refuseIf ((rest.take stop).any isWildcard = true) .badParameter

def validateOne (c : MqttContext) (which : SubscriptionType) (entry : Subscription) :
    Except ClientError Unit := do
  refuseIf (entry.topicFilter = []) .badParameter
  refuseIf (u16Max < entry.topicFilter.length) .badParameter
  if which = .unsubscribe then pure ()
  else do
    refuseIf (c.wildcardsForbidden entry.topicFilter = true) .badParameter
    c.validateShared entry

/-- The answer is the last entry's. -/
def validateSubscriptions (c : MqttContext) (list : List Subscription) (packetId : UInt16)
    (which : SubscriptionType) : Except ClientError Unit := do
  refuseIf (list = [] ∨ packetId = 0) .badParameter
  refuseIf (c.incoming.length = 0 ∧ list.any (·.qos ≠ .atMostOnce) = true) .badParameter
  list.foldl (fun _ entry => c.validateOne which entry) (.ok ())

end MqttContext

def maxVectors : ℕ := 4

def perTopic : SubscriptionType → ℕ
  | .subscribe => 3
  | .unsubscribe => 2

/-- A filter after its length, and before its options. -/
def topicParts (which : SubscriptionType) (entry : Subscription) : List (List UInt8) :=
  [toBeBytes16 entry.topicFilter.length.toUInt16] ++
    (if entry.topicFilter = [] then [] else [entry.topicFilter]) ++
    if which = .subscribe then [[subscriptionOptions entry]] else []

/-- How many entries fit the gather that holds `used` vectors. -/
def takeTopics (which : SubscriptionType) :
    (used taken : ℕ) → List Subscription → Except ClientError ℕ
  | _, taken, [] => .ok taken
  | used, taken, entry :: list =>
    if maxVectors - perTopic which < used then .ok taken
    else if u16Max < entry.topicFilter.length then .error .badParameter
    else if maxVectors ≤ taken then .ok taken
    else takeTopics which (used + (topicParts which entry).length) (taken + 1) list

/-- The array of vectors of one gather, how many vectors it wanted, and the bytes it expects to
send. -/
structure Gather where
  parts : List (List UInt8) := []
  wanted : ℕ := 0
  total : ℕ := 0
  deriving DecidableEq, Repr

namespace Gather

/-- A vector past the array is counted and left out. -/
def push (g : Gather) (part : List UInt8) : Gather :=
  { g with
    parts := if g.parts.length < maxVectors then g.parts ++ [part] else g.parts
    wanted := g.wanted + 1 }

def expect (g : Gather) (bytes : ℕ) : Gather := { g with total := g.total + bytes }

def addTopic (which : SubscriptionType) (g : Gather) (entry : Subscription) : Gather :=
  let g := (g.push (toBeBytes16 entry.topicFilter.length.toUInt16)).expect 2
  let g :=
    if entry.topicFilter = [] then g
    else (g.push entry.topicFilter).expect entry.topicFilter.length
  if which = .subscribe then (g.push [subscriptionOptions entry]).expect 1 else g

end Gather

/-- What is carried into a gather goes in front of its entries. -/
def gather (which : SubscriptionType) (carried : List (List UInt8)) (carriedBytes : ℕ)
    (entries : List Subscription) : Gather :=
  entries.foldl (Gather.addTopic which)
    { carried.foldl Gather.push {} with total := carriedBytes }

/-- A gather wanted certain vectors, holds as many as fit, and expects to send them all. -/
structure Gather.Holds (g : Gather) (parts : List (List UInt8)) : Prop where
  parts_eq : g.parts = parts.take maxVectors
  wanted_eq : g.wanted = parts.length
  total_eq : g.total = parts.flatten.length

namespace Gather

variable {g : Gather} {parts : List (List UInt8)}

theorem parts_push (h : g.parts = parts.take maxVectors) (part : List UInt8) :
    (g.push part).parts = (parts ++ [part]).take maxVectors := by
  rw [push, h]
  dsimp only
  rw [List.length_take]
  split_ifs with hroom
  · rw [List.take_of_length_le (by omega),
      List.take_of_length_le (by rw [List.length_append, List.length_singleton]; omega)]
  · rw [List.take_append_of_le_length (by omega)]

theorem Holds.push (h : g.Holds parts) {part : List UInt8} {bytes : ℕ} (hbytes : part.length = bytes) :
    ((g.push part).expect bytes).Holds (parts ++ [part]) := by
  constructor
  · exact parts_push h.parts_eq part
  · rw [List.length_append, List.length_singleton, ← h.wanted_eq]
    rfl
  · rw [List.flatten_append, List.length_append, List.flatten_singleton, hbytes, ← h.total_eq]
    rfl

theorem Holds.addTopic (h : g.Holds parts) (which : SubscriptionType) (entry : Subscription) :
    (g.addTopic which entry).Holds (parts ++ topicParts which entry) := by
  have hfield := h.push (rfl : (toBeBytes16 entry.topicFilter.length.toUInt16).length = 2)
  have hfilter : (if entry.topicFilter = [] then
      (g.push (toBeBytes16 entry.topicFilter.length.toUInt16)).expect 2
      else (((g.push (toBeBytes16 entry.topicFilter.length.toUInt16)).expect 2).push
        entry.topicFilter).expect entry.topicFilter.length).Holds
      (parts ++ [toBeBytes16 entry.topicFilter.length.toUInt16] ++
        if entry.topicFilter = [] then [] else [entry.topicFilter]) := by
    split_ifs
    · rwa [List.append_nil]
    · exact hfield.push rfl
  rw [topicParts, ← List.append_assoc, ← List.append_assoc]
  unfold Gather.addTopic
  dsimp only
  split_ifs at hfilter ⊢
  all_goals first | exact hfilter.push rfl | rwa [List.append_nil]

theorem Holds.addTopics (h : g.Holds parts) (which : SubscriptionType)
    (entries : List Subscription) :
    (entries.foldl (Gather.addTopic which) g).Holds (parts ++ entries.flatMap (topicParts which)) := by
  induction entries generalizing g parts with
  | nil => rwa [List.flatMap_nil, List.append_nil]
  | cons entry entries ih =>
    rw [List.foldl_cons, List.flatMap_cons, ← List.append_assoc]
    exact ih (h.addTopic which entry)

theorem parts_pushAll (hparts : g.parts = parts.take maxVectors) (hwanted : g.wanted = parts.length)
    (carried : List (List UInt8)) :
    (carried.foldl push g).parts = (parts ++ carried).take maxVectors ∧
      (carried.foldl push g).wanted = (parts ++ carried).length := by
  induction carried generalizing g parts with
  | nil =>
    rw [List.append_nil]
    exact ⟨hparts, hwanted⟩
  | cons part carried ih =>
    have hpushed : (g.push part).wanted = (parts ++ [part]).length := by
      rw [List.length_append, List.length_singleton, ← hwanted]
      rfl
    have hall := ih (parts_push hparts part) hpushed
    rw [List.append_assoc] at hall
    exact hall

end Gather

theorem gather_holds (which : SubscriptionType) (carried : List (List UInt8))
    (entries : List Subscription) :
    (gather which carried carried.flatten.length entries).Holds
      (carried ++ entries.flatMap (topicParts which)) := by
  have hcarried : Gather.Holds { carried.foldl Gather.push {} with
      total := carried.flatten.length } carried := by
    have hpushed : (carried.foldl Gather.push {}).parts = ([] ++ carried).take maxVectors ∧
        (carried.foldl Gather.push {}).wanted = ([] ++ carried).length :=
      Gather.parts_pushAll rfl rfl carried
    exact ⟨hpushed.1, hpushed.2, rfl⟩
  exact hcarried.addTopics which entries

namespace Client

variable {W : Type} (env : Environment W)

/-- One gather a turn; every gather but the first takes an entry. -/
def sendListFrom (which : SubscriptionType) :
    (turns : ℕ) → (carried : List (List UInt8)) → (carriedBytes : ℕ) → List Subscription →
      Client W Unit
  | 0, _, _, _ => Prog.throw .blocked
  | turns + 1, carried, carriedBytes, list => do
    let taken ← check id (takeTopics which carried.length 0 list)
    let g := gather which carried carriedBytes (list.take taken)
    refuse (g.wanted ≠ g.parts.length) .sendFailed
    let outcome ← sendVectors env g.parts
    sentWhole g.total outcome
    if list.drop taken = [] then pure () else sendListFrom which turns [] 0 (list.drop taken)

/-- A gather that does not overflow sends what is carried and the parts of its entries. -/
theorem sendListFrom_succ (which : SubscriptionType) (turns : ℕ) (carried : List (List UInt8))
    (list : List Subscription) :
    sendListFrom env which (turns + 1) carried carried.flatten.length list = (do
      let taken ← check id (takeTopics which carried.length 0 list)
      refuse (maxVectors < (carried ++ (list.take taken).flatMap (topicParts which)).length)
        .sendFailed
      let outcome ← sendVectors env (carried ++ (list.take taken).flatMap (topicParts which))
      sentWhole (carried ++ (list.take taken).flatMap (topicParts which)).flatten.length outcome
      if list.drop taken = [] then pure ()
      else sendListFrom env which turns [] 0 (list.drop taken)) := by
  rw [sendListFrom]
  congr 1
  funext taken
  have hholds := gather_holds which carried (list.take taken)
  generalize carried ++ (list.take taken).flatMap (topicParts which) = parts at hholds ⊢
  generalize gather which carried carried.flatten.length (list.take taken) = g at hholds ⊢
  by_cases hfits : maxVectors < parts.length
  · have hrefused : g.wanted ≠ g.parts.length := by
      rw [hholds.wanted_eq, hholds.parts_eq, List.length_take]
      omega
    funext s
    rw [Client.refuse, Client.refuse, Prog.refuse_bind_apply, Prog.refuse_bind_apply,
      if_pos hrefused, if_pos hfits]
  · have hparts : g.parts = parts := by
      rw [hholds.parts_eq, List.take_of_length_le (Nat.not_lt.mp hfits)]
    have hwanted : ¬ g.wanted ≠ g.parts.length := by
      rw [hparts, hholds.wanted_eq]
      exact not_not.mpr rfl
    dsimp only
    rw [Client.refuse, Client.refuse, Prog.refuse_bind_of_not hwanted,
      Prog.refuse_bind_of_not hfits, hparts, hholds.total_eq]

def listPacketType : SubscriptionType → UInt8
  | .subscribe => Packet.subscribe
  | .unsubscribe => Packet.unsubscribe

def validateListProperties (c : MqttContext) (properties : List UInt8) :
    SubscriptionType → Except ParseError Unit
  | .subscribe =>
    validateSubscribeProperties (c.properties.server.subscriptionIdAvailable != 0) properties
  | .unsubscribe => validateUnsubscribeProperties properties

def sendList (list : List Subscription) (packetId : UInt16) (properties : List UInt8)
    (which : SubscriptionType) : Client W Unit := do
  let c ← context
  check id (c.validateSubscriptions list packetId which)
  Prog.when (properties ≠ [])
    (check (fun _ => .badParameter) (validateListProperties c properties which))
  refuse (u32Max < properties.length) .badParameter
  let size ← check (fun _ => .badParameter) (listPacketSize which
    (list.map (·.topicFilter.length)) properties.length c.properties.server.maxPacketSize)
  connected
  let fixed := serializeIdHeader (List.replicate 7 0) (listPacketType which) size.remainingLength
    packetId
  refuse (fixed.1 = 0) .sendFailed
  let length := encodeVariableLength (List.replicate 4 0) properties.length
  sendListFrom env which (list.length + 1)
    ([fixed.2.take fixed.1, length.2.take length.1] ++ if properties = [] then [] else [properties])
    (fixed.1 + length.1 + if properties = [] then 0 else properties.length) list

def listFront (which : SubscriptionType) (n : ℕ) (packetId : UInt16) (properties : List UInt8) :
    List (List UInt8) :=
  [listHead (listPacketType which) n packetId, encodedLength properties.length] ++
    if properties = [] then [] else [properties]

theorem flatten_listFront (which : SubscriptionType) (n : ℕ) (packetId : UInt16)
    (properties : List UInt8) : (listFront which n packetId properties).flatten =
      listHead (listPacketType which) n packetId ++ sized properties := by
  have hsection : (if properties = [] then [] else [properties]).flatten = properties := by
    split_ifs with hnil
    · exact hnil.symm
    · exact List.flatten_singleton
  rw [listFront, List.flatten_append, hsection, List.flatten_cons, List.flatten_singleton,
    List.append_assoc, sized]

/-- Both lengths of a list that has a size are written whole. -/
theorem sendListFrom_front {which : SubscriptionType} {lengths : List ℕ} {properties : List UInt8}
    {maxPacketSize : ℕ} {size : PacketSize}
    (h : listPacketSize which lengths properties.length maxPacketSize = .ok size)
    (packetId : UInt16) (turns : ℕ) (list : List Subscription) :
    (do
      let fixed := serializeIdHeader (List.replicate 7 0) (listPacketType which)
        size.remainingLength packetId
      refuse (fixed.1 = 0) .sendFailed
      let length := encodeVariableLength (List.replicate 4 0) properties.length
      sendListFrom env which turns
        ([fixed.2.take fixed.1, length.2.take length.1] ++
          if properties = [] then [] else [properties])
        (fixed.1 + length.1 + if properties = [] then 0 else properties.length) list) =
      sendListFrom env which turns (listFront which size.remainingLength packetId properties)
        (listFront which size.remainingLength packetId properties).flatten.length list := by
  obtain ⟨hproperties, hremaining, -⟩ := listPacketSize_eq_ok h
  obtain ⟨hhead, htaken⟩ := serializeIdHeader_spec (listPacketType which) packetId hremaining
  obtain ⟨hwidth, hdigits⟩ := encodeVariableLength_spec hproperties
  have hwritten : ¬ (listHead (listPacketType which) size.remainingLength packetId).length = 0 := by
    rw [length_listHead _ _ hremaining]
    omega
  have htotal : (listFront which size.remainingLength packetId properties).flatten.length =
      (listHead (listPacketType which) size.remainingLength packetId).length +
        variableLengthEncodedSize properties.length +
        if properties = [] then 0 else properties.length := by
    rw [flatten_listFront, List.length_append, length_sized hproperties]
    split_ifs with hnil
    · rw [hnil, List.length_nil]
      omega
    · omega
  dsimp only
  rw [hhead, htaken, hwidth, hdigits, Client.refuse, Prog.refuse_bind_of_not hwritten, htotal,
    listFront]

def subscribe (list : List Subscription) (packetId : UInt16) (properties : List UInt8) :
    Client W Unit := sendList env list packetId properties .subscribe

def unsubscribe (list : List Subscription) (packetId : UInt16) (properties : List UInt8) :
    Client W Unit := sendList env list packetId properties .unsubscribe

end Client

end RtosMqtt
