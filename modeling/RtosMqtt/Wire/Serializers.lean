import RtosMqtt.Wire.Sizes
import RtosMqtt.Wire.Whole

/-! # Serializers and their calculators

The size of a packet is computed in one place and its bytes in another. With the
remaining length that was calculated a serializer writes a packet of the size that
was calculated, when there is room for it. All but one refuse before they write.
-/

namespace RtosMqtt

open Writing

/-- The filters come last, after the buffer. -/
def validateList (subscriptions : List Subscription) (packetId : UInt16) (remainingLength : ℕ) :
    Serializing ℕ := do
  Prog.refuse (subscriptions = []) .badParameter
  Prog.refuse (packetId = 0) .badParameter
  Prog.refuse (remainingLengthInvalid ≤ remainingLength) .badParameter
  let packetSize := wholePacketSize remainingLength
  let destination ← Prog.get
  Prog.refuse (destination.length < packetSize) .noMemory
  Prog.refuse (subscriptions.any fun subscription =>
    subscription.topicFilter = [] ∨ u16Max < subscription.topicFilter.length) .badParameter
  pure packetSize

def putSubscription (which : SubscriptionType) (subscription : Subscription) (start : ℕ) :
    Serializing ℕ := do
  let start ← putString subscription.topicFilter start
  if which = .subscribe then do
    writeAt .noMemory start [subscriptionOptions subscription]
    pure (start + 1)
  else pure start

def putSubscriptions (which : SubscriptionType) : List Subscription → ℕ → Serializing ℕ
  | [], start => pure start
  | subscription :: subscriptions, start => do
    let start ← putSubscription which subscription start
    putSubscriptions which subscriptions start

/-- It answers the size that was calculated, not how much it wrote. -/
def serializeList (which : SubscriptionType) (packetType : UInt8)
    (subscriptions : List Subscription) (properties : List UInt8) (packetId : UInt16)
    (remainingLength : ℕ) : Serializing ℕ := do
  let propertyLength ← Prog.lift (sectionLength properties)
  let packetSize ← validateList subscriptions packetId remainingLength
  let destination ← Prog.get
  let (start, destination) := serializeIdHeader destination packetType remainingLength packetId
  Prog.modify fun _ => destination
  Prog.refuse (start = 0) .noMemory
  let start ← putSection start properties propertyLength
  let _ ← putSubscriptions which subscriptions start
  pure packetSize

def serializeSubscribe (subscriptions : List Subscription) (properties : List UInt8)
    (packetId : UInt16) (remainingLength : ℕ) : Serializing ℕ :=
  serializeList .subscribe Packet.subscribe subscriptions properties packetId remainingLength

def serializeUnsubscribe (subscriptions : List Subscription) (properties : List UInt8)
    (packetId : UInt16) (remainingLength : ℕ) : Serializing ℕ :=
  serializeList .unsubscribe Packet.unsubscribe subscriptions properties packetId remainingLength

def serializeDisconnect (reasonCode : Option UInt8) (properties : List UInt8)
    (remainingLength : ℕ) : Serializing ℕ := do
  Prog.refuse (u32Max < properties.length) .badParameter
  Prog.refuse (remainingLengthInvalid ≤ properties.length) .badParameter
  Prog.refuse (reasonCode = none ∧ properties.length ≠ 0) .badParameter
  Prog.refuse (remainingLengthInvalid ≤ remainingLength) .badParameter
  let destination ← Prog.get
  Prog.refuse (destination.length < wholePacketSize remainingLength) .noMemory
  let (start, destination) := serializeDisconnectFixed destination reasonCode remainingLength
  Prog.modify fun _ => destination
  Prog.refuse (start = 0) .noMemory
  putSection start properties properties.length

/-- With room for the packet and its checks passed a serializer writes the packet, and leaves what
follows it; otherwise it refuses before it writes. -/
structure Guarded (w : Serializing ℕ) (accepts : Prop) (packet : List UInt8) : Prop where
  written : accepts → ∀ destination : List UInt8, packet.length ≤ destination.length →
    w destination = (.ok packet.length, packet ++ destination.drop packet.length)
  refused : ∀ destination : List UInt8, ¬ (accepts ∧ packet.length ≤ destination.length) →
    ∃ e, w destination = (.error e, destination)

/-- What was calculated is what is written: the size of the packet, and in the packet the length
of what follows. -/
structure Writes (w : Serializing ℕ) (size : PacketSize) (packet : List UInt8) : Prop where
  ok_iff : ∀ destination written out, w destination = (.ok written, out) ↔
    size.packetSize ≤ destination.length ∧ written = size.packetSize ∧
      out = packet ++ destination.drop size.packetSize
  length_eq : packet.length = size.packetSize
  field : decodeVariableLength (packet.drop 1) = .ok size.remainingLength
  rest : (packet.drop (1 + variableLengthEncodedSize size.remainingLength)).length =
    size.remainingLength

def Clean (w : Serializing ℕ) : Prop :=
  ∀ destination e out, w destination = (.error e, out) → out = destination

section Guarded

variable {w : Serializing ℕ} {accepts : Prop} {packet : List UInt8}

theorem Guarded.clean (h : Guarded w accepts packet) : Clean w := by
  intro destination e out hw
  by_cases hroom : accepts ∧ packet.length ≤ destination.length
  · rw [h.written hroom.1 destination hroom.2] at hw
    cases hw
  · obtain ⟨e', he⟩ := h.refused destination hroom
    rw [he] at hw
    exact (Prod.mk.inj hw).2.symm

theorem Guarded.take_eq {destination out : List UInt8} {written : ℕ} (h : Guarded w accepts packet)
    (hw : w destination = (.ok written, out)) : out.take written = packet := by
  by_cases hroom : accepts ∧ packet.length ≤ destination.length
  · rw [h.written hroom.1 destination hroom.2] at hw
    obtain ⟨hok, rfl⟩ := Prod.mk.inj hw
    rw [← Except.ok.inj hok, List.take_left' rfl]
  · obtain ⟨e, he⟩ := h.refused destination hroom
    rw [he] at hw
    cases hw

/-- A packet that is written exactly when there is room for it. -/
theorem writes_of {size : PacketSize} {packetType : UInt8} {n : ℕ} {body : List UInt8}
    (hsize : size = trueSize n) (hn : n ≤ maxRemainingLength)
    (hpacket : packet = packetType :: encodedLength n ++ body) (hbody : body.length = n)
    (hroom : ∀ destination : List UInt8, packet.length ≤ destination.length →
      w destination = (.ok packet.length, packet ++ destination.drop packet.length))
    (hshort : ∀ destination : List UInt8, destination.length < packet.length →
      ∃ e out, w destination = (.error e, out)) : Writes w size packet := by
  subst hsize
  have hstart : (packetType :: encodedLength n).length = 1 + variableLengthEncodedSize n := by
    rw [List.length_cons, length_encodedLength hn, Nat.add_comm]
  have hlength : packet.length = (trueSize n).packetSize := by
    rw [hpacket, List.length_append, hstart, hbody]
    rfl
  constructor
  · intro destination written out
    rw [← hlength]
    constructor
    · intro h
      by_cases hfits : packet.length ≤ destination.length
      · rw [hroom destination hfits] at h
        cases h
        exact ⟨hfits, rfl, rfl⟩
      · obtain ⟨e, after, he⟩ := hshort destination (Nat.not_le.mp hfits)
        rw [he] at h
        cases h
    · rintro ⟨hfits, rfl, rfl⟩
      exact hroom destination hfits
  · exact hlength
  · rw [PropertyReader.decodeVariableLength_eq_ok, hpacket]
    exact ⟨hn, List.prefix_append _ _⟩
  · rw [hpacket, trueSize, List.drop_left' hstart, hbody]

theorem Guarded.writes {size : PacketSize} {packetType : UInt8} {n : ℕ} {body : List UInt8}
    (h : Guarded w accepts packet) (haccepts : accepts) (hsize : size = trueSize n)
    (hn : n ≤ maxRemainingLength) (hpacket : packet = packetType :: encodedLength n ++ body)
    (hbody : body.length = n) : Writes w size packet := by
  apply writes_of hsize hn hpacket hbody (h.written haccepts)
  intro destination hshort
  obtain ⟨e, he⟩ := h.refused destination (fun hroom => absurd hroom.2 (Nat.not_le.mpr hshort))
  exact ⟨e, destination, he⟩

end Guarded

theorem guarded_serializeConnect {connect : Connect} (h : connect.Fits)
    (hmax : (connectBody connect).length ≤ maxRemainingLength) :
    Guarded (serializeConnect connect (connectBody connect).length) True
      (connectPacket connect) := by
  constructor
  · exact fun _ destination hroom => serializeConnect_eq h hmax hroom
  · intro destination hroom
    rw [true_and, length_connectPacket hmax, Nat.not_le] at hroom
    refine ⟨.noMemory, ?_⟩
    rw [serializeConnect, Prog.refuse_bind_of_not h.bounds, Prog.get_bind_apply,
      Prog.refuse_bind_apply, if_pos hroom]

theorem strict_of_validateStrict {publish : OutgoingPublish} {packetId : UInt16} {n : ℕ}
    (h : validateStrict publish packetId n = .ok ()) : publish.Strict packetId := by
  rw [validateStrict, refuseIf_bind_eq_ok, refuseIf_bind_eq_ok, refuseIf_bind_eq_ok,
    refuseIf_bind_eq_ok] at h
  obtain ⟨hnamed, -, hid, hdup, -⟩ := h
  refine ⟨hnamed, fun hqos hzero => hid ⟨hqos, hzero⟩, fun hqos => ?_⟩
  exact Bool.eq_false_iff.mpr fun h => hdup ⟨h, hqos⟩

theorem guarded_serializePublish {publish : OutgoingPublish} (packetId : UInt16)
    (hfits : publish.Fits) :
    Guarded (serializePublish publish packetId (publishLength publish)) (publish.Strict packetId)
      (publishPacket publish packetId) := by
  constructor
  · intro hstrict destination hroom
    rw [length_publishPacket hstrict hfits] at hroom ⊢
    exact serializePublish_eq hstrict hfits hroom
  · intro destination hroom
    cases hvalid : validateStrict publish packetId (publishLength publish) with
    | error e =>
      refine ⟨e, ?_⟩
      rw [serializePublish, hvalid]
      rfl
    | ok u =>
      have hstrict := strict_of_validateStrict hvalid
      rw [length_publishPacket hstrict hfits, not_and, Nat.not_le] at hroom
      refine ⟨.noMemory, ?_⟩
      rw [serializePublish, hvalid, Prog.lift_ok_bind,
        Prog.refuse_bind_of_not (Nat.not_lt.mpr hfits.properties_le), Prog.get_bind_apply,
        Prog.refuse_bind_apply, if_pos (hroom hstrict)]

def filterBytes (which : SubscriptionType) (subscription : Subscription) : List UInt8 :=
  prefixed subscription.topicFilter ++
    if which = .subscribe then [subscriptionOptions subscription] else []

def filterLengths (subscriptions : List Subscription) : List ℕ :=
  subscriptions.map (·.topicFilter.length)

def listPacket (which : SubscriptionType) (packetType : UInt8) (subscriptions : List Subscription)
    (properties : List UInt8) (packetId : UInt16) : List UInt8 :=
  listHead packetType (listLength which (filterLengths subscriptions) properties.length) packetId ++
    (sized properties ++ subscriptions.flatMap (filterBytes which))

theorem length_flatMap_filterBytes (which : SubscriptionType) (subscriptions : List Subscription) :
    (subscriptions.flatMap (filterBytes which)).length =
      filtersSize which (filterLengths subscriptions) := by
  induction subscriptions with
  | nil => rfl
  | cons subscription subscriptions ih =>
    rw [List.flatMap_cons, List.length_append, ih, filterBytes, List.length_append,
      length_prefixed]
    change _ = subscription.topicFilter.length + 2 + _ + _
    cases which <;> rfl

theorem appends_putSubscription (which : SubscriptionType) {subscription : Subscription}
    (h : subscription.topicFilter.length ≤ u16Max) :
    Appends (putSubscription which subscription) (filterBytes which subscription) := by
  apply (appends_putString h).bind
  cases which with
  | subscribe => exact appends_writeAt [subscriptionOptions subscription]
  | unsubscribe => exact appends_pure

theorem appends_putSubscriptions (which : SubscriptionType) {subscriptions : List Subscription}
    (h : ∀ subscription ∈ subscriptions, subscription.topicFilter.length ≤ u16Max) :
    Appends (putSubscriptions which subscriptions)
      (subscriptions.flatMap (filterBytes which)) := by
  induction subscriptions with
  | nil => exact appends_pure
  | cons subscription subscriptions ih =>
    rw [List.forall_mem_cons] at h
    exact (appends_putSubscription which h.1).bind (ih h.2)

structure Listed (subscriptions : List Subscription) (packetId : UInt16) : Prop where
  identified : packetId ≠ 0
  named : ∀ subscription ∈ subscriptions, subscription.topicFilter ≠ []

section List

variable {which : SubscriptionType} {packetType : UInt8} {subscriptions : List Subscription}
  {properties : List UInt8} {packetId : UInt16}

theorem length_listPacket
    (h : listLength which (filterLengths subscriptions) properties.length ≤ maxRemainingLength) :
    (listPacket which packetType subscriptions properties packetId).length =
      packetLength (listLength which (filterLengths subscriptions) properties.length) := by
  have hproperties : properties.length ≤ maxRemainingLength := by
    rw [listLength] at h
    omega
  rw [listPacket, List.length_append, length_listHead packetType packetId h, List.length_append,
    length_sized hproperties, length_flatMap_filterBytes, packetLength, listLength]
  omega

theorem properties_le_of_listLength
    (h : listLength which (filterLengths subscriptions) properties.length ≤ maxRemainingLength) :
    properties.length ≤ maxRemainingLength := by
  rw [listLength] at h
  omega

theorem any_empty_iff
    (h : ∀ subscription ∈ subscriptions, subscription.topicFilter.length ≤ u16Max) :
    subscriptions.any (fun subscription => decide (subscription.topicFilter = [] ∨
      u16Max < subscription.topicFilter.length)) = true ↔
        ¬ ∀ subscription ∈ subscriptions, subscription.topicFilter ≠ [] := by
  rw [List.any_eq_true, not_forall]
  constructor
  · rintro ⟨subscription, hmem, hbad⟩
    obtain hempty | hlong := of_decide_eq_true hbad
    · exact ⟨subscription, fun hnamed => hnamed hmem hempty⟩
    · exact absurd (h subscription hmem) (Nat.not_le.mpr hlong)
  · rintro ⟨subscription, hbad⟩
    obtain ⟨hmem, hempty⟩ := Classical.not_imp.mp hbad
    exact ⟨subscription, hmem, decide_eq_true (Or.inl (not_not.mp hempty))⟩

theorem validateList_spec {n : ℕ} (hsome : subscriptions ≠ [])
    (hfilters : ∀ subscription ∈ subscriptions, subscription.topicFilter.length ≤ u16Max)
    (hn : n ≤ maxRemainingLength) (destination : List UInt8) :
    (Listed subscriptions packetId → packetLength n ≤ destination.length →
        validateList subscriptions packetId n destination =
          (.ok (packetLength n), destination)) ∧
      (¬ (Listed subscriptions packetId ∧ packetLength n ≤ destination.length) →
        ∃ e, validateList subscriptions packetId n destination = (.error e, destination)) := by
  have hvalid : ¬ remainingLengthInvalid ≤ n := by
    rw [maxRemainingLength] at hn
    rw [remainingLengthInvalid]
    omega
  rw [validateList, wholePacketSize_eq_packetLength hn, Prog.refuse_bind_of_not hsome,
    Prog.refuse_bind_apply]
  constructor
  · rintro ⟨hid, hnamed⟩ hroom
    rw [if_neg hid, Prog.refuse_bind_of_not hvalid, Prog.get_bind_apply,
      Prog.refuse_bind_of_not (Nat.not_lt.mpr hroom),
      Prog.refuse_bind_of_not (fun hbad => (any_empty_iff hfilters).mp hbad hnamed),
      Prog.pure_apply]
  · intro hroom
    by_cases hid : packetId = 0
    · exact ⟨.badParameter, by rw [if_pos hid]⟩
    rw [if_neg hid, Prog.refuse_bind_of_not hvalid, Prog.get_bind_apply, Prog.refuse_bind_apply]
    by_cases hshort : destination.length < packetLength n
    · exact ⟨.noMemory, by rw [if_pos hshort]⟩
    rw [if_neg hshort, Prog.refuse_bind_apply, if_pos ((any_empty_iff hfilters).mpr fun hnamed =>
      hroom ⟨⟨hid, hnamed⟩, Nat.not_lt.mp hshort⟩)]
    exact ⟨.badParameter, rfl⟩

/-- Every check comes before the first byte. -/
theorem guarded_serializeList (packetType : UInt8) (packetId : UInt16)
    (hsome : subscriptions ≠ [])
    (hfilters : ∀ subscription ∈ subscriptions, subscription.topicFilter.length ≤ u16Max)
    (hlength : listLength which (filterLengths subscriptions) properties.length ≤
      maxRemainingLength) :
    Guarded (serializeList which packetType subscriptions properties packetId
        (listLength which (filterLengths subscriptions) properties.length))
      (Listed subscriptions packetId)
      (listPacket which packetType subscriptions properties packetId) := by
  have hproperties := properties_le_of_listLength hlength
  have hsection : sectionLength properties = .ok properties.length := by
    rw [maxRemainingLength] at hproperties
    rw [sectionLength, refuseIf_bind_eq_ok, refuseIf_bind_eq_ok, u32Max, remainingLengthInvalid]
    exact ⟨by omega, by omega, rfl⟩
  have hpacket : (listPacket which packetType subscriptions properties packetId).length =
      packetLength (listLength which (filterLengths subscriptions) properties.length) :=
    length_listPacket hlength
  constructor
  · intro hlisted destination hroom
    have hlist := (validateList_spec hsome hfilters hlength destination).1 hlisted
      (by rwa [← hpacket])
    rw [← hpacket] at hlist
    have hhead := serializeIdHeader_eq packetType packetId hlength destination
      (by rw [listPacket, List.length_append] at hroom; omega)
    have hpos : (listHead packetType
        (listLength which (filterLengths subscriptions) properties.length) packetId).length ≠ 0 := by
      rw [length_listHead packetType packetId hlength]
      omega
    have hbody := ((appends_putSection hproperties).bind
      (appends_putSubscriptions which hfilters)).behind
        (listHead packetType (listLength which (filterLengths subscriptions) properties.length)
          packetId) destination hroom
    rw [serializeList, hsection, Prog.lift_ok_bind, Prog.bind_of_ok hlist, Prog.get_bind_apply,
      hhead]
    dsimp only at hbody ⊢
    rw [Prog.modify_bind_apply, Prog.refuse_bind_of_not hpos, ← Prog.bind_assoc,
      Prog.bind_of_ok hbody]
    rfl
  · intro destination hroom
    rw [hpacket] at hroom
    obtain ⟨e, he⟩ := (validateList_spec hsome hfilters hlength destination).2 hroom
    refine ⟨e, ?_⟩
    rw [serializeList, hsection, Prog.lift_ok_bind, Prog.bind_of_error he]

theorem guarded_of_listPacketSize (packetType : UInt8) (packetId : UInt16) {maxPacketSize : ℕ}
    {size : PacketSize}
    (h : listPacketSize which (filterLengths subscriptions) properties.length maxPacketSize =
      .ok size) :
    Guarded (serializeList which packetType subscriptions properties packetId size.remainingLength)
      (Listed subscriptions packetId)
      (listPacket which packetType subscriptions properties packetId) := by
  obtain ⟨⟨hsome, hfilters⟩, hlength, -, rfl⟩ := listPacketSize_eq_ok_iff.mp h
  apply guarded_serializeList packetType packetId _ _ hlength
  · rintro rfl
    exact hsome rfl
  · exact fun subscription hmem => hfilters _ (List.mem_map_of_mem hmem)

end List

def disconnectPacket (reasonCode : Option UInt8) (properties : List UInt8) : List UInt8 :=
  disconnectHead reasonCode (disconnectLength reasonCode properties.length) ++ sized properties

section Disconnect

variable {reasonCode : Option UInt8} {properties : List UInt8}

theorem properties_le_of_disconnectLength
    (h : disconnectLength reasonCode properties.length ≤ maxRemainingLength) :
    properties.length ≤ maxRemainingLength := by
  rw [disconnectLength] at h
  omega

theorem length_disconnectPacket
    (h : disconnectLength reasonCode properties.length ≤ maxRemainingLength) :
    (disconnectPacket reasonCode properties).length =
      packetLength (disconnectLength reasonCode properties.length) := by
  rw [disconnectPacket, List.length_append, length_disconnectHead reasonCode h,
    length_sized (properties_le_of_disconnectLength h), packetLength, disconnectLength]
  omega

theorem guarded_serializeDisconnect (hnone : reasonCode = none → properties.length = 0)
    (hlength : disconnectLength reasonCode properties.length ≤ maxRemainingLength) :
    Guarded (serializeDisconnect reasonCode properties
        (disconnectLength reasonCode properties.length)) True
      (disconnectPacket reasonCode properties) := by
  have hproperties := properties_le_of_disconnectLength hlength
  have hpacket := length_disconnectPacket hlength
  have hmost : ¬ u32Max < properties.length ∧ ¬ remainingLengthInvalid ≤ properties.length ∧
      ¬ remainingLengthInvalid ≤ disconnectLength reasonCode properties.length := by
    rw [maxRemainingLength] at hproperties hlength
    rw [u32Max, remainingLengthInvalid]
    omega
  constructor
  · intro _ destination hroom
    have hhead := serializeDisconnectFixed_eq reasonCode hlength destination
      (by rw [disconnectPacket, List.length_append] at hroom; omega)
    have hpos : (disconnectHead reasonCode
        (disconnectLength reasonCode properties.length)).length ≠ 0 := by
      rw [length_disconnectHead reasonCode hlength]
      omega
    have hbody := (appends_putSection hproperties).behind
      (disconnectHead reasonCode (disconnectLength reasonCode properties.length)) destination hroom
    rw [serializeDisconnect, Prog.refuse_bind_of_not hmost.1, Prog.refuse_bind_of_not hmost.2.1,
      Prog.refuse_bind_of_not (fun h => h.2 (hnone h.1)), Prog.refuse_bind_of_not hmost.2.2,
      Prog.get_bind_apply, wholePacketSize_eq_packetLength hlength, ← hpacket,
      Prog.refuse_bind_of_not (Nat.not_lt.mpr hroom), hhead]
    dsimp only at hbody ⊢
    rw [Prog.modify_bind_apply, Prog.refuse_bind_of_not hpos]
    exact hbody
  · intro destination hroom
    rw [true_and, hpacket, Nat.not_le] at hroom
    refine ⟨.noMemory, ?_⟩
    rw [serializeDisconnect, Prog.refuse_bind_of_not hmost.1, Prog.refuse_bind_of_not hmost.2.1,
      Prog.refuse_bind_of_not (fun h => h.2 (hnone h.1)), Prog.refuse_bind_of_not hmost.2.2,
      Prog.get_bind_apply, wholePacketSize_eq_packetLength hlength, Prog.refuse_bind_apply,
      if_pos hroom]

end Disconnect

def reasonAckPacket (packetType : UInt8) (packetId : UInt16) (code : UInt8)
    (properties : List UInt8) : List UInt8 :=
  ackPacket packetType packetId (code :: sized properties)

section Ack

variable {packetType : UInt8} {packetId : UInt16} {code : UInt8} {properties : List UInt8}

theorem properties_le_of_ackLength (h : ackLength properties.length ≤ maxRemainingLength) :
    properties.length ≤ maxRemainingLength := by
  rw [ackLength] at h
  omega

theorem reasonAckPacket_eq (h : properties.length ≤ maxRemainingLength) :
    reasonAckPacket packetType packetId code properties =
      packetType :: encodedLength (ackLength properties.length) ++
        (toBeBytes16 packetId ++ [code] ++ sized properties) := by
  have hrest : 2 + (code :: sized properties).length = ackLength properties.length := by
    rw [List.length_cons, length_sized h, ackLength]
    omega
  rw [reasonAckPacket, ackPacket, hrest]
  simp

variable (packetType packetId code) in
theorem length_reasonAckPacket (h : ackLength properties.length ≤ maxRemainingLength) :
    (reasonAckPacket packetType packetId code properties).length =
      packetLength (ackLength properties.length) := by
  have htwo : (toBeBytes16 packetId).length = 2 := rfl
  have hproperties := properties_le_of_ackLength h
  rw [reasonAckPacket_eq hproperties, List.length_append, List.length_cons,
    length_encodedLength h, List.length_append, List.length_append, htwo, length_sized hproperties,
    List.length_singleton, packetLength, ackLength]
  omega

structure AckChecked (packetType : UInt8) (packetId : UInt16) (reasonCode : Option UInt8)
    (properties destination : List UInt8) : Prop where
  four : publishAckPacketSize ≤ destination.length
  identified : packetId ≠ 0
  reasoned : reasonCode = none → properties = []
  allowed : ackKindAllowed packetType reasonCode = true
  inRange : properties.length ≤ maxRemainingLength

theorem sectionLength_eq_ok_iff {length : ℕ} :
    sectionLength properties = .ok length ↔
      properties.length ≤ maxRemainingLength ∧ length = properties.length := by
  rw [sectionLength, refuseIf_bind_eq_ok, refuseIf_bind_eq_ok, u32Max, remainingLengthInvalid,
    maxRemainingLength]
  constructor
  · rintro ⟨-, hle, h⟩
    exact ⟨by omega, (Except.ok.inj h).symm⟩
  · rintro ⟨hle, rfl⟩
    exact ⟨by omega, by omega, rfl⟩

theorem serializeAck_refused {reasonCode : Option UInt8} {destination : List UInt8}
    (h : ¬ AckChecked packetType packetId reasonCode properties destination) :
    ∃ e, serializeAck packetType packetId reasonCode properties destination =
      (.error e, destination) := by
  rw [serializeAck, Prog.get_bind_apply, Prog.refuse_bind_apply]
  by_cases hfour : destination.length < publishAckPacketSize
  · exact ⟨.noMemory, by rw [if_pos hfour]⟩
  rw [if_neg hfour, Prog.refuse_bind_apply]
  by_cases hid : packetId = 0
  · exact ⟨.badParameter, by rw [if_pos hid]⟩
  rw [if_neg hid, Prog.refuse_bind_apply]
  by_cases hreason : reasonCode = none ∧ properties ≠ []
  · exact ⟨.badParameter, by rw [if_pos hreason]⟩
  rw [if_neg hreason, Prog.refuse_bind_apply]
  by_cases hkind : (!ackKindAllowed packetType reasonCode) = true
  · exact ⟨.badParameter, by rw [if_pos hkind]⟩
  rw [if_neg hkind]
  cases hsection : sectionLength properties with
  | error e => exact ⟨e, rfl⟩
  | ok length =>
    refine absurd ⟨Nat.not_lt.mp hfour, hid, ?_, by simpa using hkind,
      (sectionLength_eq_ok_iff.mp hsection).1⟩ h
    exact fun hnone => not_not.mp fun hsome => hreason ⟨hnone, hsome⟩

/-- The type byte goes in before the rest of the buffer is looked at. -/
theorem serializeAck_checked {destination : List UInt8}
    (h : AckChecked packetType packetId (some code) properties destination) :
    serializeAck packetType packetId (some code) properties destination =
      (do
        Prog.refuse (destination.length < publishAckPacketSize + 2) .badParameter
        if properties = [] then
          writeAt .noMemory 1
            ((simpleAckRemainingLength + 2) :: toBeBytes16 packetId ++ [code, 0x00])
          pure 6
        else
          Prog.refuse (maxRemainingLength < ackLength properties.length) .badParameter
          Prog.refuse (destination.length < wholePacketSize (ackLength properties.length))
            .badParameter
          let encoded ← encodeAt .noMemory 1 (ackLength properties.length)
          Prog.refuse (encoded = 0) .noMemory
          writeAt .noMemory (1 + encoded) (toBeBytes16 packetId ++ [code])
          let _ ← putSection (1 + encoded + 3) properties properties.length
          pure (wholePacketSize (ackLength properties.length)) : Serializing ℕ)
        (packetType :: destination.drop 1) := by
  have hfour : 4 ≤ destination.length := h.four
  have hput := writeAt_append EncodeError.noMemory [] destination [packetType]
    (by rw [List.length_singleton]; omega)
  have hsum : satAdd (satAdd 3 (variableLengthEncodedSize properties.length)) properties.length =
      ackLength properties.length := by
    have hle := h.inRange
    have hsize := variableLengthEncodedSize_le properties.length
    rw [maxRemainingLength] at hle
    rw [satAdd_satAdd_left, ackLength, u32Max]
    omega
  rw [List.length_nil, List.nil_append, List.nil_append, List.length_singleton] at hput
  rw [serializeAck, Prog.get_bind_apply, Prog.refuse_bind_of_not (Nat.not_lt.mpr h.four),
    Prog.refuse_bind_of_not h.identified,
    Prog.refuse_bind_of_not (fun hbad => hbad.2 (h.reasoned hbad.1)),
    Prog.refuse_bind_of_not (by rw [h.allowed]; exact Bool.false_ne_true),
    sectionLength_eq_ok_iff.mpr ⟨h.inRange, rfl⟩, Prog.lift_ok_bind, Prog.bind_of_ok hput]
  dsimp only
  rw [hsum]
  rfl

theorem serializeAck_spoiled {destination : List UInt8}
    (h : AckChecked packetType packetId (some code) properties destination)
    (hroom : ¬ (ackLength properties.length ≤ maxRemainingLength ∧
      packetLength (ackLength properties.length) ≤ destination.length)) :
    serializeAck packetType packetId (some code) properties destination =
      (.error .badParameter, packetType :: destination.drop 1) := by
  rw [serializeAck_checked h, Prog.refuse_bind_apply]
  by_cases hsix : destination.length < publishAckPacketSize + 2
  · rw [if_pos hsix]
  rw [if_neg hsix]
  by_cases hnil : properties = []
  · subst hnil
    exact absurd ⟨by decide, Nat.not_lt.mp hsix⟩ hroom
  rw [if_neg hnil, Prog.refuse_bind_apply]
  by_cases hlong : maxRemainingLength < ackLength properties.length
  · rw [if_pos hlong]
  rw [if_neg hlong, wholePacketSize_eq_packetLength (Nat.not_lt.mp hlong), Prog.refuse_bind_apply,
    if_pos (Nat.not_le.mp fun hfits => hroom ⟨Nat.not_lt.mp hlong, hfits⟩)]

theorem serializeAck_bare_checked {destination : List UInt8}
    (h : AckChecked packetType packetId none properties destination) :
    serializeAck packetType packetId none properties destination =
      (.ok 4, ackPacket packetType packetId [] ++ destination.drop 4) := by
  have hfour : 4 ≤ destination.length := h.four
  have hput := writeAt_append EncodeError.noMemory [] destination [packetType]
    (by rw [List.length_singleton]; omega)
  have hbody := writeAt_append EncodeError.noMemory [packetType] (destination.drop 1)
    (simpleAckRemainingLength :: toBeBytes16 packetId)
    (by rw [List.length_drop]; change 3 ≤ _; omega)
  rw [List.length_nil, List.nil_append, List.nil_append, List.length_singleton] at hput
  rw [List.length_singleton, List.drop_drop] at hbody
  rw [serializeAck, Prog.get_bind_apply, Prog.refuse_bind_of_not (Nat.not_lt.mpr h.four),
    Prog.refuse_bind_of_not h.identified,
    Prog.refuse_bind_of_not (fun hbad => hbad.2 (h.reasoned hbad.1)),
    Prog.refuse_bind_of_not (by rw [h.allowed]; exact Bool.false_ne_true),
    sectionLength_eq_ok_iff.mpr ⟨h.inRange, rfl⟩, Prog.lift_ok_bind, Prog.bind_of_ok hput]
  dsimp only
  rw [Prog.bind_of_ok hbody]
  have htwo : encodedLength (2 + ([] : List UInt8).length) = [simpleAckRemainingLength] := by decide
  rw [ackPacket, htwo]
  rfl

theorem serializeAck_written {destination : List UInt8}
    (hid : packetId ≠ 0) (hallowed : ackReasonCodeAllowed packetType code = true)
    (hlength : ackLength properties.length ≤ maxRemainingLength)
    (hroom : (reasonAckPacket packetType packetId code properties).length ≤ destination.length) :
    serializeAck packetType packetId (some code) properties destination =
      (.ok (reasonAckPacket packetType packetId code properties).length,
        reasonAckPacket packetType packetId code properties ++
          destination.drop (reasonAckPacket packetType packetId code properties).length) := by
  have hproperties := properties_le_of_ackLength hlength
  have hpacket := length_reasonAckPacket packetType packetId code hlength
  have hpos := variableLengthEncodedSize_pos properties.length
  have hsix : 6 ≤ destination.length := by
    have hwidth := variableLengthEncodedSize_pos (ackLength properties.length)
    rw [hpacket, packetLength, ackLength] at hroom
    rw [ackLength] at hwidth
    omega
  have hchecked : AckChecked packetType packetId (some code) properties destination :=
    { four := by rw [publishAckPacketSize]; omega
      identified := hid
      reasoned := fun hnone => absurd hnone (Option.some_ne_none code)
      allowed := hallowed
      inRange := hproperties }
  rw [serializeAck_checked hchecked,
    Prog.refuse_bind_of_not (by rw [publishAckPacketSize]; omega)]
  by_cases hnil : properties = []
  · subst hnil
    have hbody := writeAt_append EncodeError.noMemory [packetType] (destination.drop 1)
      ((simpleAckRemainingLength + 2) :: toBeBytes16 packetId ++ [code, 0x00])
      (by rw [List.length_drop]; change 5 ≤ _; omega)
    rw [List.length_singleton, List.drop_drop, List.singleton_append] at hbody
    have hempty : reasonAckPacket packetType packetId code [] =
        [packetType] ++ ((simpleAckRemainingLength + 2) :: toBeBytes16 packetId ++ [code, 0x00]) := by
      have hfour : encodedLength 4 = [simpleAckRemainingLength + 2] := by decide
      have hzero : sized [] = [0] := by decide
      rw [reasonAckPacket, ackPacket, hzero]
      change packetType :: encodedLength 4 ++ _ ++ _ = _
      rw [hfour]
      rfl
    rw [if_pos rfl, Prog.bind_of_ok hbody, hempty]
    rfl
  · have hsize := encodeAt_append EncodeError.noMemory [packetType] (destination.drop 1) hlength
      (by rw [hpacket, packetLength] at hroom; rw [List.length_drop]; omega)
    have happends : Appends (fun start => (do
        writeAt .noMemory start (toBeBytes16 packetId ++ [code])
        putSection (start + 3) properties properties.length : Serializing ℕ))
        (toBeBytes16 packetId ++ [code] ++ sized properties) :=
      (appends_putSection hproperties).after (toBeBytes16 packetId ++ [code])
    have hbody := happends.behind (packetType :: encodedLength (ackLength properties.length))
      destination (by rwa [reasonAckPacket_eq hproperties] at hroom)
    have hstart : (packetType :: encodedLength (ackLength properties.length)).length =
        1 + variableLengthEncodedSize (ackLength properties.length) := by
      rw [List.length_cons, length_encodedLength hlength, Nat.add_comm]
    have hwidth := variableLengthEncodedSize_pos (ackLength properties.length)
    rw [List.length_singleton, List.drop_drop, List.singleton_append] at hsize
    rw [← reasonAckPacket_eq hproperties, hstart] at hbody
    rw [if_neg hnil, Prog.refuse_bind_of_not (Nat.not_lt.mpr hlength),
      wholePacketSize_eq_packetLength hlength, ← hpacket,
      Prog.refuse_bind_of_not (Nat.not_lt.mpr hroom), Prog.bind_of_ok hsize,
      Prog.refuse_bind_of_not (by omega)]
    have hend := Prog.bind_of_ok (f := fun _ =>
      (pure (reasonAckPacket packetType packetId code properties).length : Serializing ℕ)) hbody
    rw [Prog.bind_assoc] at hend
    rw [List.singleton_append]
    exact hend

theorem cons_drop_one {destination : List UInt8} (h : 4 ≤ destination.length) :
    packetType :: destination.drop 1 = destination ↔ destination.head? = some packetType := by
  cases destination with
  | nil => simp at h
  | cons first rest => simp [eq_comm]

/-- A refusal that comes after the type byte was written over another byte. -/
structure AckSpoiled (packetType : UInt8) (packetId : UInt16) (reasonCode : Option UInt8)
    (properties destination : List UInt8) : Prop where
  checked : AckChecked packetType packetId reasonCode properties destination
  reasoned : reasonCode.isSome
  tight : ¬ (ackLength properties.length ≤ maxRemainingLength ∧
    packetLength (ackLength properties.length) ≤ destination.length)
  other : destination.head? ≠ some packetType

theorem serializeAck_clean_iff {reasonCode : Option UInt8} {destination : List UInt8} :
    (∀ e out, serializeAck packetType packetId reasonCode properties destination =
        (.error e, out) → out = destination) ↔
      ¬ AckSpoiled packetType packetId reasonCode properties destination := by
  constructor
  · rintro hclean ⟨hchecked, hsome, htight, hother⟩
    obtain ⟨code, rfl⟩ := Option.isSome_iff_exists.mp hsome
    have hsame := hclean _ _ (serializeAck_spoiled hchecked htight)
    exact hother ((cons_drop_one hchecked.four).mp hsame)
  · intro hspoiled e out h
    by_cases hchecked : AckChecked packetType packetId reasonCode properties destination
    · cases reasonCode with
      | none =>
        rw [serializeAck_bare_checked hchecked] at h
        cases h
      | some code =>
        by_cases hroom : ackLength properties.length ≤ maxRemainingLength ∧
            packetLength (ackLength properties.length) ≤ destination.length
        · obtain ⟨hlength, hfits⟩ := hroom
          rw [← length_reasonAckPacket packetType packetId code hlength] at hfits
          rw [serializeAck_written hchecked.identified hchecked.allowed hlength hfits] at h
          cases h
        · rw [serializeAck_spoiled hchecked hroom] at h
          obtain ⟨-, rfl⟩ := Prod.mk.inj h
          refine (cons_drop_one hchecked.four).mpr (not_not.mp fun hother => ?_)
          exact hspoiled ⟨hchecked, rfl, hroom, hother⟩
    · obtain ⟨e', he⟩ := serializeAck_refused hchecked
      rw [he] at h
      exact (Prod.mk.inj h).2.symm

end Ack

theorem writes_serializeConnect {connect : Connect} (h : connect.Fits)
    (hlength : connectLength connect ≤ maxRemainingLength) :
    Writes (serializeConnect connect (connectLength connect)) (trueSize (connectLength connect))
      (connectPacket connect) := by
  have hbody : (connectBody connect).length = connectLength connect := length_connectBody h
  rw [← hbody] at hlength ⊢
  exact (guarded_serializeConnect h hlength).writes trivial rfl hlength rfl rfl

theorem writes_serializePublish {publish : OutgoingPublish} {packetId : UInt16}
    (hfits : publish.Fits) (h : publish.Strict packetId) :
    Writes (serializePublish publish packetId (publishLength publish))
      (trueSize (publishLength publish)) (publishPacket publish packetId) :=
  (guarded_serializePublish packetId hfits).writes h rfl hfits.length rfl
    (length_publishBody (idFits_sentId h) hfits.properties_le)

theorem writes_serializeList {which : SubscriptionType} (packetType : UInt8)
    {subscriptions : List Subscription} {properties : List UInt8} {packetId : UInt16}
    {maxPacketSize : ℕ} {size : PacketSize}
    (h : listPacketSize which (filterLengths subscriptions) properties.length maxPacketSize =
      .ok size) (hlisted : Listed subscriptions packetId) :
    Writes (serializeList which packetType subscriptions properties packetId size.remainingLength)
      size (listPacket which packetType subscriptions properties packetId) := by
  have hguarded := guarded_of_listPacketSize packetType packetId h
  obtain ⟨-, hlength, -, rfl⟩ := listPacketSize_eq_ok_iff.mp h
  apply hguarded.writes hlisted rfl hlength
  · rw [listPacket, listHead, List.append_assoc]
  · have htwo : (toBeBytes16 packetId).length = 2 := rfl
    rw [List.length_append, List.length_append, htwo,
      length_sized (properties_le_of_listLength hlength), length_flatMap_filterBytes, listLength]
    omega

theorem writes_serializeDisconnect {reasonCode : Option UInt8} {properties : List UInt8}
    (hnone : reasonCode = none → properties.length = 0)
    (hlength : disconnectLength reasonCode properties.length ≤ maxRemainingLength) :
    Writes (serializeDisconnect reasonCode properties
        (disconnectLength reasonCode properties.length))
      (trueSize (disconnectLength reasonCode properties.length))
      (disconnectPacket reasonCode properties) := by
  apply (guarded_serializeDisconnect hnone hlength).writes trivial rfl hlength
  · rw [disconnectPacket, disconnectHead, List.append_assoc]
  · rw [List.length_append, length_sized (properties_le_of_disconnectLength hlength),
      disconnectLength, Nat.add_assoc]
    cases reasonCode <;> rfl

theorem writes_serializeAck {packetType code : UInt8} {packetId : UInt16}
    {properties : List UInt8} (hid : packetId ≠ 0)
    (hallowed : ackReasonCodeAllowed packetType code = true)
    (hlength : ackLength properties.length ≤ maxRemainingLength) :
    Writes (serializeAck packetType packetId (some code) properties)
      (trueSize (ackLength properties.length))
      (reasonAckPacket packetType packetId code properties) := by
  have hproperties := properties_le_of_ackLength hlength
  apply writes_of rfl hlength (reasonAckPacket_eq hproperties)
  · have htwo : (toBeBytes16 packetId).length = 2 := rfl
    rw [List.length_append, List.length_append, htwo, List.length_singleton,
      length_sized hproperties, ackLength]
    omega
  · exact fun destination => serializeAck_written hid hallowed hlength
  · intro destination hshort
    rw [length_reasonAckPacket packetType packetId code hlength] at hshort
    by_cases hchecked : AckChecked packetType packetId (some code) properties destination
    · exact ⟨_, _, serializeAck_spoiled hchecked fun hroom =>
        absurd hroom.2 (Nat.not_le.mpr hshort)⟩
    · obtain ⟨e, he⟩ := serializeAck_refused hchecked
      exact ⟨e, destination, he⟩

/-- With the remaining length that was calculated each serializer writes the packet that was
calculated, exactly when there is room for it. -/
theorem serializers_agree :
    (∀ connect size, connectPacketSize connect = .ok size →
      Writes (serializeConnect connect size.remainingLength) size (connectPacket connect)) ∧
    (∀ publish packetId maxPacketSize size,
      publishPacketSize publish maxPacketSize = .ok size → publish.Strict packetId →
        Writes (serializePublish publish packetId size.remainingLength) size
          (publishPacket publish packetId)) ∧
    (∀ subscriptions properties packetId maxPacketSize size,
      listPacketSize .subscribe (filterLengths subscriptions) properties.length maxPacketSize =
          .ok size → Listed subscriptions packetId →
        Writes (serializeSubscribe subscriptions properties packetId size.remainingLength) size
          (listPacket .subscribe Packet.subscribe subscriptions properties packetId)) ∧
    (∀ subscriptions properties packetId maxPacketSize size,
      listPacketSize .unsubscribe (filterLengths subscriptions) properties.length maxPacketSize =
          .ok size → Listed subscriptions packetId →
        Writes (serializeUnsubscribe subscriptions properties packetId size.remainingLength) size
          (listPacket .unsubscribe Packet.unsubscribe subscriptions properties packetId)) ∧
    (∀ reasonCode properties maxPacketSize size,
      disconnectPacketSize reasonCode properties.length maxPacketSize = .ok size →
        Writes (serializeDisconnect reasonCode properties size.remainingLength) size
          (disconnectPacket reasonCode properties)) ∧
    ∀ packetType packetId code properties maxPacketSize size,
      ackPacketSize maxPacketSize properties.length = .ok size → packetId ≠ 0 →
        ackReasonCodeAllowed packetType code = true →
          Writes (serializeAck packetType packetId (some code) properties) size
            (reasonAckPacket packetType packetId code properties) := by
  refine ⟨?_, ?_, ?_, ?_, ?_, ?_⟩
  · intro connect size h
    obtain ⟨⟨-, hfits⟩, hlength, rfl⟩ := connectPacketSize_eq_ok_iff.mp h
    exact writes_serializeConnect hfits hlength
  · intro publish packetId maxPacketSize size h hstrict
    obtain ⟨htopic, hlength, -, rfl⟩ := publishPacketSize_exact.mp h
    exact writes_serializePublish ⟨htopic, hlength⟩ hstrict
  · intro subscriptions properties packetId maxPacketSize size h hlisted
    exact writes_serializeList Packet.subscribe h hlisted
  · intro subscriptions properties packetId maxPacketSize size h hlisted
    exact writes_serializeList Packet.unsubscribe h hlisted
  · intro reasonCode properties maxPacketSize size h
    obtain ⟨⟨hnone, -⟩, hlength, -, rfl⟩ := disconnectPacketSize_eq_ok_iff.mp h
    exact writes_serializeDisconnect hnone hlength
  · intro packetType packetId code properties maxPacketSize size h hid hallowed
    obtain ⟨hlength, -, rfl⟩ := ackPacketSize_eq_ok_iff.mp h
    exact writes_serializeAck hid hallowed hlength

/-- A PUBLISH at QoS 1 with one byte to spare, and four bytes short. -/
theorem serializers_agree_of_publish :
    (serializePublish ⟨.atLeastOnce, false, false, [116], [7, 8], []⟩ 1 8
        (List.replicate 11 0)).1 = .ok 10 ∧
      ∀ written out, serializePublish ⟨.atLeastOnce, false, false, [116], [7, 8], []⟩ 1 8
        (List.replicate 6 0) ≠ (.ok written, out) := by
  have hsize : publishPacketSize ⟨.atLeastOnce, false, false, [116], [7, 8], []⟩ 100 =
      .ok ⟨8, 10⟩ := by decide +kernel
  have hwrites := serializers_agree.2.1 _ 1 100 _ hsize
    ⟨by decide, fun _ => by decide, fun _ => rfl⟩
  constructor
  · have hok := (hwrites.ok_iff (List.replicate 11 0) 10 _).mpr ⟨by decide, rfl, rfl⟩
    exact congrArg Prod.fst hok
  · intro written out h
    have hroom := ((hwrites.ok_iff _ _ _).mp h).1
    revert hroom
    decide

/-- A refusal leaves the destination as it was, except that an acknowledgement with a reason code
and no room for it has its type written over the first byte. -/
theorem serializers_clean (packetType : UInt8) (packetId : UInt16) (reasonCode : Option UInt8)
    (properties destination : List UInt8) :
    (∀ connect size, connectPacketSize connect = .ok size →
      Clean (serializeConnect connect size.remainingLength)) ∧
    (∀ publish packetId maxPacketSize size,
      publishPacketSize publish maxPacketSize = .ok size →
        Clean (serializePublish publish packetId size.remainingLength)) ∧
    (∀ subscriptions properties packetId maxPacketSize size,
      listPacketSize .subscribe (filterLengths subscriptions) properties.length maxPacketSize =
          .ok size →
        Clean (serializeSubscribe subscriptions properties packetId size.remainingLength)) ∧
    (∀ subscriptions properties packetId maxPacketSize size,
      listPacketSize .unsubscribe (filterLengths subscriptions) properties.length maxPacketSize =
          .ok size →
        Clean (serializeUnsubscribe subscriptions properties packetId size.remainingLength)) ∧
    (∀ reasonCode properties maxPacketSize size,
      disconnectPacketSize reasonCode properties.length maxPacketSize = .ok size →
        Clean (serializeDisconnect reasonCode properties size.remainingLength)) ∧
    ((∀ e out, serializeAck packetType packetId reasonCode properties destination =
          (.error e, out) → out = destination) ↔
        ¬ AckSpoiled packetType packetId reasonCode properties destination) := by
  refine ⟨?_, ?_, ?_, ?_, ?_, serializeAck_clean_iff⟩
  · intro connect size h
    obtain ⟨hfits, hbody, hmax, -⟩ := connectPacketSize_eq_ok h
    rw [← hbody] at hmax ⊢
    exact (guarded_serializeConnect hfits hmax).clean
  · intro publish packetId maxPacketSize size h
    obtain ⟨htopic, hlength, -, rfl⟩ := publishPacketSize_exact.mp h
    exact (guarded_serializePublish packetId ⟨htopic, hlength⟩).clean
  · exact fun _ _ packetId _ _ h => (guarded_of_listPacketSize Packet.subscribe packetId h).clean
  · exact fun _ _ packetId _ _ h => (guarded_of_listPacketSize Packet.unsubscribe packetId h).clean
  · intro reasonCode properties maxPacketSize size h
    obtain ⟨⟨hnone, -⟩, hlength, -, rfl⟩ := disconnectPacketSize_eq_ok_iff.mp h
    exact (guarded_serializeDisconnect hnone hlength).clean

/-- Four bytes are enough for an acknowledgement without a reason code only. -/
theorem serializeAck_spoils :
    ackPacketSize 100 0 = .ok ⟨4, 6⟩ ∧
      serializeAck Packet.puback 1 (some 0) [] [0xCC, 0xCC, 0xCC, 0xCC] =
        (.error .badParameter, [Packet.puback, 0xCC, 0xCC, 0xCC]) ∧
      [Packet.puback, 0xCC, 0xCC, 0xCC] ≠ [0xCC, 0xCC, 0xCC, 0xCC] := by
  refine ⟨by decide +kernel, ?_, by decide⟩
  apply serializeAck_spoiled ⟨by decide, by decide, fun _ => rfl, by decide, by decide⟩
  decide

/-- A CONNECT, a PUBLISH, a SUBSCRIBE, an UNSUBSCRIBE and a DISCONNECT that do not fit leave nothing
behind, and neither does a PUBACK in three bytes. -/
theorem serializers_leave_nothing :
    let subscription : Subscription := ⟨[97, 0x2F, 0x23], .exactlyOnce, false, true, .onSubscribe⟩
    Clean (serializeConnect ⟨⟨true, 60, some [117], some [112]⟩, [97], [],
        some ⟨⟨.atLeastOnce, true⟩, [119], [1, 2], []⟩⟩ 28) ∧
      Clean (serializePublish ⟨.atLeastOnce, false, true, [97], [], [1, 2]⟩ 7 8) ∧
      Clean (serializeSubscribe [subscription, subscription] [] 7 15) ∧
      Clean (serializeUnsubscribe [subscription] [PropertyId.userProperty, 0, 0, 0, 0] 7 13) ∧
      Clean (serializeDisconnect (some 0x04) [] 2) ∧
      ∀ e out, serializeAck Packet.puback 1 (some 0) [] [0xCC, 0xCC, 0xCC] = (.error e, out) →
        out = [0xCC, 0xCC, 0xCC] := by
  obtain ⟨hconnect, hpublish, hsubscribe, hunsubscribe, hdisconnect, hack⟩ :=
    serializers_clean Packet.puback 1 (some 0) [] [0xCC, 0xCC, 0xCC]
  refine ⟨hconnect _ ⟨28, 30⟩ (by decide), hpublish _ _ 100 ⟨8, 10⟩ (by decide),
    hsubscribe _ _ _ 100 ⟨15, 17⟩ (by decide), hunsubscribe _ _ _ 100 ⟨13, 15⟩ (by decide),
    hdisconnect _ _ 100 ⟨2, 4⟩ (by decide), hack.mpr ?_⟩
  exact fun hspoiled => absurd hspoiled.checked.four (by decide)

end RtosMqtt
