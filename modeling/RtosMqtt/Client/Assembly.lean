import RtosMqtt.Client.Reachable
import RtosMqtt.Client.Scripted
import RtosMqtt.Client.Stream
import RtosMqtt.Wire.Serializers

/-! # The parts of a PUBLISH

A PUBLISH is sent without being copied: its header, its topic and its payload are
vectors. Together they are the packet that the serializer writes, and what the
store is given differs from it in one bit.
-/

namespace RtosMqtt

/-- The bit that says a PUBLISH is sent again. -/
def markDuplicate (packet : List UInt8) : List UInt8 := packet.modifyHead (· ||| PublishFlag.dup)

theorem publishFlags_dup (publish : OutgoingPublish) :
    publishFlags { publish with dup := true } = publishFlags publish ||| PublishFlag.dup := by
  obtain ⟨qos, dup, retain, topicName, payload, properties⟩ := publish
  have hall : ∀ qos ∈ [QoS.atMostOnce, .atLeastOnce, .exactlyOnce], ∀ dup retain : Bool,
      publishFlags ⟨qos, true, retain, [], [], []⟩ =
        publishFlags ⟨qos, dup, retain, [], [], []⟩ ||| PublishFlag.dup := by
    decide
  exact hall qos (by cases qos <;> decide) dup retain

theorem publishPacket_dup (publish : OutgoingPublish) (packetId : UInt16) :
    publishPacket { publish with dup := true } packetId =
      markDuplicate (publishPacket publish packetId) := by
  rw [publishPacket, publishFlags_dup]
  rfl

theorem markDuplicate_publishPacket {publish : OutgoingPublish} (h : publish.dup = true)
    (packetId : UInt16) :
    markDuplicate (publishPacket publish packetId) = publishPacket publish packetId := by
  rw [← publishPacket_dup]
  obtain ⟨qos, dup, retain, topicName, payload, properties⟩ := publish
  rw [show dup = true from h]

theorem publishHead_infront {publish : OutgoingPublish} (h : publish.Fits) (packetId : UInt16) :
    publishHead (publishFlags publish) (publishLength publish) publish.topicName <+:
      publishPacket publish packetId := by
  rw [publishHead, publishPacket, publishBody, prefixed, Nat.min_eq_left h.topic]
  simp only [List.append_assoc, List.nil_append, List.cons_append]
  rw [List.prefix_cons_inj, List.prefix_append_right_inj]
  exact List.prefix_append _ _

theorem updateDuplicateFlag_publishFlags (publish : OutgoingPublish) :
    updateDuplicateFlag (publishFlags publish) true =
      .ok (publishFlags { publish with dup := true }) := by
  rw [updateDuplicateFlag, publishFlags_dup]
  have hnibble := publishFlags_nibble publish
  simp [refuseIf, hnibble]

variable {W : Type}

def noted (s t : Sys W) : List Observation := t.log.drop s.log.length

theorem noted_eq {s t : Sys W} {more : List Observation} (h : t.log = s.log ++ more) :
    noted s t = more := by
  rw [noted, h, List.drop_left]

theorem Logs.noted {P : Observation → Prop} {s t : Sys W} (h : Logs P s t) :
    t.log = s.log ++ noted s t ∧ ∀ o ∈ RtosMqtt.noted s t, P o := by
  obtain ⟨more, hlog, hall⟩ := h
  rw [noted_eq hlog]
  exact ⟨hlog, hall⟩

namespace Client

variable {env : Environment W}

def sectionAlias (c : MqttContext) (properties : List UInt8) :
    Except ClientError (Option UInt16) :=
  if properties = [] then .ok none
  else (validatePublishProperties c.properties.server.topicAliasMax properties).mapError
    fun _ => .badParameter

theorem topicAliasOf_eq (c : MqttContext) (properties : List UInt8) :
    (topicAliasOf c properties : Client W _) = check id (sectionAlias c properties) := by
  rw [topicAliasOf, sectionAlias]
  split_ifs
  · rfl
  · cases validatePublishProperties c.properties.server.topicAliasMax properties <;> rfl

def checkPublish (c : MqttContext) (publish : OutgoingPublish) (packetId : UInt16) :
    Except ClientError PacketSize := do
  c.validatePublish publish.qos packetId publish.topicName.length publish.payload.length
  let server := c.properties.server
  let topicAlias ← sectionAlias c publish.properties
  Except.mapError (fun _ => ClientError.badParameter)
    (validatePublishParams publish server.retainAvailable server.maxQos (topicAlias.getD 0)
      server.maxPacketSize)
  let size ← Except.mapError (fun _ => ClientError.badParameter)
    (publishPacketSize publish server.maxPacketSize)
  c.connected
  pure size

def partsOf (publish : OutgoingPublish) (packetId : UInt16) : List (List UInt8) :=
  publishParts (publishHead (publishFlags publish) (publishLength publish) publish.topicName)
    publish.topicName publish.qos packetId (encodedLength publish.properties.length)
    publish.properties publish.payload

theorem flatten_partsOf {publish : OutgoingPublish} {packetId : UInt16} (h : publish.Fits) :
    (partsOf publish packetId).flatten = publishPacket publish packetId := by
  have hid : (if publish.qos = .atMostOnce then [] else [toBeBytes16 packetId]).flatten =
      idBytes (sentId publish.qos packetId) := by
    rw [sentId]
    split_ifs <;> simp [idBytes]
  have hoptional (bytes : List UInt8) :
      (if bytes = [] then ([] : List (List UInt8)) else [bytes]).flatten = bytes := by
    split_ifs with hnil
    · exact hnil.symm
    · exact List.flatten_singleton
  rw [partsOf, publishParts, List.flatten_append, List.flatten_append, List.flatten_append,
    List.flatten_append, hid, hoptional, hoptional, publishPacket, publishBody, prefixed, sized,
    publishHead, Nat.min_eq_left h.topic]
  simp

/-- What is done with a PUBLISH that passed its checks, before its first byte goes out. -/
def registerPublish (env : Environment W) (publish : OutgoingPublish) (packetId : UInt16) :
    Client W (List (List UInt8)) := do
  Prog.when (publish.qos ≠ .atMostOnce) (reservePublish publish packetId)
  Prog.when (publish.qos ≠ .atMostOnce)
    (keep env packetId.toUInt32 (partsOf { publish with dup := true } packetId))
  pure (partsOf publish packetId)

theorem duplicateHeader_publishHead (publish : OutgoingPublish) (n : ℕ) (rest : List UInt8) :
    (duplicateHeader publish.dup (publishHead (publishFlags publish) n publish.topicName ++ rest) :
        Client W _) =
      pure (publishHead (publishFlags { publish with dup := true }) n publish.topicName ++
        rest) := by
  rw [duplicateHeader]
  split_ifs with hdup
  · have hsame : { publish with dup := true } = publish := by
      obtain ⟨qos, dup, retain, topicName, payload, properties⟩ := publish
      rw [show dup = true from hdup]
    rw [hsame]
  · rw [publishHead, List.cons_append, List.cons_append, List.headD_cons,
      check_bind_of_ok (updateDuplicateFlag_publishFlags publish)]
    rfl

/-- The checks leave everything as it is, and after them only the records and the store are left
to refuse. -/
theorem preparePublish_apply (message : OutgoingPublish) (packetId : UInt16) (s : Sys W) :
    preparePublish env message packetId s =
      match checkPublish s.context message packetId with
      | .error e => (.error (.error e), s)
      | .ok _ => registerPublish env message packetId s := by
  have hok {α β : Type} (a : α) (f : α → Except ClientError β) :
      ((.ok a : Except ClientError α) >>= f) = f a := rfl
  rw [preparePublish, Prog.bind_of_ok (context_apply s), checkPublish]
  cases hvalid : s.context.validatePublish message.qos packetId message.topicName.length
      message.payload.length with
  | error e => rfl
  | ok u =>
  rw [check_bind_of_ok rfl, topicAliasOf_eq, hok]
  cases sectionAlias s.context message.properties with
  | error e => rfl
  | ok topicAlias =>
  rw [check_bind_of_ok rfl, hok]
  dsimp only
  cases validatePublishParams message s.context.properties.server.retainAvailable
      s.context.properties.server.maxQos (topicAlias.getD 0)
      s.context.properties.server.maxPacketSize with
  | error e => rfl
  | ok u =>
  rw [check_bind_of_ok rfl, Except.mapError, hok]
  cases hsize : publishPacketSize message s.context.properties.server.maxPacketSize with
  | error e => rfl
  | ok size =>
  obtain ⟨hfits, -, rfl⟩ := publishPacketSize_eq_ok_iff.mp hsize
  obtain ⟨hlengthSize, hlength⟩ := encodeVariableLength_spec hfits.properties_le
  rw [check_bind_of_ok rfl, Except.mapError, hok]
  dsimp only
  rw [serializePublishHeaderWithoutTopic_seven message hfits.length, check_bind_of_ok rfl]
  dsimp only
  rw [connected, Prog.bind_assoc, Prog.bind_of_ok (context_apply s)]
  cases s.context.connected with
  | error e => rfl
  | ok u =>
  rw [check_bind_of_ok rfl, hlengthSize, hlength, duplicateHeader_publishHead]
  simp only [Prog.pure_bind, List.take_left' (length_publishHead _ hfits.length _),
    length_publishHead _ hfits.length]
  rfl

/-- Whatever the store is given consists of certain bytes. -/
def Keeps (packet : List UInt8) : Observation → Prop
  | .stored _ parts _ => parts.flatten = packet
  | _ => True

theorem onRecords_noted {α : Type} {P : Observation → Prop}
    (h : ∀ r c answer, P (.recorded r c answer)) (call : Call)
    (f : PublishRecords → Except StateError α × PublishRecords) :
    (onRecords call f : Client W _).Moves (Logs P) := by
  intro s
  cases hr : s.context.records with
  | none =>
    rw [onRecords_none hr]
    exact refl_of (Logs P) s
  | some r =>
    rw [onRecords_some hr]
    exact .one rfl (h _ _ _)

theorem reservePublish_noted {P : Observation → Prop} (h : ∀ r c answer, P (.recorded r c answer))
    (message : OutgoingPublish) (packetId : UInt16) :
    (reservePublish message packetId : Client W Unit).Moves (Logs P) :=
  (onRecords_noted h _ _).bind fun _ => .when ((accepted_moves _).bind fun _ => .pure _)

variable (env) in
theorem registerPublish_noted {message : OutgoingPublish} (packetId : UInt16)
    (hfits : message.Fits) : (registerPublish env message packetId).Moves
      (Logs fun o => o.taken = [] ∧ Keeps (markDuplicate (publishPacket message packetId)) o) := by
  have hparts : (partsOf { message with dup := true } packetId).flatten =
      markDuplicate (publishPacket message packetId) := by
    have hdup : OutgoingPublish.Fits { message with dup := true } := ⟨hfits.topic, hfits.length⟩
    rw [flatten_partsOf hdup, publishPacket_dup]
  have hkeep : (keep env packetId.toUInt32 (partsOf { message with dup := true } packetId)).Moves
      (Logs fun o => o.taken = [] ∧
        Keeps (markDuplicate (publishPacket message packetId)) o) := by
    have hstore : (store env packetId.toUInt32 (partsOf { message with dup := true } packetId)).Moves
        (Logs fun o => o.taken = [] ∧
          Keeps (markDuplicate (publishPacket message packetId)) o) :=
      fun s => .one rfl ⟨rfl, hparts⟩
    exact .ite (hstore.bind fun _ => refuse_moves _ _) (.pure _)
  exact (Prog.Moves.when (reservePublish_noted (fun _ _ _ => ⟨rfl, trivial⟩) _ _)).bind fun _ =>
    (Prog.Moves.when hkeep).bind fun _ => .pure _

theorem checkPublish_eq_ok {c : MqttContext} {message : OutgoingPublish} {packetId : UInt16}
    {size : PacketSize} (h : checkPublish c message packetId = .ok size) :
    publishPacketSize message c.properties.server.maxPacketSize = .ok size ∧
      c.connectStatus = .connected := by
  rw [checkPublish] at h
  rw [except_bind_eq_ok] at h
  obtain ⟨_, -, h⟩ := h
  rw [except_bind_eq_ok] at h
  obtain ⟨_, -, h⟩ := h
  rw [except_bind_eq_ok] at h
  obtain ⟨_, -, h⟩ := h
  rw [except_bind_eq_ok] at h
  obtain ⟨size', hsize, h⟩ := h
  rw [except_bind_eq_ok] at h
  obtain ⟨_, hconnected, h⟩ := h
  obtain rfl := Except.ok.inj h
  refine ⟨?_, connected_eq_ok.mp hconnected⟩
  cases hanswer : publishPacketSize message c.properties.server.maxPacketSize with
  | error e =>
    rw [hanswer] at hsize
    cases hsize
  | ok size =>
    rw [hanswer] at hsize
    exact congrArg _ (Except.ok.inj hsize)

theorem registerPublish_eq_ok {message : OutgoingPublish} {packetId : UInt16}
    {parts : List (List UInt8)} {s t : Sys W}
    (h : registerPublish env message packetId s = (.ok parts, t)) :
    parts = partsOf message packetId := by
  rw [registerPublish] at h
  rw [Prog.bind_eq_ok] at h
  obtain ⟨_, u, -, h⟩ := h
  rw [Prog.bind_eq_ok] at h
  obtain ⟨_, v, -, h⟩ := h
  exact (Except.ok.inj (Prod.mk.inj h).1).symm

theorem sendVectors_keeps (env : Environment W) (packet : List UInt8) (vectors : List (List UInt8)) :
    (sendVectors env vectors).Moves (Logs (Keeps packet)) := by
  apply sendVectors_moves
  · exact ⟨fun _ => .one rfl trivial, fun _ _ => .same rfl, fun s => .same rfl⟩
  · exact fun _ _ _ => .one rfl trivial

theorem sentPublish_noted {P : Observation → Prop} (h : ∀ r c answer, P (.recorded r c answer))
    (packetId : UInt16) (qos : QoS) :
    (Prog.when (qos ≠ .atMostOnce) (do
      let answer ← updatePublish packetId .send qos
      let _ ← accepted answer
      pure ()) : Client W Unit).Moves (Logs P) :=
  .when ((onRecords_noted h _ _).bind fun _ => (accepted_moves _).bind fun _ => .pure _)

/-- A PUBLISH that was sent went out whole, and the store was given nothing but its copy. -/
theorem publish_noted {message : OutgoingPublish} {packetId : UInt16} {s t : Sys W}
    (h : publish env message packetId s = (.ok (), t)) :
    (∃ size, checkPublish s.context message packetId = .ok size) ∧
      wire (noted s t) = publishPacket message packetId ∧
      ∀ o ∈ noted s t, Keeps (markDuplicate (publishPacket message packetId)) o := by
  rw [publish_eq, Prog.bind_eq_ok] at h
  obtain ⟨parts, u, hprepare, h⟩ := h
  rw [preparePublish_apply] at hprepare
  cases hcheck : checkPublish s.context message packetId with
  | error e =>
    rw [hcheck] at hprepare
    cases hprepare
  | ok size =>
  rw [hcheck] at hprepare
  dsimp only at hprepare
  obtain ⟨hfits, -, -⟩ := publishPacketSize_eq_ok_iff.mp (checkPublish_eq_ok hcheck).1
  obtain rfl := registerPublish_eq_ok hprepare
  have hregister := registerPublish_noted env packetId hfits s
  rw [hprepare] at hregister
  obtain ⟨before, hu, hbefore⟩ := hregister
  rw [deliverPublish] at h
  rw [Prog.bind_eq_ok] at h
  obtain ⟨outcome, v, hsend, h⟩ := h
  rw [Prog.bind_eq_ok] at h
  obtain ⟨_, w, hwhole, h⟩ := h
  obtain ⟨rfl, rfl⟩ := sentWhole_eq_ok.mp hwhole
  have hkept := sendVectors_keeps env (markDuplicate (publishPacket message packetId))
    (partsOf message packetId) u
  obtain ⟨sent, hv, -, hwire⟩ := sendVectors_sent env hsend
  rw [hsend] at hkept
  rw [flatten_partsOf hfits, List.take_length] at hwire
  have hupdate := sentPublish_noted (P := fun o => o.taken = [] ∧
    Keeps (markDuplicate (publishPacket message packetId)) o) (fun _ _ _ => ⟨rfl, trivial⟩)
    packetId message.qos w
  rw [h] at hupdate
  obtain ⟨after, ht, hafter⟩ := hupdate
  have hsent : noted u w = sent := noted_eq hv
  have hlog : t.log = s.log ++ (before ++ sent ++ after) := by
    rw [ht, hv, hu, List.append_assoc, List.append_assoc, List.append_assoc]
  rw [noted_eq hlog]
  refine ⟨⟨size, rfl⟩, ?_, ?_⟩
  · rw [wire_append, wire_append, wire_of_mute fun o ho => (hbefore o ho).1,
      wire_of_mute fun o ho => (hafter o ho).1, hwire, List.nil_append, List.append_nil]
  · intro o ho
    rw [List.mem_append, List.mem_append] at ho
    obtain (ho | ho) | ho := ho
    · exact (hbefore o ho).2
    · rw [← hsent] at ho
      exact (Logs.noted hkept).2 o ho
    · exact (hafter o ho).2

/-- A PUBLISH that goes out and that the serializer accepts goes out as the serializer writes it.
The copy that is kept has the duplicate flag set and is the same otherwise, and both headers are
first parts of the packet. -/
theorem publish_serialized {message : OutgoingPublish} {packetId : UInt16} {s t : Sys W}
    (h : publish env message packetId s = (.ok (), t)) :
    ∃ size, publishPacketSize message s.context.properties.server.maxPacketSize = .ok size ∧
      ∀ destination written out,
        serializePublish message packetId size.remainingLength destination = (.ok written, out) →
          wire (noted s t) = out.take written ∧
          (∀ o ∈ noted s t, Keeps (markDuplicate (out.take written)) o) ∧
          (message.dup = true → markDuplicate (out.take written) = out.take written) ∧
          (∀ header length laid, serializePublishHeader message packetId size.remainingLength
              header = (.ok length, laid) →
            length ≤ written ∧ laid.take length = (out.take written).take length) ∧
          ∀ header length laid, serializePublishHeaderWithoutTopic message size.remainingLength
              header = (.ok length, laid) →
            length ≤ written ∧ laid.take length = (out.take written).take length := by
  obtain ⟨⟨size, hcheck⟩, hwire, hkeeps⟩ := publish_noted h
  have hsize := (checkPublish_eq_ok hcheck).1
  obtain ⟨hfits, -, rfl⟩ := publishPacketSize_eq_ok_iff.mp hsize
  refine ⟨_, hsize, ?_⟩
  dsimp only
  intro destination written out hwritten
  obtain ⟨hstrict, hroom⟩ := strict_of_serializePublish hwritten
  have hlength := length_publishPacket hstrict hfits
  rw [serializePublish_eq hstrict hfits hroom] at hwritten
  obtain ⟨hok, rfl⟩ := Prod.mk.inj hwritten
  obtain rfl := Except.ok.inj hok
  have hfirst {front laid : List UInt8} (hfront : front <+: publishPacket message packetId)
      (hlaid : front <+: laid) : front.length ≤ wholePacketSize (publishLength message) ∧
        laid.take front.length = (publishPacket message packetId).take front.length := by
    rw [← hlength]
    exact ⟨hfront.length_le,
      (List.prefix_iff_eq_take.mp hlaid).symm.trans (List.prefix_iff_eq_take.mp hfront)⟩
  rw [List.take_left' hlength]
  refine ⟨hwire, hkeeps, fun hdup => markDuplicate_publishPacket hdup packetId, ?_, ?_⟩
  · intro header length laid hheader
    obtain ⟨rfl, hlaid⟩ := serializePublishHeader_eq_ok hstrict hfits hheader
    apply hfirst _ hlaid
    rw [publishPacket_eq_front]
    exact List.prefix_append _ _
  · intro header length laid hheader
    obtain ⟨rfl, hlaid⟩ := prefix_of_serializePublishHeaderWithoutTopic hfits.length hheader
    exact hfirst (publishHead_infront hfits packetId) hlaid

/-- A client with a connection, and records for one message each way. -/
def readyScript : Sys Script where
  context := { (MqttContext.new []).enableQos [Record.default] [Record.default] [] with
    connectStatus := .connected }
  world := {}

def smallMessage : OutgoingPublish where
  qos := .atLeastOnce
  dup := false
  retain := false
  topicName := [116]
  payload := [7, 8]
  properties := []

theorem publish_serialized_of_small :
    wire (noted readyScript (publish (Script.environment true) smallMessage 1 readyScript).2) =
      [0x32, 8, 0, 1, 116, 0, 1, 0, 7, 8] := by
  have hok : (publish (Script.environment true) smallMessage 1 readyScript).1 = .ok () := by
    decide +kernel
  obtain ⟨size, hsize, hall⟩ := publish_serialized (Prod.ext hok rfl)
  have hsame : publishPacketSize smallMessage readyScript.context.properties.server.maxPacketSize =
      .ok ⟨8, 10⟩ := by decide +kernel
  obtain rfl := Except.ok.inj (hsize.symm.trans hsame)
  have hwritten : serializePublish smallMessage 1 8 (List.replicate 10 0) =
      (.ok 10, [0x32, 8, 0, 1, 116, 0, 1, 0, 7, 8]) := by decide +kernel
  exact (hall _ _ _ hwritten).1

end Client

end RtosMqtt
