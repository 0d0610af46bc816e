import RtosMqtt.Wire.Fields

/-! # A CONNECT

The flags byte is built in one place, the lengths in another and the body in a
third. They have to agree on what is there: the flags alone tell a broker which
of the optional fields follow.
-/

namespace RtosMqtt

open Writing

def putConnectSection (properties : List UInt8) (start : ℕ) : Serializing ℕ := do
  let length ← Prog.lift (connectSectionLength properties)
  putSection start properties length

def putWill (will : Will) (start : ℕ) : Serializing ℕ := do
  let start ← putConnectSection will.properties start
  let start ← putString will.topicName start
  putString will.payload start

def putConnectFields (connect : Connect) (start : ℕ) : Serializing ℕ := do
  let start ← putConnectSection connect.properties start
  let start ← putString connect.clientIdentifier start
  let start ← connect.will.elim (pure start) fun will => putWill will start
  let start ← connect.info.username.elim (pure start) fun username => putString username start
  connect.info.password.elim (pure start) fun password => putString password start

/-- The bounds of the will's payload and of the sections are not looked at again. -/
def serializeConnect (connect : Connect) (remainingLength : ℕ) : Serializing ℕ := do
  Prog.refuse (u16Max < connect.clientIdentifier.length ∨
    connect.info.username.any (u16Max < ·.length) ∨
    connect.info.password.any (u16Max < ·.length) ∨
    connect.will.any (u16Max < ·.topicName.length)) .badParameter
  let destination ← Prog.get
  Prog.refuse (destination.length < wholePacketSize remainingLength) .noMemory
  let (start, destination) :=
    serializeConnectFixedHeader destination connect.info (connect.will.map Will.info)
      remainingLength
  Prog.modify fun _ => destination
  Prog.refuse (start = 0) .noMemory
  putConnectFields connect start

def protocolPreamble : List UInt8 := [0x00, 0x04, 0x4D, 0x51, 0x54, 0x54, 0x05]

/-- The reserved bit is clear, there is no QoS 3, and only a will has a QoS. -/
def flagsValid (flags : UInt8) : Bool :=
  flags &&& bit 0 == 0 && !(flags &&& bit 3 != 0 && flags &&& bit 4 != 0) &&
    (flags &&& bit 2 != 0 || flags &&& (bit 3 ||| bit 4 ||| bit 5) == 0)

def willInfo (flags : UInt8) : WillInfo where
  qos :=
    if flags &&& bit 4 ≠ 0 then .exactlyOnce
    else if flags &&& bit 3 ≠ 0 then .atLeastOnce
    else .atMostOnce
  retain := flags &&& bit 5 != 0

def willScan (flags : UInt8) : Scan UInt8 Will :=
  sectionField.bind fun properties =>
  stringField.bind fun topicName =>
  stringField.bind fun payload =>
  .done { info := willInfo flags, topicName, payload, properties }

def connectBodyScan : Scan UInt8 Connect :=
  ((Scan.taking 7).only fun bytes _ => bytes == protocolPreamble).bind fun _ =>
  (Scan.item flagsValid).bind fun flags =>
  twoBytes.bind fun keepAliveSeconds =>
  sectionField.bind fun properties =>
  stringField.bind fun clientIdentifier =>
  (Scan.optional (flags &&& bit 2 != 0) (willScan flags)).bind fun will =>
  (Scan.optional (flags &&& bit 7 != 0) stringField).bind fun username =>
  (Scan.optional (flags &&& bit 6 != 0) stringField).bind fun password =>
  .done
    { info := { cleanSession := flags &&& bit 1 != 0, keepAliveSeconds, username, password }
      clientIdentifier, properties, will }

def connectScan : Scan UInt8 Connect :=
  (Scan.item (· == Packet.connect)).bind fun _ =>
  lengthScan.bind fun remainingLength => .exactly remainingLength connectBodyScan

def willBytes (will : Will) : List UInt8 :=
  sized will.properties ++ (prefixed will.topicName ++ prefixed will.payload)

def connectFieldBytes (connect : Connect) : List UInt8 :=
  sized connect.properties ++ (prefixed connect.clientIdentifier ++
    (connect.will.elim [] willBytes ++
      (connect.info.username.elim [] prefixed ++ connect.info.password.elim [] prefixed)))

def connectBody (connect : Connect) : List UInt8 :=
  protocolPreamble ++ ([connectFlags connect.info (connect.will.map Will.info)] ++
    (toBeBytes16 connect.info.keepAliveSeconds ++ connectFieldBytes connect))

structure Connect.Fits (connect : Connect) : Prop where
  identifier : connect.clientIdentifier.length ≤ u16Max
  properties : connect.properties.length ≤ maxRemainingLength
  username : ∀ username, connect.info.username = some username → username.length ≤ u16Max
  password : ∀ password, connect.info.password = some password → password.length ≤ u16Max
  will : ∀ will, connect.will = some will →
    will.topicName.length ≤ u16Max ∧ will.payload.length ≤ u16Max ∧
      will.properties.length ≤ maxRemainingLength

theorem satAdd_of_le {a b : ℕ} (h : a + b ≤ u32Max) : satAdd a b = a + b := Nat.min_eq_left h

theorem fieldSize_eq {length : ℕ} (h : length ≤ u16Max) : fieldSize length = length + 2 := by
  rw [u16Max] at h
  rw [fieldSize, Nat.min_eq_left (by rw [u32Max]; omega), satAdd_of_le (by rw [u32Max]; omega)]

theorem connectSectionLength_eq_ok {properties : List UInt8} {length : ℕ} :
    connectSectionLength properties = .ok length ↔
      properties.length ≤ maxRemainingLength ∧ length = properties.length := by
  rw [connectSectionLength, refuseIf_bind_eq_ok, refuseIf_bind_eq_ok, Nat.not_lt, Nat.not_lt]
  constructor
  · rintro ⟨-, hle, h⟩
    exact ⟨hle, (Except.ok.inj h).symm⟩
  · rintro ⟨hle, rfl⟩
    refine ⟨?_, hle, rfl⟩
    rw [maxRemainingLength] at hle
    rw [u32Max]
    omega

theorem not_any_iff {α : Type} {value : Option (List α)} {bound : ℕ} :
    ¬ value.any (fun bytes => decide (bound < bytes.length)) = true ↔
      ∀ bytes, value = some bytes → bytes.length ≤ bound := by
  cases value <;> simp

theorem length_connectBody {connect : Connect} (h : connect.Fits) :
    (connectBody connect).length = 10 + connect.properties.length +
      variableLengthEncodedSize connect.properties.length + (connect.clientIdentifier.length + 2) +
      connect.will.elim 0 (fun will => will.properties.length +
        variableLengthEncodedSize will.properties.length + (will.topicName.length + 2) +
          (will.payload.length + 2)) +
      connect.info.username.elim 0 (·.length + 2) + connect.info.password.elim 0 (·.length + 2) := by
  obtain ⟨⟨cleanSession, keepAlive, username, password⟩, identifier, properties, will⟩ := connect
  have hproperties := length_sized h.properties
  have hpreamble : protocolPreamble.length = 7 := rfl
  have halive : (toBeBytes16 keepAlive).length = 2 := rfl
  cases will with
  | none =>
    cases username <;> cases password <;>
      simp only [connectBody, connectFieldBytes, Option.elim, List.length_append, length_prefixed,
        List.length_singleton, List.length_nil, hproperties, hpreamble, halive] <;> omega
  | some will =>
    have hwill := length_sized (h.will will rfl).2.2
    cases username <;> cases password <;>
      simp only [connectBody, connectFieldBytes, willBytes, Option.elim, List.length_append,
        length_prefixed, List.length_singleton, List.length_nil, hproperties, hpreamble, halive,
        hwill] <;> omega

/-- A CONNECT has a size when its fields fit, and the sizes count what is laid down. -/
theorem connectPacketSize_eq_ok {connect : Connect} {size : PacketSize}
    (h : connectPacketSize connect = .ok size) :
    connect.Fits ∧ (connectBody connect).length = size.remainingLength ∧
      size.remainingLength ≤ maxRemainingLength ∧
      size.packetSize = wholePacketSize size.remainingLength := by
  rw [connectPacketSize, refuseIf_bind_eq_ok, refuseIf_bind_eq_ok, refuseIf_bind_eq_ok,
    refuseIf_bind_eq_ok, refuseIf_bind_eq_ok, except_bind_eq_ok] at h
  obtain ⟨-, hidentifier, husername, hpassword, hwill, propertyLength, hlength, h⟩ := h
  rw [except_bind_eq_ok] at h
  obtain ⟨willPropertyLength, hwillLength, h⟩ := h
  obtain ⟨hproperties, rfl⟩ := connectSectionLength_eq_ok.mp hlength
  rw [refuseIf_bind_eq_ok] at h
  obtain ⟨hmax, h⟩ := h
  obtain rfl := Except.ok.inj h
  have hfits : connect.Fits := by
    refine ⟨Nat.not_lt.mp hidentifier, hproperties, not_any_iff.mp husername,
      not_any_iff.mp hpassword, ?_⟩
    intro will hsome
    rw [hsome] at hwill hwillLength
    have hbounds := not_or.mp fun h => hwill (decide_eq_true h)
    exact ⟨Nat.not_lt.mp hbounds.2, Nat.not_lt.mp hbounds.1,
      (connectSectionLength_eq_ok.mp hwillLength).1⟩
  refine ⟨hfits, ?_, Nat.not_lt.mp hmax, rfl⟩
  rw [length_connectBody hfits]
  have hsum {a b : ℕ} (hab : a + b ≤ 4294967295) : satAdd a b = a + b := satAdd_of_le hab
  have hfield {length : ℕ} (hle : length ≤ 65535) : fieldSize length = length + 2 :=
    fieldSize_eq hle
  obtain ⟨⟨cleanSession, keepAlive, username, password⟩, identifier, properties, will⟩ := connect
  obtain ⟨hid, hproperties, husername, hpassword, hwills⟩ := hfits
  have hsize := variableLengthEncodedSize_le properties.length
  have huser : username.elim 0 (·.length) ≤ 65535 := by
    cases username with
    | none => exact Nat.zero_le _
    | some username => exact husername username rfl
  have hpass : password.elim 0 (·.length) ≤ 65535 := by
    cases password with
    | none => exact Nat.zero_le _
    | some password => exact hpassword password rfl
  simp only [u16Max, maxRemainingLength, connectHeaderSize] at hid hproperties ⊢
  cases will with
  | none =>
    cases username <;> cases password <;> simp only [Option.elim] at huser hpass ⊢ <;>
      simp (disch := omega) only [hfield, hsum] <;> omega
  | some will =>
    obtain ⟨htopic, hpayload, hwillProperties⟩ := hwills will rfl
    obtain ⟨-, rfl⟩ := connectSectionLength_eq_ok.mp hwillLength
    have hwillSize := variableLengthEncodedSize_le will.properties.length
    simp only [u16Max, maxRemainingLength] at htopic hpayload hwillProperties
    cases username <;> cases password <;> simp only [Option.elim] at huser hpass ⊢ <;>
      simp (disch := omega) only [hfield, hsum] <;> omega

theorem connectFlags_spec (connect : ConnectInfo) (will : Option WillInfo) :
    flagsValid (connectFlags connect will) = true ∧
      (connectFlags connect will &&& bit 1 != 0) = connect.cleanSession ∧
      (connectFlags connect will &&& bit 2 != 0) = will.isSome ∧
      (connectFlags connect will &&& bit 6 != 0) = connect.password.isSome ∧
      (connectFlags connect will &&& bit 7 != 0) = connect.username.isSome ∧
      will.all (willInfo (connectFlags connect will) = ·) = true := by
  unfold connectFlags
  generalize connect.cleanSession = clean
  generalize connect.username.isSome = username
  generalize connect.password.isSome = password
  rcases will with - | ⟨qos, retain⟩
  · revert clean username password
    decide
  · cases qos <;> (revert clean username password retain; decide)

open Scan

theorem spells_willScan {flags : UInt8} {will : Will} (hinfo : willInfo flags = will.info)
    (htopic : will.topicName.length ≤ u16Max) (hpayload : will.payload.length ≤ u16Max)
    (hproperties : will.properties.length ≤ maxRemainingLength) :
    Spells (willScan flags) (willBytes will) will := by
  apply (spells_sectionField hproperties).bind
  apply (spells_stringField htopic).bind
  rw [hinfo]
  exact (spells_stringField hpayload).map _

theorem spells_connectBodyScan {connect : Connect} (h : connect.Fits) :
    Spells connectBodyScan (connectBody connect) connect := by
  obtain ⟨hvalid, hclean, hwill, hpassword, husername, hinfo⟩ :=
    connectFlags_spec connect.info (connect.will.map Will.info)
  rw [Option.isSome_map] at hwill
  apply ((spells_taking protocolPreamble).only (beq_self_eq_true _)).bind
  apply (spells_item hvalid).bind
  apply (spells_twoBytes _).bind
  apply (spells_sectionField h.properties).bind
  apply (spells_stringField h.identifier).bind
  rw [hwill, husername, hpassword, hclean]
  have hwillScan (will : Will) (hsome : connect.will = some will) :
      Spells (willScan (connectFlags connect.info (connect.will.map Will.info)))
        (willBytes will) will := by
    obtain ⟨htopic, hpayload, hproperties⟩ := h.will will hsome
    apply spells_willScan _ htopic hpayload hproperties
    rw [hsome] at hinfo ⊢
    exact of_decide_eq_true hinfo
  apply (spells_optional _ hwillScan).bind
  apply (spells_optional _ fun username hsome => spells_stringField (h.username _ hsome)).bind
  exact (spells_optional _ fun password hsome => spells_stringField (h.password _ hsome)).map _

def connectPacket (connect : Connect) : List UInt8 :=
  [Packet.connect] ++ (encodedLength (connectBody connect).length ++ connectBody connect)

theorem spells_connectScan {connect : Connect} (h : connect.Fits)
    (hmax : (connectBody connect).length ≤ maxRemainingLength) :
    Spells connectScan (connectPacket connect) connect := by
  have htype : Spells (item (· == Packet.connect)) [Packet.connect] Packet.connect :=
    spells_item rfl
  apply htype.bind
  apply (spells_lengthScan hmax).bind
  exact (spells_connectBodyScan h).exactly

theorem appends_putConnectSection {properties : List UInt8}
    (h : properties.length ≤ maxRemainingLength) :
    Appends (putConnectSection properties) (sized properties) := by
  intro before rest hroom
  rw [putConnectSection, connectSectionLength_eq_ok.mpr ⟨h, rfl⟩, Prog.lift_ok_bind]
  exact appends_putSection h before rest hroom

theorem appends_putWill {will : Will} (htopic : will.topicName.length ≤ u16Max)
    (hpayload : will.payload.length ≤ u16Max)
    (hproperties : will.properties.length ≤ maxRemainingLength) :
    Appends (putWill will) (willBytes will) :=
  (appends_putConnectSection hproperties).bind
    ((appends_putString htopic).bind (appends_putString hpayload))

theorem appends_putConnectFields {connect : Connect} (h : connect.Fits) :
    Appends (putConnectFields connect) (connectFieldBytes connect) := by
  apply (appends_putConnectSection h.properties).bind
  apply (appends_putString h.identifier).bind
  have hwill (will : Will) (hsome : connect.will = some will) :
      Appends (putWill will) (willBytes will) := by
    obtain ⟨htopic, hpayload, hproperties⟩ := h.will will hsome
    exact appends_putWill htopic hpayload hproperties
  apply (appends_optional _ hwill).bind
  apply (appends_optional _ fun username hsome => appends_putString (h.username _ hsome)).bind
  exact appends_optional _ fun password hsome => appends_putString (h.password _ hsome)

theorem Appends.after {ε : Type} {e : ε} {w : ℕ → Prog (List UInt8) ε ℕ} {more : List UInt8}
    (h : Appends w more) (bytes : List UInt8) :
    Appends (fun start => do writeAt e start bytes; w (start + bytes.length)) (bytes ++ more) := by
  intro before rest hroom
  rw [List.length_append] at hroom
  have hmore := h (before ++ bytes) (rest.drop bytes.length) (by rw [List.length_drop]; omega)
  rw [List.length_append, List.drop_drop] at hmore
  dsimp only
  rw [Prog.bind_of_ok (writeAt_append e before rest bytes (by omega)), hmore, List.length_append,
    Nat.add_assoc, List.append_assoc before]

def connectHead (connect : ConnectInfo) (will : Option WillInfo) : List UInt8 :=
  protocolPreamble ++ ([connectFlags connect will] ++ toBeBytes16 connect.keepAliveSeconds)

theorem serializeConnectFixedHeader_eq (connect : ConnectInfo) (will : Option WillInfo) {n : ℕ}
    (hn : n ≤ maxRemainingLength) {destination : List UInt8}
    (hroom : 11 + variableLengthEncodedSize n ≤ destination.length) :
    serializeConnectFixedHeader destination connect will n =
      (11 + variableLengthEncodedSize n,
        Packet.connect :: encodedLength n ++ connectHead connect will ++
          destination.drop (11 + variableLengthEncodedSize n)) := by
  have hhead := Writing.header_eq Packet.connect hn
    (by omega : 1 + variableLengthEncodedSize n + 6 + 1 + 1 + 2 ≤ destination.length) (by omega)
  have hstart : (Packet.connect :: encodedLength n).length = 1 + variableLengthEncodedSize n := by
    rw [List.length_cons, length_encodedLength hn, Nat.add_comm]
  have happends : Appends (fun start => (do
      putU16 start 4
      writeAt () (start + 2) [0x4D, 0x51, 0x54, 0x54]
      put (start + 6) version5
      put (start + 7) (connectFlags connect will)
      putU16 (start + 8) connect.keepAliveSeconds
      pure (start + 6 + 1 + 1 + 2) : Writing ℕ)) (connectHead connect will) :=
    ((((appends_pure.after _).after [connectFlags connect will]).after [version5]).after
      [0x4D, 0x51, 0x54, 0x54]).after (toBeBytes16 4)
  have hbody := happends (Packet.connect :: encodedLength n)
    (destination.drop (1 + variableLengthEncodedSize n))
    (by rw [List.length_drop]; change 10 ≤ _; omega)
  have hten : (connectHead connect will).length = 10 := rfl
  dsimp only at hbody
  rw [hstart, hten, List.drop_drop] at hbody
  have htotal : 1 + variableLengthEncodedSize n + 10 = 11 + variableLengthEncodedSize n := by omega
  rw [serializeConnectFixedHeader, Writing.written, Prog.bind_of_ok hhead, hbody, htotal]

theorem length_connectPacket {connect : Connect}
    (h : (connectBody connect).length ≤ maxRemainingLength) :
    (connectPacket connect).length = wholePacketSize (connectBody connect).length := by
  have hsize := variableLengthEncodedSize_le (connectBody connect).length
  rw [maxRemainingLength] at h
  have hinner : satAdd (connectBody connect).length
      (variableLengthEncodedSize (connectBody connect).length) =
        (connectBody connect).length + variableLengthEncodedSize (connectBody connect).length :=
    satAdd_of_le (by rw [u32Max]; omega)
  rw [wholePacketSize, hinner, satAdd_of_le (by rw [u32Max]; omega), connectPacket,
    List.length_append, List.length_append, length_encodedLength h, List.length_singleton]
  omega

theorem Connect.Fits.bounds {connect : Connect} (h : connect.Fits) :
    ¬ (u16Max < connect.clientIdentifier.length ∨
      connect.info.username.any (u16Max < ·.length) ∨
      connect.info.password.any (u16Max < ·.length) ∨
      connect.will.any (u16Max < ·.topicName.length)) := by
  rw [not_or, not_or, not_or]
  refine ⟨Nat.not_lt.mpr h.identifier, not_any_iff.mpr h.username, not_any_iff.mpr h.password, ?_⟩
  cases hwill : connect.will with
  | none => exact Bool.false_ne_true
  | some will => simpa using (h.will will hwill).1

theorem connectPacket_eq_head (connect : Connect) : connectPacket connect =
    Packet.connect :: encodedLength (connectBody connect).length ++
      connectHead connect.info (connect.will.map Will.info) ++ connectFieldBytes connect := by
  have hbody : connectBody connect =
      connectHead connect.info (connect.will.map Will.info) ++ connectFieldBytes connect := by
    rw [connectBody, connectHead, List.append_assoc, List.append_assoc]
  rw [connectPacket, List.append_assoc, ← hbody]
  rfl

/-- With the length that was calculated, the serializer writes the packet. -/
theorem serializeConnect_eq {connect : Connect} (h : connect.Fits)
    (hmax : (connectBody connect).length ≤ maxRemainingLength) {destination : List UInt8}
    (hroom : (connectPacket connect).length ≤ destination.length) :
    serializeConnect connect (connectBody connect).length destination =
      (.ok (connectPacket connect).length,
        connectPacket connect ++ destination.drop (connectPacket connect).length) := by
  have hwhole := length_connectPacket hmax
  have hten : (connectHead connect.info (connect.will.map Will.info)).length = 10 := rfl
  have hpacket := connectPacket_eq_head connect
  have hstart : (Packet.connect :: encodedLength (connectBody connect).length ++
      connectHead connect.info (connect.will.map Will.info)).length =
        11 + variableLengthEncodedSize (connectBody connect).length := by
    rw [List.length_append, List.length_cons, length_encodedLength hmax, hten]
    omega
  have htotal : (connectPacket connect).length =
      11 + variableLengthEncodedSize (connectBody connect).length +
        (connectFieldBytes connect).length := by
    rw [hpacket, List.length_append, hstart]
  have hhead := serializeConnectFixedHeader_eq connect.info (connect.will.map Will.info) hmax
    (by omega : 11 + variableLengthEncodedSize (connectBody connect).length ≤ destination.length)
  have hfields := appends_putConnectFields h
    (Packet.connect :: encodedLength (connectBody connect).length ++
      connectHead connect.info (connect.will.map Will.info))
    (destination.drop (11 + variableLengthEncodedSize (connectBody connect).length))
    (by rw [List.length_drop]; omega)
  rw [hstart, List.drop_drop, ← htotal, ← hpacket] at hfields
  rw [serializeConnect, Prog.refuse_bind_of_not h.bounds, Prog.get_bind_apply,
    Prog.refuse_bind_of_not (by omega), hhead]
  dsimp only
  rw [Prog.modify_bind_apply, Prog.refuse_bind_of_not (by omega), hfields]

/-- Each CONNECT that has a size is written whole, and a broker reads the same CONNECT. -/
theorem connect_recovered {connect : Connect} {size : PacketSize}
    (h : connectPacketSize connect = .ok size) {destination : List UInt8}
    (hroom : size.packetSize ≤ destination.length) :
    serializeConnect connect size.remainingLength destination =
        (.ok size.packetSize,
          connectPacket connect ++ destination.drop size.packetSize) ∧
      (connectPacket connect).length = size.packetSize ∧
      (connectBody connect).length = size.remainingLength ∧
      ∀ rest, connectScan (connectPacket connect ++ rest) = .whole connect size.packetSize := by
  obtain ⟨hfits, hbody, hmax, hwhole⟩ := connectPacketSize_eq_ok h
  rw [← hbody] at hmax hwhole
  rw [← length_connectPacket hmax] at hwhole
  rw [← hbody, hwhole]
  rw [hwhole] at hroom
  exact ⟨serializeConnect_eq hfits hmax hroom, rfl, rfl, spells_connectScan hfits hmax⟩

/-- A will without a payload and a password without a character, and no user name. -/
def bareConnect : Connect where
  info := { cleanSession := true, keepAliveSeconds := 60, username := none, password := some [] }
  clientIdentifier := [99]
  properties := []
  will := some
    { info := { qos := .exactlyOnce, retain := true }
      topicName := [116], payload := [], properties := [] }

theorem connect_recovered_of_bare :
    (serializeConnect bareConnect 22 (List.replicate 24 0)).1 = .ok 24 ∧
      connectScan (connectPacket bareConnect) = .whole bareConnect 24 := by
  have hsize : connectPacketSize bareConnect = .ok ⟨22, 24⟩ := by decide +kernel
  obtain ⟨hwritten, -, -, hscan⟩ :=
    connect_recovered hsize (by decide : 24 ≤ (List.replicate 24 (0 : UInt8)).length)
  rw [hwritten, ← List.append_nil (connectPacket bareConnect)]
  exact ⟨rfl, hscan []⟩

end RtosMqtt
