import RtosMqtt.Client.Scripted
import RtosMqtt.Client.Vectors
import RtosMqtt.Wire.Agreement
import RtosMqtt.Wire.Announced

/-! # A CONNECT that was checked is sent

Between the check of a section and the first byte of the CONNECT the client writes its limits
into the session and gathers the vectors. Neither of them refuses what was checked and sized.
-/

namespace RtosMqtt

namespace Client

variable {W : Type} {env : Environment W}

section Vectors

variable {all more : List (List UInt8)} {v : ConnectVectors}

theorem pushString_within {body : List UInt8} (hall : v.parts ++ (stringParts body ++ more) = all)
    (hcount : all.length ≤ maxConnectVectors) (hsize : all.flatten.length ≤ maxPacketSizeLimit)
    (s : Sys W) :
    ∃ v', pushString v body s = (.ok v', s) ∧ v'.parts = v.parts ++ stringParts body := by
  have hlength : (stringParts body).flatten.length = 2 + body.length := by
    unfold stringParts
    split_ifs with hnil
    · rw [hnil]
      rfl
    · simp [toBeBytes16]
      omega
  subst hall
  rw [List.length_append, List.length_append] at hcount
  rw [List.flatten_append, List.flatten_append, List.length_append, List.length_append, hlength,
    ← v.total_eq] at hsize
  refine ⟨v.pushAll (stringParts body), ?_, ConnectVectors.parts_pushAll (by omega)⟩
  rw [pushString, Client.refuse, Prog.refuse_bind_of_not (by omega)]
  rfl

theorem pushOption_within {body : Option (List UInt8)}
    (hall : v.parts ++ (body.elim [] stringParts ++ more) = all)
    (hcount : all.length ≤ maxConnectVectors) (hsize : all.flatten.length ≤ maxPacketSizeLimit)
    (s : Sys W) :
    ∃ v', pushOption v body s = (.ok v', s) ∧ v'.parts = v.parts ++ body.elim [] stringParts := by
  cases body with
  | none => exact ⟨v, rfl, (List.append_nil _).symm⟩
  | some body => exact pushString_within hall hcount hsize s

theorem pushWill_within {will : Option Will}
    (hall : v.parts ++ (will.elim [] willParts ++ more) = all)
    (hcount : all.length ≤ maxConnectVectors) (hsize : all.flatten.length ≤ maxPacketSizeLimit)
    (s : Sys W) :
    ∃ v', pushWill v will s = (.ok v', s) ∧ v'.parts = v.parts ++ will.elim [] willParts := by
  cases will with
  | none => exact ⟨v, rfl, (List.append_nil _).symm⟩
  | some will =>
    rw [Option.elim_some, willParts, List.append_assoc, List.append_assoc] at hall
    have hparts : (v.pushAll (sectionParts will.properties)).parts =
        v.parts ++ sectionParts will.properties := by
      apply ConnectVectors.parts_pushAll
      rw [← hall, List.length_append, List.length_append] at hcount
      omega
    obtain ⟨topic, htopic, htopicParts⟩ :=
      pushString_within (by rw [hparts, List.append_assoc]; exact hall) hcount hsize s
    obtain ⟨payload, hpayload, hpayloadParts⟩ :=
      pushString_within (v := topic) (by
        rw [htopicParts, hparts, List.append_assoc, List.append_assoc]
        exact hall) hcount hsize s
    refine ⟨payload, (Prog.bind_of_ok htopic).trans hpayload, ?_⟩
    rw [hpayloadParts, htopicParts, hparts, Option.elim_some, willParts, List.append_assoc,
      List.append_assoc]

/-- The vectors of a CONNECT that is not too long are gathered. -/
theorem pushConnect_within {head : List UInt8} {connect : Connect}
    (hsize : (head :: connectParts connect).flatten.length ≤ maxPacketSizeLimit) (s : Sys W) :
    ∃ v, pushConnect head connect s = (.ok v, s) := by
  have hcount : (head :: connectParts connect).length ≤ maxConnectVectors :=
    length_connectParts connect
  have hparts : (ConnectVectors.empty.pushAll (head :: sectionParts connect.properties)).parts =
      head :: sectionParts connect.properties := by
    rw [ConnectVectors.parts_pushAll]
    · rfl
    · rw [List.length_cons, connectParts, List.length_append] at hcount
      rw [List.length_cons]
      exact (Nat.zero_add _).trans_le (by omega)
  have hall : head :: sectionParts connect.properties ++
      (stringParts connect.clientIdentifier ++ (connect.will.elim [] willParts ++
        (connect.info.username.elim [] stringParts ++ (connect.info.password.elim [] stringParts ++
          [])))) = head :: connectParts connect := by
    rw [connectParts, List.append_nil]
    rfl
  obtain ⟨first, hfirst, hfirstParts⟩ := pushString_within (by rw [hparts]; exact hall) hcount hsize s
  obtain ⟨second, hsecond, hsecondParts⟩ := pushWill_within (v := first) (by
    rw [hfirstParts, hparts, List.append_assoc]
    exact hall) hcount hsize s
  obtain ⟨third, hthird, hthirdParts⟩ := pushOption_within (v := second) (by
    rw [hsecondParts, hfirstParts, hparts, List.append_assoc, List.append_assoc]
    exact hall) hcount hsize s
  obtain ⟨last, hlast, -⟩ := pushOption_within (v := third) (by
    rw [hthirdParts, hsecondParts, hfirstParts, hparts, List.append_assoc, List.append_assoc,
      List.append_assoc]
    exact hall) hcount hsize s
  refine ⟨last, ?_⟩
  rw [pushConnect, Prog.bind_of_ok hfirst, Prog.bind_of_ok hsecond, Prog.bind_of_ok hthird]
  exact hlast

end Vectors

/-- A CONNECT of a size, with a section that the session takes, is offered. -/
theorem sendConnect_offers {connect : Connect} {size : PacketSize}
    (hsize : connectPacketSize connect = .ok size)
    (hupdate : ∀ before, (updateWithConnectProps connect.properties before).1 = .ok ())
    (s : Sys W) :
    ∃ (parts : List (List UInt8)) (t : Sys W), parts.flatten = connectPacket connect ∧
      t.log = s.log ∧
      sendConnect env connect size.remainingLength s =
        (sendVectors env parts >>= fun outcome => sentWhole size.packetSize outcome) t := by
  obtain ⟨⟨-, hfits⟩, hlength, rfl⟩ := connectPacketSize_eq_ok_iff.mp hsize
  have hbody : (connectBody connect).length = connectLength connect := length_connectBody hfits
  have hwidth := variableLengthEncodedSize_le (connectLength connect)
  have hhead := serializeConnectFixedHeader_eq connect.info (connect.will.map Will.info) hlength
    (by rw [List.length_replicate]; omega :
      11 + variableLengthEncodedSize (connectLength connect) ≤ (List.replicate 15 (0 : UInt8)).length)
  have hstart : (Packet.connect :: encodedLength (connectLength connect) ++
      connectHead connect.info (connect.will.map Will.info)).length =
        11 + variableLengthEncodedSize (connectLength connect) := by
    rw [List.length_append, List.length_cons, length_encodedLength hlength]
    change _ + 1 + 10 = _
    omega
  have hflat : ((Packet.connect :: encodedLength (connectLength connect) ++
      connectHead connect.info (connect.will.map Will.info)) :: connectParts connect).flatten =
        connectPacket connect := by
    rw [List.flatten_cons, flatten_connectParts hfits, connectPacket_eq_head, hbody]
  have hpacket : (connectPacket connect).length = packetLength (connectLength connect) := by
    rw [← hbody] at hlength ⊢
    rw [length_connectPacket hlength, wholePacketSize_eq_packetLength hlength]
  have hwhole : packetLength (connectLength connect) ≤ maxPacketSizeLimit := by
    have hsmall := variableLengthEncodedSize_le (connectLength connect)
    rw [maxRemainingLength] at hlength
    rw [packetLength, maxPacketSizeLimit]
    omega
  have hshort := hfits.properties
  have hannounced (t : Sys W) : ∃ u : Sys W, u.log = t.log ∧
      Prog.when (connect.properties ≠ []) (announce connect.properties) t = (.ok (), u) := by
    unfold Prog.when
    split_ifs
    · refine ⟨(announce connect.properties t).2, rfl, Prod.ext ?_ rfl⟩
      dsimp only [announce]
      rw [hupdate]
      rfl
    · exact ⟨t, rfl, rfl⟩
  rw [sendConnect, trueSize, hhead]
  dsimp only
  rw [List.take_left' hstart, Client.refuse, Prog.refuse_bind_of_not (by omega)]
  obtain ⟨u, hu, hrun⟩ := hannounced
    { s with context := { s.context with properties := { s.context.properties with
      server := { s.context.properties.server with keepAlive := connect.info.keepAliveSeconds } } } }
  obtain ⟨v, hv⟩ := pushConnect_within (by rw [hflat, hpacket]; exact hwhole) u
  have hparts : v.parts.flatten = connectPacket connect := by
    rw [pushConnect_eq_ok hv, hflat]
  refine ⟨v.parts, u, hparts, hu, ?_⟩
  rw [maxRemainingLength] at hshort
  rw [Prog.bind_of_ok (update_apply _ _), Client.refuse,
    Prog.refuse_bind_of_not (by rw [u32Max]; omega), Client.refuse,
    Prog.refuse_bind_of_not (Nat.not_lt.mpr hfits.identifier), Prog.bind_of_ok hrun,
    Prog.bind_of_ok hv, v.total_eq, hparts, hpacket]

/-- A section that the check accepts is one that the session takes, value for value, and a CONNECT
with it is refused no more before it is offered. -/
theorem connect_walkers_agree {properties : List UInt8} {found : ConnectValidation}
    (h : validateConnectProperties properties = .ok found) :
    (∀ before : ConnectionProperties, ∃ ps, properties = encodedSection ps ∧
      updateWithConnectProps properties before =
        (.ok (), { before with
          sessionExpiry :=
            (given ps PropertyId.sessionExpiry).elim before.sessionExpiry PropertyValue.long
          client := { before.client with
            receiveMax :=
              (given ps PropertyId.receiveMax).elim before.client.receiveMax PropertyValue.word
            maxPacketSize :=
              (given ps PropertyId.maxPacketSize).elim before.client.maxPacketSize PropertyValue.long
            topicAliasMax := (given ps PropertyId.topicAliasMax).elim before.client.topicAliasMax
              PropertyValue.word } }) ∧
      (∀ value, given ps PropertyId.receiveMax = some value → value.word ≠ 0) ∧
      (∀ value, given ps PropertyId.maxPacketSize = some value → value.long ≠ 0) ∧
      found.maxPacketSize = (given ps PropertyId.maxPacketSize).map PropertyValue.long) ∧
    ∀ (W : Type) (env : Environment W) (connect : Connect) (size : PacketSize) (s : Sys W),
      connect.properties = properties → connectPacketSize connect = .ok size →
        ∃ (parts : List (List UInt8)) (t : Sys W), parts.flatten = connectPacket connect ∧
          t.log = s.log ∧
          sendConnect env connect size.remainingLength s =
            (sendVectors env parts >>= fun outcome => sentWhole size.packetSize outcome) t := by
  constructor
  · exact fun before => update_of_validated h before
  · rintro W env connect size s rfl hsize
    apply sendConnect_offers hsize
    intro before
    obtain ⟨ps, -, hupdate, -⟩ := update_of_validated h before
    rw [hupdate]

/-- A session expiry, a Receive Maximum, a largest packet, and the same user property twice. -/
def announcements : List Property :=
  let note := Property.user [97] [98] ⟨by decide, by decide⟩
  [⟨PropertyId.sessionExpiry, .fourBytes 60, rfl, (by decide : 60 < 4294967296)⟩, note,
    ⟨PropertyId.receiveMax, .twoBytes 5, rfl, trivial⟩, note,
    ⟨PropertyId.maxPacketSize, .fourBytes 1024, rfl, (by decide : 1024 < 4294967296)⟩]

def limited : ConnectionProperties where
  sessionExpiry := 7
  client := { receiveMax := 9, maxPacketSize := 100, topicAliasMax := 3 }

/-- The three values are taken over, the alias limit stays, and the CONNECT is offered. -/
theorem announcements_agree :
    updateWithConnectProps (encodedSection announcements) limited =
        (.ok (), { limited with
          sessionExpiry := 60
          client := { limited.client with receiveMax := 5, maxPacketSize := 1024 } }) ∧
      ∃ (size : PacketSize) (parts : List (List UInt8)) (t : Sys Script),
        parts.flatten = connectPacket (Script.connect true (encodedSection announcements)) ∧
          t.log = [] ∧
          sendConnect (Script.environment false)
              (Script.connect true (encodedSection announcements)) size.remainingLength
              (start (List.replicate 64 0) {}) =
            (sendVectors (Script.environment false) parts >>= fun outcome =>
              sentWhole size.packetSize outcome) t := by
  have hvalid : validateConnectProperties (encodedSection announcements) =
      .ok { maxPacketSize := some 1024 } := by decide +kernel
  obtain ⟨hupdates, hsends⟩ := connect_walkers_agree hvalid
  constructor
  · obtain ⟨ps, hps, hupdate, -⟩ := hupdates limited
    obtain rfl := encodedSection_injective hps
    rw [hupdate]
    decide +kernel
  · have hsize : connectPacketSize (Script.connect true (encodedSection announcements)) =
        .ok (trueSize 41) := by decide +kernel
    exact ⟨_, hsends Script (Script.environment false) _ _ (start (List.replicate 64 0) {}) rfl hsize⟩

end Client

end RtosMqtt
