import RtosMqtt.Client.Conservation
import RtosMqtt.Client.Framed
import RtosMqtt.Client.Header
import RtosMqtt.Client.Patience
import RtosMqtt.Client.Shipments

/-! # The CONNACK that a connect reads

A CONNACK that was read is what the transport delivered: the header byte for byte,
and the body in as many pieces as it came. Nothing else is read before it or
behind it.
-/

namespace RtosMqtt

variable {W α : Type}

def Brought (bytes : List UInt8) (s t : Sys W) : Prop :=
  ∃ more, t.log = s.log ++ more ∧ readings more = bytes

section Brought

variable {bytes bytes' : List UInt8} {s t u : Sys W}

theorem Brought.trans (h : Brought bytes s t) (h' : Brought bytes' t u) :
    Brought (bytes ++ bytes') s u := by
  obtain ⟨more, hlog, rfl⟩ := h
  obtain ⟨more', hlog', rfl⟩ := h'
  exact ⟨more ++ more', by rw [hlog', hlog, List.append_assoc], readings_append _ _⟩

theorem Deaf.brought (h : Deaf s t) : Brought [] s t := by
  obtain ⟨more, hlog, hnone⟩ := h
  exact ⟨more, hlog, readings_of_deaf hnone⟩

theorem Brought.before (h : Deaf s t) (h' : Brought bytes t u) : Brought bytes s u :=
  h.brought.trans h'

theorem Brought.after (h : Brought bytes s t) (h' : Deaf t u) : Brought bytes s u := by
  have := h.trans h'.brought
  rwa [List.append_nil] at this

end Brought

namespace Client

variable {env : Environment W}

/-- What was read is in the buffer behind what was there. -/
structure Gained (total : ℕ) (bytes : List UInt8) (s t : Sys W) : Prop where
  brought : Brought bytes s t
  buffer : t.context.network.take (total + bytes.length) = s.context.network.take total ++ bytes

theorem Gained.refl (total : ℕ) (s : Sys W) : Gained total [] s s :=
  ⟨(refl_of Deaf s).brought, (List.append_nil _).symm⟩

theorem Gained.trans {total : ℕ} {bytes bytes' : List UInt8} {s t u : Sys W}
    (h : Gained total bytes s t) (h' : Gained (total + bytes.length) bytes' t u) :
    Gained total (bytes ++ bytes') s u := by
  refine ⟨h.brought.trans h'.brought, ?_⟩
  rw [List.length_append, ← Nat.add_assoc, h'.buffer, h.buffer, List.append_assoc]

/-- A CONNACK that a connect reads: its bytes, and what they say under the limits of the client. -/
structure ReadsConnack (connack : ConnAck) (s t : Sys W) : Prop where
  exists_bytes : ∃ (header : PacketHeader) (body : List UInt8),
    header.WellFormed ∧ header.packetType = Packet.connack ∧
      body.length = header.remainingLength ∧ Brought (header.encoded ++ body) s t ∧
      deserializeConnack
        { packetType := Packet.connack, remainingLength := body.length, remainingData := body }
        { maxPacketSize := t.context.properties.client.maxPacketSize
          requestResponseInfo := t.context.properties.client.requestResponseInfo } = .ok connack

/-- A connect read a CONNACK that it accepts, and went on from there. -/
structure Accepts (env : Environment W) (options : Connect) (timeoutMs : UInt32)
    (connack : ConnAck) (s u : Sys W) : Prop where
  opening : opening env options timeoutMs s = (.ok connack, u)
  reads : ReadsConnack connack s u
  accepted : connack.refused = false
  fresh : ¬ (options.info.cleanSession = true ∧ connack.sessionPresent = true)
  settling : connect env options timeoutMs s = closing (settle env) (u.acknowledged connack)

structure Unheard (s t : Sys W) : Prop where
  status : t.context.connectStatus = s.context.connectStatus
  log : t.log = s.log

instance : IsPreorder (Sys W) Unheard where
  refl _ := ⟨rfl, rfl⟩
  trans _ _ _ h h' := ⟨h'.status.trans h.status, h'.log.trans h.log⟩

end Client

end RtosMqtt
