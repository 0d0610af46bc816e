import RtosMqtt.Client.Gathers
import RtosMqtt.Client.Shipments

/-! # The broker's limit on the size of a packet

A packet is within the limit when its sender compared it. The three senders that
do not compare stay within it exactly when the limit leaves room for the two
bytes of a PINGREQ, for the four of a bare acknowledgement, and for what the
store returns.
-/

namespace RtosMqtt

variable {W : Type}

namespace Invocation

/-- The packet that an offer is a part of: a list goes out in several gathers, and what a sender
offers again is only what is left. -/
def packetOf : Invocation → List (List UInt8) → List UInt8
  | .request (.traffic (.publish message packetId)), _ => publishPacket message packetId
  | .request (.traffic .ping), _ => pingreqPacket
  | .request (.traffic (.disconnect reasonCode properties)), _ =>
    disconnectPacket reasonCode properties
  | .subscribe list packetId properties, _ =>
    listPacket .subscribe Packet.subscribe list properties packetId
  | .unsubscribe list packetId properties, _ =>
    listPacket .unsubscribe Packet.unsubscribe list properties packetId
  | _, parts => parts.flatten

/-- A connect is bound by the limit once the CONNACK was accepted. -/
def Binds (call : Invocation) (x : Shipment) : Prop :=
  call.connects = true → x.standing.status = .connected

/-- The calls that send a bare acknowledgement without a comparison. -/
def acknowledges (storing : Bool) : Invocation → Bool
  | .request (.connect _ _) => !storing
  | .sendPublishAcks _ _ => true
  | _ => false

end Invocation

inductive Unchecked (call : Invocation) (storing : Bool) (log : List Observation) :
    List UInt8 → Prop
  | pingreq : Unchecked call storing log pingreqPacket
  | acknowledgement {packet : List UInt8} (hcall : call.acknowledges storing = true)
      (hlength : packet.length = publishAckPacketSize) : Unchecked call storing log packet
  | stored {key : UInt32} {packet : List UInt8} (hcall : call.connects = true)
      (h : .retrieved key (some packet) ∈ log) : Unchecked call storing log packet

/-- Why an offer is within the limit: its packet was compared, or none is in force, or it is part of
a packet that was offered whole under the same limit without a comparison. -/
inductive Excused (call : Invocation) (storing : Bool) (log : List Observation)
    (x : Shipment) : Prop
  | sized (h : (call.packetOf x.parts).length ≤ x.standing.maxPacketSize)
  | unbound (h : ¬ call.Binds x)
  | unchecked {packet : List UInt8} (h : Unchecked call storing log packet)
      (hwhole : ⟨[packet], x.standing⟩ ∈ shipments log)
      (hpart : (call.packetOf x.parts).length ≤ packet.length)

def Excuses (call : Invocation) (storing : Bool) (s t : Sys W) : Prop :=
  ∃ more, t.log = s.log ++ more ∧ ∀ x ∈ shipments more, Excused call storing more x

variable {call : Invocation} {storing : Bool} {log log' : List Observation} {x : Shipment}
  {s t : Sys W}

theorem Unchecked.mono {packet : List UInt8} (h : Unchecked call storing log packet)
    (hlog : log ⊆ log') : Unchecked call storing log' packet := by
  cases h with
  | pingreq => exact .pingreq
  | acknowledgement hcall hlength => exact .acknowledgement hcall hlength
  | stored hcall h => exact .stored hcall (hlog h)

theorem Excused.mono (h : Excused call storing log x) (hlog : log ⊆ log') :
    Excused call storing log' x := by
  cases h with
  | sized h => exact .sized h
  | unbound h => exact .unbound h
  | unchecked h hwhole hpart => exact .unchecked (h.mono hlog) (shipments_subset hlog hwhole) hpart

instance (call : Invocation) (storing : Bool) : IsPreorder (Sys W) (Excuses call storing) where
  refl s := ⟨[], (List.append_nil _).symm, by simp⟩
  trans _ _ _ h h' := by
    obtain ⟨more, hlog, hmore⟩ := h
    obtain ⟨more', hlog', hmore'⟩ := h'
    refine ⟨more ++ more', by rw [hlog', hlog, List.append_assoc], ?_⟩
    intro x hx
    rw [shipments_append, List.mem_append] at hx
    rcases hx with hx | hx
    · exact (hmore x hx).mono (List.subset_append_left _ _)
    · exact (hmore' x hx).mono (List.subset_append_right _ _)

theorem Ships.excuses {P : Shipment → Prop} (h : Ships P s t)
    (hP : ∀ x log, P x → Excused call storing log x) : Excuses call storing s t :=
  ⟨noted s t, h.noted.1, fun x hx => hP x _ (h.of_mem hx)⟩

theorem Unshipped.excuses (h : Unshipped s t) : Excuses call storing s t :=
  Ships.excuses (h.ships : Ships (fun _ => False) s t) fun _ _ => False.elim

theorem Told.excuses {packet : List UInt8} {before : List Observation} {u : Sys W}
    (h : Told [packet] t u) (hlog : t.log = s.log ++ before) (hbefore : shipments before = [])
    (hpacket : ∀ parts, parts.flatten <:+ packet → (call.packetOf parts).length ≤ packet.length)
    (hunchecked : Unchecked call storing before packet) : Excuses call storing s u := by
  refine ⟨before ++ noted t u, ?_, ?_⟩
  · rw [h.grows.noted.1, hlog, List.append_assoc]
  rw [shipments_append, hbefore, List.nil_append]
  intro x hx
  obtain ⟨hpart, hstanding⟩ := h.rest x hx
  refine .unchecked (hunchecked.mono (List.subset_append_left _ _)) ?_ ?_
  · rw [shipments_append, hbefore, List.nil_append, hstanding]
    exact h.begun (List.ne_nil_of_mem hx)
  · rw [List.flatten_singleton] at hpart
    exact hpacket _ hpart

theorem length_packetOf_le {packet : List UInt8} (hflat : ∀ parts, call.packetOf parts = parts.flatten)
    (parts : List (List UInt8)) (h : parts.flatten <:+ packet) :
    (call.packetOf parts).length ≤ packet.length := by
  rw [hflat]
  exact h.length_le

/-- The pieces that offer what was compared, or a PINGREQ. -/
def Act.compares : Act → Bool
  | .send .connect | .send .stored | .send .bare => false
  | _ => true

theorem Course.excuses {env : Environment W} {may : Act → Prop} (h : Course env may s t)
    (hflat : ∀ parts, call.packetOf parts = parts.flatten)
    (hmay : ∀ act, may act → act.compares = true) : Excuses call storing s t := by
  refine h.keeps fun act u v hact hpiece => ?_
  cases hoffers : act.offers with
  | false => exact (hpiece.unshipped hoffers).excuses
  | true =>
    have hcompares := hmay act hact
    cases hpiece with
    | @send sending packet _ _ hallows ho hwhole =>
      cases sending with
      | sized =>
        obtain ⟨whole, hinfix, htold⟩ := ho.told
        refine htold.ships.excuses fun x _ hx => .sized ?_
        rw [hflat, hx.2]
        exact (hx.1.length_le.trans hinfix.length_le).trans hallows.2
      | pingreq =>
        obtain ⟨-, rfl⟩ := hallows
        rw [hwhole rfl]
        exact (Client.sendBuffer_told pingreqPacket u).excuses (List.append_nil _).symm rfl
          (length_packetOf_le hflat) .pingreq
      | _ => cases hcompares
    | farewell hstatus hanswer hsize htype ho =>
      obtain ⟨whole, hinfix, htold⟩ := ho.told
      refine trans_of (Excuses call storing) (Unshipped.excuses (.same rfl))
        (htold.ships.excuses fun x _ hx => .sized ?_)
      rw [hflat, hx.2]
      exact (hx.1.length_le.trans hinfix.length_le).trans hsize
    | _ => cases hoffers

namespace Client

variable {env : Environment W}

end Client

end RtosMqtt
