import RtosMqtt.Client.Frames
import RtosMqtt.Client.Requests
import RtosMqtt.State.Incoming
import RtosMqtt.Wire.Layout

/-! # A QoS 2 message is shown to the application once

The event of a QoS 2 PUBLISH comes right after the incoming array took a record
of its identifier, and the record is there until a PUBCOMP for it went out. So
whatever arrives, and whatever fails in between, no second event comes before
that PUBCOMP.
-/

namespace RtosMqtt

namespace Observation

def delivers (packetId : UInt16) : Observation → Bool
  | .event e _ => e.packetId == packetId && e.publish.any fun publish => publish.qos == .exactlyOnce
  | _ => false

/-- The incoming array held no record of an identifier and took one, at QoS 2. -/
def Admits (packetId : UInt16) (o : Observation) : Prop :=
  ∃ before, o = .recorded before (.updatePublish packetId .receive .exactlyOnce) (.ok ()) ∧
    packetId ∉ inFlightIds before.incoming

theorem delivers_of_isIo {o : Observation} (h : o.isIo = true) (packetId : UInt16) :
    o.delivers packetId = false := by
  cases o <;> simp_all [isIo, delivers]

@[simp] theorem delivers_recorded (packetId : UInt16) (before : PublishRecords) (call : Call)
    (answer : Except StateError Unit) :
    (recorded before call answer).delivers packetId = false := rfl

end Observation

/-- A PUBCOMP of an identifier went out, and its record was removed right after that. -/
def Completes (packetId : UInt16) (log : List Observation) : Prop :=
  ∃ earlier io before later rest,
    log = earlier ++ io ++ .recorded before (.updateAck packetId .pubComp .send) (.ok ()) :: later ∧
      (∀ o ∈ io, o.isIo = true) ∧ wire io = ackPacket Packet.pubcomp packetId rest ∧
      packetId ∈ inFlightIds before.incoming ∧
      packetId ∉ inFlightIds (before.updateAck packetId .pubComp .send).2.incoming

theorem Completes.append_left {packetId : UInt16} {log : List Observation}
    (h : Completes packetId log) (more : List Observation) : Completes packetId (more ++ log) := by
  obtain ⟨earlier, io, before, later, rest, rfl, h⟩ := h
  exact ⟨more ++ earlier, io, before, later, rest, by simp, h⟩

theorem Completes.append_right {packetId : UInt16} {log : List Observation}
    (h : Completes packetId log) (more : List Observation) : Completes packetId (log ++ more) := by
  obtain ⟨earlier, io, before, later, rest, rfl, h⟩ := h
  exact ⟨earlier, io, before, later ++ more, rest, by simp, h⟩

def Kept (records : Option PublishRecords) (packetId : UInt16) : Prop :=
  packetId ≠ packetIdInvalid ∧ ∃ r, records = some r ∧ Retains r.incoming packetId

/-- A log of deliveries, together with the records they have left. -/
structure Delivered (log : List Observation) (records : Option PublishRecords) : Prop where
  admitted : ∀ earlier o later packetId, log = earlier ++ o :: later → o.delivers packetId = true →
    ∃ init p, earlier = init ++ [p] ∧ p.Admits packetId
  completed : ∀ earlier o between o' later packetId,
    log = earlier ++ o :: (between ++ o' :: later) → o.delivers packetId = true →
      o'.delivers packetId = true → Completes packetId between
  kept : ∀ earlier o later packetId, log = earlier ++ o :: later → o.delivers packetId = true →
    Completes packetId later ∨ Kept records packetId

theorem delivered_nil (records : Option PublishRecords) : Delivered [] records :=
  ⟨by simp, by simp, by simp⟩

theorem append_eq_append_cons {α : Type} {log more earlier later : List α} {o : α}
    (h : log ++ more = earlier ++ o :: later) :
    (∃ init, later = init ++ more ∧ log = earlier ++ o :: init) ∨
      ∃ init, earlier = log ++ init ∧ more = init ++ o :: later := by
  rcases List.append_eq_append_iff.mp h with ⟨init, hearlier, hmore⟩ | ⟨init, hlog, hlater⟩
  · exact .inr ⟨init, hearlier, hmore⟩
  · cases init with
    | nil => exact .inr ⟨[], by simpa using hlog.symm, by simpa using hlater.symm⟩
    | cons o' init =>
      obtain ⟨rfl, rfl⟩ := List.cons_eq_cons.mp hlater
      exact .inl ⟨init, rfl, hlog⟩

section Grow

variable {log more : List Observation} {records records' : Option PublishRecords}

theorem Delivered.append (h : Delivered log records)
    (hnone : ∀ o ∈ more, ∀ packetId, o.delivers packetId = false)
    (hkept : ∀ packetId, Kept records packetId → Completes packetId more ∨ Kept records' packetId) :
    Delivered (log ++ more) records' := by
  have hold {earlier later o packetId} (heq : log ++ more = earlier ++ o :: later)
      (ho : o.delivers packetId = true) :
      ∃ init, later = init ++ more ∧ log = earlier ++ o :: init := by
    rcases append_eq_append_cons heq with hold | ⟨init, -, hmore⟩
    · exact hold
    · rw [hnone o (by simp [hmore])] at ho
      exact absurd ho (by simp)
  refine ⟨fun earlier o later packetId heq ho => ?_,
    fun earlier o between o' later packetId heq ho ho' => ?_,
    fun earlier o later packetId heq ho => ?_⟩
  · obtain ⟨init, -, hlog⟩ := hold heq ho
    exact h.admitted earlier o init packetId hlog ho
  · have heq' : log ++ more = (earlier ++ o :: between) ++ o' :: later := by simpa using heq
    obtain ⟨init, -, hlog⟩ := hold heq' ho'
    exact h.completed earlier o between o' init packetId (by simpa using hlog) ho ho'
  · obtain ⟨init, rfl, hlog⟩ := hold heq ho
    rcases h.kept earlier o init packetId hlog ho with hdone | hkept'
    · exact .inl (hdone.append_right more)
    · exact (hkept packetId hkept').imp (·.append_left init) id

/-- The record of a QoS 2 PUBLISH the incoming array took. -/
def Observation.admission (before : PublishRecords) (packetId : UInt16) : Observation :=
  .recorded before (.updatePublish packetId .receive .exactlyOnce) (.ok ())

theorem pair_eq_append_cons {α : Type} {a b o : α} {init later : List α}
    (h : [a, b] = init ++ o :: later) :
    (init = [] ∧ o = a) ∨ (init = [a] ∧ o = b ∧ later = []) := by
  rcases List.cons_eq_append_iff.mp h with ⟨rfl, hcons⟩ | ⟨init', rfl, hrest⟩
  · exact .inl ⟨rfl, (List.cons_eq_cons.mp hcons).1⟩
  · rcases List.cons_eq_append_iff.mp hrest with ⟨rfl, hcons⟩ | ⟨init'', -, hnil⟩
    · obtain ⟨rfl, rfl⟩ := List.cons_eq_cons.mp hcons
      exact .inr ⟨rfl, rfl, rfl⟩
    · exact absurd hnil (by simp)

/-- The delivery of a message the incoming array has just taken. -/
theorem Delivered.deliver {before : PublishRecords} {event : Observation} {packetId : UInt16}
    (h : Delivered log (some before)) (hfresh : packetId ∉ inFlightIds before.incoming)
    (honly : ∀ other, event.delivers other = true → other = packetId)
    (hkept : ∀ other, Kept (some before) other → Kept records' other)
    (hnew : Kept records' packetId) :
    Delivered (log ++ [.admission before packetId, event]) records' := by
  have hclosed {earlier o init} (hlog : log = earlier ++ o :: init)
      (ho : o.delivers packetId = true) : Completes packetId init := by
    rcases h.kept earlier o init packetId hlog ho with hdone | ⟨hid, r, hr, hretains⟩
    · exact hdone
    · exact absurd (Option.some.inj hr ▸ hretains.mem_inFlightIds hid) hfresh
  have hnewest {init later : List Observation} {o : Observation} {other : UInt16}
      (hmore : [Observation.admission before packetId, event] = init ++ o :: later)
      (ho : o.delivers other = true) :
      init = [.admission before packetId] ∧ o = event ∧ later = [] ∧ other = packetId := by
    rcases pair_eq_append_cons hmore with ⟨-, rfl⟩ | ⟨rfl, rfl, rfl⟩
    · exact absurd ho (by simp [Observation.admission])
    · exact ⟨rfl, rfl, rfl, honly other ho⟩
  refine ⟨fun earlier o later other heq ho => ?_,
    fun earlier o between o' later other heq ho ho' => ?_,
    fun earlier o later other heq ho => ?_⟩
  · rcases append_eq_append_cons heq with ⟨init, -, hlog⟩ | ⟨init, rfl, hmore⟩
    · exact h.admitted earlier o init other hlog ho
    · obtain ⟨rfl, -, -, rfl⟩ := hnewest hmore ho
      exact ⟨log, _, rfl, before, rfl, hfresh⟩
  · have heq' : log ++ [.admission before packetId, event] = (earlier ++ o :: between) ++ o' :: later := by
      rw [heq]; simp
    rcases append_eq_append_cons heq' with ⟨init, -, hlog⟩ | ⟨init, hbetween, hmore⟩
    · exact h.completed earlier o between o' init other (by rw [hlog]; simp) ho ho'
    · obtain ⟨rfl, rfl, rfl, rfl⟩ := hnewest hmore ho'
      rcases append_eq_append_cons hbetween.symm with ⟨init', rfl, hlog⟩ | ⟨init', -, hlast⟩
      · exact (hclosed hlog ho).append_right _
      · obtain ⟨-, rfl, -⟩ : init' = [] ∧ o = .admission before other ∧ between = [] := by
          simpa [List.append_eq_cons_iff, eq_comm] using hlast
        exact absurd ho (by simp [Observation.admission])
  · rcases append_eq_append_cons heq with ⟨init, rfl, hlog⟩ | ⟨init, rfl, hmore⟩
    · exact (h.kept earlier o init other hlog ho).imp (·.append_right _) (hkept other)
    · obtain ⟨-, -, -, rfl⟩ := hnewest hmore ho
      exact .inr hnew

end Grow

end RtosMqtt
