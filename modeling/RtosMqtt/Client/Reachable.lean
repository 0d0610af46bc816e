import RtosMqtt.Client.Calls

/-! # The states a client can be in

Any calls lead from the start of a client to a state. The records are well formed
in all of them, as long as an application that restores records of its own
restores well formed ones.
-/

namespace RtosMqtt

variable {W : Type}

/-- The records are well formed, if there are any. -/
def MqttContext.WellKept (c : MqttContext) : Prop := ∀ r, c.records = some r → r.WellFormed

theorem MqttContext.WellKept.congr {c c' : MqttContext} (h : c.WellKept)
    (hrecords : c'.records = c.records) : c'.WellKept := fun r hr => h r (hrecords ▸ hr)

def Invocation.restores : Invocation → Bool
  | .set (.records _ _) => true
  | _ => false

inductive Reachable : Sys W → Prop
  | start (network : List UInt8) (world : W) : Reachable (Client.start network world)
  | call {s : Sys W} (h : Reachable s) (env : Environment W) (call : Invocation)
      (hrestored : call.restores = true → (call.perform env s).2.context.WellKept) :
      Reachable (call.perform env s).2

theorem Replaces.wellFormed {before : Option PublishRecords} {r : PublishRecords}
    (h : Replaces before r) (hbefore : ∀ r, before = some r → r.WellFormed) : r.WellFormed := by
  cases h with
  | fresh _ outgoing incoming => exact PublishRecords.wellFormed_new outgoing incoming
  | capped r outgoing incoming => exact (hbefore r rfl).cap outgoing incoming
  | cleared r => exact (hbefore r rfl).clearOutgoing.clearIncoming

theorem Offered.io {env : Environment W} {packet : List UInt8} {s t : Sys W}
    (h : Offered env packet s t) : Io s t := by
  obtain ⟨parts, -, rfl | ⟨buffer, -, rfl⟩⟩ := h
  · exact Client.sendVectors_io env parts s
  · exact Client.sendBuffer_io env buffer s

theorem Piece.wellKept {env : Environment W} {act : Act} {s t : Sys W} (h : Piece env act s t)
    (hact : act ≠ .restore) (hs : s.context.WellKept) : t.context.WellKept := by
  cases h with
  | note hcontext =>
    obtain ⟨now, hcontext⟩ := hcontext
    exact hs.congr (by rw [hcontext])
  | mark h =>
    obtain ⟨_, _, _, _, rfl⟩ := h
    exact hs
  | event => exact hs
  | call c hr =>
    intro r' hr'
    obtain rfl := Option.some.inj hr'
    exact (hs _ hr).call c
  | read => exact hs
  | send _ ho => exact hs.congr ho.io.quiet.records
  | adjust hrecords => exact hs.congr hrecords
  | lose =>
    refine hs.congr ?_
    simp only [Client.connectionLost, Client.update_apply]
    split_ifs <;> rfl
  | farewell _ _ _ _ ho => exact hs.congr ho.io.quiet.records
  | close hrecords => exact hs.congr hrecords
  | replace h hcontext =>
    intro r' hr'
    rw [hcontext] at hr'
    obtain rfl := Option.some.inj hr'
    exact h.wellFormed hs
  | establish hrecords => exact hs.congr hrecords
  | restore => exact absurd rfl hact

theorem Course.wellKept {env : Environment W} {may : Act → Prop} {s t : Sys W}
    (h : Course env may s t) (hmay : ∀ act, may act → act ≠ .restore) (hs : s.context.WellKept) :
    t.context.WellKept := by
  induction h with
  | refl => exact hs
  | tail _ hpiece ih =>
    obtain ⟨act, hact, hpiece⟩ := hpiece
    exact hpiece.wellKept (hmay act hact) ih

theorem Invocation.wellKept {env : Environment W} {call : Invocation} {s : Sys W}
    (hrestores : call.restores = false) (hs : s.context.WellKept) :
    (call.perform env s).2.context.WellKept := by
  cases call with
  | set setting =>
    cases setting with
    | records => cases hrestores
    | _ => exact hs
  | request call =>
    refine (Client.perform_course (.request call) s).wellKept ?_ hs
    rintro act hact rfl
    cases call with
    | traffic call => cases call <;> cases hact
    | _ => cases hact
  | _ =>
    refine (Client.perform_course _ s).wellKept ?_ hs
    rintro act hact rfl
    cases hact

theorem Reachable.wellKept {s : Sys W} (h : Reachable s) : s.context.WellKept := by
  induction h with
  | start network world =>
    intro r hr
    cases hr
  | call _ env call hrestored ih =>
    cases hrestores : call.restores with
    | false => exact call.wellKept hrestores ih
    | true => exact hrestored hrestores

theorem Reachable.afterAll {s : Sys W} (h : Reachable s)
    {calls : List (Environment W × Invocation)} (hcalls : ∀ c ∈ calls, c.2.restores = false) :
    Reachable (Client.afterAll s calls) := by
  induction calls generalizing s with
  | nil => exact h
  | cons c calls ih =>
    have hc := hcalls c List.mem_cons_self
    exact ih (h.call c.1 c.2 fun hrestores => by rw [hc] at hrestores; cases hrestores)
      fun c' hc' => hcalls c' (List.mem_cons_of_mem c hc')

end RtosMqtt
