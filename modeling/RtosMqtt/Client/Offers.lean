import RtosMqtt.Client.Calls

/-! # What a call offers to the transport

The packets of a course, each with the state in which its sending starts. Every
sender compares the size of its packet with the broker's limit except three: the
one for a PINGREQ, the one for a bare acknowledgement, and the one that sends
again what the store returns.
-/

namespace RtosMqtt

variable {W α β : Type}

/-- An entry that offers nothing but a part of a packet. -/
def Observation.PartOf (packet : List UInt8) (o : Observation) : Prop :=
  ∀ parts outcome standing, o = .sent parts outcome standing → parts.flatten <:+: packet

namespace Client

variable {env : Environment W}

theorem nowMs_logs {P : Observation → Prop} (h : ∀ now, P (.clock now)) :
    (nowMs env).Moves (Logs P) := fun _ => .one rfl (h _)

theorem update_logs {P : Observation → Prop} (f : MqttContext → MqttContext) :
    (update f : Client W Unit).Moves (Logs P) := fun _ => .same rfl

theorem passes_partOf (packet : List UInt8) :
    Passes env (Logs (Observation.PartOf packet)) := by
  refine ⟨nowMs_logs ?_, fun _ => update_logs _, update_logs _⟩
  intro _ _ _ _ h
  cases h

theorem sendBuffer_partOf (buffer : List UInt8) :
    (sendBuffer env buffer).Moves (Logs (Observation.PartOf buffer)) := by
  refine sendBuffer_moves (passes_partOf buffer) fun sent s => .one rfl ?_
  intro parts _ _ h
  cases h
  simpa using (List.drop_suffix sent buffer).isInfix

theorem sendVectors_partOf (vectors : List (List UInt8)) :
    (sendVectors env vectors).Moves (Logs (Observation.PartOf vectors.flatten)) := by
  refine sendVectors_moves (passes_partOf _) fun parts htail s => .one rfl ?_
  intro _ _ _ h
  cases h
  exact htail.isInfix

end Client

theorem Offered.logs {env : Environment W} {packet : List UInt8} {s t : Sys W}
    (h : Offered env packet s t) : Logs (Observation.PartOf packet) s t := by
  obtain ⟨parts, hpart, rfl | ⟨buffer, rfl, rfl⟩⟩ := h
  · refine (Client.sendVectors_partOf parts s).mono ?_
    exact fun o ho parts outcome standing h => (ho parts outcome standing h).trans hpart
  · refine (Client.sendBuffer_partOf buffer s).mono ?_
    intro o ho parts outcome standing h
    rw [List.flatten_singleton] at hpart
    exact (ho parts outcome standing h).trans hpart

def Act.offers : Act → Bool
  | .send _ | .farewell _ => true
  | _ => false

/-- A packet, why it is offered, and the state in which its sending starts. -/
structure Offer (W : Type) where
  act : Act
  packet : List UInt8
  before : Sys W

namespace Offer

def limit (o : Offer W) : ℕ := o.before.context.properties.server.maxPacketSize

/-- When a packet may be offered, and what is known of it. -/
def Lawful (o : Offer W) : Prop :=
  match o.act with
  | .send sending => sending.Allows o.packet o.before
  | .farewell answering => o.before.context.connectStatus ≠ .notConnected ∧
      o.packet.length ≤ o.limit ∧ o.packet.head? = some Packet.disconnect ∧
        (answering = true → MalformedDisconnect o.before.context)
  | _ => False

/-- The state in which a part of the packet is handed to a sender: a DISCONNECT goes out after the
status has changed. -/
def handed (o : Offer W) : Sys W :=
  match o.act with
  | .farewell _ => Client.disconnected o.before
  | _ => o.before

end Offer

/-- A course together with the packets it offers, in order. -/
inductive Conduct (env : Environment W) (may : Act → Prop) (s : Sys W) :
    List (Offer W) → Sys W → Prop
  | nil : Conduct env may s [] s
  | quiet {offers : List (Offer W)} {t u : Sys W} {act : Act} (h : Conduct env may s offers t)
      (hmay : may act) (hquiet : act.offers = false) (hpiece : Piece env act t u) :
      Conduct env may s offers u
  | offer {offers : List (Offer W)} {o : Offer W} {u : Sys W}
      (h : Conduct env may s offers o.before) (hmay : may o.act) (hlawful : o.Lawful)
      (ho : Offered env o.packet o.handed u) : Conduct env may s (offers ++ [o]) u

theorem Piece.logs_of_quiet {env : Environment W} {act : Act} {s t : Sys W}
    (h : Piece env act s t) (hquiet : act.offers = false) :
    Logs (fun o => ∀ parts outcome standing, o ≠ .sent parts outcome standing) s t := by
  cases h with
  | note _ hlog =>
    obtain ⟨more, hlog, hpassive⟩ := hlog
    refine ⟨more, hlog, ?_⟩
    rintro o ho parts outcome standing rfl
    cases hpassive _ ho
  | mark h =>
    obtain ⟨_, _, _, _, rfl⟩ := h
    exact .same rfl
  | event e wantsReply => exact .one rfl fun _ _ _ h => by cases h
  | call c hr => exact .one rfl fun _ _ _ h => by cases h
  | read into => exact .one rfl fun _ _ _ h => by cases h
  | send => cases hquiet
  | adjust _ _ hlog => exact .same hlog
  | lose => exact .same rfl
  | farewell => cases hquiet
  | close _ _ hlog => exact .same hlog
  | replace _ _ hlog => exact .same hlog
  | establish _ _ _ hlog => exact .same hlog
  | restore => exact .same rfl

theorem Conduct.logs {env : Environment W} {may : Act → Prop} {s t : Sys W}
    {offers : List (Offer W)} (h : Conduct env may s offers t) :
    Logs (fun e => ∀ parts outcome standing, e = .sent parts outcome standing →
      ∃ o ∈ offers, parts.flatten <:+: o.packet) s t := by
  induction h with
  | nil => exact refl_of (Logs _) s
  | quiet _ _ hquiet hpiece ih =>
    refine trans_of (Logs _) ih ((hpiece.logs_of_quiet hquiet).mono ?_)
    exact fun e he parts outcome standing h => absurd h (he parts outcome standing)
  | @offer offers o u _ _ _ ho ih =>
    have hhanded : o.handed.log = o.before.log := by
      unfold Offer.handed
      cases o.act <;> rfl
    obtain ⟨more, hlog, hmore⟩ := ho.logs
    refine trans_of (Logs _) (ih.mono ?_) ⟨more, by rw [hlog, hhanded], ?_⟩
    · intro e he parts outcome standing h
      obtain ⟨o', ho', hpart⟩ := he parts outcome standing h
      exact ⟨o', List.mem_append_left _ ho', hpart⟩
    · intro e he parts outcome standing h
      exact ⟨o, List.mem_append_right _ (List.mem_singleton.mpr rfl),
        hmore e he parts outcome standing h⟩

end RtosMqtt
