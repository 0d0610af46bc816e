import RtosMqtt.Client.Assembly
import RtosMqtt.Client.Offers

/-! # What is offered, and how the client stood

The log of a run says of every offer how the client stood towards the broker when
it was made. A sender offers its packet whole first, and then what is left of it;
until the transport fails the client stands as it did.
-/

namespace RtosMqtt

variable {W α : Type}

/-- Bytes that were offered to the transport, and how the client stood. -/
structure Shipment where
  parts : List (List UInt8)
  standing : Standing
  deriving DecidableEq, Repr

def Observation.shipment : Observation → Option Shipment
  | .sent parts _ standing => some ⟨parts, standing⟩
  | _ => none

def shipments (log : List Observation) : List Shipment := log.filterMap Observation.shipment

@[simp] theorem shipments_nil : shipments [] = [] := rfl

@[simp] theorem shipments_append (log log' : List Observation) :
    shipments (log ++ log') = shipments log ++ shipments log' := List.filterMap_append

theorem shipments_subset {log log' : List Observation} (h : log ⊆ log') :
    shipments log ⊆ shipments log' := by
  intro x hx
  obtain ⟨o, ho, hox⟩ := List.mem_filterMap.mp hx
  exact List.mem_filterMap.mpr ⟨o, h ho, hox⟩

/-- Every shipment since is of one kind. -/
abbrev Ships (P : Shipment → Prop) : Sys W → Sys W → Prop :=
  Logs fun o => ∀ x, o.shipment = some x → P x

theorem Ships.mono {P Q : Shipment → Prop} {s t : Sys W} (h : Ships P s t)
    (hPQ : ∀ x, P x → Q x) : Ships Q s t :=
  Logs.mono h fun _ ho x hx => hPQ x (ho x hx)

abbrev Unshipped : Sys W → Sys W → Prop := Logs fun o => o.shipment = none

theorem Unshipped.ships {P : Shipment → Prop} {s t : Sys W} (h : Unshipped s t) : Ships P s t := by
  refine h.mono ?_
  intro o ho x hx
  rw [ho] at hx
  cases hx

theorem Unshipped.shipments_eq {s t : Sys W} (h : Unshipped s t) : shipments (noted s t) = [] := by
  refine List.filterMap_eq_nil_iff.mpr ?_
  exact h.noted.2

theorem Ships.of_mem {P : Shipment → Prop} {s t : Sys W} {x : Shipment} (h : Ships P s t)
    (hx : x ∈ shipments (noted s t)) : P x := by
  obtain ⟨o, ho, hox⟩ := List.mem_filterMap.mp hx
  exact h.noted.2 o ho x hox

theorem ships_of_mem {P : Shipment → Prop} {s t : Sys W} (hgrows : Logs (fun _ => True) s t)
    (h : ∀ x ∈ shipments (noted s t), P x) : Ships P s t := by
  refine ⟨noted s t, hgrows.noted.1, ?_⟩
  intro o ho x hx
  exact h x (List.mem_filterMap.mpr ⟨o, ho, hx⟩)

theorem Piece.unshipped {env : Environment W} {act : Act} {s t : Sys W} (h : Piece env act s t)
    (hquiet : act.offers = false) : Unshipped s t := by
  refine (h.logs_of_quiet hquiet).mono ?_
  intro o ho
  cases o with
  | sent parts outcome standing => exact absurd rfl (ho parts outcome standing)
  | _ => rfl

def Begun (whole : List (List UInt8)) (s t : Sys W) : Prop :=
  ⟨whole, s.context.standing⟩ ∈ shipments (noted s t)

/-- Whatever was offered is what was left of a packet that was offered whole, and the client stood
as it did. -/
structure Told (whole : List (List UInt8)) (s t : Sys W) : Prop where
  grows : Logs (fun _ => True) s t
  rest : ∀ x ∈ shipments (noted s t), x.parts.flatten <:+ whole.flatten ∧
    x.standing = s.context.standing
  begun : shipments (noted s t) ≠ [] → Begun whole s t

/-- A sender on its way: the client stands as it did, and what is left of the packet is still all of
it, or the packet was offered whole. -/
structure Telling (whole left : List (List UInt8)) (s t : Sys W) : Prop extends Told whole s t where
  standing : t.context.standing = s.context.standing
  tail : left.flatten <:+ whole.flatten
  untouched : left = whole ∨ Begun whole s t

section Told

variable {whole left : List (List UInt8)} {s t u : Sys W}

theorem noted_append {more : List Observation} (h : Logs (fun _ => True) s t)
    (hlog : u.log = t.log ++ more) : noted s u = noted s t ++ more :=
  noted_eq (by rw [hlog, h.noted.1, List.append_assoc])

theorem Told.still (h : Told whole s t) (htu : Unshipped t u) : Told whole s u := by
  obtain ⟨more, hlog, hnone⟩ := htu
  have hnoted := noted_append h.grows hlog
  have hsame : shipments (noted s u) = shipments (noted s t) := by
    rw [hnoted, shipments_append]
    exact (congrArg _ (List.filterMap_eq_nil_iff.mpr hnone)).trans (List.append_nil _)
  refine ⟨trans_of (Logs _) h.grows ⟨more, hlog, fun _ _ => trivial⟩, ?_, ?_⟩
  · rw [hsame]
    exact h.rest
  · rw [Begun, hsame]
    exact h.begun

theorem Telling.offer {outcome : Sent} (h : Telling whole left s t)
    (hlog : u.log = t.log ++ [.sent left outcome t.context.standing]) :
    Told whole s u ∧ Begun whole s u := by
  have hoffered : shipments (noted s u) =
      shipments (noted s t) ++ [⟨left, s.context.standing⟩] := by
    rw [noted_append h.grows hlog, shipments_append, ← h.standing]
    rfl
  have hbegun : Begun whole s u := by
    rw [Begun, hoffered]
    rcases h.untouched with rfl | hbegun
    · exact List.mem_append_right _ List.mem_cons_self
    · exact List.mem_append_left _ hbegun
  refine ⟨⟨trans_of (Logs _) h.grows ⟨_, hlog, fun _ _ => trivial⟩, ?_, fun _ => hbegun⟩, hbegun⟩
  rw [hoffered]
  intro x hx
  rcases List.mem_append.mp hx with hx | hx
  · exact h.rest x hx
  · rw [List.mem_singleton.mp hx]
    exact ⟨h.tail, rfl⟩

theorem Telling.still (h : Telling whole left s t) (htu : Unshipped t u)
    (hstanding : u.context.standing = t.context.standing) : Telling whole left s u := by
  refine ⟨h.toTold.still htu, hstanding.trans h.standing, h.tail, ?_⟩
  refine h.untouched.imp_right fun hbegun => ?_
  obtain ⟨more, hlog, -⟩ := htu
  rw [Begun, noted_append h.grows hlog, shipments_append]
  exact List.mem_append_left _ hbegun

end Told

namespace Client

variable {env : Environment W}

theorem nowMs_unshipped : (nowMs env).Moves Unshipped := fun _ => .one rfl rfl

theorem update_unshipped (f : MqttContext → MqttContext) :
    (update f : Client W Unit).Moves Unshipped := fun _ => .same rfl

theorem told_start {whole : List (List UInt8)} {s t : Sys W} (hst : Unshipped s t)
    (hstanding : t.context.standing = s.context.standing) : Telling whole whole s t := by
  have hnone := hst.shipments_eq
  refine ⟨⟨hst.mono fun _ _ => trivial, ?_, ?_⟩, hstanding, List.suffix_rfl, .inl rfl⟩
  · rw [hnone]
    simp
  · exact fun h => absurd hnone h

theorem telling_sent {buffer : List UInt8} {k : ℕ} {outcome : Sent} {s t u : Sys W}
    (h : Telling [buffer] [buffer.drop k] s t)
    (hsend : send env (buffer.drop k) t = (.ok outcome, u)) :
    Told [buffer] s u ∧ ∀ n, Telling [buffer] [buffer.drop n] s u := by
  obtain ⟨htold, hbegun⟩ := h.offer (congrArg Sys.log (of_send hsend))
  have hstanding : u.context.standing = s.context.standing := by
    rw [of_send hsend]
    exact h.standing
  exact ⟨htold, fun n => ⟨htold, hstanding, by simpa using List.drop_suffix n buffer, .inr hbegun⟩⟩

theorem telling_gathered {vectors left : List (List UInt8)} {outcome : Sent} {s t u : Sys W}
    (h : Telling vectors left s t) (hsend : writev env left t = (.ok outcome, u)) :
    Told vectors s u ∧ ∀ taken, Telling vectors (advance taken left) s u := by
  obtain ⟨htold, hbegun⟩ := h.offer (congrArg Sys.log (of_writev hsend))
  have hstanding : u.context.standing = s.context.standing := by
    rw [of_writev hsend]
    exact h.standing
  refine ⟨htold, fun taken => ⟨htold, hstanding, ?_, .inr hbegun⟩⟩
  rw [flatten_advance]
  exact (List.drop_suffix _ _).trans h.tail

variable (env) in
theorem bufferTurn_told (buffer : List UInt8) (start : UInt32) (k : ℕ) {s t : Sys W}
    (h : Telling [buffer] [buffer.drop k] s t) :
    Prog.Turned (fun k t => Telling [buffer] [buffer.drop k] s t) (fun _ t => Told [buffer] s t)
      (bufferTurn env buffer start k t) := by
  have hturn := bufferTurn_cases env buffer start k t
  generalize bufferTurn env buffer start k t = run at hturn ⊢
  have hclock := @nowMs_unshipped W env
  cases hturn with
  | whole => exact h.toTold
  | @failed u _ hsend =>
    exact (telling_sent h hsend).1.still (trans_of Unshipped (update_unshipped _ u) (hclock _))
  | @nothing u _ hsend =>
    obtain ⟨htold, hnext⟩ := telling_sent h hsend
    exact .ite ((hnext k).still (hclock u) rfl) (htold.still (hclock u))
  | @bytes u _ n _ hsend =>
    obtain ⟨htold, hnext⟩ := telling_sent h hsend
    have hstamp : Unshipped u (nowMs env (stampTx env u).2).2 :=
      trans_of Unshipped (.one rfl rfl) (hclock _)
    exact .ite ((hnext n).still hstamp rfl) (htold.still hstamp)

theorem sendBuffer_told (buffer : List UInt8) (s : Sys W) :
    Told [buffer] s (sendBuffer env buffer s).2 := by
  rw [sendBuffer, Prog.bind_of_ok (nowMs_apply env s)]
  exact Prog.turned_loop (Q := fun _ t => Told [buffer] s t)
    (fun k _ h => bufferTurn_told env buffer (env.nowMs s.world).1 k h)
    (fun _ _ h => h.toTold) (told_start (nowMs_unshipped s) rfl) env.patience

variable (env) in
theorem vectorsTurn_told (vectors : List (List UInt8)) (total : ℕ) (start : UInt32)
    (place : ℕ × List (List UInt8)) {s t : Sys W} (h : Telling vectors place.2 s t) :
    Prog.Turned (fun place t => Telling vectors place.2 s t) (fun _ t => Told vectors s t)
      (vectorsTurn env total start place t) := by
  have hturn := vectorsTurn_cases env total start place t
  generalize vectorsTurn env total start place t = run at hturn ⊢
  have hclock := @nowMs_unshipped W env
  have hstamp (u : Sys W) : Unshipped u (stampTx env u).2 := .one rfl rfl
  cases hturn with
  | whole => exact h.toTold
  | @failed u _ hsend => exact (telling_gathered h hsend).1.still (update_unshipped _ u)
  | @nothing u _ hsend =>
    obtain ⟨htold, hnext⟩ := telling_gathered h hsend
    exact .ite ((hnext 0).still (hclock u) rfl) (htold.still (hclock u))
  | @bytes u _ taken _ hsend =>
    obtain ⟨htold, hnext⟩ := telling_gathered h hsend
    have hlater := trans_of Unshipped (hstamp u) (hclock _)
    exact .ite ((hnext taken).still hlater rfl) (htold.still hlater)
  | @last u _ _ _ _ hsend => exact (telling_gathered h hsend).1.still (hstamp u)

theorem sendVectors_told (vectors : List (List UInt8)) (s : Sys W) :
    Told vectors s (sendVectors env vectors s).2 := by
  rw [sendVectors, Prog.bind_of_ok (nowMs_apply env s)]
  exact Prog.turned_loop (Q := fun _ t => Told vectors s t)
    (fun place _ h => vectorsTurn_told env vectors _ (env.nowMs s.world).1 place h)
    (fun _ _ h => h.toTold) (told_start (nowMs_unshipped s) rfl) env.patience

end Client

theorem Offered.told {env : Environment W} {packet : List UInt8} {s t : Sys W}
    (h : Offered env packet s t) : ∃ whole, whole.flatten <:+: packet ∧ Told whole s t := by
  obtain ⟨parts, hpart, rfl | ⟨buffer, rfl, rfl⟩⟩ := h
  · exact ⟨parts, hpart, Client.sendVectors_told parts s⟩
  · exact ⟨[buffer], hpart, Client.sendBuffer_told buffer s⟩

theorem Told.ships {whole : List (List UInt8)} {s t : Sys W} (h : Told whole s t) :
    Ships (fun x => x.parts.flatten <:+ whole.flatten ∧ x.standing = s.context.standing) s t :=
  ships_of_mem h.grows h.rest

namespace Client

end Client

theorem Offered.ships {env : Environment W} {packet : List UInt8} {s t : Sys W}
    (h : Offered env packet s t) : Ships (fun x => x.standing = s.context.standing) s t := by
  obtain ⟨whole, -, htold⟩ := h.told
  exact htold.ships.mono fun x hx => hx.2

theorem Sending.Allows.connected {sending : Sending} {packet : List UInt8} {s : Sys W}
    (h : sending.Allows packet s) (hsending : sending ≠ .connect) :
    s.context.connectStatus = .connected := by
  cases sending with
  | connect => exact absurd rfl hsending
  | _ => exact h.1

end RtosMqtt
