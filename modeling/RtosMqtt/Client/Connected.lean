import RtosMqtt.Client.Connack
import RtosMqtt.Client.Opened
import RtosMqtt.Client.Scripted

/-! # Nothing is sent outside a connection

A connection is opened by a connect that accepted its CONNACK and by nothing
else, and a transport that fails ends it. So once it has failed, only a
DISCONNECT goes out until the next connect.
-/

namespace RtosMqtt

variable {W α β : Type}

/-- What is offered after a failure is not offered as on an open connection. -/
def Heeds (o o' : Observation) : Prop :=
  o.fails = true → ∀ x, o'.shipment = some x → x.standing.status ≠ .connected

structure Heeding (s t : Sys W) : Prop where
  grows : Logs (fun _ => True) s t
  heeds : (noted s t).Pairwise Heeds

section Heeding

variable {s t u : Sys W}

theorem Heeding.trans (h : Heeding s t) (h' : Heeding t u)
    (hcross : Logs (fun o => o.fails = false) s t ∨ Ships (fun x => x.standing.status ≠ .connected) t u) :
    Heeding s u := by
  refine ⟨trans_of (Logs _) h.grows h'.grows, ?_⟩
  rw [noted_append h.grows h'.grows.noted.1]
  refine List.pairwise_append.mpr ⟨h.heeds, h'.heeds, ?_⟩
  intro o ho o' ho' hfails x hx
  rcases hcross with hnone | hships
  · rw [hnone.noted.2 o ho] at hfails
    cases hfails
  · exact hships.noted.2 o' ho' x hx

theorem Unshipped.heeding (h : Unshipped s t) : Heeding s t := by
  refine ⟨h.mono fun _ _ => trivial, List.pairwise_of_forall_mem_list fun o _ o' ho' _ x hx => ?_⟩
  rw [h.noted.2 o' ho'] at hx
  cases hx

theorem Ships.heeding (h : Ships (fun x => x.standing.status ≠ .connected) s t) : Heeding s t :=
  ⟨Logs.mono h fun _ _ => trivial,
    List.pairwise_of_forall_mem_list fun _ _ o' ho' _ x hx => h.noted.2 o' ho' x hx⟩

theorem Heeding.congr {s' t' : Sys W} (h : Heeding s t) (hs : s'.log = s.log) (ht : t'.log = t.log) :
    Heeding s' t' := by
  refine ⟨?_, ?_⟩
  · obtain ⟨more, hlog, hall⟩ := h.grows
    exact ⟨more, by rw [hs, ht, hlog], hall⟩
  · rw [noted, hs, ht]
    exact h.heeds

end Heeding

/-- Nothing opens a connection, a transport that fails leaves none open, and without one nothing is
offered as on one. -/
structure Sound (s t : Sys W) : Prop where
  closed : s.context.connectStatus ≠ .connected → t.context.connectStatus ≠ .connected
  ships : s.context.connectStatus ≠ .connected → Ships (fun x => x.standing.status ≠ .connected) s t
  lost : Logs (fun o => o.fails = false) s t ∨ t.context.connectStatus ≠ .connected
  heeding : Heeding s t

section Sound

variable {s t : Sys W}

theorem sound_of_unshipped (hships : Unshipped s t)
    (hclosed : s.context.connectStatus ≠ .connected → t.context.connectStatus ≠ .connected)
    (hlost : Logs (fun o => o.fails = false) s t ∨ t.context.connectStatus ≠ .connected) :
    Sound s t :=
  ⟨hclosed, fun _ => hships.ships, hlost, hships.heeding⟩

theorem sound_of_same (hlog : t.log = s.log)
    (hclosed : s.context.connectStatus ≠ .connected → t.context.connectStatus ≠ .connected) :
    Sound s t :=
  sound_of_unshipped (.same hlog) hclosed (.inl (.same hlog))

theorem sound_of_offer {parts : List (List UInt8)} {outcome : Sent}
    (hlog : t.log = s.log ++ [.sent parts outcome s.context.standing])
    (hclosed : s.context.connectStatus ≠ .connected → t.context.connectStatus ≠ .connected)
    (hlost : outcome ≠ .failed ∨ t.context.connectStatus ≠ .connected) : Sound s t where
  closed := hclosed
  ships hs := .one hlog fun x hx => Option.some.inj hx ▸ hs
  lost := hlost.imp_left fun hgone => .one hlog (by cases outcome <;> simp_all [Observation.fails])
  heeding := ⟨.one hlog trivial, by rw [noted_eq hlog]; exact List.pairwise_singleton _ _⟩

instance : IsPreorder (Sys W) Sound where
  refl s := sound_of_same rfl id
  trans _ _ _ h h' := by
    have hcross := h.lost.imp_right h'.ships
    refine ⟨fun hs => h'.closed (h.closed hs), ?_, ?_, h.heeding.trans h'.heeding hcross⟩
    · exact fun hs => trans_of (Ships _) (h.ships hs) (h'.ships (h.closed hs))
    · rcases h'.lost with hlog' | hu
      · rcases h.lost with hlog | ht
        · exact .inl (trans_of (Logs _) hlog hlog')
        · exact .inr (h'.closed ht)
      · exact .inr hu

end Sound

namespace Client

variable {env : Environment W}

theorem connectionLost_status (s : Sys W) :
    (connectionLost s).2.context.connectStatus ≠ .connected := by
  simp only [connectionLost, update_apply]
  split_ifs with h
  · simp
  · exact h

theorem nowMs_sound : (nowMs env).Moves Sound :=
  fun _ => sound_of_unshipped (.one rfl rfl) id (.inl (.one rfl rfl))

theorem stampTx_sound : (stampTx env).Moves Sound :=
  fun _ => sound_of_unshipped (.one rfl rfl) id (.inl (.one rfl rfl))

theorem send_sound {bytes : List UInt8} {outcome : Sent} {s u : Sys W}
    (h : send env bytes s = (.ok outcome, u)) :
    (outcome ≠ .failed → Sound s u) ∧ Sound s (connectionLost u).2 := by
  obtain rfl := of_send h
  exact ⟨fun hgone => sound_of_offer rfl id (.inl hgone),
    sound_of_offer rfl (fun _ => connectionLost_status _) (.inr (connectionLost_status _))⟩

theorem writev_sound {parts : List (List UInt8)} {outcome : Sent} {s u : Sys W}
    (h : writev env parts s = (.ok outcome, u)) :
    (outcome ≠ .failed → Sound s u) ∧ Sound s (connectionLost u).2 := by
  obtain rfl := of_writev h
  exact ⟨fun hgone => sound_of_offer rfl id (.inl hgone),
    sound_of_offer rfl (fun _ => connectionLost_status _) (.inr (connectionLost_status _))⟩

theorem sendBuffer_sound (buffer : List UInt8) : (sendBuffer env buffer).Moves Sound := by
  refine nowMs_sound.bind fun start =>
    .loop (I := fun _ => True) ?_ (fun _ _ _ _ _ _ => trivial) trivial _
  intro sent _ s
  have hturn := bufferTurn_cases env buffer start sent s
  generalize bufferTurn env buffer start sent s = run at hturn ⊢
  cases hturn with
  | whole => exact refl_of Sound s
  | failed _ hsend => exact trans_of Sound (send_sound hsend).2 (nowMs_sound _)
  | nothing _ hsend => exact trans_of Sound ((send_sound hsend).1 (by simp)) (nowMs_sound _)
  | bytes _ hsend =>
    exact trans_of Sound ((send_sound hsend).1 (by simp))
      (trans_of Sound (stampTx_sound _) (nowMs_sound _))

theorem sendVectors_sound (vectors : List (List UInt8)) : (sendVectors env vectors).Moves Sound := by
  refine nowMs_sound.bind fun start =>
    .loop (I := fun _ => True) ?_ (fun _ _ _ _ _ _ => trivial) trivial _
  intro place _ s
  have hturn := vectorsTurn_cases env vectors.flatten.length start place s
  generalize vectorsTurn env vectors.flatten.length start place s = run at hturn ⊢
  cases hturn with
  | whole => exact refl_of Sound s
  | failed _ hsend => exact (writev_sound hsend).2
  | nothing _ hsend => exact trans_of Sound ((writev_sound hsend).1 (by simp)) (nowMs_sound _)
  | bytes _ hsend =>
    exact trans_of Sound ((writev_sound hsend).1 (by simp))
      (trans_of Sound (stampTx_sound _) (nowMs_sound _))
  | last _ _ hsend => exact trans_of Sound ((writev_sound hsend).1 (by simp)) (stampTx_sound _)

theorem offered_sound {packet : List UInt8} {s t : Sys W} (h : Offered env packet s t) :
    Sound s t := by
  obtain ⟨parts, -, rfl | ⟨buffer, -, rfl⟩⟩ := h
  · exact sendVectors_sound parts s
  · exact sendBuffer_sound buffer s

/-- A piece that neither opens a connection nor reads. -/
theorem piece_sound {act : Act} {s t : Sys W} (h : Piece env act s t) (hopen : act ≠ .establish)
    (hread : act ≠ .read) : Sound s t := by
  cases h with
  | note hcontext hlog =>
    obtain ⟨now, hcontext⟩ := hcontext
    refine sound_of_unshipped (Logs.mono hlog ?_) (fun hs => by rw [hcontext]; exact hs)
      (.inl (Logs.mono hlog ?_))
    all_goals
      intro o hpassive
      cases o <;> first | rfl | cases hpassive
  | mark h =>
    obtain ⟨_, _, _, _, rfl⟩ := h
    exact sound_of_same rfl id
  | event => exact sound_of_unshipped (.one rfl rfl) id (.inl (.one rfl rfl))
  | call => exact sound_of_unshipped (.one rfl rfl) id (.inl (.one rfl rfl))
  | read => exact absurd rfl hread
  | send _ ho => exact offered_sound ho
  | adjust _ hstatus hlog => exact sound_of_same hlog fun hs => hstatus ▸ hs
  | lose => exact sound_of_same rfl fun _ => connectionLost_status s
  | farewell _ _ _ _ ho =>
    have hclosed : Sound s (disconnected s) := sound_of_same rfl fun _ => by simp [disconnected]
    exact trans_of Sound hclosed (offered_sound ho)
  | close _ hstatus hlog => exact sound_of_same hlog fun _ => by rw [hstatus]; simp
  | replace _ hcontext hlog => exact sound_of_same hlog fun hs => by rw [hcontext]; exact hs
  | establish => exact absurd rfl hopen
  | restore => exact sound_of_same rfl id

theorem piece_closed {act : Act} {s t : Sys W} (h : Piece env act s t) (hopen : act ≠ .establish)
    (hs : s.context.connectStatus ≠ .connected) : t.context.connectStatus ≠ .connected := by
  by_cases hread : act = .read
  · subst hread
    cases h with
    | read => exact hs
  · exact (piece_sound h hopen hread).closed hs

/-- A run that ends succeeds, or says nothing, or leaves no connection open. -/
def Ends (p : Client W Unit) : Prop := ∀ s, (p s).1 ≠ .error .blocked →
  (p s).1 = .ok () ∨ Unheard s (p s).2 ∨ (p s).2.context.connectStatus ≠ .connected

theorem Ends.bind {p : Client W α} {f : α → Client W Unit} (hp : p.Moves Unheard)
    (hf : ∀ a, Ends (f a)) : Ends (p >>= f) := by
  intro s hs
  have hfirst := hp s
  rw [Prog.bind_apply] at hs ⊢
  rcases h : p s with ⟨e | a, t⟩
  · rw [h] at hfirst
    exact .inr (.inl hfirst)
  · rw [h] at hs hfirst
    rcases hf a t hs with hok | hrest | hlost
    · exact .inl hok
    · exact .inr (.inl (trans_of Unheard hfirst hrest))
    · exact .inr (.inr hlost)

section Settling

variable {P : Observation → Prop}

end Settling

end Client

structure AnswersMalformed (env : Environment W) (manageKeepAlive : Bool) (total : ℕ) (s : Sys W)
    (x : Shipment) : Prop where
  unreadable : Client.Disturbs total s
  shipped : x ∈ shipments (noted s (Client.handlePacket env total manageKeepAlive s).2)
  part : x.parts.flatten <:+ disconnectPacket (some malformedPacket) []

/-- Offered on an open connection, or as the answer to one of these packets. -/
def Converses (env : Environment W) (manageKeepAlive : Bool) (packets : List (ℕ × Sys W))
    (x : Shipment) : Prop :=
  x.standing.status = .connected ∨ x.standing.status = .notConnected ∧
    ∃ p ∈ packets, AnswersMalformed env manageKeepAlive p.1 p.2 x

theorem Converses.mono {env : Environment W} {manageKeepAlive : Bool} {packets more : List (ℕ × Sys W)}
    {x : Shipment} (h : Converses env manageKeepAlive packets x) (hmore : packets ⊆ more) :
    Converses env manageKeepAlive more x := by
  refine h.imp_right ?_
  rintro ⟨hstatus, p, hp, hanswers⟩
  exact ⟨hstatus, p, hmore hp, hanswers⟩

namespace Client

variable {env : Environment W} {manageKeepAlive : Bool} {total : ℕ} {s : Sys W}

end Client

namespace Client

variable {env : Environment W} {call : Invocation} {s : Sys W}

theorem not_establish (hconnects : call.connects = false) {act : Act} (hmay : call.may act = true) :
    act ≠ .establish := by
  rintro rfl
  rw [call.connects_of_establish hmay] at hconnects
  cases hconnects

theorem course_closed (hconnects : call.connects = false)
    (hs : s.context.connectStatus ≠ .connected) {t : Sys W}
    (h : Course env (fun act => call.may act = true) s t) :
    t.context.connectStatus ≠ .connected ∧
      Ships (fun x => x.standing.status ≠ .connected) s t := by
  induction h with
  | refl => exact ⟨hs, refl_of (Ships _) s⟩
  | @tail t u _ hpiece ih =>
    obtain ⟨act, hmay, hpiece⟩ := hpiece
    refine ⟨piece_closed hpiece (not_establish hconnects hmay) ih.1, trans_of (Ships _) ih.2 ?_⟩
    cases hoffers : act.offers with
    | false => exact (hpiece.unshipped hoffers).ships
    | true =>
      cases hpiece with
      | send _ ho =>
        refine ho.ships.mono fun x hx => ?_
        rw [hx]
        exact ih.1
      | farewell _ _ _ _ ho =>
        refine trans_of (Ships _) (Logs.same rfl) (ho.ships.mono fun x hx => ?_)
        rw [hx]
        nofun
      | _ => cases hoffers

theorem perform_closed (hconnects : call.connects = false)
    (hs : s.context.connectStatus ≠ .connected) :
    (call.perform env s).2.context.connectStatus ≠ .connected :=
  (course_closed hconnects hs (perform_course call s)).1

end Client

end RtosMqtt
