import RtosMqtt.Client.Acceptance
import RtosMqtt.Client.Calls
import RtosMqtt.Client.Scripted

/-! # When a handled packet leaves the buffer

The loop drops a packet after its handler answered without an error, and only
then. So a packet that was handed over stays at the front of the buffer exactly
when something about it was out of order, and is handed over again by the next
call. A malformed DISCONNECT is the one exception: answering it empties the
buffer.
-/

namespace RtosMqtt

structure Slid (n : ℕ) (c d : MqttContext) : Prop where
  index : d.index = c.index - n
  network : d.network.take (c.network.length - n) = c.network.drop n

/-- The first `total` bytes of a buffer are gone, perhaps with more of it. -/
def Removed (total : ℕ) (c d : MqttContext) : Prop := ∃ n, total ≤ n ∧ Slid n c d

theorem Slid.refl (c : MqttContext) : Slid 0 c c := ⟨rfl, by simp⟩

theorem Slid.trans {n m : ℕ} {c d e : MqttContext} (h : Slid n c d) (h' : Slid m d e) :
    Slid (n + m) c e := by
  have hlength : c.network.length - n ≤ d.network.length := by
    have := congrArg List.length h.network
    rw [List.length_take, List.length_drop] at this
    omega
  refine ⟨by rw [h'.index, h.index, Nat.sub_sub], ?_⟩
  calc e.network.take (c.network.length - (n + m))
      = (e.network.take (d.network.length - m)).take (c.network.length - (n + m)) := by
        rw [List.take_take, Nat.min_eq_left (by omega)]
    _ = (d.network.take (c.network.length - n)).drop m := by
        rw [h'.network, List.drop_take, Nat.sub_sub]
    _ = c.network.drop (n + m) := by rw [h.network, List.drop_drop]

theorem slid_consume (total : ℕ) (c : MqttContext) : Slid total c (c.consume total) :=
  ⟨rfl, List.take_left' (by simp)⟩

theorem Steady.slid {W : Type} {s t : Sys W} (h : Steady s t) : Slid 0 s.context t.context :=
  ⟨h.index, by rw [h.network]; simp⟩

theorem Removed.trans {total m : ℕ} {c d e : MqttContext} (h : Removed total c d)
    (h' : Slid m d e) : Removed total c e := by
  obtain ⟨n, hn, h⟩ := h
  exact ⟨n + m, by omega, h.trans h'⟩

theorem not_removed {total : ℕ} {c d : MqttContext} (hpos : 0 < total) (hle : total ≤ c.index)
    (h : d.index = c.index) : ¬ Removed total c d := by
  rintro ⟨n, hn, hslid⟩
  have := hslid.index
  omega

theorem removed_of_empty {total : ℕ} {c d : MqttContext} (hle : total ≤ c.index)
    (h : d.index = 0) : Removed total c d :=
  ⟨max c.index c.network.length, by omega, by omega, by
    rw [List.drop_eq_nil_of_le (by omega), Nat.sub_eq_zero_of_le (by omega), List.take_zero]⟩

namespace Client

variable {W α : Type} (env : Environment W)

theorem update_steady {f : MqttContext → MqttContext}
    (h : ∀ c, (f c).properties = c.properties ∧ (f c).network = c.network ∧ (f c).index = c.index ∧
      (f c).keepAliveSeconds = c.keepAliveSeconds) : (update f : Client W Unit).Moves Steady :=
  fun s => ⟨(h s.context).1, (h s.context).2.1, (h s.context).2.2.1, (h s.context).2.2.2, rfl⟩

theorem steady_of_course {s t : Sys W} (h : Course env (fun act => act.handling = true) s t) :
    Steady s t := by
  refine h.keeps ?_
  intro act s t hmay hpiece
  cases hpiece with
  | note hcontext _ hpresent =>
    obtain ⟨now, hcontext⟩ := hcontext
    exact ⟨by rw [hcontext], by rw [hcontext], by rw [hcontext], by rw [hcontext], hpresent⟩
  | mark h =>
    obtain ⟨_, _, _, _, rfl⟩ := h
    exact ⟨rfl, rfl, rfl, rfl, rfl⟩
  | event => exact ⟨rfl, rfl, rfl, rfl, rfl⟩
  | call => exact ⟨rfl, rfl, rfl, rfl, rfl⟩
  | send _ ho =>
    obtain ⟨parts, -, rfl | ⟨buffer, -, rfl⟩⟩ := ho
    · exact (sendVectors_io env parts s).steady
    · exact (sendBuffer_io env buffer s).steady
  | read => cases hmay
  | adjust => cases hmay
  | lose => cases hmay
  | farewell => cases hmay
  | close => cases hmay
  | replace => cases hmay
  | establish => cases hmay
  | restore => cases hmay

theorem disconnect_snd (reasonCode : Option UInt8) (properties : List UInt8) (s : Sys W) :
    (Disconnects s.context reasonCode properties ∧
        Io (disconnected s) (disconnect env reasonCode properties s).2) ∨
      (¬ Disconnects s.context reasonCode properties ∧
        (disconnect env reasonCode properties s).2 = s) := by
  rcases disconnect_cases env reasonCode properties s with
    ⟨hstays, h⟩ | ⟨size, hdisconnects, -, hrun⟩
  · exact .inr ⟨hstays, h.snd⟩
  · refine .inl ⟨hdisconnects, ?_⟩
    rw [hrun]
    exact (Prog.Moves.bind (sendVectors_io env _) fun _ => sentWhole_moves _ _ : Prog.Moves Io _) _

/-- A malformed DISCONNECT, on a connection that can be closed with another one. -/
def DisconnectRefused (packetType : UInt8) (view : PacketInfo) (s : Sys W) : Prop :=
  packetType = Packet.disconnect ∧
    (∃ e, deserializeDisconnect view s.context.properties.client.maxPacketSize = .error e) ∧
    Disconnects s.context (some malformedPacket) []

/-- The packet at the front of the buffer is in order, or a malformed DISCONNECT. -/
def Acceptable (manageKeepAlive : Bool) (total : ℕ) (s : Sys W) : Prop :=
  ∃ packetType, s.context.network.head? = some packetType ∧
    ∃ view, s.context.packetView total = some view ∧
      (PacketAccepted env manageKeepAlive packetType view s ∨ DisconnectRefused packetType view s)

def Disturbs (total : ℕ) (s : Sys W) : Prop :=
  ∃ packetType, s.context.network.head? = some packetType ∧
    ∃ view, s.context.packetView total = some view ∧ DisconnectRefused packetType view s

theorem attempt_bind_snd {β : Type} {p : Client W α} {f : Except ClientError α → Client W β}
    (hf : ∀ outcome s, (f outcome s).2 = s) {s : Sys W} : ((attempt p >>= f) s).2 = (p s).2 := by
  rw [Prog.bind_apply]
  unfold attempt
  rcases p s with ⟨(e | _) | a, t⟩
  · exact hf (.error e) t
  · rfl
  · exact hf (.ok a) t

theorem attempt_bind_steady (p : Client W Unit) {g : MqttContext → MqttContext}
    (hg : ∀ c, (g c).properties = c.properties ∧ (g c).network = c.network ∧ (g c).index = c.index ∧
      (g c).keepAliveSeconds = c.keepAliveSeconds) (s : Sys W) :
    Steady (p s).2 ((attempt p >>= fun status => update g >>= fun _ => check id status) s).2 := by
  have hrest (status : Except ClientError Unit) : Prog.Moves Steady
      (update g >>= fun _ => check id status : Client W Unit) :=
    (update_steady hg).bind fun _ => check_moves _ _
  rw [Prog.bind_apply]
  unfold attempt
  rcases p s with ⟨(e | _) | a, t⟩
  · exact hrest (.error e) t
  · exact refl_of Steady t
  · exact hrest (.ok a) t

theorem handleIncomingDisconnect_buffer {total : ℕ} {s : Sys W}
    (hhead : s.context.network.head? = some Packet.disconnect) :
    (Disturbs total s ∧ (handleIncomingDisconnect env total s).2.context.index = 0) ∨
      (¬ Disturbs total s ∧ Steady s (handleIncomingDisconnect env total s).2) := by
  rw [handleIncomingDisconnect, Prog.bind_of_ok (context_apply s)]
  cases hview : s.context.packetView total with
  | none =>
    rw [orFail_bind_of_none rfl]
    refine .inr ⟨?_, refl_of Steady s⟩
    rintro ⟨_, -, view, hsome, -⟩
    rw [hview] at hsome
    cases hsome
  | some view =>
  rw [orFail_bind_of_some rfl]
  have hlast := attempt_bind_steady (answerDisconnect env view s.context)
    (g := fun c => { c with connectStatus := .notConnected }) (fun _ => ⟨rfl, rfl, rfl, rfl⟩) s
  have hdisturbs : Disturbs total s ↔ DisconnectRefused Packet.disconnect view s := by
    constructor
    · rintro ⟨packetType, hhead', view', hview', h⟩
      rw [hhead, Option.some.injEq] at hhead'
      rw [hview, Option.some.injEq] at hview'
      rwa [hhead', hview']
    · exact fun h => ⟨_, hhead, view, hview, h⟩
  rw [hdisturbs]
  cases hparse : deserializeDisconnect view s.context.properties.client.maxPacketSize with
  | ok incoming =>
    refine .inr ⟨?_, trans_of Steady ?_ hlast⟩
    · rintro ⟨-, ⟨e, he⟩, -⟩
      rw [hparse] at he
      cases he
    · rw [answerDisconnect, hparse]
      exact (Prog.Moves.bind ((dispatch_course (fun _ h => h) _ _).mono (steady_of_course env))
        fun _ => refuse_moves _ _ : Prog.Moves Steady _) s
  | error e =>
    have hfailed : (answerDisconnect env view s.context s).2 =
        (disconnect env (some malformedPacket) [] s).2 := by
      rw [answerDisconnect, hparse]
      exact Prog.bind_snd_of_still fun _ _ => rfl
    rw [hfailed] at hlast
    rcases disconnect_snd env (some malformedPacket) [] s with ⟨hcan, hio⟩ | ⟨hcannot, hsame⟩
    · refine .inl ⟨⟨rfl, ⟨e, hparse⟩, hcan⟩, ?_⟩
      rw [hlast.index, hio.steady.index]
      rfl
    · refine .inr ⟨fun h => hcannot h.2.2, ?_⟩
      rwa [hsame] at hlast

theorem handlePacket_buffer (total : ℕ) (manageKeepAlive : Bool) (s : Sys W) :
    (Disturbs total s ∧ (handlePacket env total manageKeepAlive s).2.context.index = 0) ∨
      (¬ Disturbs total s ∧ Steady s (handlePacket env total manageKeepAlive s).2) := by
  rw [handlePacket, Prog.bind_of_ok (context_apply s)]
  cases hhead : s.context.network.head? with
  | none =>
    rw [orFail_bind_of_none rfl]
    refine .inr ⟨?_, refl_of Steady s⟩
    rintro ⟨_, hsome, -⟩
    rw [hhead] at hsome
    cases hsome
  | some packetType =>
  rw [orFail_bind_of_some rfl]
  have hother (hne : packetType ≠ Packet.disconnect) : ¬ Disturbs total s := by
    rintro ⟨packetType', hhead', _, -, htype, -⟩
    rw [hhead, Option.some.injEq] at hhead'
    exact hne (hhead'.trans htype)
  by_cases hpublish : packetType &&& 0xF0 = Packet.publish
  · rw [if_pos hpublish]
    refine .inr ⟨hother ?_, steady_of_course env (handleIncomingPublish_course (fun _ h => h) total s)⟩
    rintro rfl
    exact absurd hpublish (by decide)
  rw [if_neg hpublish]
  by_cases hdisconnect : packetType = Packet.disconnect
  · rw [if_pos hdisconnect]
    exact handleIncomingDisconnect_buffer env (hdisconnect ▸ hhead)
  · rw [if_neg hdisconnect]
    exact .inr ⟨hother hdisconnect, steady_of_course env (handleIncomingAck_course (fun _ h => h) _ _ _ s)⟩

/-- Some bytes, perhaps none, left the front of the buffer. -/
def Slides (s t : Sys W) : Prop := ∃ n, Slid n s.context t.context

instance : IsPreorder (Sys W) Slides where
  refl s := ⟨0, .refl s.context⟩
  trans _ _ _ h h' := by
    obtain ⟨n, h⟩ := h
    obtain ⟨m, h'⟩ := h'
    exact ⟨n + m, h.trans h'⟩

theorem slides_of_empty {s t : Sys W} (h : t.context.index = 0) : Slides s t := by
  obtain ⟨n, -, hslid⟩ := removed_of_empty (Nat.zero_le s.context.index) h
  exact ⟨n, hslid⟩

theorem head?_of_packetView {c : MqttContext} {total : ℕ} {view : PacketInfo}
    (h : c.packetView total = some view) : c.network.head? = some view.packetType := by
  unfold MqttContext.packetView at h
  cases hheader : processIncomingPacketTypeAndLength c.network c.index with
  | error e => rw [hheader] at h; cases h
  | ok header =>
    rw [hheader] at h
    obtain ⟨body, -, rfl⟩ := Option.map_eq_some_iff.mp h
    exact (header_eq_ok hheader).1

theorem two_le_of_measure {c : MqttContext} {total : ℕ} (h : c.measure = .ok total) : 2 ≤ total := by
  unfold MqttContext.measure at h
  cases hheader : processIncomingPacketTypeAndLength c.network c.index with
  | error e => rw [hheader] at h; cases h
  | ok header =>
    rw [hheader] at h
    cases h
    have := (header_eq_ok hheader).2.2
    omega

theorem processPacket_of_error {total : ℕ} {manageKeepAlive : Bool} {s t : Sys W} {e : Stop}
    (h : handlePacket env total manageKeepAlive s = (.error e, t)) :
    processPacket env total manageKeepAlive s = (.error e, t) := Prog.bind_of_error h

theorem processPacket_of_ok {total : ℕ} {manageKeepAlive : Bool} {s t : Sys W}
    (h : handlePacket env total manageKeepAlive s = (.ok (), t)) :
    ∃ u, processPacket env total manageKeepAlive s = (.ok (), u) ∧
      Slid total t.context u.context := by
  refine ⟨_, Prog.bind_of_ok h, ?_⟩
  exact ⟨(slid_consume total t.context).index, (slid_consume total t.context).network⟩

theorem processPacket_slides (total : ℕ) (manageKeepAlive : Bool) :
    (processPacket env total manageKeepAlive).Moves Slides := by
  intro s
  have hbuffer := handlePacket_buffer env total manageKeepAlive s
  rcases h : handlePacket env total manageKeepAlive s with ⟨e | _, t⟩
  · rw [processPacket_of_error env h]
    rw [h] at hbuffer
    rcases hbuffer with ⟨-, hempty⟩ | ⟨-, hsteady⟩
    · exact slides_of_empty hempty
    · exact ⟨0, hsteady.slid⟩
  · obtain ⟨u, hu, hslid⟩ := processPacket_of_ok env h
    rw [hu]
    rw [h] at hbuffer
    rcases hbuffer with ⟨-, hempty⟩ | ⟨-, hsteady⟩
    · exact trans_of Slides (slides_of_empty hempty) ⟨total, hslid⟩
    · exact ⟨0 + total, hsteady.slid.trans hslid⟩

theorem removed_of_processed {total : ℕ} {manageKeepAlive : Bool} {s u : Sys W}
    (hle : total ≤ s.context.index)
    (h : processPacket env total manageKeepAlive s = (.ok (), u)) :
    Removed total s.context u.context := by
  have hbuffer := handlePacket_buffer env total manageKeepAlive s
  rcases hhandled : handlePacket env total manageKeepAlive s with ⟨e | _, t⟩
  · rw [processPacket_of_error env hhandled] at h
    cases h
  · obtain ⟨v, hv, hslid⟩ := processPacket_of_ok env hhandled
    obtain ⟨-, rfl⟩ := Prod.mk.inj (hv.symm.trans h)
    rw [hhandled] at hbuffer
    rcases hbuffer with ⟨-, hempty⟩ | ⟨-, hsteady⟩
    · exact (removed_of_empty hle hempty).trans hslid
    · exact ⟨0 + total, by omega, hsteady.slid.trans hslid⟩

/-- Whatever a turn does to a complete packet, it leaves the buffer exactly when the packet was
acceptable. -/
theorem removed_processPacket_iff {total : ℕ} (manageKeepAlive : Bool) {s : Sys W}
    (hpos : 0 < total) (hle : total ≤ s.context.index) :
    Removed total s.context (processPacket env total manageKeepAlive s).2.context ↔
      Acceptable env manageKeepAlive total s := by
  have hbuffer := handlePacket_buffer env total manageKeepAlive s
  have hfinishes := finishes_handlePacket env total manageKeepAlive s
  have hsplit : Acceptable env manageKeepAlive total s ↔
      (handlePacket env total manageKeepAlive).Finishes s ∨ Disturbs total s := by
    rw [hfinishes]
    constructor
    · rintro ⟨packetType, hhead, view, hview, h | h⟩
      · exact .inl ⟨packetType, hhead, view, hview, h⟩
      · exact .inr ⟨packetType, hhead, view, hview, h⟩
    · rintro (⟨packetType, hhead, view, hview, h⟩ | ⟨packetType, hhead, view, hview, h⟩)
      · exact ⟨packetType, hhead, view, hview, .inl h⟩
      · exact ⟨packetType, hhead, view, hview, .inr h⟩
  rw [hsplit]
  rcases h : handlePacket env total manageKeepAlive s with ⟨e | _, t⟩
  · rw [processPacket_of_error env h]
    rw [h] at hbuffer
    have hnot : ¬ (handlePacket env total manageKeepAlive).Finishes s := by
      rintro ⟨_, _, hok⟩
      rw [h] at hok
      cases hok
    rcases hbuffer with ⟨hdisturbs, hempty⟩ | ⟨hcalm, hsteady⟩
    · exact iff_of_true (removed_of_empty hle hempty) (.inr hdisturbs)
    · exact iff_of_false (not_removed hpos hle hsteady.index) (fun h => h.elim hnot hcalm)
  · obtain ⟨u, hu, -⟩ := processPacket_of_ok env h
    rw [hu]
    exact iff_of_true (removed_of_processed env hle hu) (.inl ⟨(), t, h⟩)

def Idle (received : Recv) (s : Sys W) : Prop :=
  received = .nothing ∨ received = .bytes 0 ∧ s.context.index ≤ usizeMax

theorem arrival_steady {received : Recv} {s : Sys W} (h : Idle received s) :
    Steady s (arrival received s : Except Stop (Except ClientError ℕ) × Sys W).2 := by
  rcases h with rfl | ⟨rfl, hindex⟩
  · exact refl_of Steady s
  · rw [arrival, Prog.bind_of_ok (context_apply s)]
    dsimp only
    by_cases hempty : 0 = 0 ∧ s.context.index = 0
    · rw [if_pos hempty]
      exact refl_of Steady s
    · rw [if_neg hempty]
      exact ⟨rfl, rfl, Nat.min_eq_left hindex, rfl, rfl⟩

theorem arrival_ok {received : Recv} {s t : Sys W} {total : ℕ}
    (h : (arrival received : Client W _) s = (.ok (.ok total), t)) :
    2 ≤ total ∧ (received = .nothing ∨ ∃ count, received = .bytes count ∧
      t.context.index ≤ usizeMax) := by
  rw [arrival, Prog.bind_of_ok (context_apply s)] at h
  cases received with
  | failed =>
    obtain ⟨hlost, -⟩ := Prod.mk.inj h
    cases hlost
  | nothing =>
    obtain ⟨hstatus, rfl⟩ := Prod.mk.inj h
    split_ifs at hstatus
    · cases hstatus
    · exact ⟨two_le_of_measure (Except.ok.inj hstatus), .inl rfl⟩
  | bytes count =>
    dsimp only at h
    by_cases hempty : count = 0 ∧ s.context.index = 0
    · rw [if_pos hempty] at h; cases h
    · rw [if_neg hempty] at h
      obtain ⟨hstatus, rfl⟩ := Prod.mk.inj h
      exact ⟨two_le_of_measure (Except.ok.inj hstatus), .inr ⟨count, rfl, Nat.min_le_right _ _⟩⟩

theorem keepAliveTurn_ok {manageKeepAlive : Bool} {received : Recv} {status status' : Except ClientError ℕ}
    {s t : Sys W} {total : ℕ}
    (h : keepAliveTurn env manageKeepAlive received status s = (.ok status', t))
    (hstatus : status' = .ok total) : status = .ok total := by
  unfold keepAliveTurn at h
  split_ifs at h
  · rw [Prog.bind_eq_ok] at h
    obtain ⟨outcome, u, -, h⟩ := h
    cases outcome with
    | error e =>
      obtain ⟨hs, -⟩ := Prod.mk.inj h
      rw [hstatus] at hs
      cases hs
    | ok _ => exact (Except.ok.inj (Prod.mk.inj h).1).trans hstatus
  · exact (Except.ok.inj (Prod.mk.inj h).1).trans hstatus

theorem nextPacket_ok {manageKeepAlive : Bool} {received : Recv} {s u : Sys W} {total : ℕ}
    (h : nextPacket env manageKeepAlive received s = (.ok total, u)) :
    2 ≤ total ∧ total ≤ u.context.index ∧ total ≤ u.context.network.length ∧
      (received = .nothing ∨ ∃ count, received = .bytes count ∧ u.context.index ≤ usizeMax) := by
  rw [nextPacket, Prog.bind_eq_ok] at h
  obtain ⟨status, t, harrival, h⟩ := h
  rw [Prog.bind_eq_ok] at h
  obtain ⟨status', v, hkeep, h⟩ := h
  rw [Prog.bind_eq_ok] at h
  obtain ⟨total', w, hcheck, h⟩ := h
  obtain ⟨hok, rfl⟩ := check_eq_ok.mp hcheck
  rw [Prog.bind_of_ok (context_apply w), Client.refuse, Prog.refuse_bind_eq_ok, Client.refuse,
    Prog.refuse_bind_eq_ok] at h
  obtain ⟨hnetwork, hindex, h⟩ := h
  obtain ⟨rfl, rfl⟩ : total' = total ∧ w = u := by simpa using h
  rw [keepAliveTurn_ok env hkeep hok] at harrival
  have hsteady := steady_of_course env
    (keepAliveTurn_course (fun _ h => h) manageKeepAlive received status t)
  rw [hkeep] at hsteady
  obtain ⟨htwo, hcounted⟩ := arrival_ok harrival
  refine ⟨htwo, not_lt.mp hindex, not_lt.mp hnetwork, ?_⟩
  rwa [← hsteady.index] at hcounted

theorem nextPacket_steady {manageKeepAlive : Bool} {received : Recv} {s : Sys W}
    (h : Idle received s) : Steady s (nextPacket env manageKeepAlive received s).2 :=
  Prog.rel_bind (arrival_steady h) fun _ =>
    ((keepAliveTurn_course (fun _ h => h) _ _ _).mono (steady_of_course env)).bind fun _ => (check_moves _ _).bind fun _ =>
      context_moves.bind fun _ => (refuse_moves _ _).bind fun _ => (refuse_moves _ _).bind fun _ =>
        .pure _

/-- The packets a call hands to its handlers, each with the state it is handed over in. -/
def handledFrom (manageKeepAlive : Bool) : (turns : ℕ) → Recv → Sys W → List (ℕ × Sys W)
  | 0, _, _ => []
  | turns + 1, received, s =>
    match nextPacket env manageKeepAlive received s with
    | (.error _, _) => []
    | (.ok total, u) => (total, u) ::
      match processPacket env total manageKeepAlive u with
      | (.error _, _) => []
      | (.ok (), v) =>
        if v.context.index = 0 then []
        else handledFrom manageKeepAlive turns
          (if arrivedNothing received then received else .bytes 0) v

theorem idle_next {received : Recv} {u v : Sys W} (hcounted : received = .nothing ∨
    ∃ count, received = .bytes count ∧ u.context.index ≤ usizeMax)
    (hslides : Slides u v) : Idle (if arrivedNothing received then received else .bytes 0) v := by
  obtain ⟨n, hslid⟩ := hslides
  have hindex := hslid.index
  rcases hcounted with rfl | ⟨count, rfl, hle⟩
  · exact .inl rfl
  · refine .inr ⟨?_, by omega⟩
    split_ifs with h
    · simpa [arrivedNothing] using h
    · rfl

theorem turnsFrom_slides (manageKeepAlive : Bool) (turns : ℕ) {received : Recv} {s : Sys W}
    (h : Idle received s) : Slides s (turnsFrom env manageKeepAlive turns received s).2 := by
  induction turns generalizing received s with
  | zero => exact refl_of Slides s
  | succ turns ih =>
    have hnext : Slides s (nextPacket env manageKeepAlive received s).2 :=
      ⟨0, (nextPacket_steady env h).slid⟩
    rw [turnsFrom]
    rcases hpacket : nextPacket env manageKeepAlive received s with ⟨e | total, u⟩
    · rw [Prog.bind_of_error hpacket]
      rwa [hpacket] at hnext
    rw [Prog.bind_of_ok hpacket]
    rw [hpacket] at hnext
    obtain ⟨-, -, -, hcounted⟩ := nextPacket_ok env hpacket
    have hprocess := processPacket_slides env total manageKeepAlive u
    rcases hdone : processPacket env total manageKeepAlive u with ⟨e | _, v⟩
    · rw [Prog.bind_of_error hdone]
      rw [hdone] at hprocess
      exact trans_of Slides hnext hprocess
    rw [Prog.bind_of_ok hdone, Prog.bind_of_ok (context_apply v)]
    rw [hdone] at hprocess
    refine trans_of Slides (trans_of Slides hnext hprocess) ?_
    by_cases hempty : v.context.index = 0
    · rw [if_pos hempty]
      exact refl_of Slides v
    · rw [if_neg hempty]
      exact ih (idle_next hcounted hprocess)

/-- In a call that comes to an end, the packets that left the buffer are the acceptable ones. -/
theorem removed_turnsFrom_iff {manageKeepAlive : Bool} {turns : ℕ} {received : Recv} {s t : Sys W}
    {answer : Except Stop Unit}
    (h : turnsFrom env manageKeepAlive turns received s = (answer, t)) :
    ∀ p ∈ handledFrom env manageKeepAlive turns received s,
      Removed p.1 p.2.context t.context ↔ Acceptable env manageKeepAlive p.1 p.2 := by
  induction turns generalizing received s with
  | zero => simp [handledFrom]
  | succ turns ih =>
    rw [turnsFrom] at h
    rw [handledFrom]
    rcases hpacket : nextPacket env manageKeepAlive received s with ⟨e | total, u⟩
    · simp
    rw [Prog.bind_of_ok hpacket] at h
    obtain ⟨htwo, hindex, -, hcounted⟩ := nextPacket_ok env hpacket
    have hremoved := removed_processPacket_iff env manageKeepAlive (by omega) hindex
    have hprocess := processPacket_slides env total manageKeepAlive u
    dsimp only
    rcases hdone : processPacket env total manageKeepAlive u with ⟨e | _, v⟩
    · rw [Prog.bind_of_error hdone] at h
      obtain ⟨-, rfl⟩ := Prod.mk.inj h
      rw [hdone] at hremoved
      simpa using hremoved
    rw [Prog.bind_of_ok hdone, Prog.bind_of_ok (context_apply v)] at h
    rw [hdone] at hremoved hprocess
    have hidle := idle_next hcounted hprocess
    have hgone := removed_of_processed env hindex hdone
    dsimp only
    by_cases hempty : v.context.index = 0
    · rw [if_pos hempty] at h
      obtain ⟨-, rfl⟩ := Prod.mk.inj h
      rw [if_pos hempty]
      simpa using hremoved
    · rw [if_neg hempty] at h
      rw [if_neg hempty]
      intro p hp
      rcases List.mem_cons.mp hp with rfl | hp
      · have hrest := turnsFrom_slides env manageKeepAlive turns hidle
        rw [h] at hrest
        obtain ⟨m, hslid⟩ := hrest
        exact iff_of_true (hgone.trans hslid) (hremoved.mp hgone)
      · exact ih h p hp

/-- The packets one pass of the loop hands to its handlers. -/
def handledIn (manageKeepAlive : Bool) (s : Sys W) : List (ℕ × Sys W) :=
  match readIn env s with
  | (.error _, _) => []
  | (.ok received, t) => handledFrom env manageKeepAlive env.patience received t

theorem removed_receiveSingleIteration_iff (manageKeepAlive : Bool) (s : Sys W) :
    ∀ p ∈ handledIn env manageKeepAlive s,
      Removed p.1 p.2.context (receiveSingleIteration env manageKeepAlive s).2.context ↔
        Acceptable env manageKeepAlive p.1 p.2 := by
  intro p hp
  rw [handledIn] at hp
  rcases hread : readIn env s with ⟨e | received, t⟩
  · rw [hread] at hp
    cases hp
  rw [hread] at hp
  rw [receiveSingleIteration, Prog.bind_of_ok hread]
  rw [attempt_bind_snd fun _ _ => rfl]
  exact removed_turnsFrom_iff env rfl p hp

/-- A packet that was handed over: in which call, in which state, and the state the call left. -/
structure Handled (W : Type) where
  env : Environment W
  manageKeepAlive : Bool
  total : ℕ
  before : Sys W
  after : Sys W

/-- The packets that one call of the application hands over. -/
def handledBy (call : Environment W × Invocation) (s : Sys W) : List (Handled W) :=
  let handled (manageKeepAlive : Bool) (packets : List (ℕ × Sys W)) : List (Handled W) :=
    packets.map fun p =>
      ⟨call.1, manageKeepAlive, p.1, p.2, (call.2.perform call.1 s).2⟩
  match call.2 with
  | .request (.traffic .processLoop) => handled true (handledIn call.1 true
      { s with context := { s.context with controlPacketSent := false } })
  | .request (.traffic .receiveLoop) => handled false (handledIn call.1 false s)
  | _ => []

def handledInRun : List (Environment W × Invocation) → Sys W → List (Handled W)
  | [], _ => []
  | call :: calls, s => handledBy call s ++ handledInRun calls (call.2.perform call.1 s).2

theorem removed_handledBy_iff (call : Environment W × Invocation) (s : Sys W) :
    ∀ h ∈ handledBy call s, Removed h.total h.before.context h.after.context ↔
      Acceptable h.env h.manageKeepAlive h.total h.before := by
  obtain ⟨env, call⟩ := call
  intro h hh
  rcases call with (_ | _ | traffic) | _ | _ | _ | _ | _
  case request.traffic =>
    cases traffic with
    | processLoop =>
      obtain ⟨p, hp, rfl⟩ := List.mem_map.mp hh
      exact removed_receiveSingleIteration_iff env true _ p hp
    | receiveLoop =>
      obtain ⟨p, hp, rfl⟩ := List.mem_map.mp hh
      exact removed_receiveSingleIteration_iff env false s p hp
    | _ => cases hh
  all_goals cases hh

/-- In every run, the packets that have left the buffer when the call that handled them returns
are the acceptable ones. -/
theorem removed_iff_acceptable (calls : List (Environment W × Invocation)) (s : Sys W) :
    ∀ h ∈ handledInRun calls s, Removed h.total h.before.context h.after.context ↔
      Acceptable h.env h.manageKeepAlive h.total h.before := by
  induction calls generalizing s with
  | nil => simp [handledInRun]
  | cons call calls ih =>
    intro h hh
    rcases List.mem_append.mp hh with hh | hh
    · exact removed_handledBy_iff call s h hh
    · exact ih _ h hh

/-- A connection, and two passes over a PUBLISH at QoS 0 that the application does not accept. -/
def refusedTwice : List (Environment Script × Invocation) :=
  let env := Script.environment false
  [(env, .request (.connect (Script.connect true []) 0)), (env, .request (.traffic .receiveLoop)),
    (env, .request (.traffic .receiveLoop))]

def refusing : Sys Script := start (List.replicate 64 0)
  { reads := [Script.connack false [], [0x30, 4, 0, 1, 97, 0]]
    answers := [([], false), ([], false)] }

theorem refusing_keeps : ∃ h ∈ handledInRun refusedTwice refusing,
    ¬ Removed h.total h.before.context h.after.context := by
  have hpackets : (handledInRun refusedTwice refusing).map
      (fun h => (h.total, h.before.context.index, h.after.context.index)) =
        [(6, 6, 6), (6, 6, 6)] := by decide +kernel
  obtain ⟨h, hmem, heq⟩ := List.mem_map.mp (hpackets ▸ List.mem_cons_self)
  obtain ⟨htotal, hbefore, hafter⟩ := by simpa using heq
  exact ⟨h, hmem, not_removed (by omega) (by omega) (by omega)⟩

/-- The refused packet was not acceptable. -/
theorem refused_publish_not_acceptable : ∃ h ∈ handledInRun refusedTwice refusing,
    ¬ Acceptable h.env h.manageKeepAlive h.total h.before := by
  obtain ⟨h, hmem, hkept⟩ := refusing_keeps
  exact ⟨h, hmem, fun hok => hkept ((removed_iff_acceptable refusedTwice refusing h hmem).mpr hok)⟩

/-- Both passes hand the same packet to the application, and it stays in the buffer. -/
theorem refused_publish_stays :
    ((afterAll refusing refusedTwice).log.filterMap fun o =>
      match o with
      | .event e accepted => some (e.publish.map PublishInfo.topicName, accepted)
      | _ => none) = [(some [97], false), (some [97], false)] ∧
    ∃ h ∈ handledInRun refusedTwice refusing,
      ¬ Removed h.total h.before.context h.after.context :=
  ⟨by decide +kernel, refusing_keeps⟩

end Client

end RtosMqtt
