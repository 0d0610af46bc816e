import RtosMqtt.Client.Apart
import RtosMqtt.Client.Passes
import RtosMqtt.Client.Scripted

/-! # The loop takes a stream apart

However a stream of packets is cut into reads, passes of the loop hand each packet over when the
last of its bytes has arrived, and in the end the client is one that was given each packet alone.
-/

namespace RtosMqtt

variable {W W₁ W₂ : Type}

namespace Client

section Alone

variable (env : Environment W)

def handleAlone (packet : List UInt8) : Client W Unit := do
  update fun c => { c with network := packet, index := packet.length }
  processPacket env packet.length false

/-- One packet after the other, each alone in the buffer. -/
def handleEach : List (List UInt8) → Client W Unit
  | [] => pure ()
  | packet :: packets => do
    handleAlone env packet
    handleEach packets

theorem handleEach_cons_ok {packet : List UInt8} {packets : List (List UInt8)} {s : Sys W}
    (h : (handleEach env (packet :: packets) s).1 = .ok ()) :
    ∃ t, handleAlone env packet s = (.ok (), t) ∧
      handleEach env (packet :: packets) s = handleEach env packets t := by
  rw [handleEach] at h
  rcases halone : handleAlone env packet s with ⟨e | _, t⟩
  · rw [Prog.bind_of_error halone] at h
    cases h
  · exact ⟨t, rfl, Prog.bind_of_ok halone⟩

end Alone

section Abreast

variable {env₀ : Environment W₁} {env : Environment W₂} {R : W₁ → W₂ → Prop}
  {packet : List UInt8}

theorem sameFront_alone {c d : MqttContext} (hwhole : IsWhole packet)
    (hpacket : packet <+: d.received) (hc : c.network = packet) (hindex : c.index = packet.length) :
    SameFront packet.length c d := by
  obtain ⟨header, hwf, hhead, hlength⟩ := hwhole
  have hnetwork : packet <+: d.network := hpacket.trans (List.take_prefix _ _)
  have hle := hnetwork.length_le
  constructor
  · obtain ⟨more, hmore⟩ := hnetwork
    obtain ⟨_, rfl⟩ := hhead
    rw [hc, ← hmore]
    rfl
  · have htake : d.network.take packet.length = packet :=
      (List.prefix_iff_eq_take.mp hnetwork).symm
    have hreceived : header.encoded <+: c.received := by
      rw [MqttContext.received, hc, hindex, List.take_length]
      exact hhead
    rw [MqttContext.packetView, MqttContext.packetView,
      MqttContext.header_of_received hwf (hhead.trans hpacket),
      MqttContext.header_of_received hwf hreceived, hc]
    dsimp only
    rw [slice?, slice?, htake, List.take_length]
    simp only [hle, le_refl, and_true]

variable (env₀ R) in
/-- One client has the packets that are left still to come, and the other is one that was given each
of the earlier ones alone and handles the others too. -/
def Abreast (packets : List (List UInt8)) (s₀ : Sys W₁) (left : List (List UInt8)) (u : Sys W₂) :
    Prop :=
  ∃ s₁, handleEach env₀ packets s₀ = handleEach env₀ left s₁ ∧ Apart R s₁ u ∧
    (handleEach env₀ left s₁).1 = .ok ()

theorem Abreast.settled {packets : List (List UInt8)} {s₀ : Sys W₁} {u : Sys W₂}
    (h : Abreast env₀ R packets s₀ [] u) : Apart R (handleEach env₀ packets s₀).2 u := by
  obtain ⟨s₁, heach, hapart, -⟩ := h
  rw [heach]
  exact hapart

theorem mirrors_unread {pending : W₂ → List UInt8} (hmirrors : Mirrors env₀ env R)
    (hsupplies : Supplies env pending) (rest : List UInt8) :
    Mirrors env₀ env fun w w' => R w w' ∧ pending w' = rest where
  patience := hmirrors.patience
  storing := hmirrors.storing
  clock h := ⟨(hmirrors.clock h.1).1, (hmirrors.clock h.1).2, (hsupplies.clock _).trans h.2⟩
  send bytes h := ⟨(hmirrors.send bytes h.1).1, (hmirrors.send bytes h.1).2,
    (hsupplies.send _ _).trans h.2⟩
  writev parts h := ⟨(hmirrors.writev parts h.1).1, (hmirrors.writev parts h.1).2,
    (hsupplies.writev _ _).trans h.2⟩
  store key parts h := ⟨(hmirrors.store key parts h.1).1, (hmirrors.store key parts h.1).2,
    (hsupplies.store _ _ _).trans h.2⟩
  clear key h := ⟨hmirrors.clear key h.1, (hsupplies.clear _ _).trans h.2⟩
  event e reply h := ⟨(hmirrors.event e reply h.1).1, (hmirrors.event e reply h.1).2,
    (hsupplies.event _ _ _).trans h.2⟩

/-- A packet that is there is handled as it is alone. -/
theorem abreast_takes {pending : W₂ → List UInt8} (hmirrors : Mirrors env₀ env R)
    (hreads : ∀ into {w w'}, R w w' → R w (env.recv into w').2) (hsupplies : Supplies env pending)
    (packets : List (List UInt8)) (s₀ : Sys W₁) :
    Takes env pending (Abreast env₀ R packets s₀) where
  first {packet left u} h hwhole hpacket := by
    obtain ⟨s, heach, ⟨⟨network, index, hcontext⟩, hpresent, htold, hworld⟩, hhandled⟩ := h
    obtain ⟨s₁, halone, hrest⟩ := handleEach_cons_ok env₀ hhandled
    have hbefore : Apart (fun w w' => R w w' ∧ pending w' = pending u.world) { s with context :=
        { s.context with network := packet, index := packet.length } } u :=
      ⟨⟨network, index, hcontext⟩, hpresent, htold, hworld, rfl⟩
    obtain ⟨hresult, hcontext', hpresent', htold', hworld', hpending⟩ :=
      processPacket_apart (mirrors_unread hmirrors hsupplies _) false hbefore
        (sameFront_alone hwhole hpacket rfl rfl)
    rw [handleAlone, Prog.bind_of_ok (update_apply _ s)] at halone
    rw [halone] at hresult hcontext' hpresent' htold' hworld'
    rcases hdone : processPacket env packet.length false u with ⟨r, v⟩
    rw [hdone] at hresult hcontext' hpresent' htold' hworld' hpending
    obtain rfl : r = .ok () := hresult
    refine ⟨v, rfl, ⟨s₁, heach.trans hrest, ⟨hcontext', hpresent', htold', hworld'⟩, ?_⟩, hpending⟩
    rw [← hrest]
    exact hhandled
  reads {left u} n h := by
    obtain ⟨s, heach, ⟨⟨network, index, hcontext⟩, hpresent, htold, hworld⟩, hhandled⟩ := h
    refine ⟨s, heach, ⟨⟨(handed env u).context.network, u.context.index + n, ?_⟩, hpresent, ?_,
      hreads _ hworld⟩, hhandled⟩
    · dsimp only [filled, handed]
      rw [hcontext]
    · dsimp only [filled, handed]
      rw [told_append, ← htold]
      exact List.append_nil _

end Abreast

section Cut

variable {env₁ : Environment W₁} {env₂ : Environment W₂} {R : W₁ → W₂ → Prop}

theorem mirrors_across (h : Mirrors env₁ env₂ R) :
    Mirrors env₁ env₁ fun w w' => ∃ v, R w v ∧ R w' v where
  patience := rfl
  storing := rfl
  clock := by
    rintro w w' ⟨v, hw, hw'⟩
    exact ⟨(h.clock hw').1.symm.trans (h.clock hw).1, _, (h.clock hw).2, (h.clock hw').2⟩
  send := by
    rintro w w' bytes ⟨v, hw, hw'⟩
    exact ⟨(h.send bytes hw').1.symm.trans (h.send bytes hw).1, _, (h.send bytes hw).2,
      (h.send bytes hw').2⟩
  writev := by
    rintro w w' parts ⟨v, hw, hw'⟩
    exact ⟨(h.writev parts hw').1.symm.trans (h.writev parts hw).1, _, (h.writev parts hw).2,
      (h.writev parts hw').2⟩
  store := by
    rintro w w' key parts ⟨v, hw, hw'⟩
    exact ⟨(h.store key parts hw').1.symm.trans (h.store key parts hw).1, _,
      (h.store key parts hw).2, (h.store key parts hw').2⟩
  clear := by
    rintro w w' key ⟨v, hw, hw'⟩
    exact ⟨_, h.clear key hw, h.clear key hw'⟩
  event := by
    rintro w w' e reply ⟨v, hw, hw'⟩
    exact ⟨(h.event e reply hw').1.symm.trans (h.event e reply hw).1, _, (h.event e reply hw).2,
      (h.event e reply hw').2⟩

/-- However a stream of packets is cut into reads, a client that handles each of them without an
error reads and handles them all, and ends as it does for any other way to cut it. -/
theorem reassembly_unaffected_by_reads {pending₁ : W₁ → List UInt8} {pending₂ : W₂ → List UInt8}
    (hmirrors : Mirrors env₁ env₂ R)
    (hreads₁ : ∀ into {w w'}, R w w' → R (env₁.recv into w).2 w')
    (hreads₂ : ∀ into {w w'}, R w w' → R w (env₂.recv into w').2)
    (hsupplies₁ : Supplies env₁ pending₁) (hsupplies₂ : Supplies env₂ pending₂)
    {s : Sys W₁} {t : Sys W₂} (hapart : Apart R s t)
    (hroom : t.context.network.length = s.context.network.length)
    (hindex₁ : s.context.index ≤ s.context.network.length)
    (hindex₂ : t.context.index ≤ t.context.network.length)
    (hsize : s.context.network.length ≤ usizeMax)
    (hpatience : s.context.network.length / 2 < env₁.patience)
    {packets : List (List UInt8)} {tail : List UInt8}
    (hstream₁ : s.context.received ++ pending₁ s.world = packets.flatten ++ tail)
    (hstream₂ : t.context.received ++ pending₂ t.world = packets.flatten ++ tail)
    (hwhole : ∀ packet ∈ packets, IsWhole packet ∧ packet.length ≤ s.context.network.length)
    (hbegun : IsBegun s.context.network.length tail)
    (hhandled : (handleEach env₁ packets s).1 = .ok ()) (n m : ℕ) :
    (∀ answer ∈ ((machine W₁).run (passes env₁ n) s).1 ++ ((machine W₂).run (passes env₂ m) t).1,
        answer = .ok () ∨ answer = .error (.error .needMoreBytes)) ∧
      (0 < n → 0 < m → pending₁ (after s (passes env₁ n)).world = [] →
        pending₂ (after t (passes env₂ m)).world = [] →
        (after s (passes env₁ n)).context.received = tail ∧
          (after t (passes env₂ m)).context.received = tail ∧
          Apart (fun _ _ => True) (after s (passes env₁ n)) (after t (passes env₂ m))) := by
  have hself : Apart (fun w w' => ∃ v, R w v ∧ R w' v) s s :=
    ⟨⟨_, _, rfl⟩, rfl, rfl, t.world, hapart.world, hapart.world⟩
  have hqueued₁ : Queued pending₁ (Abreast env₁ (fun w w' => ∃ v, R w v ∧ R w' v) packets s) tail
      packets s := ⟨hstream₁, hwhole, hbegun, hindex₁, s, rfl, hself, hhandled⟩
  have hqueued₂ : Queued pending₂ (Abreast env₁ R packets s) tail packets t := by
    refine ⟨hstream₂, ?_, ?_, hindex₂, s, rfl, hapart, hhandled⟩
    · rw [hroom]
      exact hwhole
    · rw [hroom]
      exact hbegun
  have hreads : ∀ into {w w' : W₁}, (∃ v, R w v ∧ R w' v) →
      ∃ v, R w v ∧ R (env₁.recv into w').2 v := by
    rintro into w w' ⟨v, hw, hw'⟩
    exact ⟨v, hw, hreads₁ into hw'⟩
  have htakes₁ := abreast_takes (mirrors_across hmirrors) hreads hsupplies₁ packets s
  have htakes₂ := abreast_takes hmirrors hreads₂ hsupplies₂ packets s
  have hsize₂ : t.context.network.length ≤ usizeMax := hroom ▸ hsize
  have hpatience₂ : t.context.network.length / 2 < env₂.patience := by
    rw [hroom, hmirrors.patience]
    exact hpatience
  constructor
  · intro answer hanswer
    rcases List.mem_append.mp hanswer with hanswer | hanswer
    · obtain ⟨_, hanswers, -⟩ := passes_queued htakes₁ hsupplies₁ n hsize hpatience hqueued₁
      exact hanswers answer hanswer
    · obtain ⟨_, hanswers, -⟩ := passes_queued htakes₂ hsupplies₂ m hsize₂ hpatience₂ hqueued₂
      exact hanswers answer hanswer
  · intro hn hm hread₁ hread₂
    obtain ⟨hleft₁, hlast₁⟩ := passes_read htakes₁ hsupplies₁ hsize hpatience hqueued₁ hn hread₁
    obtain ⟨hleft₂, hlast₂⟩ := passes_read htakes₂ hsupplies₂ hsize₂ hpatience₂ hqueued₂ hm hread₂
    obtain ⟨⟨network₁, index₁, hcontext₁⟩, hpresent₁, htold₁, -⟩ := hlast₁.settled
    obtain ⟨⟨network₂, index₂, hcontext₂⟩, hpresent₂, htold₂, -⟩ := hlast₂.settled
    refine ⟨hleft₁, hleft₂, ⟨network₂, index₂, ?_⟩, hpresent₂.trans hpresent₁.symm,
      htold₂.trans htold₁.symm, trivial⟩
    rw [hcontext₁, hcontext₂]

/-- The scripts are one but for what they deliver. -/
def SameButReads (w w' : Script) : Prop := ∃ reads, w' = { w with reads }

theorem sameButReads_take (offered : ℕ) {w w' : Script} (h : SameButReads w w') :
    (Script.take offered w').1 = (Script.take offered w).1 ∧
      SameButReads (Script.take offered w).2 (Script.take offered w').2 := by
  obtain ⟨reads, rfl⟩ := h
  obtain ⟨delivered, sends, kept, answers⟩ := w
  cases sends with
  | nil => exact ⟨rfl, reads, rfl⟩
  | cons answer sends => exact ⟨rfl, reads, rfl⟩

theorem sameButReads_onEvent {w w' : Script} (h : SameButReads w w') :
    (Script.onEvent w').1 = (Script.onEvent w).1 ∧
      SameButReads (Script.onEvent w).2 (Script.onEvent w').2 := by
  obtain ⟨reads, rfl⟩ := h
  obtain ⟨delivered, sends, kept, answers⟩ := w
  cases answers with
  | nil => exact ⟨rfl, reads, rfl⟩
  | cons answer answers => exact ⟨rfl, reads, rfl⟩

theorem mirrors_script (storing : Bool) :
    Mirrors (Script.environment storing) (Script.environment storing) SameButReads where
  patience := rfl
  storing := rfl
  clock h := ⟨rfl, h⟩
  send bytes h := sameButReads_take bytes.length h
  writev parts h := sameButReads_take parts.flatten.length h
  store key parts h := by
    obtain ⟨reads, rfl⟩ := h
    exact ⟨rfl, reads, rfl⟩
  clear key h := by
    obtain ⟨reads, rfl⟩ := h
    exact ⟨reads, rfl⟩
  event _ _ h := sameButReads_onEvent h

theorem sameButReads_recv (into : List UInt8) (w : Script) :
    SameButReads w (Script.recv into w).2 := by
  obtain ⟨reads, sends, kept, answers⟩ := w
  cases reads with
  | nil => exact ⟨[], rfl⟩
  | cons chunk reads => exact ⟨_, rfl⟩

/-- A connected client with room for one message, and what its transport will deliver. -/
def receiver (reads : List (List UInt8)) : Sys Script where
  context := { (MqttContext.new (List.replicate 12 0)).enableQos [] [Record.default] [] with
    connectStatus := .connected }
  world := { reads }

/-- A PUBLISH at QoS 2, its PUBREL, and the first byte of a PINGRESP. -/
def oneMessage : List (List UInt8) := [[0x34, 6, 0, 1, 97, 0, 5, 0], [0x62, 2, 0, 5]]

/-- In one read, or a few bytes at a time. -/
theorem one_message_unaffected_by_reads :
    Apart (fun _ _ => True)
      (after (receiver [oneMessage.flatten ++ [0xD0]]) (passes (Script.environment false) 3))
      (after (receiver [[0x34], [6, 0, 1, 97], [0, 5, 0, 0x62, 2], [0, 5, 0xD0]])
        (passes (Script.environment false) 4)) := by
  have hpublish : IsWhole [0x34, 6, 0, 1, 97, 0, 5, 0] :=
    ⟨⟨0x34, 6, 2⟩, ⟨by decide, by decide, by decide +kernel⟩, by decide +kernel, rfl⟩
  have hrelease : IsWhole [0x62, 2, 0, 5] :=
    ⟨⟨0x62, 2, 2⟩, ⟨by decide, by decide, by decide +kernel⟩, by decide +kernel, rfl⟩
  have hresponse : IsWhole [0xD0, 0] :=
    ⟨⟨0xD0, 0, 2⟩, ⟨by decide, by decide, by decide +kernel⟩, by decide +kernel, rfl⟩
  have hbegun : IsBegun 12 [0xD0] := fun _ =>
    ⟨[0xD0, 0], hresponse, by decide, by decide, by decide⟩
  have hwhole : ∀ packet ∈ oneMessage, IsWhole packet ∧ packet.length ≤ 12 := by
    rintro packet (_ | ⟨_, _ | ⟨_, _ | _⟩⟩)
    · exact ⟨hpublish, by decide⟩
    · exact ⟨hrelease, by decide⟩
  have hreads₁ : ∀ into {w w'}, SameButReads w w' → SameButReads (Script.recv into w).2 w' := by
    rintro into w _ ⟨reads, rfl⟩
    obtain ⟨reads', h⟩ := sameButReads_recv into w
    exact ⟨reads, by rw [h]⟩
  have hreads₂ : ∀ into {w w'}, SameButReads w w' → SameButReads w (Script.recv into w').2 := by
    rintro into w _ ⟨reads, rfl⟩
    obtain ⟨reads', h⟩ := sameButReads_recv into { w with reads }
    exact ⟨reads', h⟩
  have hkeeps := reassembly_unaffected_by_reads (mirrors_script false)
    (R := SameButReads) (s := receiver [oneMessage.flatten ++ [0xD0]])
    (t := receiver [[0x34], [6, 0, 1, 97], [0, 5, 0, 0x62, 2], [0, 5, 0xD0]])
    hreads₁ hreads₂ (supplies_script false) (supplies_script false)
    ⟨⟨_, _, rfl⟩, rfl, rfl, _, rfl⟩ rfl (by decide) (by decide) (by decide) (by decide)
    (show _ = oneMessage.flatten ++ [0xD0] by decide) (by decide) hwhole hbegun
    (by decide +kernel) 3 4
  exact (hkeeps.2 (by decide) (by decide) (by decide +kernel) (by decide +kernel)).2.2

end Cut

end Client

end RtosMqtt
