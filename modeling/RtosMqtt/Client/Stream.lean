import RtosMqtt.Client.Dispatch

/-! # What goes out of a packet

While a packet is being sent, the transport takes a first part of it: nothing,
some of it, or all. Before and after, nothing is taken of anything.
-/

namespace RtosMqtt

variable {W α : Type}

/-- The transport took nothing. -/
abbrev Mute : Sys W → Sys W → Prop := Logs fun o => o.taken = []

/-- The transport took a first part of a packet. -/
def Puts (packet : List UInt8) (s t : Sys W) : Prop :=
  ∃ more, t.log = s.log ++ more ∧ wire more <+: packet

theorem wire_of_mute {log : List Observation} (h : ∀ o ∈ log, o.taken = []) : wire log = [] :=
  List.flatMap_eq_nil_iff.mpr h

theorem Mute.puts {packet : List UInt8} {s t : Sys W} (h : Mute s t) : Puts packet s t := by
  obtain ⟨more, hlog, hmute⟩ := h
  refine ⟨more, hlog, ?_⟩
  rw [wire_of_mute hmute]
  exact List.nil_prefix

theorem Puts.after {packet : List UInt8} {s t u : Sys W} (hmute : Mute s t) (h : Puts packet t u) :
    Puts packet s u := by
  obtain ⟨before, ht, hnone⟩ := hmute
  obtain ⟨more, hu, hprefix⟩ := h
  refine ⟨before ++ more, by rw [hu, ht, List.append_assoc], ?_⟩
  rwa [wire_append, wire_of_mute hnone]

theorem Puts.before {packet : List UInt8} {s t u : Sys W} (h : Puts packet s t) (hmute : Mute t u) :
    Puts packet s u := by
  obtain ⟨more, ht, hprefix⟩ := h
  obtain ⟨rest, hu, hnone⟩ := hmute
  refine ⟨more ++ rest, by rw [hu, ht, List.append_assoc], ?_⟩
  rwa [wire_append, wire_of_mute hnone, List.append_nil]

namespace Client

variable {env : Environment W} {packet : List UInt8} {s : Sys W} {p : Client W α}

theorem puts_bind_of {f : α → Client W Unit} (hmute : p.Moves Mute)
    (hf : ∀ a t, p s = (.ok a, t) → Puts packet t (f a t).2) : Puts packet s ((p >>= f) s).2 := by
  have hs := hmute s
  rw [Prog.bind_apply]
  rcases h : p s with ⟨e | a, t⟩
  · rw [h] at hs
    exact hs.puts
  · rw [h] at hs
    exact (hf a t h).after hs

theorem puts_bind {β : Type} {f : α → Client W β} (h : Puts packet s (p s).2)
    (hf : ∀ a, (f a).Moves Mute) : Puts packet s ((p >>= f) s).2 := by
  rw [Prog.bind_apply]
  rcases hp : p s with ⟨e | a, t⟩
  · rwa [hp] at h
  · rw [hp] at h
    exact h.before (hf a t)

theorem Took.puts {run : Except Stop SendOutcome × Sys W} (h : Took packet 0 s run) :
    Puts packet s run.2 := by
  obtain ⟨n, -, -, ⟨more, hlog, -, hwire⟩, -⟩ := h
  refine ⟨more, hlog, ?_⟩
  rw [hwire, List.drop_zero]
  exact List.take_prefix n packet

theorem sendBuffer_puts (buffer : List UInt8) (s : Sys W) :
    Puts buffer s (sendBuffer env buffer s).2 := (sendBuffer_took env buffer s).puts

theorem sendVectors_puts (vectors : List (List UInt8)) (s : Sys W) :
    Puts vectors.flatten s (sendVectors env vectors s).2 := (sendVectors_took env vectors s).puts

theorem nowMs_mute : (nowMs env).Moves Mute := fun _ => .one rfl rfl

theorem recv_mute (into : List UInt8) : (recv env into).Moves Mute := fun _ => .one rfl rfl

theorem store_mute (key : UInt32) (parts : List (List UInt8)) : (store env key parts).Moves Mute :=
  fun _ => .one rfl rfl

theorem clear_mute (key : UInt32) : (clear env key).Moves Mute := fun _ => .one rfl rfl

theorem dispatch_mute (e : Event) (wantsReply : Bool) : (dispatch env e wantsReply).Moves Mute :=
  fun _ => .one rfl rfl

theorem update_mute (f : MqttContext → MqttContext) : (update f : Client W Unit).Moves Mute :=
  fun _ => .same rfl

theorem onRecords_mute {β : Type} (c : Call)
    (f : PublishRecords → Except StateError β × PublishRecords) :
    (onRecords c f : Client W _).Moves Mute := by
  intro s
  cases hr : s.context.records with
  | none =>
    rw [onRecords_none hr]
    exact refl_of Mute s
  | some r =>
    rw [onRecords_some hr]
    exact .one rfl rfl

theorem clearStored_mute (key : UInt32) : (clearStored env key).Moves Mute :=
  .ite (clear_mute key) (.pure _)

theorem keep_mute (key : UInt32) (parts : List (List UInt8)) : (keep env key parts).Moves Mute :=
  .ite ((store_mute key parts).bind fun _ => refuse_moves _ _) (.pure _)

theorem keepAck_mute (packetType : UInt8) (packetId : UInt16) (parts : List (List UInt8)) :
    (keepAck env packetType packetId parts).Moves Mute := .when (keep_mute _ _)

theorem ackSent_mute (packetId : UInt16) (ack : AckType) :
    (ackSent packetId ack : Client W Unit).Moves Mute :=
  (update_mute _).bind fun _ => (onRecords_mute _ _).bind fun _ => (accepted_moves _).bind fun _ =>
    .pure _

end Client

end RtosMqtt
