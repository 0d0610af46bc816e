import RtosMqtt.Client.Patience

/-! # Behind the CONNACK

A connect reads its CONNACK and nothing else. However the stream is cut, it ends alike, and what
comes behind the CONNACK is there for the loop that reads next.
-/

namespace RtosMqtt

variable {W W₁ W₂ : Type}

structure Facing (pending : W → List UInt8) (stream : List UInt8) (before s : Sys W) : Prop where
  pending : pending s.world = stream
  hears : ∃ h, Hears {} before h s ∧ h.empty = false

theorem Facing.unread {pending : W → List UInt8} {stream : List UInt8} {before s t : Sys W}
    (hs : Facing pending stream before s) (h : Unread pending s t) : Facing pending stream before t := by
  obtain ⟨g, hg, hempty⟩ := hs.hears
  obtain ⟨g', hg', hempty'⟩ := h.hears hempty
  exact ⟨h.1.trans hs.pending, g', hg.trans hg', hempty'⟩

theorem takes_of_acknowledged {c : MqttContext} {header : PacketHeader} {body : List UInt8}
    {connack : ConnAck} (h : (c.acknowledgedBy header body).mapError Stop.error = .ok connack) :
    c.Takes header := by
  have hok : c.acknowledgedBy header body = .ok connack := by
    cases hread : c.acknowledgedBy header body with
    | ok found =>
      rw [hread] at h
      exact congrArg _ (Except.ok.inj h)
    | error e =>
      rw [hread] at h
      cases h
  rw [MqttContext.acknowledgedBy, refuseIf_bind_eq_ok, refuseIf_bind_eq_ok] at hok
  exact ⟨not_not.mp hok.1, Nat.not_lt.mp hok.2.1⟩

/-- Two runs end alike, with the same of their streams left, and at least what is behind the first
packet. -/
structure EndAlike (R : UInt32 → W₁ → W₂ → Prop) (pending₁ : W₁ → List UInt8)
    (pending₂ : W₂ → List UInt8) (rest : List UInt8) (run₁ : Except Stop Unit × Sys W₁)
    (run₂ : Except Stop Unit × Sys W₂) : Prop where
  result : run₂.1 = run₁.1
  twins : ∃ d, Twins R d run₁.2 run₂.2
  pending : pending₂ run₂.2.world = pending₁ run₁.2.world
  behind : rest <:+ pending₁ run₁.2.world
  whole : run₁.1 = .ok () → pending₁ run₁.2.world = rest

theorem Alike.patient {env₁ : Environment W₁} {env₂ : Environment W₂} {R : UInt32 → W₁ → W₂ → Prop}
    (h : Alike env₁ env₂ R) (patience : ℕ) :
    Alike (env₁.patient patience) (env₂.patient patience) R :=
  ⟨rfl, h.storing, h.clock, h.send, h.writev, h.retrieve, h.clear, h.clock₁, h.clock₂, h.recv₁,
    h.recv₂⟩

theorem facing_self {pending : W → List UInt8} {stream : List UInt8} {s : Sys W}
    (h : pending s.world = stream) : Facing pending stream s s :=
  ⟨h, {}, hears_self, rfl⟩

namespace Client

section Connect

open Prog (Agree)

variable {env₁ : Environment W₁} {env₂ : Environment W₂} {R : UInt32 → W₁ → W₂ → Prop} {d : UInt32}
  {pending₁ : W₁ → List UInt8} {pending₂ : W₂ → List UInt8} {header : PacketHeader}
  {body rest : List UInt8} {before₁ s : Sys W₁} {before₂ t : Sys W₂}

theorem endAlike_of_unread {stop : Stop} {s : Sys W₁} {t : Sys W₂} (h : Twins R d s t)
    (hs : Facing pending₁ (header.encoded ++ (body ++ rest)) before₁ s)
    (ht : Facing pending₂ (header.encoded ++ (body ++ rest)) before₂ t) :
    EndAlike R pending₁ pending₂ rest (.error stop, s) (.error stop, t) := by
  refine ⟨rfl, ⟨d, h⟩, ht.pending.trans hs.pending.symm, ?_, ?_⟩
  · dsimp only
    rw [hs.pending, ← List.append_assoc]
    exact List.suffix_append _ rest
  · intro hok
    cases hok

theorem preparing_twins (options : Connect) :
    Agree (Twins R d) Eq (preparing options : Client W₁ _) (preparing options : Client W₂ _) := by
  have hchecks : Agree (Twins R d) Eq (checkConnectProperties options : Client W₁ Unit)
      (checkConnectProperties options : Client W₂ Unit) := by
    apply context_twins.bind
    rintro c _ ⟨now, rfl⟩
    apply Agree.ite .rfl (update_twins fun _ now => ⟨now, rfl⟩)
    apply (check_twins _ _).bind_eq
    intro found
    exact (update_twins fun _ now => ⟨now, rfl⟩).bind_eq fun _ => Prog.agree_refuse _ _
  apply (Agree.when .rfl (check_twins _ _)).bind_eq
  intro _
  apply hchecks.bind_eq
  intro _
  apply context_twins.bind
  rintro c _ ⟨now, rfl⟩
  apply (check_twins _ _).bind_eq
  intro size
  exact (check_twins _ _).bind_eq fun _ => Prog.agree_pure rfl

theorem EndAlike.closing {p : Client W₁ Unit} {q : Client W₂ Unit} {s : Sys W₁} {t : Sys W₂}
    (h : EndAlike R pending₁ pending₂ rest (p s) (q t)) :
    EndAlike R pending₁ pending₂ rest (closing p s) (closing q t) := by
  obtain ⟨hresult, ⟨d, htwins⟩, hpending, hbehind, hwhole⟩ := h
  constructor
  · rw [closing_fst, closing_fst, hresult]
  · refine ⟨d, ?_⟩
    rw [closing_apply, closing_apply, hresult]
    rcases (p s).1 with (e | _) | -
    · exact (connectionLost_twins _ _ htwins).2
    · exact htwins
    · exact htwins
  · rw [(closing_snd p s).1, (closing_snd q t).1, hpending]
  · rw [(closing_snd p s).1]
    exact hbehind
  · rw [closing_fst, (closing_snd p s).1]
    exact hwhole

section Side

variable {env : Environment W} {pending : W → List UInt8} {before s : Sys W}
  (hfeeds : Feeds env pending (body ++ rest).length) (hwf : header.WellFormed)
  (hbody : body.length = header.remainingLength)

include hfeeds hwf hbody

theorem readConnack_facing (hs : Facing pending (header.encoded ++ (body ++ rest)) before s)
    (timeoutMs : UInt32) (cleanSession : Bool)
    (hr : ((readConnack env timeoutMs >>= resume env cleanSession) s).1 ≠ .error .blocked)
    (hp : Punctual before ((readConnack env timeoutMs >>= resume env cleanSession) s).2) :
    ReadOff pending header body rest s (readConnack env timeoutMs s).1
      (readConnack env timeoutMs s).2 := by
  rcases hrun : readConnack env timeoutMs s with ⟨r, t⟩
  have hr' : r ≠ .error .blocked := by
    rintro rfl
    rw [Prog.bind_of_error hrun] at hr
    exact hr rfl
  obtain ⟨g, hg, hempty⟩ := hs.hears
  obtain ⟨g', hg', hread⟩ := readConnack_fed hfeeds (Nat.le_refl _) hwf hbody hs.pending hrun hr' hempty
  have hgrows : Grows t ((readConnack env timeoutMs >>= resume env cleanSession) s).2 := by
    refine Prog.rel_bind ?_ fun connack => (resume_unread hfeeds cleanSession connack).mono Unread.grows
    rw [hrun]
    exact refl_of Grows t
  obtain ⟨g'', hg''⟩ := hears_of_grows hgrows
  exact hread (hg''.late (hp g'' ((hg.trans hg').trans hg'')))

end Side

variable (halike : Alike env₁ env₂ R) (hfeeds₁ : Feeds env₁ pending₁ (body ++ rest).length)
  (hfeeds₂ : Feeds env₂ pending₂ (body ++ rest).length) (hwf : header.WellFormed)
  (hbody : body.length = header.remainingLength)

include halike hfeeds₁ hfeeds₂ hwf hbody

theorem receiving_alike (h : Twins R d s t)
    (hs : Facing pending₁ (header.encoded ++ (body ++ rest)) before₁ s)
    (ht : Facing pending₂ (header.encoded ++ (body ++ rest)) before₂ t) (timeoutMs : UInt32)
    (cleanSession : Bool)
    (hr₁ : ((readConnack env₁ timeoutMs >>= resume env₁ cleanSession) s).1 ≠ .error .blocked)
    (hr₂ : ((readConnack env₂ timeoutMs >>= resume env₂ cleanSession) t).1 ≠ .error .blocked)
    (hp₁ : Punctual before₁ ((readConnack env₁ timeoutMs >>= resume env₁ cleanSession) s).2)
    (hp₂ : Punctual before₂ ((readConnack env₂ timeoutMs >>= resume env₂ cleanSession) t).2) :
    EndAlike R pending₁ pending₂ rest ((readConnack env₁ timeoutMs >>= resume env₁ cleanSession) s)
      ((readConnack env₂ timeoutMs >>= resume env₂ cleanSession) t) := by
  have hread₁ := readConnack_facing hfeeds₁ hwf hbody hs timeoutMs cleanSession hr₁ hp₁
  have hread₂ := readConnack_facing hfeeds₂ hwf hbody ht timeoutMs cleanSession hr₂ hp₂
  obtain ⟨d', hworld⟩ := readConnack_alike halike timeoutMs h.world
  rcases hrun₁ : readConnack env₁ timeoutMs s with ⟨r, u⟩
  rcases hrun₂ : readConnack env₂ timeoutMs t with ⟨r', v⟩
  rw [hrun₁] at hread₁ hworld
  rw [hrun₂] at hread₂ hworld
  dsimp only at hread₁ hread₂ hworld
  obtain ⟨now, hcontext⟩ := h.context
  have hresult : r' = r := by
    rw [hread₁.result, hread₂.result, hcontext]
    rfl
  subst hresult
  have htwins : Twins R d' u v ∧ pending₂ v.world = pending₁ u.world ∧
      rest <:+ pending₁ u.world := by
    have hpresent : v.sessionPresent = u.sessionPresent := by
      rw [hread₁.present, hread₂.present, h.present]
    by_cases htakes : s.context.Takes header
    · have htakes' : t.context.Takes header := by
        rw [hcontext]
        exact htakes
      obtain ⟨hrest₁, hu⟩ := hread₁.taken htakes
      obtain ⟨hrest₂, hv⟩ := hread₂.taken htakes'
      refine ⟨⟨⟨now, ?_⟩, hpresent, hworld⟩, hrest₂.trans hrest₁.symm, ?_⟩
      · rw [hu, hv, hcontext]
      · rw [hrest₁]
    · have htakes' : ¬ t.context.Takes header := by
        rw [hcontext]
        exact htakes
      obtain ⟨hrest₁, hu⟩ := hread₁.refused htakes
      obtain ⟨hrest₂, hv⟩ := hread₂.refused htakes'
      refine ⟨⟨⟨now, ?_⟩, hpresent, hworld⟩, hrest₂.trans hrest₁.symm, ?_⟩
      · rw [hu, hv, hcontext]
      · rw [hrest₁]
        exact List.suffix_append body rest
  obtain ⟨htwins, hpending, hbehind⟩ := htwins
  cases r' with
  | error stop =>
    rw [Prog.bind_of_error hrun₁, Prog.bind_of_error hrun₂]
    refine ⟨rfl, ⟨d', htwins⟩, hpending, hbehind, ?_⟩
    intro hok
    cases hok
  | ok connack =>
    rw [Prog.bind_of_ok hrun₁, Prog.bind_of_ok hrun₂]
    obtain ⟨hended, hleft⟩ := resume_twins halike cleanSession connack u v htwins
    have hunread₁ := resume_unread hfeeds₁ cleanSession connack u
    have hunread₂ := resume_unread hfeeds₂ cleanSession connack v
    refine ⟨(Prog.agreed_eq_iff.mp hended).symm, ⟨d', hleft⟩, ?_, ?_, fun _ => ?_⟩
    · rw [hunread₁.1, hunread₂.1, hpending]
    · rw [hunread₁.1]
      exact hbehind
    · rw [hunread₁.1]
      exact (hread₁.taken (takes_of_acknowledged hread₁.result.symm)).1

theorem connectInner_alike (h : Twins R d s t)
    (hs : Facing pending₁ (header.encoded ++ (body ++ rest)) before₁ s)
    (ht : Facing pending₂ (header.encoded ++ (body ++ rest)) before₂ t) (options : Connect)
    (timeoutMs : UInt32) (size : PacketSize)
    (hr₁ : (connectInner env₁ options timeoutMs size s).1 ≠ .error .blocked)
    (hr₂ : (connectInner env₂ options timeoutMs size t).1 ≠ .error .blocked)
    (hp₁ : Punctual before₁ (connectInner env₁ options timeoutMs size s).2)
    (hp₂ : Punctual before₂ (connectInner env₂ options timeoutMs size t).2) :
    EndAlike R pending₁ pending₂ rest (connectInner env₁ options timeoutMs size s)
      (connectInner env₂ options timeoutMs size t) := by
  rw [connectInner_eq] at hr₁ hr₂ hp₁ hp₂
  rw [connectInner_eq, connectInner_eq]
  obtain ⟨hended, hleft⟩ := sendConnect_twins halike options size.remainingLength s t h
  have hs' := hs.unread (sendConnect_unread hfeeds₁ options size.remainingLength s)
  have ht' := ht.unread (sendConnect_unread hfeeds₂ options size.remainingLength t)
  rcases hsent₁ : sendConnect env₁ options size.remainingLength s with ⟨r, u⟩
  rcases hsent₂ : sendConnect env₂ options size.remainingLength t with ⟨r', v⟩
  rw [hsent₁] at hended hleft hs'
  rw [hsent₂] at hended hleft ht'
  cases hended with
  | error stop =>
    rw [Prog.bind_of_error hsent₁, Prog.bind_of_error hsent₂]
    exact endAlike_of_unread hleft hs' ht'
  | ok hunit =>
    rw [Prog.bind_of_ok hsent₁] at hr₁ hp₁ ⊢
    rw [Prog.bind_of_ok hsent₂] at hr₂ hp₂ ⊢
    exact receiving_alike halike hfeeds₁ hfeeds₂ hwf hbody hleft hs' ht' timeoutMs
      options.info.cleanSession hr₁ hr₂ hp₁ hp₂

/-- However their streams are cut, two connects end alike. -/
theorem connect_alike (h : Twins R d s t)
    (hs : pending₁ s.world = header.encoded ++ (body ++ rest))
    (ht : pending₂ t.world = header.encoded ++ (body ++ rest)) (options : Connect)
    (timeoutMs : UInt32) (hr₁ : (connect env₁ options timeoutMs s).1 ≠ .error .blocked)
    (hr₂ : (connect env₂ options timeoutMs t).1 ≠ .error .blocked)
    (hp₁ : Punctual s (connect env₁ options timeoutMs s).2)
    (hp₂ : Punctual t (connect env₂ options timeoutMs t).2) :
    EndAlike R pending₁ pending₂ rest (connect env₁ options timeoutMs s)
      (connect env₂ options timeoutMs t) := by
  rw [connect_eq] at hr₁ hr₂ hp₁ hp₂
  rw [connect_eq, connect_eq]
  obtain ⟨hended, hleft⟩ := preparing_twins options s t h
  have hs' := (facing_self hs).unread (preparing_unread options s)
  have ht' := (facing_self ht).unread (preparing_unread options t)
  rcases hpre₁ : preparing options s with ⟨r, u⟩
  rcases hpre₂ : preparing options t with ⟨r', v⟩
  rw [hpre₁] at hended hleft hs'
  rw [hpre₂] at hended hleft ht'
  cases hended with
  | error stop =>
    rw [Prog.bind_of_error hpre₁, Prog.bind_of_error hpre₂]
    exact endAlike_of_unread hleft hs' ht'
  | ok hsame =>
    subst hsame
    rw [Prog.bind_of_ok hpre₁] at hr₁ hp₁ ⊢
    rw [Prog.bind_of_ok hpre₂] at hr₂ hp₂ ⊢
    rw [closing_fst] at hr₁ hr₂
    apply EndAlike.closing
    apply connectInner_alike halike hfeeds₁ hfeeds₂ hwf hbody hleft hs' ht' _ _ _ hr₁ hr₂
    · exact fun g hg => hp₁ g (hears_closing hg)
    · exact fun g hg => hp₂ g (hears_closing hg)

end Connect

/-- With enough patience a body is read as the stream has it, and two connects whose streams are cut
in their own ways come to one end, with what is behind the CONNACK still to be read. -/
theorem connect_reads_connack {env₁ : Environment W₁} {env₂ : Environment W₂}
    {R : UInt32 → W₁ → W₂ → Prop} {pending₁ : W₁ → List UInt8} {pending₂ : W₂ → List UInt8}
    {gap₁ slack₁ : W₁ → ℕ} {gap₂ slack₂ : W₂ → ℕ} {header : PacketHeader} {body rest : List UInt8}
    (halike : Alike env₁ env₂ R) (hfeeds₁ : Feeds env₁ pending₁ (body ++ rest).length)
    (hfeeds₂ : Feeds env₂ pending₂ (body ++ rest).length) (hstirs₁ : Stirs env₁ pending₁ gap₁)
    (hstirs₂ : Stirs env₂ pending₂ gap₂) (hdrains₁ : Drains env₁ slack₁)
    (hdrains₂ : Drains env₂ slack₂) (hwf : header.WellFormed)
    (hbody : body.length = header.remainingLength) :
    (∀ (s : Sys W₁) (wanted : ℕ), wanted ≤ s.context.network.length →
      wanted ≤ (pending₁ s.world).length → ∃ run,
        Prog.ComesTo .blocked (fun patience => recvExact (env₁.patient patience) wanted s) run ∧
          (Punctual s run.2 → run.1 = .ok (.bytes wanted) ∧
            run.2.context = { s.context with
              network := (pending₁ s.world).take wanted ++ s.context.network.drop wanted } ∧
            pending₁ run.2.world = (pending₁ s.world).drop wanted)) ∧
    ∀ (s : Sys W₁) (t : Sys W₂) (options : Connect) (timeoutMs : UInt32), (∃ d, Twins R d s t) →
      pending₁ s.world = header.encoded ++ (body ++ rest) →
      pending₂ t.world = header.encoded ++ (body ++ rest) → ∃ run₁ run₂,
        Prog.ComesTo .blocked
          (fun patience => connect (env₁.patient patience) options timeoutMs s) run₁ ∧
        Prog.ComesTo .blocked
          (fun patience => connect (env₂.patient patience) options timeoutMs t) run₂ ∧
        (Punctual s run₁.2 → Punctual t run₂.2 → EndAlike R pending₁ pending₂ rest run₁ run₂) := by
  constructor
  · intro s wanted hroom hstream
    obtain ⟨⟨r, t⟩, hcomes⟩ := recvExact_comes hfeeds₁ hstirs₁ hstream
    obtain ⟨patience, hrun⟩ := hcomes.soon
    refine ⟨(r, t), hcomes, fun hp => ?_⟩
    obtain ⟨h, hh, hfilled⟩ := recvExact_filled (h := {}) (hfeeds₁.patient patience) hroom hstream rfl
      (hrun patience le_rfl) hcomes.ended
    obtain ⟨hok, hwhole⟩ := hfilled (hp h hh)
    exact ⟨hok, hwhole.whole, hwhole.pending⟩
  · rintro s t options timeoutMs ⟨d, h⟩ hs ht
    obtain ⟨run₁, hcomes₁⟩ :=
      connect_comes hfeeds₁ hstirs₁ le_rfl hwf hbody hdrains₁ options timeoutMs hs
    obtain ⟨run₂, hcomes₂⟩ :=
      connect_comes hfeeds₂ hstirs₂ le_rfl hwf hbody hdrains₂ options timeoutMs ht
    refine ⟨run₁, run₂, hcomes₁, hcomes₂, ?_⟩
    obtain ⟨enough₁, hsoon₁⟩ := hcomes₁.soon
    obtain ⟨enough₂, hsoon₂⟩ := hcomes₂.soon
    have hrun₁ := hsoon₁ _ (le_max_left enough₁ enough₂)
    have hrun₂ := hsoon₂ _ (le_max_right enough₁ enough₂)
    have hended₁ := hcomes₁.ended
    have hended₂ := hcomes₂.ended
    rw [← hrun₁] at hended₁ ⊢
    rw [← hrun₂] at hended₂ ⊢
    exact connect_alike (halike.patient _) (hfeeds₁.patient _) (hfeeds₂.patient _) hwf hbody h hs ht
      options timeoutMs hended₁ hended₂

end Client

/-- A stream that comes in pieces of the given lengths, and whole when there are none. The first
bytes come one after the other. -/
structure Pieces where
  pending : List UInt8
  cuts : List ℕ := []

namespace Pieces

variable (late : ℕ)

def recv (into : List UInt8) (w : Pieces) : (Recv × List UInt8) × Pieces :=
  let prompt := late < w.pending.length
  let cut := if prompt then into.length else w.cuts.headD into.length
  let count := min (min cut into.length) w.pending.length
  ((.bytes count, w.pending.take count),
    { pending := w.pending.drop count, cuts := if prompt then w.cuts else w.cuts.tail })

/-- A transport of pieces, which takes what it is offered, and a clock that stands still. -/
def environment : Environment Pieces where
  recv := recv late
  send bytes w := (.bytes bytes.length, w)
  writev parts w := (.bytes parts.flatten.length, w)
  nowMs w := (0, w)
  storing := false
  store _ _ w := (true, w)
  retrieve _ w := (none, w)
  clear _ w := w
  onEvent _ _ w := (([], true), w)
  patience := 16

theorem feeds : Feeds (environment late) pending late where
  bytes := by
    intro into w count data w' h
    obtain ⟨hanswer, rfl⟩ := Prod.mk.inj h
    obtain ⟨hcount, rfl⟩ := Prod.mk.inj hanswer
    obtain rfl := Recv.bytes.inj hcount
    dsimp only
    rw [Nat.min_eq_left (by omega), List.take_take, Nat.min_self]
    exact ⟨Nat.min_le_right _ _, rfl, rfl⟩
  nothing := by
    intro into w data w' h
    cases h
  failed := by
    intro into w data w' h
    cases h
  prompt := by
    intro w h
    obtain ⟨pending, cuts⟩ := w
    cases pending with
    | nil => cases h
    | cons b pending =>
      have hprompt : late < (b :: pending).length := h
      refine ⟨b, ⟨pending, cuts⟩, ?_⟩
      simp only [environment, recv, if_pos hprompt]
      simp
  clock _ := rfl
  send _ _ := rfl
  writev _ _ := rfl
  store _ _ _ := rfl
  retrieve _ _ := rfl
  clear _ _ := rfl

theorem alike : Alike (environment late) (environment late) fun d _ _ => d = 0 where
  patience := rfl
  storing := rfl
  clock h := by
    subst h
    exact ⟨rfl, rfl⟩
  send _ h := ⟨rfl, h⟩
  writev _ h := ⟨rfl, h⟩
  retrieve _ h := ⟨rfl, h⟩
  clear _ h := h
  clock₁ h := ⟨_, h⟩
  clock₂ h := ⟨_, h⟩
  recv₁ _ h := ⟨_, h⟩
  recv₂ _ h := ⟨_, h⟩

theorem stirs : Stirs (environment late) pending fun w => w.cuts.length where
  recv := by
    intro into w hinto hpending hempty
    have hcut : ¬ late < w.pending.length ∧ w.cuts ≠ [] := by
      have hsome : 0 < into.length := List.length_pos_iff.mpr hinto
      have hmore : 0 < w.pending.length := List.length_pos_iff.mpr hpending
      have hcount : min (min (if late < w.pending.length then into.length
          else w.cuts.headD into.length) into.length) w.pending.length = 0 := by
        rcases hempty with h | h
        · cases h
        · exact Recv.bytes.inj h
      constructor
      · intro hprompt
        rw [if_pos hprompt] at hcount
        omega
      · intro hnil
        rw [hnil, List.headD_nil, ite_self] at hcount
        omega
    have hcuts : ((environment late).recv into w).2.cuts = w.cuts.tail := if_neg hcut.1
    rw [hcuts, List.length_tail]
    exact Nat.sub_lt (List.length_pos_iff.mpr hcut.2) Nat.one_pos
  clock _ := le_rfl

theorem drains : Drains (environment late) fun _ => 0 where
  send := by
    rintro bytes w hsome (h | h)
    · cases h
    · exact absurd (List.length_eq_zero_iff.mp (Sent.bytes.inj h)) hsome
  writev := by
    rintro parts w hsome (h | h)
    · cases h
    · exact absurd (List.length_eq_zero_iff.mp (Sent.bytes.inj h)) hsome
  clock _ := le_rfl

theorem punctual_of_noted {s t : Sys W} (h : (Hearing.notes {} (noted s t)).late = false) :
    Punctual s t := by
  rintro _ ⟨log, ht, rfl⟩
  rw [← noted_eq ht]
  exact h

/-- A client in front of a CONNACK and the two bytes of a PINGRESP. -/
def opened (cuts : List ℕ) : Sys Pieces where
  context := MqttContext.new (List.replicate 8 0)
  world := { pending := Script.connack false [] ++ [0xD0, 0], cuts }

/-- A CONNACK that comes whole, and one that comes in two pieces with a pause between them. -/
theorem connect_reads_connack_of_pieces :
    (Client.connect (environment 5) (Script.connect true []) 0 (opened [1, 0, 2])).1 = .ok () ∧
      EndAlike (fun d _ _ => d = 0) pending pending [0xD0, 0]
        (Client.connect (environment 5) (Script.connect true []) 0 (opened []))
        (Client.connect (environment 5) (Script.connect true []) 0 (opened [1, 0, 2])) := by
  have hwf : PacketHeader.WellFormed ⟨Packet.connack, 3, 2⟩ := ⟨by decide, by decide, by decide⟩
  have hfeeds : Feeds (environment 5) pending (([0, 0, 0] : List UInt8) ++ [0xD0, 0]).length :=
    feeds 5
  obtain ⟨-, hconnects⟩ := Client.connect_reads_connack (alike 5) hfeeds hfeeds (stirs 5) (stirs 5)
    (drains 5) (drains 5) hwf rfl
  obtain ⟨run₁, run₂, hcomes₁, hcomes₂, hend⟩ := hconnects (opened []) (opened [1, 0, 2])
    (Script.connect true []) 0 ⟨0, ⟨0, rfl⟩, rfl, rfl⟩ (by decide) (by decide)
  have hrun₁ : Client.connect (environment 5) (Script.connect true []) 0 (opened []) = run₁ :=
    hcomes₁.eq 16 (by decide +kernel)
  have hrun₂ : Client.connect (environment 5) (Script.connect true []) 0 (opened [1, 0, 2]) = run₂ :=
    hcomes₂.eq 16 (by decide +kernel)
  subst hrun₁ hrun₂
  exact ⟨by decide +kernel, hend (punctual_of_noted (by decide +kernel))
    (punctual_of_noted (by decide +kernel))⟩

end Pieces

end RtosMqtt
