import RtosMqtt.Library.Loop

/-! # Patience

A loop that waits is given a number of turns. With too few of them it is cut short, and as soon as
they are enough, more of them change nothing: the program comes to one end.
-/

namespace RtosMqtt

namespace Prog

variable {σ ε α β κ : Type}

/-- Given enough turns it is this run, and given too few it is cut short. -/
structure ComesTo (out : ε) (runs : ℕ → Except ε α × σ) (run : Except ε α × σ) : Prop where
  ended : run.1 ≠ .error out
  cut : ∀ turns, runs turns = run ∨ (runs turns).1 = .error out
  soon : ∃ enough, ∀ turns, enough ≤ turns → runs turns = run

def Ends (out : ε) (p : ℕ → Prog σ ε α) (s : σ) : Prop :=
  ∃ run, ComesTo out (fun turns => p turns s) run

section Ends

variable {out : ε} {p q : ℕ → Prog σ ε α} {f : ℕ → α → Prog σ ε β} {s t : σ}

theorem ComesTo.eq {runs : ℕ → Except ε α × σ} {run : Except ε α × σ} (h : ComesTo out runs run)
    (turns : ℕ) (hturns : (runs turns).1 ≠ .error out) : runs turns = run :=
  (h.cut turns).resolve_right hturns

theorem fst_bind_of_error {p : Prog σ ε α} {f : α → Prog σ ε β} {e : ε}
    (h : (p s).1 = .error e) : ((p >>= f) s).1 = .error e := by
  rw [bind_of_error (Prod.ext h rfl)]

theorem ends_of_ne {p : Prog σ ε α} (h : (p s).1 ≠ .error out) : Ends out (fun _ => p) s :=
  ⟨p s, h, fun _ => .inl rfl, 0, fun _ _ => rfl⟩

theorem Ends.bind (hp : Ends out p s)
    (hf : ∀ a t, (∃ turns, p turns s = (.ok a, t)) → Ends out (fun turns => f turns a) t) :
    Ends out (fun turns => p turns >>= f turns) s := by
  obtain ⟨⟨r, t⟩, hended, hcut, enough, hsoon⟩ := hp
  cases r with
  | error e =>
    refine ⟨(.error e, t), ?_, fun turns => ?_, enough, fun turns hturns => ?_⟩
    · exact fun h => hended (congrArg _ (Except.error.inj h))
    · rcases hcut turns with hrun | hout
      · exact .inl (bind_of_error hrun)
      · exact .inr (fst_bind_of_error hout)
    · exact bind_of_error (hsoon turns hturns)
  | ok a =>
    obtain ⟨run, hended', hcut', enough', hsoon'⟩ := hf a t ⟨enough, hsoon enough (Nat.le_refl _)⟩
    refine ⟨run, hended', fun turns => ?_, max enough enough', fun turns hturns => ?_⟩
    · rcases hcut turns with hrun | hout
      · dsimp only at hrun ⊢
        rw [bind_of_ok hrun]
        exact hcut' turns
      · exact .inr (fst_bind_of_error hout)
    · have hrun : p turns s = (.ok a, t) := hsoon turns (Nat.le_trans (Nat.le_max_left _ _) hturns)
      dsimp only
      rw [bind_of_ok hrun]
      exact hsoon' turns (Nat.le_trans (Nat.le_max_right _ _) hturns)

theorem Ends.ite {c : Prop} [Decidable c] (hp : c → Ends out p s) (hq : ¬ c → Ends out q s) :
    Ends out (fun turns => if c then p turns else q turns) s := by
  by_cases hc : c
  · simpa only [if_pos hc] using hp hc
  · simpa only [if_neg hc] using hq hc

theorem Ends.when {c : Prop} [Decidable c] {p : ℕ → Prog σ ε Unit} (hp : c → Ends out p s) :
    Ends out (fun turns => Prog.when c (p turns)) s := .ite hp fun _ => ends_of_ne nofun

theorem Ends.later (hzero : (p 0 s).1 = .error out) (hlater : ∀ turns, p (turns + 1) s = q turns t)
    (hq : Ends out q t) : Ends out p s := by
  obtain ⟨run, hended, hcut, enough, hsoon⟩ := hq
  refine ⟨run, hended, fun turns => ?_, enough + 1, fun turns hturns => ?_⟩
  · cases turns with
    | zero => exact .inr hzero
    | succ turns =>
      rw [hlater]
      exact hcut turns
  · obtain ⟨turns, rfl⟩ := Nat.exists_eq_add_of_le hturns
    rw [Nat.add_right_comm, hlater]
    exact hsoon _ (Nat.le_add_right _ _)

theorem ends_loop {turn : κ → Prog σ ε (κ ⊕ β)} {n : ℕ} {k : κ}
    (h : (loop turn out n k).Finishes s) : Ends out (fun turns => loop turn out turns k) s := by
  obtain ⟨b, t, hrun⟩ := h
  have hcases (turns : ℕ) : (∀ more, loop turn out (turns + more) k s = loop turn out turns k s) ∨
      ∃ k' u, loop turn out turns k s = (.error out, u) ∧
        ∀ more, loop turn out (turns + more) k s = loop turn out more k' u := by
    have hturned : ∀ k s, True → Turned (fun _ _ => True) (fun _ _ => True) (turn k s) := by
      intro k s _
      rcases turn k s with ⟨e | k' | b, t⟩ <;> exact trivial
    rcases loop_cases hturned trivial turns with ⟨-, hmore⟩ | ⟨k', u, -, hcut, hmore⟩
    · exact .inl hmore
    · exact .inr ⟨k', u, hcut, hmore⟩
  have hsoon : ∀ turns, n ≤ turns → loop turn out turns k s = (.ok b, t) := by
    intro turns hturns
    obtain ⟨more, rfl⟩ := Nat.exists_eq_add_of_le hturns
    rcases hcases n with hmore | ⟨k', u, hcut, -⟩
    · rw [hmore, hrun]
    · rw [hrun] at hcut
      cases hcut
  refine ⟨(.ok b, t), nofun, fun turns => ?_, n, hsoon⟩
  rcases hcases turns with hmore | ⟨k', u, hcut, -⟩
  · left
    dsimp only
    rw [← hmore n, Nat.add_comm]
    exact hsoon _ (Nat.le_add_right _ _)
  · right
    dsimp only
    rw [hcut]

end Ends

end Prog

end RtosMqtt
