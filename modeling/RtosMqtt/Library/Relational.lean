import RtosMqtt.Library.Loop

/-! # Two programs side by side

Two programs agree when related states lead to one ending, and to related states again: both
stop with the same error, or both answer and the answers are related. Agreement goes through
sequences, branches and loops.
-/

namespace RtosMqtt

namespace Prog

variable {σ τ ε α α' β β' κ : Type}

inductive Agreed (V : α → α' → Prop) : Except ε α → Except ε α' → Prop
  | ok {a : α} {a' : α'} (h : V a a') : Agreed V (.ok a) (.ok a')
  | error (e : ε) : Agreed V (.error e) (.error e)

theorem agreed_eq_iff {r r' : Except ε α} : Agreed Eq r r' ↔ r = r' := by
  constructor
  · rintro (rfl | -)
    · rfl
    · rfl
  · rintro rfl
    cases r with
    | ok a => exact .ok rfl
    | error e => exact .error e

/-- From related states, two programs end as one and leave related states. -/
def Agree (R : σ → τ → Prop) (V : α → α' → Prop) (p : Prog σ ε α) (q : Prog τ ε α') : Prop :=
  ∀ s t, R s t → Agreed V (p s).1 (q t).1 ∧ R (p s).2 (q t).2

section Agree

variable {R : σ → τ → Prop} {V : α → α' → Prop} {U : β → β' → Prop} {p : Prog σ ε α}
  {q : Prog τ ε α'} {f : α → Prog σ ε β} {g : α' → Prog τ ε β'}

theorem agree_pure {a : α} {a' : α'} (h : V a a') :
    Agree R V (Pure.pure a : Prog σ ε α) (Pure.pure a') := fun _ _ hR => ⟨.ok h, hR⟩

theorem agree_get : Agree R R (get : Prog σ ε σ) get := fun _ _ hR => ⟨.ok hR, hR⟩

theorem agree_throw (e : ε) : Agree R V (throw e) (throw e) := fun _ _ hR => ⟨.error e, hR⟩

theorem agree_lift {r : Except ε α} {r' : Except ε α'} (h : Agreed V r r') :
    Agree R V (lift r) (lift r') := fun _ _ hR => ⟨h, hR⟩

theorem agree_refuse (c : Prop) [Decidable c] (e : ε) :
    Agree R Eq (refuse c e : Prog σ ε Unit) (refuse c e : Prog τ ε Unit) :=
  agree_lift (agreed_eq_iff.mpr rfl)

theorem agree_modify {f : σ → σ} {g : τ → τ} (h : ∀ s t, R s t → R (f s) (g t)) :
    Agree R Eq (modify f : Prog σ ε Unit) (modify g : Prog τ ε Unit) :=
  fun s t hR => ⟨.ok rfl, h s t hR⟩

theorem agree_answer {f : σ → α × σ} {g : τ → α' × τ}
    (h : ∀ s t, R s t → V (f s).1 (g t).1 ∧ R (f s).2 (g t).2) :
    Agree R V (answer f : Prog σ ε α) (answer g : Prog τ ε α') :=
  fun s t hR => ⟨.ok (h s t hR).1, (h s t hR).2⟩

theorem Agree.bind (hp : Agree R V p q) (hf : ∀ a a', V a a' → Agree R U (f a) (g a')) :
    Agree R U (p >>= f) (q >>= g) := by
  intro s t hR
  obtain ⟨hended, hleft⟩ := hp s t hR
  rcases hps : p s with ⟨r, s'⟩
  rcases hqt : q t with ⟨r', t'⟩
  rw [hps, hqt] at hended hleft
  cases hended with
  | ok h =>
    rw [bind_of_ok hps, bind_of_ok hqt]
    exact hf _ _ h s' t' hleft
  | error e =>
    rw [bind_of_error hps, bind_of_error hqt]
    exact ⟨.error e, hleft⟩

theorem Agree.bind_eq {p : Prog σ ε α} {q : Prog τ ε α} {g : α → Prog τ ε β'} (hp : Agree R Eq p q)
    (hf : ∀ a, Agree R U (f a) (g a)) : Agree R U (p >>= f) (q >>= g) := by
  apply hp.bind
  rintro a _ rfl
  exact hf a

theorem Agree.ite {c c' : Prop} [Decidable c] [Decidable c'] {p' : Prog σ ε α} {q' : Prog τ ε α'}
    (hc : c ↔ c') (h : Agree R V p q) (h' : Agree R V p' q') :
    Agree R V (if c then p else p') (if c' then q else q') := by
  by_cases hyes : c
  · rw [if_pos hyes, if_pos (hc.mp hyes)]
    exact h
  · rw [if_neg hyes, if_neg fun hyes' => hyes (hc.mpr hyes')]
    exact h'

theorem Agree.when {c c' : Prop} [Decidable c] [Decidable c'] {p : Prog σ ε Unit}
    {q : Prog τ ε Unit} (hc : c ↔ c') (h : Agree R Eq p q) : Agree R Eq (when c p) (when c' q) :=
  .ite hc h (agree_pure rfl)

theorem agree_loop {turn : κ → Prog σ ε (κ ⊕ α)} {turn' : κ → Prog τ ε (κ ⊕ α)}
    (h : ∀ k, Agree R Eq (turn k) (turn' k)) (out : ε) (turns : ℕ) (k : κ) :
    Agree R Eq (loop turn out turns k) (loop turn' out turns k) := by
  induction turns generalizing k with
  | zero => exact agree_throw out
  | succ turns ih =>
    apply (h k).bind_eq
    rintro (k' | a)
    · exact ih k'
    · exact agree_pure rfl

end Agree

end Prog

end RtosMqtt
