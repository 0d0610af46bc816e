import Mathlib.Order.Defs.Unbundled
import Mathlib.Tactic.Common

/-! # Programs over a state that may stop early

A program answers a value or an error, and either way leaves the state it had
reached: an error does not undo what was done before it. A finished run of a
sequence is peeled apart step by step, and what every part of a program does to
the state, the whole program does.
-/

namespace RtosMqtt

def Prog (σ ε α : Type) : Type := σ → Except ε α × σ

def refuseIf {ε : Type} (c : Prop) [Decidable c] (e : ε) : Except ε Unit :=
  if c then .error e else .ok ()

@[simp] theorem refuseIf_eq_ok {ε : Type} {c : Prop} [Decidable c] {e : ε} :
    refuseIf c e = .ok () ↔ ¬ c := by
  unfold refuseIf; split_ifs with h <;> simp [h]

theorem refuseIf_bind_eq_ok {ε α : Type} {c : Prop} [Decidable c] {e : ε} {f : Unit → Except ε α}
    {a : α} : (refuseIf c e >>= f) = .ok a ↔ ¬ c ∧ f () = .ok a := by
  by_cases h : c <;> simp [refuseIf, h, bind, Except.bind]

theorem except_bind_eq_ok {ε α β : Type} {r : Except ε α} {f : α → Except ε β} {b : β} :
    (r >>= f) = .ok b ↔ ∃ a, r = .ok a ∧ f a = .ok b := by
  cases r <;> simp [bind, Except.bind]

theorem except_bind_eq_error {ε α β : Type} {r : Except ε α} {f : α → Except ε β} {e : ε} :
    (r >>= f) = .error e ↔ r = .error e ∨ ∃ a, r = .ok a ∧ f a = .error e := by
  cases r <;> simp [bind, Except.bind]

theorem except_bind_congr {ε α β : Type} {r : Except ε α} {f g : α → Except ε β}
    (h : ∀ a, r = .ok a → f a = g a) : r >>= f = r >>= g := by
  cases r with
  | ok a => exact h a rfl
  | error e => rfl

theorem refuseIf_bind_congr {ε α : Type} {c : Prop} [Decidable c] {e : ε}
    {f g : Unit → Except ε α} (h : ¬ c → f () = g ()) :
    refuseIf c e >>= f = refuseIf c e >>= g :=
  except_bind_congr fun _ hok => h (refuseIf_eq_ok.mp hok)

namespace Prog

variable {σ τ ε α β : Type}

protected def pure (a : α) : Prog σ ε α := fun s => (.ok a, s)

protected def bind (p : Prog σ ε α) (f : α → Prog σ ε β) : Prog σ ε β := fun s =>
  match p s with
  | (.ok a, t) => f a t
  | (.error e, t) => (.error e, t)

instance : Monad (Prog σ ε) where
  pure := Prog.pure
  bind := Prog.bind

def get : Prog σ ε σ := fun s => (.ok s, s)

def modify (f : σ → σ) : Prog σ ε Unit := fun s => (.ok (), f s)

def throw (e : ε) : Prog σ ε α := fun s => (.error e, s)

def lift (r : Except ε α) : Prog σ ε α := fun s => (r, s)

def refuse (c : Prop) [Decidable c] (e : ε) : Prog σ ε Unit := lift (refuseIf c e)

def when (c : Prop) [Decidable c] (p : Prog σ ε Unit) : Prog σ ε Unit := if c then p else pure ()

def answer (f : σ → α × σ) : Prog σ ε α := fun s => (.ok (f s).1, (f s).2)

section Run

variable {s t u : σ} {p : Prog σ ε α} {f : α → Prog σ ε β}

@[simp] theorem pure_apply (a : α) : (Pure.pure a : Prog σ ε α) s = (.ok a, s) := rfl

@[simp] theorem get_apply : (get : Prog σ ε σ) s = (.ok s, s) := rfl

@[simp] theorem modify_apply (g : σ → σ) : (modify g : Prog σ ε Unit) s = (.ok (), g s) := rfl

@[simp] theorem throw_apply (e : ε) : (throw e : Prog σ ε α) s = (.error e, s) := rfl

@[simp] theorem lift_apply (r : Except ε α) : (lift r : Prog σ ε α) s = (r, s) := rfl

@[simp] theorem answer_apply (g : σ → α × σ) :
    (answer g : Prog σ ε α) s = (.ok (g s).1, (g s).2) := rfl

theorem refuse_apply (c : Prop) [Decidable c] (e : ε) :
    (refuse c e : Prog σ ε Unit) s = (if c then .error e else .ok (), s) := rfl

theorem bind_apply : (p >>= f) s =
    match p s with
    | (.ok a, t) => f a t
    | (.error e, t) => (.error e, t) := rfl

theorem eq_of_fst_ok {a : α} (h : (p s).1 = .ok a) : p s = (.ok a, (p s).2) := Prod.ext h rfl

theorem bind_of_ok {a : α} (h : p s = (.ok a, t)) : (p >>= f) s = f a t := by
  rw [bind_apply, h]

theorem bind_of_error {e : ε} (h : p s = (.error e, t)) : (p >>= f) s = (.error e, t) := by
  rw [bind_apply, h]

theorem bind_eq_ok {b : β} :
    (p >>= f) s = (.ok b, u) ↔ ∃ a t, p s = (.ok a, t) ∧ f a t = (.ok b, u) := by
  rw [bind_apply]
  rcases hp : p s with ⟨_ | a, t⟩
  · simp
  · exact ⟨fun h => ⟨a, t, rfl, h⟩, fun ⟨_, _, h, hf⟩ => by
      simp only [Prod.mk.injEq, Except.ok.injEq] at h; rw [h.1, h.2]; exact hf⟩

theorem bind_eq_error {e : ε} :
    (p >>= f) s = (.error e, u) ↔
      p s = (.error e, u) ∨ ∃ a t, p s = (.ok a, t) ∧ f a t = (.error e, u) := by
  rw [bind_apply]
  rcases hp : p s with ⟨_ | a, t⟩
  · simp
  · simp only [Prod.mk.injEq, reduceCtorEq, false_and, false_or, Except.ok.injEq]
    exact ⟨fun h => ⟨a, t, ⟨rfl, rfl⟩, h⟩, fun ⟨_, _, ⟨h, h'⟩, hf⟩ => by rw [h, h']; exact hf⟩

theorem bind_assoc {γ : Type} {g : β → Prog σ ε γ} :
    (p >>= f) >>= g = p >>= fun a => f a >>= g := by
  funext s
  rw [bind_apply, bind_apply, bind_apply]
  rcases p s with ⟨_ | a, t⟩ <;> rfl

theorem bind_congr {g : α → Prog σ ε β} (h : ∀ a, f a = g a) : p >>= f = p >>= g :=
  congrArg (p >>= ·) (funext h)

theorem bind_pure : p >>= (Pure.pure : α → Prog σ ε α) = p := by
  funext s
  rw [bind_apply]
  rcases p s with ⟨e | a, t⟩ <;> rfl

theorem bind_snd_of_still (h : ∀ a t, (f a t).2 = t) : ((p >>= f) s).2 = (p s).2 := by
  rw [bind_apply]
  rcases p s with ⟨_ | a, t⟩
  · rfl
  · exact h a t

@[simp] theorem pure_bind (a : α) : (Pure.pure a : Prog σ ε α) >>= f = f a := rfl

@[simp] theorem throw_bind (e : ε) : (throw e : Prog σ ε α) >>= f = throw e := rfl

@[simp] theorem lift_ok_bind (a : α) : (lift (.ok a) : Prog σ ε α) >>= f = f a := rfl

@[simp] theorem lift_error_bind (e : ε) : (lift (.error e) : Prog σ ε α) >>= f = throw e := rfl

@[simp] theorem get_bind_apply {f : σ → Prog σ ε β} : (get >>= f) s = f s s := rfl

@[simp] theorem modify_bind_apply {f : Unit → Prog σ ε β} (g : σ → σ) :
    (modify g >>= f) s = f () (g s) := rfl

@[simp] theorem answer_bind_apply (g : σ → α × σ) :
    (answer g >>= f) s = f (g s).1 (g s).2 := rfl

theorem refuse_bind_apply (c : Prop) [Decidable c] (e : ε) {f : Unit → Prog σ ε β} :
    (refuse c e >>= f) s = if c then (.error e, s) else f () s := by
  rw [bind_apply, refuse_apply]; split_ifs <;> rfl

theorem refuse_bind_of_not {c : Prop} [Decidable c] {e : ε} {f : Unit → Prog σ ε β} (h : ¬ c) :
    refuse c e >>= f = f () := by
  funext s; rw [refuse_bind_apply, if_neg h]

theorem refuse_bind_eq_ok {c : Prop} [Decidable c] {e : ε} {f : Unit → Prog σ ε β} {b : β} :
    (refuse c e >>= f) s = (.ok b, u) ↔ ¬ c ∧ f () s = (.ok b, u) := by
  rw [refuse_bind_apply]; split_ifs with h <;> simp [h]

theorem when_bind_of {c : Prop} [Decidable c] {q : Prog σ ε Unit} {f : Unit → Prog σ ε β}
    (h : c) : when c q >>= f = q >>= f := by rw [when, if_pos h]

theorem when_bind_of_not {c : Prop} [Decidable c] {q : Prog σ ε Unit} {f : Unit → Prog σ ε β}
    (h : ¬ c) : when c q >>= f = f () := by rw [when, if_neg h, pure_bind]

theorem lift_bind_eq_ok {r : Except ε α} {b : β} :
    (lift r >>= f) s = (.ok b, u) ↔ ∃ a, r = .ok a ∧ f a s = (.ok b, u) := by
  rw [bind_eq_ok]
  simp only [lift_apply, Prod.mk.injEq]
  exact ⟨fun ⟨a, _, ⟨h, rfl⟩, hf⟩ => ⟨a, h, hf⟩, fun ⟨a, h, hf⟩ => ⟨a, s, ⟨h, rfl⟩, hf⟩⟩

end Run

/-- Every run of the program, finished or not, moves the state along the relation. -/
def Moves (R : σ → σ → Prop) (p : Prog σ ε α) : Prop := ∀ s, R s (p s).2

section Moves

variable {R : σ → σ → Prop} {p : Prog σ ε α} {f : α → Prog σ ε β}

theorem Moves.mono {R' : σ → σ → Prop} (h : p.Moves R) (hR : ∀ {s t}, R s t → R' s t) :
    p.Moves R' := fun s => hR (h s)

variable [IsPreorder σ R]

theorem Moves.pure (a : α) : (Pure.pure a : Prog σ ε α).Moves R := fun s => refl_of R s

theorem Moves.get : (Prog.get : Prog σ ε σ).Moves R := fun s => refl_of R s

theorem Moves.throw (e : ε) : (Prog.throw e : Prog σ ε α).Moves R := fun s => refl_of R s

theorem Moves.lift (r : Except ε α) : (Prog.lift r : Prog σ ε α).Moves R := fun s => refl_of R s

theorem Moves.refuse (c : Prop) [Decidable c] (e : ε) :
    (Prog.refuse c e : Prog σ ε Unit).Moves R := fun s => refl_of R s

theorem rel_bind_of {u s : σ} (hp : R u (p s).2)
    (hf : ∀ a t, p s = (.ok a, t) → R t (f a t).2) : R u ((p >>= f) s).2 := by
  rw [bind_apply]
  rcases h : p s with ⟨_ | a, t⟩
  · rwa [h] at hp
  · rw [h] at hp
    exact trans_of R hp (hf a t h)

theorem rel_bind {u s : σ} (hp : R u (p s).2) (hf : ∀ a, (f a).Moves R) :
    R u ((p >>= f) s).2 :=
  rel_bind_of hp fun a t _ => hf a t

theorem Moves.bind (hp : p.Moves R) (hf : ∀ a, (f a).Moves R) : (p >>= f).Moves R :=
  fun s => rel_bind (hp s) hf

theorem Moves.when {c : Prop} [Decidable c] {p : Prog σ ε Unit} (hp : p.Moves R) :
    (Prog.when c p).Moves R := by
  unfold Prog.when
  split_ifs
  · exact hp
  · exact Moves.pure ()

omit [IsPreorder σ R] in
theorem Moves.ite {c : Prop} [Decidable c] {q : Prog σ ε α} (hp : p.Moves R) (hq : q.Moves R) :
    (if c then p else q).Moves R := by
  split_ifs
  · exact hp
  · exact hq

end Moves

/-- Every run that finishes moves the state along the relation. -/
def Yields (R : σ → σ → Prop) (p : Prog σ ε α) : Prop := ∀ s a t, p s = (.ok a, t) → R s t

section Yields

variable {R : σ → σ → Prop} {p : Prog σ ε α} {f : α → Prog σ ε β}

theorem Moves.yields (h : p.Moves R) : p.Yields R := by
  intro s a t hp
  have hs := h s
  rwa [hp] at hs

theorem Yields.throw (e : ε) : (Prog.throw e : Prog σ ε α).Yields R := by
  intro s a t h
  cases h

theorem Yields.ite {c : Prop} [Decidable c] {q : Prog σ ε α} (hp : p.Yields R) (hq : q.Yields R) :
    (if c then p else q).Yields R := by
  split_ifs
  · exact hp
  · exact hq

variable [IsPreorder σ R]

theorem Yields.pure (a : α) : (Pure.pure a : Prog σ ε α).Yields R := (Moves.pure a).yields

theorem Yields.bind_of (hp : p.Yields R)
    (hf : ∀ s a t, p s = (.ok a, t) → ∀ b u, f a t = (.ok b, u) → R t u) :
    (p >>= f).Yields R := by
  intro s b u h
  obtain ⟨a, t, hpt, hft⟩ := bind_eq_ok.mp h
  exact trans_of R (hp s a t hpt) (hf s a t hpt b u hft)

theorem Yields.bind (hp : p.Yields R) (hf : ∀ a, (f a).Yields R) : (p >>= f).Yields R :=
  hp.bind_of fun _ a t _ b u h => hf a t b u h

theorem Yields.when {c : Prop} [Decidable c] {p : Prog σ ε Unit} (hp : p.Yields R) :
    (Prog.when c p).Yields R := .ite hp (.pure ())

end Yields

def Finishes (p : Prog σ ε α) (s : σ) : Prop := ∃ a t, p s = (.ok a, t)

section Finishes

variable {s : σ} {p : Prog σ ε α} {f : α → Prog σ ε β}

theorem finishes_of_eq {q : Prog σ ε α} {t : σ} (h : p s = q t) : p.Finishes s ↔ q.Finishes t := by
  rw [Finishes, Finishes, h]

theorem finishes_bind : (p >>= f).Finishes s ↔ ∃ a t, p s = (.ok a, t) ∧ (f a).Finishes t := by
  simp only [Finishes, bind_eq_ok]
  exact ⟨fun ⟨b, u, a, t, hp, hf⟩ => ⟨a, t, hp, b, u, hf⟩,
    fun ⟨a, t, hp, b, u, hf⟩ => ⟨b, u, a, t, hp, hf⟩⟩

theorem finishes_bind_of_ok {a : α} {t : σ} (h : p s = (.ok a, t)) :
    (p >>= f).Finishes s ↔ (f a).Finishes t := by
  unfold Finishes; rw [bind_of_ok h]

@[simp] theorem finishes_pure (a : α) : (Pure.pure a : Prog σ ε α).Finishes s := ⟨a, s, rfl⟩

@[simp] theorem finishes_modify (g : σ → σ) : (modify g : Prog σ ε Unit).Finishes s :=
  ⟨(), g s, rfl⟩

@[simp] theorem finishes_throw (e : ε) : ¬ (throw e : Prog σ ε α).Finishes s := by
  simp [Finishes]

@[simp] theorem finishes_lift {r : Except ε α} :
    (lift r : Prog σ ε α).Finishes s ↔ ∃ a, r = .ok a := by
  simp [Finishes]

@[simp] theorem finishes_refuse {c : Prop} [Decidable c] {e : ε} :
    (refuse c e : Prog σ ε Unit).Finishes s ↔ ¬ c := by
  rw [refuse, finishes_lift]
  exact ⟨fun ⟨(), h⟩ => refuseIf_eq_ok.mp h, fun h => ⟨(), refuseIf_eq_ok.mpr h⟩⟩

theorem finishes_refuse_bind {c : Prop} [Decidable c] {e : ε} {f : Unit → Prog σ ε β} :
    (refuse c e >>= f).Finishes s ↔ ¬ c ∧ (f ()).Finishes s := by
  by_cases h : c
  · simp [Finishes, refuse_bind_apply, h]
  · rw [refuse_bind_of_not h]; simp [h]

theorem finishes_ite {c : Prop} [Decidable c] {q : Prog σ ε α} :
    (if c then p else q).Finishes s ↔ if c then p.Finishes s else q.Finishes s := by
  split_ifs <;> rfl

theorem finishes_when {c : Prop} [Decidable c] {p : Prog σ ε Unit} :
    (when c p).Finishes s ↔ (c → p.Finishes s) := by
  by_cases h : c <;> simp [when, h]

end Finishes

def Answers (p : Prog σ ε α) (a : α) : Prop := ∀ s b t, p s = (.ok b, t) → b = a

theorem answers_pure (a : α) : (Pure.pure a : Prog σ ε α).Answers a := by
  intro s b t h
  exact (Except.ok.inj (Prod.mk.inj h).1).symm

theorem Answers.bind {p : Prog σ ε α} {f : α → Prog σ ε β} {b : β} (hf : ∀ a, (f a).Answers b) :
    (p >>= f).Answers b := by
  intro s b' t h
  obtain ⟨a, u, -, hrest⟩ := bind_eq_ok.mp h
  exact hf a u b' t hrest

end Prog

end RtosMqtt
