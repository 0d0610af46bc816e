import RtosMqtt.Library.Program

/-! # Laying fields side by side

A writer is told where in a destination to start and answers where it stopped. A
writer that appends lays down its items there, after what is already laid down,
and leaves what follows them.
-/

namespace RtosMqtt

/-- A writer lays down its items wherever there is room for them. -/
def Appends {β ε : Type} (w : ℕ → Prog (List β) ε ℕ) (items : List β) : Prop :=
  ∀ before rest, items.length ≤ rest.length →
    w before.length (before ++ rest) =
      (.ok (before.length + items.length), before ++ items ++ rest.drop items.length)

section Appends

variable {β ε : Type} {w w' : ℕ → Prog (List β) ε ℕ} {items more : List β}

theorem appends_pure : Appends (fun start => (pure start : Prog (List β) ε ℕ)) [] := by
  intro before rest _
  dsimp only
  rw [Prog.pure_apply, List.append_nil]
  rfl

theorem Appends.bind (h : Appends w items) (h' : Appends w' more) :
    Appends (fun start => w start >>= w') (items ++ more) := by
  intro before rest hroom
  rw [List.length_append] at hroom
  have hrest := h' (before ++ items) (rest.drop items.length)
    (by rw [List.length_drop]; omega)
  rw [List.length_append, List.drop_drop] at hrest
  dsimp only
  rw [Prog.bind_of_ok (h before rest (by omega)), hrest, List.length_append, List.append_assoc,
    List.append_assoc, List.append_assoc, List.append_assoc, Nat.add_assoc]

theorem appends_optional {α : Type} (wanted : Option α) {w : α → ℕ → Prog (List β) ε ℕ}
    {spelled : α → List β} (h : ∀ a, wanted = some a → Appends (w a) (spelled a)) :
    Appends (fun start => wanted.elim (pure start) fun a => w a start)
      (wanted.elim [] spelled) := by
  cases wanted with
  | none => exact appends_pure
  | some a => exact h a rfl

theorem Appends.behind (h : Appends w items) (head destination : List β)
    (hroom : (head ++ items).length ≤ destination.length) :
    w head.length (head ++ destination.drop head.length) =
      (.ok (head ++ items).length, head ++ items ++ destination.drop (head ++ items).length) := by
  rw [List.length_append] at hroom ⊢
  rw [h head (destination.drop head.length) (by rw [List.length_drop]; omega), List.drop_drop]

end Appends

end RtosMqtt
