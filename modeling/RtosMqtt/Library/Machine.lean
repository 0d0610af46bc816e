import Mathlib.Data.Nat.Notation

/-! # Machines that answer each input

A machine answers an input in a state and moves to the next state. A run collects
the answers, and an invariant of the steps is one of the runs.
-/

namespace RtosMqtt

variable {ι σ ο : Type*}

/-- A deterministic machine with inputs `ι`, states `σ` and answers `ο`. -/
structure Machine (ι σ ο : Type*) where
  step : ι → σ → ο × σ

namespace Machine

/-- Feed a list of inputs, collecting the answers in order. -/
def run (m : Machine ι σ ο) : List ι → σ → List ο × σ
  | [], s => ([], s)
  | i :: is, s =>
    let (answer, next) := m.step i s
    let (answers, last) := m.run is next
    (answer :: answers, last)

variable (m : Machine ι σ ο)

@[simp] theorem run_nil (s : σ) : m.run [] s = ([], s) := rfl

theorem run_cons (i : ι) (is : List ι) (s : σ) :
    m.run (i :: is) s =
      ((m.step i s).1 :: (m.run is (m.step i s).2).1, (m.run is (m.step i s).2).2) := rfl

variable {m}

theorem run_invariant {I : σ → Prop} (hstep : ∀ i s, I s → I (m.step i s).2) {s : σ} (hs : I s)
    (is : List ι) : I (m.run is s).2 := by
  induction is generalizing s with
  | nil => exact hs
  | cons i is ih => exact ih (hstep i s hs)

end Machine

end RtosMqtt
