import Mathlib.Data.List.Infix
import Mathlib.Tactic.Common

/-! # Streams of packets

A stream is framed when it is cut into whole packets and at most a first part of
one more. When no packet is a first part of another it can be cut in one way only.
-/

namespace RtosMqtt

variable {α : Type} {P : List α → Prop} {a b p q : List α}

inductive Packets (P : List α → Prop) : List α → Prop
  | nil : Packets P []
  | cons {p a : List α} (hp : P p) (ha : Packets P a) : Packets P (p ++ a)

theorem Packets.one (h : P p) : Packets P p := by
  have hone := Packets.cons h .nil
  rwa [List.append_nil] at hone

theorem Packets.append (ha : Packets P a) (hb : Packets P b) : Packets P (a ++ b) := by
  induction ha with
  | nil => exact hb
  | cons hp _ ih =>
    rw [List.append_assoc]
    exact .cons hp ih

/-- Whole packets, and then a first part of one more. -/
inductive Interrupted (P : List α → Prop) : List α → Prop
  | whole {a : List α} (ha : Packets P a) : Interrupted P a
  | part {a p q : List α} (ha : Packets P a) (hp : P p) (hpart : q <+: p) : Interrupted P (a ++ q)

theorem Interrupted.nil : Interrupted P [] := .whole .nil

theorem Interrupted.begun (hp : P p) (hpart : q <+: p) : Interrupted P q := .part .nil hp hpart

theorem Interrupted.after (ha : Packets P a) (hb : Interrupted P b) : Interrupted P (a ++ b) := by
  cases hb with
  | whole hb => exact .whole (ha.append hb)
  | part hb hp hpart =>
    rw [← List.append_assoc]
    exact .part (ha.append hb) hp hpart

def PrefixFree (P : List α → Prop) : Prop := ∀ p q, P p → P q → p <+: q → p = q

theorem PrefixFree.eq_of_prefixes (h : PrefixFree P) (hp : P p) (hq : P q) (hpa : p <+: a)
    (hqa : q <+: a) : p = q := by
  rcases List.prefix_or_prefix_of_prefix hpa hqa with hpq | hqp
  · exact h p q hp hq hpq
  · exact (h q p hq hp hqp).symm

theorem PrefixFree.cut_unique (h : PrefixFree P) (hempty : ¬ P [])
    {packets packets' : List (List α)} (hp : ∀ p ∈ packets, P p) (hq : ∀ q ∈ packets', P q)
    (heq : packets.flatten = packets'.flatten) : packets = packets' := by
  induction packets generalizing packets' with
  | nil =>
    cases packets' with
    | nil => rfl
    | cons q packets' =>
      rw [List.flatten_nil, List.flatten_cons] at heq
      rw [(List.append_eq_nil_iff.mp heq.symm).1] at hq
      exact absurd (hq [] List.mem_cons_self) hempty
  | cons p packets ih =>
    cases packets' with
    | nil =>
      rw [List.flatten_nil, List.flatten_cons] at heq
      rw [(List.append_eq_nil_iff.mp heq).1] at hp
      exact absurd (hp [] List.mem_cons_self) hempty
    | cons q packets' =>
      rw [List.forall_mem_cons] at hp hq
      rw [List.flatten_cons, List.flatten_cons] at heq
      have hfirst : p = q := h.eq_of_prefixes hp.1 hq.1 (List.prefix_append _ _) ⟨_, heq.symm⟩
      rw [hfirst, List.append_cancel_left_eq] at heq
      rw [hfirst, ih hp.2 hq.2 heq]

theorem Packets.exists_flatten (h : Packets P a) :
    ∃ packets : List (List α), (∀ p ∈ packets, P p) ∧ packets.flatten = a := by
  induction h with
  | nil => exact ⟨[], by simp, rfl⟩
  | cons hp _ ih =>
    obtain ⟨packets, hall, rfl⟩ := ih
    exact ⟨_ :: packets, List.forall_mem_cons.mpr ⟨hp, hall⟩, List.flatten_cons⟩

end RtosMqtt
