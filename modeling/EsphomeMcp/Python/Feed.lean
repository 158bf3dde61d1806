import Mathlib.Data.List.Basic
import Mathlib.Data.Sum.Basic

/-!
# Machines that read until they are done

`feed step s xs` gives the inputs `xs` to a machine one by one, from the state `s`, until it comes
to an end. Inputs that a machine skips may be put in anywhere (`feed_inserts`): the two runs stay
related, unless the machine stops at one of them.
-/

namespace Py

variable {α σ ω : Type}

/-- The second list is the first one with elements of `P` put in. -/
inductive Inserts (P : α → Prop) : List α → List α → Prop
  | nil : Inserts P [] []
  | keep (a : α) {xs ys : List α} : Inserts P xs ys → Inserts P (a :: xs) (a :: ys)
  | insert {a : α} {xs ys : List α} : P a → Inserts P xs ys → Inserts P xs (a :: ys)

/-- The state after some inputs, or the end. -/
def feed (step : σ → α → σ ⊕ ω) (s : σ) : List α → σ ⊕ ω
  | [] => .inl s
  | a :: xs =>
    match step s a with
    | .inl s => feed step s xs
    | .inr w => .inr w

/-- A machine that is done reads no more. -/
theorem feed_append {step : σ → α → σ ⊕ ω} {s : σ} {w : ω} {xs : List α}
    (h : feed step s xs = .inr w) (ys : List α) : feed step s (xs ++ ys) = .inr w := by
  induction xs generalizing s with
  | nil => cases h
  | cons a xs ih =>
    rw [List.cons_append, feed]
    rw [feed] at h
    cases hstep : step s a with
    | inl s' =>
      rw [hstep] at h
      exact ih h
    | inr w' =>
      rw [hstep] at h
      exact h

theorem feed_of_isPrefix {step : σ → α → σ ⊕ ω} {s : σ} {w : ω} {xs ys : List α}
    (h : feed step s xs = .inr w) (hxs : xs <+: ys) : feed step s ys = .inr w := by
  obtain ⟨zs, rfl⟩ := hxs
  exact feed_append h zs

/-- Inputs that are skipped, or stopped at with an end in `B`, may be put in anywhere. -/
theorem feed_inserts {step : σ → α → σ ⊕ ω} {P : α → Prop} {R : σ → σ → Prop} {Q : ω → ω → Prop}
    {B : ω → Prop} (hstep : ∀ s s' a, R s s' → Sum.LiftRel R Q (step s a) (step s' a))
    (hskip : ∀ s s' a, R s s' → P a →
      (∃ t, step s' a = .inl t ∧ R s t) ∨ ∃ w, step s' a = .inr w ∧ B w)
    {xs ys : List α} (h : Inserts P xs ys) {s s' : σ} (hs : R s s') :
    Sum.LiftRel R Q (feed step s xs) (feed step s' ys) ∨ ∃ w, feed step s' ys = .inr w ∧ B w := by
  induction h generalizing s s' with
  | nil => exact .inl (.inl hs)
  | keep a _ ih =>
    have hlift := hstep s s' a hs
    rw [feed, feed]
    cases hs₁ : step s a <;> cases hs₂ : step s' a <;> rw [hs₁, hs₂] at hlift
    · exact ih (Sum.liftRel_inl_inl.mp hlift)
    · cases hlift
    · cases hlift
    · exact .inl hlift
  | insert ha _ ih =>
    rw [feed]
    rcases hskip s s' _ hs ha with ⟨t, ht, hR⟩ | ⟨w, hw, hB⟩
    · rw [ht]
      exact ih hR
    · rw [hw]
      exact .inr ⟨w, rfl, hB⟩

end Py
