import Mathlib.Data.List.Basic

/-!
# Since

The operator of past-time temporal logic, on finite histories that grow at the end: something
happened, and from then on everything was as asked. `since_append_singleton` is its unfolding,
by which what a state remembers is compared with the history one step at a time.
-/

namespace Py

variable {α : Type}

/-- `P` happened, and everything after it was in `Q`. -/
def Since (Q P : α → Prop) (history : List α) : Prop :=
  ∃ before x after, history = before ++ x :: after ∧ P x ∧ ∀ y ∈ after, Q y

variable {Q P : α → Prop} {history : List α}

@[simp] theorem not_since_nil : ¬Since Q P [] := by
  intro h
  obtain ⟨before, x, after, heq, -⟩ := h
  simp at heq

/-- What happened in a longer history since, happened in its end, or before an end in `Q`. -/
theorem since_append {more : List α} :
    Since Q P (history ++ more) ↔ Since Q P more ∨ (Since Q P history ∧ ∀ y ∈ more, Q y) := by
  constructor
  · intro h
    obtain ⟨before, x, after, heq, hx, hafter⟩ := h
    rcases List.append_eq_append_iff.mp heq with ⟨lead, hbefore, hmore⟩ | ⟨rest, hhistory, hrest⟩
    · exact .inl ⟨lead, x, after, hmore, hx, hafter⟩
    · -- `x` is the first of what is left of the history, unless nothing is left of it
      cases rest with
      | nil => exact .inl ⟨[], x, after, hrest.symm, hx, hafter⟩
      | cons y rest =>
        rw [List.cons_append, List.cons.injEq] at hrest
        rw [hrest.2] at hafter
        refine .inr ⟨⟨before, x, rest, ?_, hx, ?_⟩, ?_⟩
        · rw [hhistory, hrest.1]
        · exact fun z hz => hafter z (List.mem_append_left _ hz)
        · exact fun z hz => hafter z (List.mem_append_right _ hz)
  · intro h
    rcases h with ⟨before, x, after, heq, hx, hafter⟩ | ⟨⟨before, x, after, heq, hx, hafter⟩, hmore⟩
    · exact ⟨history ++ before, x, after, by rw [heq, List.append_assoc], hx, hafter⟩
    · refine ⟨before, x, after ++ more, by rw [heq]; simp, hx, fun y hy => ?_⟩
      exact (List.mem_append.mp hy).elim (hafter y) (hmore y)

/-- The last step either is what happened, or left it as it was. -/
theorem since_append_singleton {x : α} :
    Since Q P (history ++ [x]) ↔ P x ∨ (Since Q P history ∧ Q x) := by
  have hlast : Since Q P [x] ↔ P x := by
    constructor
    · intro h
      obtain ⟨before, y, after, heq, hy, -⟩ := h
      have hmem : y ∈ [x] := by
        rw [heq]
        exact List.mem_append_right _ List.mem_cons_self
      rwa [List.mem_singleton.mp hmem] at hy
    · exact fun hx => ⟨[], x, [], rfl, hx, by simp⟩
  rw [since_append, hlast]
  simp only [List.mem_singleton, forall_eq]

end Py
