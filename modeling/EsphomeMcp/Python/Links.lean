import Mathlib.Data.Fintype.Basic
import Mathlib.Data.Finset.Card
import Mathlib.Logic.Relation

/-!
# Following a link

A search along `a`, `next a`, … that remembers what it has seen. Over a finite type it ends, and
it finds what the link reaches, cycles or not.
-/

namespace Py

open Relation

section

variable {α : Type} [Fintype α] [DecidableEq α]

/-- One more element seen leaves fewer to see. -/
theorem card_compl_insert_lt {a : α} {seen : Finset α} (h : a ∉ seen) :
    (insert a seen)ᶜ.card < seenᶜ.card := by
  apply Finset.card_lt_card
  apply Finset.compl_ssubset_compl.mpr
  exact Finset.ssubset_insert h

/-- Whether the chain meets `p` before it ends or comes back to what was seen. -/
def searchLinks {α : Type} [Fintype α] [DecidableEq α] (p : α → Bool) (next : α → Option α)
    (seen : Finset α) : Option α → Bool
  | none => false
  | some a =>
    if _h : a ∈ seen then false
    else if p a then true
    else searchLinks p next (insert a seen) (next a)
termination_by seenᶜ.card
decreasing_by exact card_compl_insert_lt _h

/-- The link leads from `a` to `b`. -/
def Linked (next : α → Option α) (a b : α) : Prop := next a = some b

variable {p : α → Bool} {next : α → Option α}

theorem exists_linked_of_searchLinks {seen : Finset α} {current : Option α}
    (h : searchLinks p next seen current = true) :
    ∃ a d, current = some a ∧ ReflTransGen (Linked next) a d ∧ p d = true := by
  fun_induction searchLinks p next seen current with
  | case1 => exact absurd h Bool.false_ne_true
  | case2 => exact absurd h Bool.false_ne_true
  | case3 seen a hmem hp => exact ⟨a, a, rfl, .refl, hp⟩
  | case4 seen a hmem hp ih =>
    obtain ⟨b, d, hnext, hreach, hd⟩ := ih h
    exact ⟨a, d, rfl, .head hnext hreach, hd⟩

/-- What a search that fails has seen is closed under the link and has nothing of `p` in it. -/
theorem exists_closed_of_searchLinks {seen : Finset α} {current : Option α}
    (hseen : ∀ s ∈ seen, p s = false ∧ ∀ t, next s = some t → t ∈ seen ∨ current = some t)
    (h : searchLinks p next seen current = false) :
    ∃ closed : Finset α, seen ⊆ closed ∧ (∀ a, current = some a → a ∈ closed) ∧
      ∀ s ∈ closed, p s = false ∧ ∀ t, next s = some t → t ∈ closed := by
  fun_induction searchLinks p next seen current with
  | case1 seen =>
    refine ⟨seen, subset_rfl, fun a ha => absurd ha (Option.some_ne_none a).symm, ?_⟩
    intro s hs
    refine ⟨(hseen s hs).1, fun t ht => ?_⟩
    exact ((hseen s hs).2 t ht).resolve_right (Option.some_ne_none t).symm
  -- the chain has come back to itself
  | case2 seen a hmem =>
    refine ⟨seen, subset_rfl, fun b hb => Option.some.inj hb ▸ hmem, ?_⟩
    intro s hs
    refine ⟨(hseen s hs).1, fun t ht => ?_⟩
    apply ((hseen s hs).2 t ht).elim id
    intro hat
    exact Option.some.inj hat ▸ hmem
  | case3 => exact absurd h.symm Bool.false_ne_true
  | case4 seen a hmem hp ih =>
    have hinsert : ∀ s ∈ insert a seen,
        p s = false ∧ ∀ t, next s = some t → t ∈ insert a seen ∨ next a = some t := by
      intro s hs
      rw [Finset.mem_insert] at hs
      rcases hs with rfl | hs
      · exact ⟨Bool.eq_false_of_not_eq_true hp, fun t ht => .inr ht⟩
      · refine ⟨(hseen s hs).1, fun t ht => .inl ?_⟩
        rw [Finset.mem_insert]
        apply ((hseen s hs).2 t ht).symm.imp_left
        intro hat
        exact (Option.some.inj hat).symm
    obtain ⟨closed, hsub, -, hclosed⟩ := ih hinsert h
    refine ⟨closed, (Finset.subset_insert a seen).trans hsub, ?_, hclosed⟩
    intro b hb
    apply hsub
    rw [← Option.some.inj hb]
    exact Finset.mem_insert_self a seen

/-- The search finds what the link reaches. -/
theorem searchLinks_iff {a : α} :
    searchLinks p next ∅ (some a) = true ↔
      ∃ d, ReflTransGen (Linked next) a d ∧ p d = true := by
  constructor
  · intro h
    obtain ⟨b, d, hb, hreach, hd⟩ := exists_linked_of_searchLinks h
    rw [Option.some.inj hb]
    exact ⟨d, hreach, hd⟩
  · rintro ⟨d, hreach, hd⟩
    by_contra hfalse
    have hfail : searchLinks p next ∅ (some a) = false := Bool.eq_false_of_not_eq_true hfalse
    obtain ⟨closed, -, hstart, hclosed⟩ :=
      exists_closed_of_searchLinks (fun s hs => absurd hs (Finset.notMem_empty s)) hfail
    have hmem : ∀ b, ReflTransGen (Linked next) a b → b ∈ closed := by
      intro b hab
      induction hab with
      | refl => exact hstart a rfl
      | tail _ hlink ih => exact (hclosed _ ih).2 _ hlink
    exact absurd hd (Bool.eq_false_iff.mp (hclosed d (hmem d hreach)).1)

end

end Py
