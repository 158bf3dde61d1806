import Mathlib.Data.List.Lex
import Mathlib.Data.List.Sort
import Mathlib.Tactic.Cases

/-!
# Sets, `sorted` and `max`

A Python `set` is the list of its elements in the order they came in. Iterating over it gives them
in an order the language does not fix (`SetOrder`). `sorted` forgets that order, and
`max(.., key=..)` does not: of several elements with the greatest key it takes the one it meets
first.
-/

namespace Py

section

variable {α κ : Type}

/-- The order in which sets are iterated. Nothing is known of it but that every element comes
once. -/
structure SetOrder (α : Type) where
  iter : List α → List α
  perm : ∀ s, (iter s).Perm s

@[simp] theorem SetOrder.mem_iter (order : SetOrder α) {s : List α} {x : α} :
    x ∈ order.iter s ↔ x ∈ s := (order.perm s).mem_iff

/-- The order in which the elements came in. -/
def SetOrder.insertion (α : Type) : SetOrder α := ⟨id, fun _ => .rfl⟩

section

variable [DecidableEq α]

/-- The order of insertion, but for one element that comes first. -/
def SetOrder.first (x : α) : SetOrder α where
  iter s := if x ∈ s then x :: s.erase x else s
  perm s := by
    split_ifs with h
    · exact (List.perm_cons_erase h).symm
    · exact .rfl

theorem SetOrder.iter_first {x : α} {s : List α} (h : x ∈ s) :
    ∃ rest, (SetOrder.first x).iter s = x :: rest ∧ ∀ y ∈ rest, y ∈ s :=
  ⟨s.erase x, if_pos h, fun _ hy => List.mem_of_mem_erase hy⟩

/-- `s.add(x)`. -/
def setAdd (s : List α) (x : α) : List α := if x ∈ s then s else s ++ [x]

/-- `s.update(xs)`. -/
def setUpdate (s xs : List α) : List α := xs.foldl setAdd s

@[simp] theorem mem_setAdd {s : List α} {x y : α} : y ∈ setAdd s x ↔ y ∈ s ∨ y = x := by
  unfold setAdd
  split_ifs with h
  · exact ⟨.inl, fun hy => hy.elim id fun he => he ▸ h⟩
  · simp

@[simp] theorem mem_setUpdate {s xs : List α} {y : α} : y ∈ setUpdate s xs ↔ y ∈ s ∨ y ∈ xs := by
  induction xs generalizing s with
  | nil => simp [setUpdate]
  | cons x xs ih =>
    show y ∈ setUpdate (setAdd s x) xs ↔ _
    rw [ih, mem_setAdd, List.mem_cons, or_assoc]

theorem nodup_setAdd {s : List α} (h : s.Nodup) (x : α) : (setAdd s x).Nodup := by
  unfold setAdd
  split_ifs with hx
  · exact h
  · exact h.append (List.nodup_singleton x) (by simpa using hx)

theorem nodup_setUpdate {s : List α} (h : s.Nodup) (xs : List α) : (setUpdate s xs).Nodup := by
  induction xs generalizing s with
  | nil => exact h
  | cons x xs ih => exact ih (nodup_setAdd h x)

end

section

variable [LinearOrder α]

/-- `sorted(xs)`. -/
def sorted (xs : List α) : List α := xs.insertionSort (· ≤ ·)

@[simp] theorem mem_sorted {xs : List α} {x : α} : x ∈ sorted xs ↔ x ∈ xs :=
  List.mem_insertionSort _

theorem nodup_sorted {xs : List α} (h : xs.Nodup) : (sorted xs).Nodup :=
  (List.perm_insertionSort _ xs).nodup_iff.mpr h

/-- What `sorted` makes of a set depends on its elements only. -/
theorem sorted_congr {s t : List α} (hs : s.Nodup) (ht : t.Nodup) (h : ∀ x, x ∈ s ↔ x ∈ t) :
    sorted s = sorted t := by
  have hperm : s.Perm t := (List.perm_ext_iff_of_nodup hs ht).mpr h
  have hsorted : (sorted s).Perm (sorted t) :=
    (List.perm_insertionSort _ s).trans (hperm.trans (List.perm_insertionSort _ t).symm)
  exact hsorted.eq_of_pairwise' (List.pairwise_insertionSort _ s) (List.pairwise_insertionSort _ t)

end

section

variable [LinearOrder κ] (key : α → κ)

/-- `max([best, *xs], key=key)`. -/
def maxFrom (best : α) : List α → α
  | [] => best
  | x :: xs => maxFrom (if key best < key x then x else best) xs

theorem maxFrom_mem (best : α) (xs : List α) : maxFrom key best xs ∈ best :: xs := by
  induction xs generalizing best with
  | nil => exact List.mem_singleton_self _
  | cons x xs ih =>
    rw [maxFrom]
    have h := ih (if key best < key x then x else best)
    split_ifs at h ⊢
    · exact List.mem_cons_of_mem _ h
    · rcases List.mem_cons.mp h with h | h
      · rw [h]
        exact List.mem_cons_self
      · exact List.mem_cons_of_mem _ (List.mem_cons_of_mem _ h)

theorem key_le_maxFrom {best : α} {xs : List α} {y : α} (h : y ∈ best :: xs) :
    key y ≤ key (maxFrom key best xs) := by
  induction xs generalizing best y with
  | nil => rw [List.mem_singleton.mp h, maxFrom]
  | cons x xs ih =>
    rw [maxFrom]
    have hbest : key (if key best < key x then x else best) ≤
        key (maxFrom key (if key best < key x then x else best) xs) := ih List.mem_cons_self
    rcases List.mem_cons.mp h with rfl | h
    · refine le_trans ?_ hbest
      split_ifs with hlt
      · exact hlt.le
      · exact le_rfl
    · rcases List.mem_cons.mp h with rfl | h
      · refine le_trans ?_ hbest
        split_ifs with hlt
        · exact le_rfl
        · exact not_lt.mp hlt
      · exact ih (List.mem_cons_of_mem _ h)

/-- The first of several greatest elements is taken. -/
theorem maxFrom_eq_of_le {best : α} {xs : List α} (h : ∀ x ∈ xs, key x ≤ key best) :
    maxFrom key best xs = best := by
  induction xs with
  | nil => rfl
  | cons x xs ih =>
    rw [List.forall_mem_cons] at h
    rw [maxFrom, if_neg (not_lt.mpr h.1)]
    exact ih h.2

end

end

end Py
