import EsphomeMcp.Python.Sets

/-!
# The first elements of a set

`sorted(xs, key=key)[:k]` depends on the order of `xs` where two elements have the same key. Where no
two have, it depends on the set of the elements only: it is the one list that `Leads` describes.
-/

namespace Py

variable {α κ : Type} [LinearOrder κ] {key : α → κ}

/-- `sorted(xs, key=key)`. -/
def sortedBy (key : α → κ) (xs : List α) : List α := xs.insertionSort (key · ≤ key ·)

/-- The `k` elements of `s` with the least keys, or all there are, in order. -/
structure Leads (key : α → κ) (s : α → Prop) (k : ℕ) (l : List α) : Prop where
  mem : ∀ x ∈ l, s x
  ordered : l.Pairwise (key · < key ·)
  length_le : l.length ≤ k
  rest : ∀ x, s x → x ∉ l → l.length = k ∧ ∀ y ∈ l, key y < key x

@[simp] theorem mem_sortedBy {xs : List α} {x : α} : x ∈ sortedBy key xs ↔ x ∈ xs :=
  List.mem_insertionSort _

theorem pairwise_sortedBy {xs : List α} (h : (xs.map key).Nodup) :
    (sortedBy key xs).Pairwise (key · < key ·) := by
  have hsorted : (sortedBy key xs).Pairwise (key · ≤ key ·) :=
    @List.pairwise_insertionSort _ (key · ≤ key ·) _ ⟨fun x y => le_total (key x) (key y)⟩
      ⟨fun _ _ _ h h' => le_trans h h'⟩ xs
  have hperm : ((sortedBy key xs).map key).Perm (xs.map key) :=
    (List.perm_insertionSort _ xs).map key
  have hne : (sortedBy key xs).Pairwise (key · ≠ key ·) :=
    List.pairwise_map.mp (hperm.nodup_iff.mpr h)
  exact (hsorted.and hne).imp fun h => lt_of_le_of_ne h.1 h.2

/-- Cutting a list that ascends leaves the first of its elements. -/
theorem leads_take {xs : List α} (h : xs.Pairwise (key · < key ·)) (k : ℕ) :
    Leads key (· ∈ xs) k (xs.take k) := by
  refine ⟨fun x hx => List.mem_of_mem_take hx, h.sublist (List.take_sublist k xs),
    List.length_take_le k xs, fun x hx hnot => ?_⟩
  have hdrop : x ∈ xs.drop k := by
    rw [← List.take_append_drop k xs] at hx
    exact (List.mem_append.mp hx).resolve_left hnot
  rw [← List.take_append_drop k xs] at h
  refine ⟨?_, fun y hy => (List.pairwise_append.mp h).2.2 y hy x hdrop⟩
  have hlen := List.length_pos_of_mem hdrop
  rw [List.length_drop] at hlen
  rw [List.length_take]
  omega

theorem Leads.congr {s t : α → Prop} {k : ℕ} {l : List α} (h : Leads key s k l)
    (hst : ∀ x, s x ↔ t x) : Leads key t k l :=
  ⟨fun x hx => (hst x).mp (h.mem x hx), h.ordered, h.length_le,
    fun x hx => h.rest x ((hst x).mpr hx)⟩

theorem nodup_of_ascending {l : List α} (h : l.Pairwise (key · < key ·)) : l.Nodup :=
  h.imp fun hlt heq => (heq ▸ hlt).ne rfl

/-- Fewer of the first are the beginning of more of them. -/
theorem Leads.isPrefix {s : α → Prop} {k k' : ℕ} {l l' : List α} (h : Leads key s k l)
    (h' : Leads key s k' l') (hle : k ≤ k') : l <+: l' := by
  classical
  -- an element missing in the longer list would have all of it below, and it would be shorter
  have hsub : ∀ x ∈ l, x ∈ l' := by
    intro x hx
    by_contra hnot
    obtain ⟨hlen, hbelow⟩ := h'.rest x (h.mem x hx) hnot
    have hback : ∀ y ∈ l', y ∈ l := by
      intro y hy
      by_contra hynot
      have hxy := (h.rest y (h'.mem y hy) hynot).2 x hx
      exact absurd (hbelow y hy) (not_lt.mpr hxy.le)
    have hshort : (x :: l').length ≤ l.length := by
      have hnodup : (x :: l').Nodup := List.nodup_cons.mpr ⟨hnot, nodup_of_ascending h'.ordered⟩
      refine (List.subperm_of_subset hnodup fun y hy => ?_).length_le
      exact (List.mem_cons.mp hy).elim (fun he => he ▸ hx) (hback y)
    have hk := h.length_le
    rw [List.length_cons] at hshort
    omega
  have hordered : (l ++ l'.filter (· ∉ l)).Pairwise (key · < key ·) := by
    refine List.pairwise_append.mpr ⟨h.ordered, h'.ordered.filter _, fun x hx y hy => ?_⟩
    rw [List.mem_filter, decide_eq_true_eq] at hy
    exact (h.rest y (h'.mem y hy.1) hy.2).2 x hx
  have hperm : (l ++ l'.filter (· ∉ l)).Perm l' := by
    refine (List.perm_ext_iff_of_nodup (nodup_of_ascending hordered)
      (nodup_of_ascending h'.ordered)).mpr fun x => ?_
    simp only [List.mem_append, List.mem_filter, decide_eq_true_eq]
    constructor
    · intro hx
      exact hx.elim (hsub x) And.left
    · intro hx
      exact (em (x ∈ l)).imp id fun hnot => ⟨hx, hnot⟩
  have heq : l ++ l'.filter (· ∉ l) = l' := hperm.eq_of_pairwise
    (fun x y _ _ hxy hyx => absurd hxy (not_lt.mpr hyx.le)) hordered h'.ordered
  exact ⟨_, heq⟩

/-- Nothing else is the first of these elements. -/
theorem Leads.unique {s : α → Prop} {k : ℕ} {l l' : List α} (h : Leads key s k l)
    (h' : Leads key s k l') : l = l' := by
  have hle := (h.isPrefix h' le_rfl).length_le
  exact (h.isPrefix h' le_rfl).eq_of_length (hle.antisymm (h'.isPrefix h le_rfl).length_le)

/-- What `sorted` makes of elements with distinct keys depends on which they are only. -/
theorem sortedBy_congr {xs ys : List α} (hxs : (xs.map key).Nodup) (hys : (ys.map key).Nodup)
    (h : ∀ x, x ∈ xs ↔ x ∈ ys) : sortedBy key xs = sortedBy key ys := by
  have hsame : ∀ x, x ∈ sortedBy key xs ↔ x ∈ sortedBy key ys := fun x => by
    rw [mem_sortedBy, mem_sortedBy, h]
  have hperm : (sortedBy key xs).Perm (sortedBy key ys) :=
    (List.perm_ext_iff_of_nodup (nodup_of_ascending (pairwise_sortedBy hxs))
      (nodup_of_ascending (pairwise_sortedBy hys))).mpr hsame
  exact hperm.eq_of_pairwise (fun x y _ _ hxy hyx => absurd hxy (not_lt.mpr hyx.le))
    (pairwise_sortedBy hxs) (pairwise_sortedBy hys)

end Py
