import Mathlib.Data.List.Basic
import Mathlib.Data.Nat.Digits.Lemmas
import Mathlib.Tactic.Cases

/-!
# Strings as lists of code points

A Python `str` is a sequence of code points, lone surrogates included, so it is modelled
as a list of numbers below `0x110000` and not as a Lean `String`. The `str` methods the
models use are here: `startswith`, `partition`, `rpartition`, `find`, `lstrip`, `strip`,
`isascii` and the ASCII part of `lower`. `split` is `List.splitOn`.

Each search method comes with the one equation a caller needs: what the text looked like
around the separator.
-/

namespace Py

/-- A Unicode code point, surrogates included. -/
abbrev CodePoint := Fin 0x110000

/-- A Python `str`. -/
abbrev Str := List CodePoint

instance : LawfulBEq CodePoint := inferInstance

instance : LawfulBEq Str := inferInstance

theorem toNat_lt_codePoints (c : Char) : c.toNat < 0x110000 := by
  have h := c.valid
  simp only [Char.toNat, UInt32.isValidChar, Nat.isValidChar] at *
  omega

/-- The code point of a character literal. -/
def ch (c : Char) : CodePoint := ⟨c.toNat, toNat_lt_codePoints c⟩

/-- A string literal as a Python `str`. -/
@[coe] def str (s : String) : Str := s.toList.map ch

instance : Coe String Str := ⟨str⟩

theorem ch_injective : Function.Injective ch := fun _ _ h =>
  Char.toNat_inj.mp (Fin.mk.inj_iff.mp h)

/-- Literals are compared as Lean strings. -/
@[simp] theorem str_inj {a b : String} : str a = str b ↔ a = b := by
  rw [str, str, ch_injective.list_map.eq_iff, String.toList_inj]

/-! ## ASCII -/

/-- `c.isascii()` for one code point. -/
def isAscii (c : CodePoint) : Bool := c.val < 0x80

/-- ASCII lower case of one code point. -/
def asciiLower (c : CodePoint) : CodePoint :=
  if h : 0x41 ≤ c.val ∧ c.val ≤ 0x5A then ⟨c.val + 32, by omega⟩ else c

/-- An ASCII decimal digit. -/
def isDigit (c : CodePoint) : Bool := 0x30 ≤ c.val ∧ c.val ≤ 0x39

/-- An ASCII letter. -/
def isAlpha (c : CodePoint) : Bool :=
  (0x41 ≤ c.val ∧ c.val ≤ 0x5A) ∨ (0x61 ≤ c.val ∧ c.val ≤ 0x7A)

/-- The value of a hexadecimal digit, as `int(c, 16)` reads one. -/
def hexDigitVal (c : CodePoint) : Option ℕ :=
  if 0x30 ≤ c.val ∧ c.val ≤ 0x39 then some (c.val - 0x30)
  else if 0x61 ≤ c.val ∧ c.val ≤ 0x66 then some (c.val - 0x61 + 10)
  else if 0x41 ≤ c.val ∧ c.val ≤ 0x46 then some (c.val - 0x41 + 10)
  else none

/-- `int(s)` of a string of ASCII digits. -/
def digitsVal (s : Str) : ℕ := Nat.ofDigits 10 (s.reverse.map fun c => c.val - 0x30)

/-- The decimal digit of a number, reduced modulo 10. -/
def digitChar (n : ℕ) : CodePoint := ⟨0x30 + n % 10, by omega⟩

/-- `str(n)` of a natural number. -/
def natRepr (n : ℕ) : Str :=
  if n = 0 then [digitChar 0] else (Nat.digits 10 n).reverse.map digitChar

theorem isDigit_digitChar (n : ℕ) : isDigit (digitChar n) = true := by
  rw [isDigit, decide_eq_true_eq, digitChar]
  simp only
  omega

theorem isDigit_of_mem_natRepr {n : ℕ} {c : CodePoint} (h : c ∈ natRepr n) : isDigit c = true := by
  unfold natRepr at h
  split_ifs at h
  · rw [List.mem_singleton.mp h]
    exact isDigit_digitChar 0
  · obtain ⟨d, -, rfl⟩ := List.mem_map.mp h
    exact isDigit_digitChar d

theorem natRepr_ne_nil (n : ℕ) : natRepr n ≠ [] := by
  unfold natRepr
  split_ifs with h
  · simp
  · simp only [ne_eq, List.map_eq_nil_iff, List.reverse_eq_nil_iff]
    exact Nat.digits_ne_nil_iff_ne_zero.mpr h

/-- `int(str(n)) == n`. -/
theorem digitsVal_natRepr (n : ℕ) : digitsVal (natRepr n) = n := by
  unfold natRepr
  split_ifs with h
  · subst h
    decide
  · rw [digitsVal, ← List.map_reverse, List.reverse_reverse, List.map_map]
    have hmap : (Nat.digits 10 n).map ((fun c : CodePoint => c.val - 0x30) ∘ digitChar)
        = Nat.digits 10 n := by
      refine (List.map_congr_left fun d hd => ?_).trans (List.map_id _)
      have hlt : d < 10 := Nat.digits_lt_base (by norm_num) hd
      simp only [Function.comp_apply, digitChar, id_eq]
      omega
    rw [hmap, Nat.ofDigits_digits]

@[simp] theorem asciiLower_val (c : CodePoint) :
    (asciiLower c).val = if 0x41 ≤ c.val ∧ c.val ≤ 0x5A then c.val + 32 else c.val := by
  unfold asciiLower
  split_ifs <;> rfl

/-- Lower-casing an ASCII code point leaves it ASCII. -/
theorem isAscii_asciiLower (c : CodePoint) : isAscii (asciiLower c) = isAscii c := by
  simp only [isAscii, asciiLower_val]
  split_ifs with h
  · simp only [decide_eq_decide]
    omega
  · rfl

theorem asciiLower_asciiLower (c : CodePoint) : asciiLower (asciiLower c) = asciiLower c := by
  apply Fin.ext
  simp only [asciiLower_val]
  split_ifs <;> omega

/-! ## White space -/

/-- The code points `str.strip()` removes: those for which `str.isspace` holds. -/
def isSpace (c : CodePoint) : Bool :=
  (0x09 ≤ c.val ∧ c.val ≤ 0x0D) ∨ (0x1C ≤ c.val ∧ c.val ≤ 0x20) ∨ c.val = 0x85 ∨ c.val = 0xA0 ∨
  c.val = 0x1680 ∨ (0x2000 ≤ c.val ∧ c.val ≤ 0x200A) ∨ c.val = 0x2028 ∨ c.val = 0x2029 ∨
  c.val = 0x202F ∨ c.val = 0x205F ∨ c.val = 0x3000

/-- `_UNSAFE_URL_BYTES_TO_REMOVE`: the tabs and line breaks that a URL loses wherever they stand. -/
def isUnsafeUrlChar (c : CodePoint) : Bool := c.val = 0x09 ∨ c.val = 0x0A ∨ c.val = 0x0D

/-- `s.lstrip(chars)`, the stripped set given as a predicate. -/
def lstrip (p : CodePoint → Bool) (s : Str) : Str := s.dropWhile p

/-- `s.rstrip(chars)`, the stripped set given as a predicate. -/
def rstrip (p : CodePoint → Bool) (s : Str) : Str := (s.reverse.dropWhile p).reverse

/-- `s.strip()`. -/
def strip (s : Str) : Str := rstrip isSpace (lstrip isSpace s)

/-! ## Searching -/

/-- `s.startswith(p)`. -/
def startsWith (s p : Str) : Bool := p.isPrefixOf s

/-- `s.endswith(p)`. -/
def endsWith (s p : Str) : Bool := p.isSuffixOf s

/-- `sub in s`, for strings. -/
def contains (sub : Str) : Str → Bool
  | [] => sub.isPrefixOf []
  | c :: s => sub.isPrefixOf (c :: s) || contains sub s

/-- `s.partition(c)`, with `none` when `c` does not occur. -/
def partition (c : CodePoint) : Str → Option (Str × Str)
  | [] => none
  | x :: s => if x = c then some ([], s) else (partition c s).map fun p => (x :: p.1, p.2)

/-- `s.rpartition(c)`, with `none` when `c` does not occur. -/
def rpartition (c : CodePoint) : Str → Option (Str × Str)
  | [] => none
  | x :: s =>
    match rpartition c s with
    | some p => some (x :: p.1, p.2)
    | none => if x = c then some ([], s) else none

/-- The text `s.partition(c)` returns first: everything when `c` does not occur. -/
def before (c : CodePoint) (s : Str) : Str := ((partition c s).map Prod.fst).getD s

/-- The text `s.rpartition(c)` returns last: everything when `c` does not occur. -/
def afterLast (c : CodePoint) (s : Str) : Str := ((rpartition c s).map Prod.snd).getD s

theorem startsWith_iff {s p : Str} : startsWith s p = true ↔ ∃ t, s = p ++ t := by
  rw [startsWith, List.isPrefixOf_iff_prefix]
  exact ⟨fun ⟨t, h⟩ => ⟨t, h.symm⟩, fun ⟨t, h⟩ => ⟨t, h.symm⟩⟩

@[simp] theorem startsWith_append (p t : Str) : startsWith (p ++ t) p = true :=
  startsWith_iff.mpr ⟨t, rfl⟩

theorem partition_eq_none_iff {c : CodePoint} {s : Str} : partition c s = none ↔ c ∉ s := by
  induction s with
  | nil => simp [partition]
  | cons x s ih =>
    rw [partition]
    split_ifs with h
    · simp [h]
    · simp only [Option.map_eq_none_iff, ih, List.mem_cons, not_or]
      exact ⟨fun hs => ⟨fun hc => h hc.symm, hs⟩, fun hs => hs.2⟩

/-- `partition` cuts at the first occurrence. -/
theorem partition_eq_some_iff {c : CodePoint} {s a b : Str} :
    partition c s = some (a, b) ↔ s = a ++ c :: b ∧ c ∉ a := by
  induction s generalizing a b with
  | nil => simp [partition]
  | cons x s ih =>
    rw [partition]
    split_ifs with h
    · subst h
      cases a with
      | nil => simp
      | cons y a =>
        simp only [Option.some.injEq, Prod.mk.injEq, reduceCtorEq, false_and, List.cons_append,
          List.cons.injEq, List.mem_cons, not_or, false_iff, not_and]
        rintro ⟨rfl, -⟩ hne
        exact absurd rfl hne
    · cases a with
      | nil => simp [h]
      | cons y a =>
        constructor
        · intro hp
          obtain ⟨⟨a', b'⟩, hq, hab⟩ := Option.map_eq_some_iff.mp hp
          simp only [Prod.mk.injEq, List.cons.injEq] at hab
          obtain ⟨⟨rfl, rfl⟩, rfl⟩ := hab
          obtain ⟨rfl, hn⟩ := ih.mp hq
          exact ⟨rfl, by simp [hn, Ne.symm h]⟩
        · rintro ⟨hs, hn⟩
          simp only [List.cons_append, List.cons.injEq] at hs
          obtain ⟨rfl, hs⟩ := hs
          rw [ih.mpr ⟨hs, fun hm => hn (List.mem_cons_of_mem _ hm)⟩]
          rfl

theorem partition_append_cons {c : CodePoint} {a b : Str} (h : c ∉ a) :
    partition c (a ++ c :: b) = some (a, b) :=
  partition_eq_some_iff.mpr ⟨rfl, h⟩

theorem before_of_not_mem {c : CodePoint} {s : Str} (h : c ∉ s) : before c s = s := by
  rw [before, partition_eq_none_iff.mpr h]
  rfl

theorem rpartition_eq_none_iff {c : CodePoint} {s : Str} : rpartition c s = none ↔ c ∉ s := by
  induction s with
  | nil => simp [rpartition]
  | cons x s ih =>
    rw [rpartition]
    cases hs : rpartition c s with
    | some p =>
      have hm : c ∈ s := by
        by_contra hn
        rw [ih.mpr hn] at hs
        cases hs
      simp [hm]
    | none =>
      have hn : c ∉ s := ih.mp hs
      simp only [ite_eq_right_iff, reduceCtorEq, imp_false, List.mem_cons, hn, or_false]
      exact ⟨fun h hc => h hc.symm, fun h hc => h hc.symm⟩

/-- `rpartition` cuts at the last occurrence. -/
theorem rpartition_eq_some_iff {c : CodePoint} {s a b : Str} :
    rpartition c s = some (a, b) ↔ s = a ++ c :: b ∧ c ∉ b := by
  induction s generalizing a b with
  | nil => simp [rpartition]
  | cons x s ih =>
    rw [rpartition]
    cases hs : rpartition c s with
    | some p =>
      obtain ⟨a', b'⟩ := p
      obtain ⟨hs', hn'⟩ := ih.mp hs
      have hmem : c ∈ s := by simp [hs']
      simp only [Option.some.injEq, Prod.mk.injEq]
      constructor
      · rintro ⟨rfl, rfl⟩
        exact ⟨by rw [hs']; rfl, hn'⟩
      · rintro ⟨he, hn⟩
        cases a with
        | nil =>
          simp only [List.nil_append, List.cons.injEq] at he
          exact absurd (he.2 ▸ hmem) hn
        | cons y a =>
          simp only [List.cons_append, List.cons.injEq] at he
          have := ih.mpr ⟨he.2, hn⟩
          rw [hs, Option.some.injEq, Prod.mk.injEq] at this
          exact ⟨by rw [this.1, he.1], this.2⟩
    | none =>
      have hn : c ∉ s := rpartition_eq_none_iff.mp hs
      simp only [Option.ite_none_right_eq_some, Option.some.injEq, Prod.mk.injEq]
      constructor
      · rintro ⟨rfl, rfl, rfl⟩
        exact ⟨rfl, hn⟩
      · rintro ⟨he, -⟩
        cases a with
        | nil =>
          simp only [List.nil_append, List.cons.injEq] at he
          exact ⟨he.1, rfl, he.2⟩
        | cons y a =>
          simp only [List.cons_append, List.cons.injEq] at he
          exact absurd (by simp [he.2]) hn

theorem rpartition_append_cons {c : CodePoint} {a b : Str} (h : c ∉ b) :
    rpartition c (a ++ c :: b) = some (a, b) :=
  rpartition_eq_some_iff.mpr ⟨rfl, h⟩

theorem afterLast_of_not_mem {c : CodePoint} {s : Str} (h : c ∉ s) : afterLast c s = s := by
  rw [afterLast, rpartition_eq_none_iff.mpr h]
  rfl

end Py
