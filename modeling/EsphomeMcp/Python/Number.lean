import EsphomeMcp.Python.Str
import Mathlib.Data.List.TakeWhile

/-!
# JSON numbers

The number grammar of the `json` scanner: an optional sign, an integer part without
superfluous zeros, and an optional fraction and exponent. A fraction or an exponent makes
the number a float, and a `.` or `e` that no digit follows is left in the input.

Every scanner here is insensitive to what follows the number, as long as it cannot
continue it (`StopsNumber`); this is what lets a serialised number be read back from the
middle of a document.
-/

namespace Py

/-- What the scanner recognised: the text of an integer or of a float. -/
inductive Number where
  | int (text : Str)
  | float (text : Str)
deriving DecidableEq

/-- The integer part: `0`, or digits that do not start with `0`. -/
def scanInt : Str → Option (Str × Str)
  | [] => none
  | c :: s =>
    if c = ch '0' then some ([c], s)
    else if isDigit c then some (c :: s.takeWhile isDigit, s.dropWhile isDigit)
    else none

/-- The fraction: a `.` and at least one digit, or nothing. -/
def scanFrac : Str → Str × Str
  | c :: d :: s =>
    if c = ch '.' ∧ isDigit d then (c :: d :: s.takeWhile isDigit, s.dropWhile isDigit)
    else ([], c :: d :: s)
  | s => ([], s)

/-- `+` or `-`. -/
def isSign (c : CodePoint) : Bool := c = ch '+' ∨ c = ch '-'

/-- `e` or `E`. -/
def isExpMark (c : CodePoint) : Bool := c = ch 'e' ∨ c = ch 'E'

/-- The exponent: an `e`, an optional sign and at least one digit, or nothing. -/
def scanExp : Str → Str × Str
  | e :: d :: t =>
    if isExpMark e then
      if isDigit d then (e :: d :: t.takeWhile isDigit, t.dropWhile isDigit)
      else if isSign d then
        match t with
        | d' :: u =>
          if isDigit d' then (e :: d :: d' :: u.takeWhile isDigit, u.dropWhile isDigit)
          else ([], e :: d :: d' :: u)
        | [] => ([], [e, d])
      else ([], e :: d :: t)
    else ([], e :: d :: t)
  | s => ([], s)

/-- An unsigned number. -/
def scanUnsigned (s : Str) : Option (Number × Str) :=
  (scanInt s).map fun p =>
    let f := scanFrac p.2
    let e := scanExp f.2
    if f.1 = [] ∧ e.1 = [] then (.int p.1, e.2) else (.float (p.1 ++ f.1 ++ e.1), e.2)

/-- The same number with a minus sign in front. -/
def Number.neg : Number → Number
  | .int t => .int (ch '-' :: t)
  | .float t => .float (ch '-' :: t)

/-- `_match_number`: a number at the start of the text. -/
def scanNumber : Str → Option (Number × Str)
  | [] => none
  | c :: s =>
    if c = ch '-' then (scanUnsigned s).map fun p => (p.1.neg, p.2) else scanUnsigned (c :: s)

/-- The text of a float, all of it. -/
def IsFloatText (t : Str) : Prop := scanNumber t = some (.float t, [])

instance (t : Str) : Decidable (IsFloatText t) := inferInstanceAs (Decidable (_ = _))

/-- The value of an integer's text. -/
def intVal : Str → ℤ
  | [] => 0
  | c :: s => if c = ch '-' then -(digitsVal s : ℤ) else (digitsVal (c :: s) : ℤ)

/-- `str(n)` of an integer. -/
def intRepr (n : ℤ) : Str :=
  if n < 0 then ch '-' :: natRepr n.natAbs else natRepr n.natAbs

/-- The longest decimal text `int()` and `str()` convert. -/
def maxStrDigits : ℕ := 4300

/-! ## What may follow a number -/

/-- The text does not start with a character that could continue a number. -/
def StopsNumber (s : Str) : Prop :=
  ∀ c ∈ s.head?, isDigit c = false ∧ isSign c = false ∧ isExpMark c = false ∧ c ≠ ch '.'

theorem stopsNumber_nil : StopsNumber [] := by simp [StopsNumber]

theorem StopsNumber.takeWhile {s rest : Str} (h : StopsNumber rest) :
    (s ++ rest).takeWhile isDigit = s.takeWhile isDigit := by
  induction s with
  | nil =>
    cases rest with
    | nil => rfl
    | cons c r => simp [(h c rfl).1]
  | cons c s ih =>
    rw [List.cons_append, List.takeWhile_cons, List.takeWhile_cons, ih]

theorem StopsNumber.dropWhile {s rest : Str} (h : StopsNumber rest) :
    (s ++ rest).dropWhile isDigit = s.dropWhile isDigit ++ rest := by
  induction s with
  | nil =>
    cases rest with
    | nil => rfl
    | cons c r => simp [(h c rfl).1]
  | cons c s ih =>
    rw [List.cons_append, List.dropWhile_cons, List.dropWhile_cons, ih]
    split_ifs <;> rfl

theorem scanInt_append {s rest a r : Str} (h : StopsNumber rest) (hs : scanInt s = some (a, r)) :
    scanInt (s ++ rest) = some (a, r ++ rest) := by
  cases s with
  | nil => simp [scanInt] at hs
  | cons c s =>
    rw [List.cons_append]
    simp only [scanInt, h.takeWhile, h.dropWhile] at hs ⊢
    split_ifs at hs ⊢ <;> simp_all

theorem scanFrac_append {s rest : Str} (h : StopsNumber rest) :
    scanFrac (s ++ rest) = ((scanFrac s).1, (scanFrac s).2 ++ rest) := by
  match s with
  | [] =>
    match rest with
    | [] => rfl
    | [_] => rfl
    | c :: d :: t =>
      have hc := (h c rfl).2.2.2
      simp [scanFrac, hc]
  | [c] =>
    match rest with
    | [] => rfl
    | d :: t =>
      have hd := (h d rfl).1
      simp [scanFrac, hd]
  | c :: d :: s =>
    simp only [List.cons_append, scanFrac, h.takeWhile, h.dropWhile]
    split_ifs <;> rfl

theorem scanExp_append {s rest : Str} (h : StopsNumber rest) :
    scanExp (s ++ rest) = ((scanExp s).1, (scanExp s).2 ++ rest) := by
  match s with
  | [] =>
    match rest with
    | [] => rfl
    | [_] => rfl
    | c :: d :: t =>
      have hc := (h c rfl).2.2.1
      simp [scanExp, hc]
  | [c] =>
    match rest with
    | [] => rfl
    | d :: t =>
      have hd := (h d rfl).1
      have hs := (h d rfl).2.1
      simp [scanExp, hd, hs]
  | [c, d] =>
    match rest with
    | [] => simp [scanExp]
    | e :: t =>
      have he := (h e rfl).1
      have htake := h.takeWhile (s := [])
      have hdrop := h.dropWhile (s := [])
      simp only [List.nil_append, List.takeWhile_nil, List.dropWhile_nil] at htake hdrop
      simp only [List.cons_append, List.nil_append, scanExp, htake, hdrop, he,
        List.takeWhile_nil, List.dropWhile_nil]
      split_ifs <;> simp_all
  | c :: d :: e :: s =>
    have htake := h.takeWhile (s := e :: s)
    have hdrop := h.dropWhile (s := e :: s)
    rw [List.cons_append] at htake hdrop
    simp only [List.cons_append, scanExp, htake, hdrop, h.takeWhile (s := s), h.dropWhile (s := s)]
    split_ifs <;> rfl

/-- A number is read the same in front of anything that cannot continue it. -/
theorem scanUnsigned_append {s rest r : Str} {n : Number} (h : StopsNumber rest)
    (hs : scanUnsigned s = some (n, r)) : scanUnsigned (s ++ rest) = some (n, r ++ rest) := by
  obtain ⟨⟨a, b⟩, hi, hn⟩ := Option.map_eq_some_iff.mp hs
  rw [scanUnsigned, scanInt_append h hi, Option.map_some]
  simp only [scanFrac_append h, scanExp_append h] at hn ⊢
  split_ifs at hn ⊢ <;> simp_all

theorem scanNumber_append {s rest r : Str} {n : Number} (h : StopsNumber rest)
    (hs : scanNumber s = some (n, r)) : scanNumber (s ++ rest) = some (n, r ++ rest) := by
  cases s with
  | nil => simp [scanNumber] at hs
  | cons c s =>
    simp only [List.cons_append, scanNumber] at hs ⊢
    split_ifs at hs ⊢
    · obtain ⟨⟨m, b⟩, hm, he⟩ := Option.map_eq_some_iff.mp hs
      rw [scanUnsigned_append h hm, Option.map_some]
      simp_all
    · rw [← List.cons_append, scanUnsigned_append h hs]

/-! ## Integers read back -/

/-- `str(n)` of a positive number does not start with `0`. -/
theorem head_natRepr {n : ℕ} (h : n ≠ 0) :
    ∃ c s, natRepr n = c :: s ∧ c ≠ ch '0' ∧ isDigit c = true := by
  have hne : Nat.digits 10 n ≠ [] := Nat.digits_ne_nil_iff_ne_zero.mpr h
  rw [natRepr, if_neg h, ← List.dropLast_append_getLast hne, List.reverse_append]
  refine ⟨digitChar ((Nat.digits 10 n).getLast hne), _, rfl, ?_, isDigit_digitChar _⟩
  have hlast : (Nat.digits 10 n).getLast hne ≠ 0 := Nat.getLast_digit_ne_zero 10 h
  have hlt : (Nat.digits 10 n).getLast hne < 10 :=
    Nat.digits_lt_base (by norm_num) (List.getLast_mem hne)
  intro hc
  have := congrArg Fin.val hc
  simp only [digitChar, ch, Char.reduceToNat] at this
  omega

theorem takeWhile_isDigit_eq_self {s : Str} (h : ∀ c ∈ s, isDigit c = true) :
    s.takeWhile isDigit = s ∧ s.dropWhile isDigit = [] :=
  ⟨List.takeWhile_eq_self_iff.mpr h, List.dropWhile_eq_nil_iff.mpr h⟩

theorem scanInt_natRepr (n : ℕ) : scanInt (natRepr n) = some (natRepr n, []) := by
  by_cases h : n = 0
  · subst h
    decide
  · obtain ⟨c, s, hs, hc, hd⟩ := head_natRepr h
    have hall : ∀ x ∈ s, isDigit x = true := fun x hx =>
      isDigit_of_mem_natRepr (n := n) (by rw [hs]; exact List.mem_cons_of_mem _ hx)
    obtain ⟨ht, hdr⟩ := takeWhile_isDigit_eq_self hall
    rw [hs, scanInt, if_neg hc, if_pos hd, ht, hdr]

theorem scanUnsigned_natRepr (n : ℕ) : scanUnsigned (natRepr n) = some (.int (natRepr n), []) := by
  rw [scanUnsigned, scanInt_natRepr]
  rfl

/-- `str(n)` is read as the integer it is. -/
theorem scanNumber_intRepr (n : ℤ) : scanNumber (intRepr n) = some (.int (intRepr n), []) := by
  unfold intRepr
  split_ifs with h
  · rw [scanNumber, if_pos rfl, scanUnsigned_natRepr]
    rfl
  · obtain ⟨c, s, hs⟩ := List.exists_cons_of_ne_nil (natRepr_ne_nil n.natAbs)
    have hc : isDigit c = true := isDigit_of_mem_natRepr (n := n.natAbs) (by simp [hs])
    have hne : c ≠ ch '-' := by
      rintro rfl
      exact absurd hc (by decide)
    rw [← scanUnsigned_natRepr, hs, scanNumber, if_neg hne]

/-- `int(str(n)) == n`. -/
theorem intVal_intRepr (n : ℤ) : intVal (intRepr n) = n := by
  unfold intRepr
  split_ifs with h
  · rw [intVal, if_pos rfl, digitsVal_natRepr]
    omega
  · obtain ⟨c, s, hs⟩ := List.exists_cons_of_ne_nil (natRepr_ne_nil n.natAbs)
    have hc : isDigit c = true := isDigit_of_mem_natRepr (n := n.natAbs) (by simp [hs])
    have hne : c ≠ ch '-' := by
      rintro rfl
      exact absurd hc (by decide)
    have hval : intVal (natRepr n.natAbs) = (digitsVal (natRepr n.natAbs) : ℤ) := by
      rw [hs, intVal, if_neg hne]
    rw [hval, digitsVal_natRepr]
    omega

/-! ## Integers short enough to convert -/

theorem digitsVal_lt (s : Str) (h : ∀ c ∈ s, isDigit c = true) : digitsVal s < 10 ^ s.length := by
  rw [digitsVal, ← List.length_reverse, ← @List.length_map _ _ s.reverse]
  refine Nat.ofDigits_lt_base_pow_length (by norm_num) fun d hd => ?_
  obtain ⟨c, hc, rfl⟩ := List.mem_map.mp hd
  have := h c (List.mem_reverse.mp hc)
  rw [isDigit, decide_eq_true_eq] at this
  omega

theorem length_natRepr_le {n k : ℕ} (hk : 0 < k) (h : n < 10 ^ k) : (natRepr n).length ≤ k := by
  unfold natRepr
  split_ifs with h0
  · exact hk
  · rw [List.length_map, List.length_reverse]
    exact (Nat.digits_length_le_iff (by norm_num) n).mpr h

theorem scanInt_digits {s a r : Str} (h : scanInt s = some (a, r)) :
    a ≠ [] ∧ ∀ c ∈ a, isDigit c = true := by
  cases s with
  | nil => simp [scanInt] at h
  | cons c s =>
    rw [scanInt] at h
    split_ifs at h with h0 hd
    · obtain ⟨rfl, -⟩ : [c] = a ∧ s = r := by simpa using h
      exact ⟨by simp, by simpa [h0] using (by decide : isDigit (ch '0') = true)⟩
    · obtain ⟨rfl, -⟩ : c :: s.takeWhile isDigit = a ∧ s.dropWhile isDigit = r := by simpa using h
      exact ⟨by simp, List.forall_mem_cons.mpr ⟨hd, fun x hx => List.mem_takeWhile_imp hx⟩⟩

theorem scanUnsigned_digits {s t r : Str} (h : scanUnsigned s = some (.int t, r)) :
    t ≠ [] ∧ ∀ c ∈ t, isDigit c = true := by
  obtain ⟨⟨a, b⟩, ha, hn⟩ := Option.map_eq_some_iff.mp h
  simp only at hn
  split_ifs at hn
  · obtain ⟨rfl, -⟩ : a = t ∧ _ := by simpa using hn
    exact scanInt_digits ha
  · simp at hn

/-- An integer read from a text of at most `k` digits is written in at most `k` digits. -/
theorem length_natRepr_intVal {s t r : Str} {k : ℕ} (hs : scanNumber s = some (.int t, r))
    (hlen : (t.filter isDigit).length ≤ k) : (natRepr (intVal t).natAbs).length ≤ k := by
  have hdigits {u : Str} (hne : u ≠ []) (hu : ∀ c ∈ u, isDigit c = true) (hk : u.length ≤ k) :
      (natRepr (digitsVal u)).length ≤ k := by
    refine (length_natRepr_le (List.length_pos_iff.mpr hne) (digitsVal_lt u hu)).trans hk
  cases s with
  | nil => simp [scanNumber] at hs
  | cons c s =>
    rw [scanNumber] at hs
    split_ifs at hs with hc
    · obtain ⟨⟨n, b⟩, hn, he⟩ := Option.map_eq_some_iff.mp hs
      cases n with
      | float u => simp [Number.neg] at he
      | int u =>
        obtain ⟨rfl, -⟩ : ch '-' :: u = t ∧ b = r := by simpa [Number.neg] using he
        obtain ⟨hne, hu⟩ := scanUnsigned_digits hn
        rw [List.filter_cons, if_neg (by decide), List.filter_eq_self.mpr hu] at hlen
        rw [intVal, if_pos rfl, Int.natAbs_neg, Int.natAbs_natCast]
        exact hdigits hne hu hlen
    · obtain ⟨hne, hu⟩ := scanUnsigned_digits hs
      rw [List.filter_eq_self.mpr hu] at hlen
      obtain ⟨d, u, rfl⟩ := List.exists_cons_of_ne_nil hne
      have hd : d ≠ ch '-' := by
        rintro rfl
        exact absurd (hu _ List.mem_cons_self) (by decide)
      rw [intVal, if_neg hd, Int.natAbs_natCast]
      exact hdigits hne hu hlen

end Py
