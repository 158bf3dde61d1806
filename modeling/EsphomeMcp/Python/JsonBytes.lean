import EsphomeMcp.Python.JsonRoundTrip

/-!
# JSON documents as bytes

`json.dumps(j).encode()` and what `json.loads` makes of it. With `ensure_ascii` the text has
printable ASCII characters only, so none of the encodings `json.loads` looks for is taken for
another, and the round trip of the text is the round trip of the bytes.
-/

namespace Py

/-- `json.dumps(j).encode()`. -/
def dumpsBytes (sty : JsonStyle) (j : Json) : Bytes := (dumpsText sty j).flatMap utf8Char

/-- A printable ASCII character. -/
def isPrintable (c : CodePoint) : Bool := 0x20 ≤ c.val ∧ c.val ≤ 0x7E

/-- What is printed in ASCII is ASCII. -/
theorem isAscii_of_isPrintable {c : CodePoint} (h : isPrintable c = true) : isAscii c = true := by
  simp only [isPrintable, isAscii, decide_eq_true_eq] at *
  omega

/-! ## The characters of a text -/

/-- A character of a number. -/
def isNumberChar (c : CodePoint) : Bool := isDigit c || isSign c || isExpMark c || c = ch '.'

theorem isPrintable_of_isDigit {c : CodePoint} (h : isDigit c = true) : isPrintable c = true := by
  simp only [isDigit, isPrintable, decide_eq_true_eq] at *
  omega

/-- The characters a number is written with are printable. -/
theorem isPrintable_of_isNumberChar {c : CodePoint} (h : isNumberChar c = true) :
    isPrintable c = true := by
  simp only [isNumberChar, isSign, isExpMark, Bool.or_eq_true, decide_eq_true_eq] at h
  rcases h with ((h | h) | h) | h
  · exact isPrintable_of_isDigit h
  · rcases h with rfl | rfl <;> decide
  · rcases h with rfl | rfl <;> decide
  · subst h
    decide

theorem isNumberChar_of_isDigit {c : CodePoint} (h : isDigit c = true) : isNumberChar c = true := by
  rw [isNumberChar, h, Bool.true_or, Bool.true_or, Bool.true_or]

theorem isNumberChar_takeWhile (s : Str) : ∀ c ∈ s.takeWhile isDigit, isNumberChar c = true :=
  fun _ hc => isNumberChar_of_isDigit (List.mem_takeWhile_imp hc)

/-- The digits the scanner takes for the integer part are characters of a number. -/
theorem isNumberChar_scanInt {s t r : Str} (h : scanInt s = some (t, r)) :
    ∀ c ∈ t, isNumberChar c = true := by
  unfold scanInt at h
  split at h
  · cases h
  · split_ifs at h with h0 hd
    · obtain ⟨rfl, -⟩ : [_] = t ∧ _ = r := by simpa using h
      intro c hc
      rw [List.mem_singleton.mp hc, h0]
      decide
    · obtain ⟨rfl, -⟩ : _ = t ∧ _ = r := by simpa using h
      exact List.forall_mem_cons.mpr ⟨isNumberChar_of_isDigit hd, isNumberChar_takeWhile _⟩

/-- So are those of a fraction, with the point in front of them. -/
theorem isNumberChar_scanFrac (s : Str) : ∀ c ∈ (scanFrac s).1, isNumberChar c = true := by
  unfold scanFrac
  split
  · split_ifs with h
    · simp only [List.forall_mem_cons]
      exact ⟨by rw [h.1]; decide, isNumberChar_of_isDigit h.2, isNumberChar_takeWhile _⟩
    · simp
  · simp

/-- And those of an exponent, with its letter and its sign. -/
theorem isNumberChar_scanExp (s : Str) : ∀ c ∈ (scanExp s).1, isNumberChar c = true := by
  have hmark {e : CodePoint} (h : isExpMark e = true) : isNumberChar e = true := by
    rw [isNumberChar, h, Bool.or_true, Bool.true_or]
  have hsign {e : CodePoint} (h : isSign e = true) : isNumberChar e = true := by
    rw [isNumberChar, h, Bool.or_true, Bool.true_or, Bool.true_or]
  unfold scanExp
  split
  · split_ifs with he hd hs
    · simp only [List.forall_mem_cons]
      exact ⟨hmark he, isNumberChar_of_isDigit hd, isNumberChar_takeWhile _⟩
    · split
      · split_ifs with hd'
        · simp only [List.forall_mem_cons]
          exact ⟨hmark he, hsign hs, isNumberChar_of_isDigit hd', isNumberChar_takeWhile _⟩
        · simp
      · simp
    · simp
    · simp
  · simp

/-- A float keeps the text it was read from, which has only characters of a number. -/
theorem isNumberChar_scanUnsigned {s t r : Str} (h : scanUnsigned s = some (.float t, r)) :
    ∀ c ∈ t, isNumberChar c = true := by
  obtain ⟨⟨i, u⟩, hi, h⟩ := Option.map_eq_some_iff.mp h
  simp only at h
  split_ifs at h
  · cases h
  · obtain ⟨rfl, -⟩ : i ++ (scanFrac u).1 ++ (scanExp (scanFrac u).2).1 = t ∧ _ = r := by
      simpa using h
    simp only [List.forall_mem_append]
    exact ⟨⟨isNumberChar_scanInt hi, isNumberChar_scanFrac u⟩, isNumberChar_scanExp _⟩

/-- The text of a float has the characters of a number only. -/
theorem isNumberChar_of_isFloatText {t : Str} (h : IsFloatText t) :
    ∀ c ∈ t, isNumberChar c = true := by
  rw [IsFloatText] at h
  cases t with
  | nil => cases h
  | cons d u =>
    rw [scanNumber] at h
    split_ifs at h with hd
    · obtain ⟨⟨n, r⟩, hn, h⟩ := Option.map_eq_some_iff.mp h
      cases n with
      | int _ => cases h
      | float v =>
        obtain ⟨⟨-, rfl⟩, -⟩ : (ch '-' = d ∧ v = u) ∧ r = [] := by simpa [Number.neg] using h
        refine List.forall_mem_cons.mpr ⟨by rw [hd]; decide, isNumberChar_scanUnsigned hn⟩
    · exact isNumberChar_scanUnsigned h

theorem isPrintable_unicodeEscape (n : ℕ) : ∀ c ∈ unicodeEscape n, isPrintable c = true := by
  have hdigit (m : ℕ) : isPrintable (hexDigit m) = true := by
    have hlt : m % 16 < 16 := Nat.mod_lt _ (by decide)
    have hall : ∀ k : Fin 16, isPrintable (hexDigit k) = true := by decide
    have := hall ⟨m % 16, hlt⟩
    unfold hexDigit at this ⊢
    simpa using this
  intro c hc
  simp only [unicodeEscape, List.mem_cons, List.not_mem_nil, or_false] at hc
  rcases hc with rfl | rfl | rfl | rfl | rfl | rfl
  · decide
  · decide
  · exact hdigit _
  · exact hdigit _
  · exact hdigit _
  · exact hdigit _

/-- Whatever the character, the text that stands for it in a string is printable. -/
theorem isPrintable_escapeChar (d : CodePoint) : ∀ c ∈ escapeChar d, isPrintable c = true := by
  unfold escapeChar
  by_cases hp : isPlain d = true
  · rw [if_pos hp]
    intro c hc
    rw [List.mem_singleton.mp hc]
    simp only [isPlain, isPrintable, decide_eq_true_eq] at *
    omega
  · rw [if_neg hp]
    split
    · next p hp =>
      have hmem := List.mem_of_find?_eq_some hp
      have hall := List.all_eq_true.mp (show shortEscapes.all (isPrintable ·.1) = true from rfl)
      simp only [List.forall_mem_cons]
      exact ⟨by decide, hall p hmem, by simp⟩
    · by_cases hc : d.val < 0x10000
      · rw [if_pos hc]
        exact isPrintable_unicodeEscape _
      · rw [if_neg hc]
        simp only [List.forall_mem_append]
        exact ⟨isPrintable_unicodeEscape _, isPrintable_unicodeEscape _⟩

/-- A string is dumped in printable ASCII, quotes included. -/
theorem isPrintable_dumpsStr (s : Str) : ∀ c ∈ dumpsStr s, isPrintable c = true := by
  simp only [dumpsStr, List.cons_append, List.forall_mem_cons, List.forall_mem_append]
  refine ⟨by decide, ?_, by decide, by simp⟩
  intro c hc
  obtain ⟨d, -, hd⟩ := List.mem_flatMap.mp hc
  exact isPrintable_escapeChar d c hd

theorem isPrintable_item (sty : JsonStyle) : ∀ c ∈ sty.item, isPrintable c = true := by
  cases sty <;> exact List.all_eq_true.mp rfl

theorem isPrintable_key (sty : JsonStyle) : ∀ c ∈ sty.key, isPrintable c = true := by
  cases sty <;> exact List.all_eq_true.mp rfl

/-- The items of a list, if each of them is. -/
theorem isPrintable_dumpsItems {sty : JsonStyle} {js : List Json}
    (h : ∀ j ∈ js, ∀ c ∈ dumpsText sty j, isPrintable c = true) :
    ∀ c ∈ dumpsItems sty js, isPrintable c = true := by
  induction js with
  | nil => exact List.all_eq_true.mp rfl
  | cons j js ih =>
    rw [List.forall_mem_cons] at h
    simp only [dumpsItems, List.forall_mem_append]
    exact ⟨⟨isPrintable_item sty, h.1⟩, ih h.2⟩

/-- The fields of an object, if each value is. -/
theorem isPrintable_dumpsFields {sty : JsonStyle} {fs : List (Str × Json)}
    (h : ∀ f ∈ fs, ∀ c ∈ dumpsText sty f.2, isPrintable c = true) :
    ∀ c ∈ dumpsFields sty fs, isPrintable c = true := by
  induction fs with
  | nil => exact List.all_eq_true.mp rfl
  | cons f fs ih =>
    rw [List.forall_mem_cons] at h
    simp only [dumpsFields, List.forall_mem_append]
    exact ⟨⟨⟨⟨isPrintable_item sty, isPrintable_dumpsStr f.1⟩, isPrintable_key sty⟩, h.1⟩,
      ih h.2⟩

section

variable [Runtime]

/-- `json.dumps` writes printable ASCII. -/
theorem isPrintable_dumpsText (sty : JsonStyle) {j : Json} (hwf : j.WellFormed) :
    ∀ c ∈ dumpsText sty j, isPrintable c = true := by
  induction hwf with
  | null => exact List.all_eq_true.mp rfl
  | bool b => cases b <;> exact List.all_eq_true.mp rfl
  | int n _ =>
    rw [dumpsText, intRepr]
    have hdigits : ∀ c ∈ natRepr n.natAbs, isPrintable c = true :=
      fun c hc => isPrintable_of_isDigit (isDigit_of_mem_natRepr hc)
    split_ifs
    · exact List.forall_mem_cons.mpr ⟨by decide, hdigits⟩
    · exact hdigits
  | float t ht =>
    rcases ht with ht | ht
    · simp only [floatConstants, List.mem_cons, List.not_mem_nil, or_false] at ht
      rcases ht with rfl | rfl | rfl <;> exact List.all_eq_true.mp rfl
    · exact fun c hc => isPrintable_of_isNumberChar (isNumberChar_of_isFloatText ht.1 c hc)
  | str s => exact isPrintable_dumpsStr s
  | arr items h ih =>
    cases items with
    | nil => exact List.all_eq_true.mp rfl
    | cons j js =>
      rw [List.forall_mem_cons] at ih
      simp only [dumpsText, List.cons_append, List.forall_mem_cons, List.forall_mem_append]
      exact ⟨by decide, ih.1, isPrintable_dumpsItems ih.2⟩
  | obj fields hk h ih =>
    cases fields with
    | nil => exact List.all_eq_true.mp rfl
    | cons f fs =>
      rw [List.forall_mem_cons] at ih
      simp only [dumpsText, List.cons_append, List.forall_mem_cons, List.forall_mem_append]
      exact ⟨by decide, ⟨⟨isPrintable_dumpsStr f.1, isPrintable_key sty⟩, ih.1⟩,
        isPrintable_dumpsFields ih.2⟩

end

/-! ## Reading the bytes -/

/-- In UTF-8 an ASCII character is one byte. -/
theorem flatMap_utf8Char_ascii {s : Str} (h : ∀ c ∈ s, isAscii c = true) :
    s.flatMap utf8Char = s.map fun c => byte c.val := by
  induction s with
  | nil => rfl
  | cons c s ih =>
    rw [List.forall_mem_cons] at h
    have hc : c.val < 0x80 := by simpa [isAscii] using h.1
    rw [List.flatMap_cons, List.map_cons, ih h.2, utf8Char, if_pos hc]
    rfl

set_option linter.auxLemma false in
/-- Bytes without a zero at the front and without a byte order mark are taken for UTF-8. -/
theorem decodeDetected_of_ne {x : Byte} {t : Bytes} (h0 : x ≠ 0) (hff : x ≠ 0xFF)
    (hfe : x ≠ 0xFE) (hef : x ≠ 0xEF) (ht : ∀ y ∈ t.head?, y ≠ 0) :
    decodeDetected (x :: t) = decodeUtf8Pass (x :: t) := by
  -- `split` does not come to an end on byte patterns: the cases are the ones of the matcher
  delta decodeDetected decodeDetected.match_1
  show dite (x = 0) _ _ = _
  rw [dif_neg h0, dif_neg hff, dif_neg hfe, dif_neg hef]
  rcases t with _ | ⟨y, _ | ⟨z, _ | ⟨w, t⟩⟩⟩
  · rfl
  · show (if x = 0 then _ else if y = 0 then _ else _) = _
    rw [if_neg h0, if_neg (ht y rfl)]
  · rfl
  · show (if x = 0 then _ else if y = 0 then _ else _) = _
    rw [if_neg h0, if_neg (ht y rfl)]

/-- Printable ASCII is taken for UTF-8. -/
theorem decodeDetected_printable {s : Str} (h : ∀ c ∈ s, isPrintable c = true) :
    decodeDetected (s.map fun c => byte c.val) = some s := by
  have hbyte {c : CodePoint} (hc : c ∈ s) {n : ℕ} (hn : n < 0x20 ∨ 0x7E < n) :
      (byte c.val).val ≠ n := by
    have hr := h c hc
    simp only [isPrintable, decide_eq_true_eq] at hr
    rw [byte_val (by omega)]
    omega
  have hne {c : CodePoint} (hc : c ∈ s) {b : Byte} (hb : b.val < 0x20 ∨ 0x7E < b.val) :
      byte c.val ≠ b := by
    rintro rfl
    exact hbyte hc hb rfl
  rw [← decodeUtf8Pass_ascii fun c hc => isAscii_of_isPrintable (h c hc)]
  cases s with
  | nil => rfl
  | cons c s =>
    rw [List.map_cons]
    have hc : c ∈ c :: s := List.mem_cons_self
    apply decodeDetected_of_ne (hne hc (by decide)) (hne hc (by decide)) (hne hc (by decide))
      (hne hc (by decide))
    intro y hy
    cases s with
    | nil => cases hy
    | cons d s =>
      obtain rfl : byte d.val = y := by simpa using hy
      exact hne (by simp) (by decide)

section

variable [Runtime]

/-- `json.loads(json.dumps(j).encode())` is `j` with its split surrogate pairs joined. -/
theorem loadsBytes_dumpsBytes (sty : JsonStyle) {j : Json} (hwf : j.WellFormed)
    (hd : j.depth ≤ recursionLimit) : loadsBytes (dumpsBytes sty j) = .ok j.rejoin := by
  have hp := isPrintable_dumpsText sty hwf
  rw [dumpsBytes, flatMap_utf8Char_ascii fun c hc => isAscii_of_isPrintable (hp c hc), loadsBytes,
    decodeDetected_printable hp]
  exact decodeJson_dumpsText sty hwf hd

end

end Py
