import EsphomeMcp.Python.Bytes

/-!
# Base64

`base64.urlsafe_b64encode` and `base64.urlsafe_b64decode`, and the unpadded form of both. The
decoder is `binascii.a2b_base64` with `strict_mode` off: characters outside the alphabet are
skipped, and a padding that completes a group ends the text.

Encoding goes by groups of three bytes and decoding by single characters, so the round trip is
one lemma for each length of the last group.
-/

namespace Py

/-! ## Encoding -/

/-- The base64url digit of a number below 64. -/
def b64Digit (n : ℕ) : CodePoint :=
  if n < 26 then codePoint (0x41 + n)
  else if n < 52 then codePoint (0x61 + (n - 26))
  else if n < 62 then codePoint (0x30 + (n - 52))
  else if n = 62 then ch '-'
  else ch '_'

/-- The digits of a byte string, without padding. -/
def b64Text : Bytes → Str
  | [] => []
  | [a] => [b64Digit (a.val / 4), b64Digit (a.val % 4 * 16)]
  | [a, b] =>
    [b64Digit (a.val / 4), b64Digit (a.val % 4 * 16 + b.val / 16), b64Digit (b.val % 16 * 4)]
  | a :: b :: c :: t =>
    b64Digit (a.val / 4) :: b64Digit (a.val % 4 * 16 + b.val / 16) ::
      b64Digit (b.val % 16 * 4 + c.val / 64) :: b64Digit (c.val % 64) :: b64Text t

/-- `base64.urlsafe_b64encode(raw)`, as text. -/
def urlsafeB64encode (raw : Bytes) : Str :=
  b64Text raw ++ List.replicate ((3 - raw.length % 3) % 3) (ch '=')

/-! ## Decoding -/

/-- The value of a base64 digit. `urlsafe_b64decode` turns `-_` into `+/` first, so the digits
of both alphabets count. -/
def b64Value (c : CodePoint) : Option ℕ :=
  if 0x41 ≤ c.val ∧ c.val ≤ 0x5A then some (c.val - 0x41)
  else if 0x61 ≤ c.val ∧ c.val ≤ 0x7A then some (c.val - 0x61 + 26)
  else if 0x30 ≤ c.val ∧ c.val ≤ 0x39 then some (c.val - 0x30 + 52)
  else if c = ch '-' ∨ c = ch '+' then some 62
  else if c = ch '_' ∨ c = ch '/' then some 63
  else none

/-- `binascii.a2b_base64`: `quad` digits of the current group are read, `left` are the bits not
yet written and `pads` the padding seen since the last digit. `none` is `binascii.Error`. -/
def a2bBase64 (quad left pads : ℕ) : Str → Option Bytes
  | [] => if quad = 0 then some [] else none
  | c :: s =>
    if c = ch '=' then
      if 2 ≤ quad then
        if 4 ≤ quad + (pads + 1) then some [] else a2bBase64 quad left (pads + 1) s
      else a2bBase64 quad left pads s
    else
      match b64Value c with
      | none => a2bBase64 quad left pads s
      | some v =>
        match quad with
        | 0 => a2bBase64 1 v 0 s
        | 1 => (a2bBase64 2 (v % 16) 0 s).map (byte (left * 4 + v / 16) :: ·)
        | 2 => (a2bBase64 3 (v % 4) 0 s).map (byte (left * 16 + v / 4) :: ·)
        | _ => (a2bBase64 0 0 0 s).map (byte (left * 64 + v) :: ·)

/-- `base64.urlsafe_b64decode(s)` of a string, with `none` for the `ValueError`: a string that
is not ASCII or that is not base64. -/
def urlsafeB64decode (s : Str) : Option Bytes :=
  if s.all isAscii then a2bBase64 0 0 0 s else none

/-! ## The alphabet -/

/-- A digit `urlsafe_b64encode` writes. -/
def isB64urlDigit (c : CodePoint) : Bool := isAlpha c || isDigit c || c = ch '-' || c = ch '_'

theorem b64Digit_spec : ∀ n : Fin 64,
    b64Value (b64Digit n) = some n.val ∧ isB64urlDigit (b64Digit n) = true := by
  decide

theorem b64Value_b64Digit {n : ℕ} (h : n < 64) : b64Value (b64Digit n) = some n :=
  (b64Digit_spec ⟨n, h⟩).1

theorem isB64urlDigit_b64Digit {n : ℕ} (h : n < 64) : isB64urlDigit (b64Digit n) = true :=
  (b64Digit_spec ⟨n, h⟩).2

/-- A digit is ASCII, and neither padding nor a dot. -/
theorem isB64urlDigit_spec {c : CodePoint} (h : isB64urlDigit c = true) :
    isAscii c = true ∧ c ≠ ch '=' ∧ c ≠ ch '.' := by
  have hrange : c.val < 0x80 ∧ c.val ≠ 0x3D ∧ c.val ≠ 0x2E := by
    simp only [isB64urlDigit, isAlpha, isDigit, Bool.or_eq_true, decide_eq_true_eq] at h
    rcases h with (((h | h) | h) | rfl) | rfl
    · omega
    · omega
    · omega
    · decide
    · decide
  refine ⟨by rw [isAscii, decide_eq_true_eq]; exact hrange.1, ?_, ?_⟩
  · rintro rfl
    exact hrange.2.1 rfl
  · rintro rfl
    exact hrange.2.2 rfl

theorem isB64urlDigit_b64Text (raw : Bytes) : ∀ c ∈ b64Text raw, isB64urlDigit c = true := by
  fun_induction b64Text raw with
  | case1 => simp
  | case2 a =>
    have ha := a.isLt
    simp only [List.forall_mem_cons]
    exact ⟨isB64urlDigit_b64Digit (by omega), isB64urlDigit_b64Digit (by omega), by simp⟩
  | case3 a b =>
    have ha := a.isLt
    have hb := b.isLt
    simp only [List.forall_mem_cons]
    exact ⟨isB64urlDigit_b64Digit (by omega), isB64urlDigit_b64Digit (by omega),
      isB64urlDigit_b64Digit (by omega), by simp⟩
  | case4 a b c t ih =>
    have ha := a.isLt
    have hb := b.isLt
    have hc := c.isLt
    simp only [List.forall_mem_cons]
    exact ⟨isB64urlDigit_b64Digit (by omega), isB64urlDigit_b64Digit (by omega),
      isB64urlDigit_b64Digit (by omega), isB64urlDigit_b64Digit (by omega), ih⟩

/-- Stripping the padding leaves the digits. -/
theorem rstrip_urlsafeB64encode (raw : Bytes) :
    rstrip (· = ch '=') (urlsafeB64encode raw) = b64Text raw := by
  have hdrop (n : ℕ) (s : Str) : (List.replicate n (ch '=') ++ s).dropWhile (· = ch '=')
      = s.dropWhile (· = ch '=') := by
    induction n with
    | zero => rfl
    | succ n ih => rw [List.replicate_succ, List.cons_append, List.dropWhile_cons_of_pos (by simp), ih]
  have hkeep : (b64Text raw).reverse.dropWhile (· = ch '=') = (b64Text raw).reverse := by
    cases hr : (b64Text raw).reverse with
    | nil => rfl
    | cons c s =>
      have hm : c ∈ b64Text raw := List.mem_reverse.mp (by simp [hr])
      have hne := (isB64urlDigit_spec (isB64urlDigit_b64Text raw c hm)).2.1
      rw [List.dropWhile_cons_of_neg (by simpa using hne)]
  rw [rstrip, urlsafeB64encode, List.reverse_append, List.reverse_replicate, hdrop, hkeep,
    List.reverse_reverse]

/-! ## The round trip -/

section

variable {n : ℕ} (h : n < 64)

include h

/-- A digit is read by its value. -/
theorem a2bBase64_digit (quad left pads : ℕ) (s : Str) :
    a2bBase64 quad left pads (b64Digit n :: s) =
      match quad with
      | 0 => a2bBase64 1 n 0 s
      | 1 => (a2bBase64 2 (n % 16) 0 s).map (byte (left * 4 + n / 16) :: ·)
      | 2 => (a2bBase64 3 (n % 4) 0 s).map (byte (left * 16 + n / 4) :: ·)
      | _ => (a2bBase64 0 0 0 s).map (byte (left * 64 + n) :: ·) := by
  have hne := (isB64urlDigit_spec (isB64urlDigit_b64Digit h)).2.1
  rw [a2bBase64, if_neg hne, b64Value_b64Digit h]

theorem a2bBase64_first (left pads : ℕ) (s : Str) :
    a2bBase64 0 left pads (b64Digit n :: s) = a2bBase64 1 n 0 s :=
  a2bBase64_digit h 0 left pads s

theorem a2bBase64_second (left pads : ℕ) (s : Str) : a2bBase64 1 left pads (b64Digit n :: s) =
    (a2bBase64 2 (n % 16) 0 s).map (byte (left * 4 + n / 16) :: ·) :=
  a2bBase64_digit h 1 left pads s

theorem a2bBase64_third (left pads : ℕ) (s : Str) : a2bBase64 2 left pads (b64Digit n :: s) =
    (a2bBase64 3 (n % 4) 0 s).map (byte (left * 16 + n / 4) :: ·) :=
  a2bBase64_digit h 2 left pads s

theorem a2bBase64_fourth (left pads : ℕ) (s : Str) : a2bBase64 3 left pads (b64Digit n :: s) =
    (a2bBase64 0 0 0 s).map (byte (left * 64 + n) :: ·) :=
  a2bBase64_digit h 3 left pads s

end

theorem byte_of_val {x : Byte} {n : ℕ} (h : n = x.val) : byte n = x := by
  subst h
  exact Fin.ext (byte_val x.isLt)

/-- The digits and the padding that completes the last group read back as the bytes. -/
theorem a2bBase64_b64Text (raw : Bytes) :
    a2bBase64 0 0 0 (b64Text raw ++ List.replicate ((3 - raw.length % 3) % 3) (ch '=')) =
      some raw := by
  fun_induction b64Text raw with
  | case1 => rfl
  | case2 a =>
    have ha := a.isLt
    show a2bBase64 0 0 0 (b64Digit (a.val / 4) :: b64Digit (a.val % 4 * 16) ::
      [ch '=', ch '=']) = some [a]
    rw [a2bBase64_first (by omega), a2bBase64_second (by omega),
      byte_of_val (x := a) (n := a.val / 4 * 4 + a.val % 4 * 16 / 16) (by omega)]
    rfl
  | case3 a b =>
    have ha := a.isLt
    have hb := b.isLt
    show a2bBase64 0 0 0 (b64Digit (a.val / 4) :: b64Digit (a.val % 4 * 16 + b.val / 16) ::
      b64Digit (b.val % 16 * 4) :: [ch '=']) = some [a, b]
    rw [a2bBase64_first (by omega), a2bBase64_second (by omega), a2bBase64_third (by omega),
      byte_of_val (x := a) (n := a.val / 4 * 4 + (a.val % 4 * 16 + b.val / 16) / 16) (by omega),
      byte_of_val (x := b) (n := (a.val % 4 * 16 + b.val / 16) % 16 * 16 + b.val % 16 * 4 / 4)
        (by omega)]
    rfl
  | case4 a b c t ih =>
    have ha := a.isLt
    have hb := b.isLt
    have hc := c.isLt
    have hlen : (a :: b :: c :: t).length % 3 = t.length % 3 := by
      simp only [List.length_cons]
      omega
    rw [hlen]
    simp only [List.cons_append]
    rw [a2bBase64_first (by omega), a2bBase64_second (by omega), a2bBase64_third (by omega),
      a2bBase64_fourth (by omega), ih, Option.map_some, Option.map_some, Option.map_some,
      byte_of_val (x := a) (n := a.val / 4 * 4 + (a.val % 4 * 16 + b.val / 16) / 16) (by omega),
      byte_of_val (x := b)
        (n := (a.val % 4 * 16 + b.val / 16) % 16 * 16 + (b.val % 16 * 4 + c.val / 64) / 4)
        (by omega),
      byte_of_val (x := c) (n := (b.val % 16 * 4 + c.val / 64) % 4 * 64 + c.val % 64) (by omega)]

/-- `urlsafe_b64decode(urlsafe_b64encode(raw)) == raw`. -/
theorem urlsafeB64decode_urlsafeB64encode (raw : Bytes) :
    urlsafeB64decode (urlsafeB64encode raw) = some raw := by
  have hascii : (urlsafeB64encode raw).all isAscii = true := by
    rw [urlsafeB64encode, List.all_append, Bool.and_eq_true, List.all_eq_true]
    refine ⟨fun c hc => (isB64urlDigit_spec (isB64urlDigit_b64Text raw c hc)).1, ?_⟩
    rw [List.all_eq_true]
    intro c hc
    rw [List.eq_of_mem_replicate hc]
    decide
  rw [urlsafeB64decode, if_pos hascii]
  exact a2bBase64_b64Text raw

theorem length_b64Text (raw : Bytes) :
    (b64Text raw).length + (3 - raw.length % 3) % 3 = (raw.length + 2) / 3 * 4 := by
  fun_induction b64Text raw with
  | case1 => rfl
  | case2 => simp
  | case3 => simp
  | case4 a b c t ih =>
    simp only [List.length_cons]
    omega

/-- The text determines the bytes. -/
theorem b64Text_injective : Function.Injective b64Text := by
  intro x y h
  have hlen : x.length % 3 = y.length % 3 := by
    have hx := length_b64Text x
    have hy := length_b64Text y
    rw [h] at hx
    omega
  have hx := a2bBase64_b64Text x
  rw [h, hlen, a2bBase64_b64Text y] at hx
  exact (Option.some.inj hx).symm

end Py
