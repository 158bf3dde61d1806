import EsphomeMcp.Python.Str

/-!
# Bytes and the text codecs

`bytes` are lists of numbers below 256. The codecs are the ones the models meet: `ascii`
and `utf-8` for encoding, and for decoding `utf-8` with the `strict`, `surrogatepass` and
`replace` error handlers, together with the UTF-16 and UTF-32 forms `json.loads` detects.

UTF-8 decoding is one scan that yields, for each maximal piece of the input, a code point
or a failure; the three error handlers read the same list differently.
-/

namespace Py

instance neZero_256 : NeZero 256 := ⟨by decide⟩

/-- One byte. -/
abbrev Byte := Fin 256

/-- Python `bytes`. -/
abbrev Bytes := List Byte

/-- A byte, reduced modulo 256. -/
def byte (n : ℕ) : Byte := Fin.ofNat 256 n

/-- A code point, reduced modulo `0x110000`. -/
def codePoint (n : ℕ) : CodePoint := Fin.ofNat 0x110000 n

/-- A UTF-16 high surrogate. -/
def isHighSurrogate (c : CodePoint) : Bool := 0xD800 ≤ c.val ∧ c.val ≤ 0xDBFF

/-- A UTF-16 low surrogate. -/
def isLowSurrogate (c : CodePoint) : Bool := 0xDC00 ≤ c.val ∧ c.val ≤ 0xDFFF

/-- A surrogate of either kind. -/
def isSurrogate (c : CodePoint) : Bool := 0xD800 ≤ c.val ∧ c.val ≤ 0xDFFF

/-- The supplementary code point a surrogate pair stands for. -/
def joinSurrogates (hi lo : ℕ) : CodePoint :=
  codePoint (0x10000 + (hi - 0xD800) * 0x400 + (lo - 0xDC00))

/-! ## ASCII -/

/-- `s.encode("ascii")`, with `none` for the `UnicodeEncodeError`. -/
def encodeAscii (s : Str) : Option Bytes :=
  s.mapM fun c => if isAscii c then some (byte c.val) else none

/-- `s.encode("ascii")` of a string known to be ASCII. -/
def asciiBytes (s : Str) : Bytes := s.map fun c => byte c.val

/-! ## UTF-8 -/

/-- The UTF-8 bytes of one code point, as the `surrogatepass` handler writes it. -/
def utf8Char (c : CodePoint) : Bytes :=
  if c.val < 0x80 then [byte c.val]
  else if c.val < 0x800 then [byte (0xC0 + c.val / 0x40), byte (0x80 + c.val % 0x40)]
  else if c.val < 0x10000 then
    [byte (0xE0 + c.val / 0x1000), byte (0x80 + c.val / 0x40 % 0x40), byte (0x80 + c.val % 0x40)]
  else
    [byte (0xF0 + c.val / 0x40000), byte (0x80 + c.val / 0x1000 % 0x40),
      byte (0x80 + c.val / 0x40 % 0x40), byte (0x80 + c.val % 0x40)]

/-- A string with no surrogates: what `s.encode("utf-8")` accepts. -/
def isUtf8Encodable (s : Str) : Bool := s.all fun c => !isSurrogate c

/-- `s.encode("utf-8")`, with `none` for the `UnicodeEncodeError` a surrogate raises. -/
def encodeUtf8 (s : Str) : Option Bytes :=
  if isUtf8Encodable s then some (s.flatMap utf8Char) else none

/-- A UTF-8 continuation byte. -/
def isCont (b : Byte) : Bool := 0x80 ≤ b.val ∧ b.val ≤ 0xBF

/-- A second byte that may follow the lead byte `a` of a three-byte sequence. -/
def isSecond3 (a b : Byte) : Bool :=
  isCont b && (a.val ≠ 0xE0 || 0xA0 ≤ b.val) && (a.val ≠ 0xED || b.val ≤ 0x9F)

/-- A second byte that may follow the lead byte `a` of a four-byte sequence. -/
def isSecond4 (a b : Byte) : Bool :=
  isCont b && (a.val ≠ 0xF0 || 0x90 ≤ b.val) && (a.val ≠ 0xF4 || b.val ≤ 0x8F)

/-- The code point a two-byte sequence encodes. -/
def fromUtf8₂ (a b : Byte) : CodePoint := codePoint ((a.val - 0xC0) * 0x40 + (b.val - 0x80))

/-- The code point a three-byte sequence encodes. -/
def fromUtf8₃ (a b c : Byte) : CodePoint :=
  codePoint ((a.val - 0xE0) * 0x1000 + (b.val - 0x80) * 0x40 + (c.val - 0x80))

/-- The code point a four-byte sequence encodes. -/
def fromUtf8₄ (a b c d : Byte) : CodePoint :=
  codePoint ((a.val - 0xF0) * 0x40000 + (b.val - 0x80) * 0x1000 + (c.val - 0x80) * 0x40 +
    (d.val - 0x80))

/-- The piece of UTF-8 input that starts with the byte `a`: its code point, or `none` when
it is ill formed, and how many bytes after `a` belong to it. With `pass`, an encoded
surrogate counts as well formed. -/
def utf8Head (pass : Bool) (a : Byte) (t : Bytes) : Option CodePoint × ℕ :=
  if a.val < 0x80 then (some (codePoint a.val), 0)
  else if 0xC2 ≤ a.val ∧ a.val ≤ 0xDF then
    match t with
    | b :: _ => if isCont b then (some (fromUtf8₂ a b), 1) else (none, 0)
    | [] => (none, 0)
  else if 0xE0 ≤ a.val ∧ a.val ≤ 0xEF then
    match t with
    | b :: c :: _ =>
      if isSecond3 a b then
        if isCont c then (some (fromUtf8₃ a b c), 2) else (none, 1)
      else if pass && a.val == 0xED && isCont b && isCont c then (some (fromUtf8₃ a b c), 2)
      else (none, 0)
    | [b] => (none, if isSecond3 a b then 1 else 0)
    | [] => (none, 0)
  else if 0xF0 ≤ a.val ∧ a.val ≤ 0xF4 then
    match t with
    | b :: c :: d :: _ =>
      if isSecond4 a b then
        if isCont c then
          if isCont d then (some (fromUtf8₄ a b c d), 3) else (none, 2)
        else (none, 1)
      else (none, 0)
    | [b, c] => (none, if isSecond4 a b then if isCont c then 2 else 1 else 0)
    | [b] => (none, if isSecond4 a b then 1 else 0)
    | [] => (none, 0)
  else (none, 0)

/-- UTF-8 decoding: a code point for each well-formed sequence and `none` for each maximal
ill-formed piece. The count is of bytes still to skip. -/
def utf8Scan (pass : Bool) : ℕ → Bytes → List (Option CodePoint)
  | _, [] => []
  | n + 1, _ :: t => utf8Scan pass n t
  | 0, a :: t => (utf8Head pass a t).1 :: utf8Scan pass (utf8Head pass a t).2 t

/-- `b.decode("utf-8")`, with `none` for the `UnicodeDecodeError`. -/
def decodeUtf8 (b : Bytes) : Option Str := (utf8Scan false 0 b).mapM id

/-- `b.decode("utf-8", "surrogatepass")`. -/
def decodeUtf8Pass (b : Bytes) : Option Str := (utf8Scan true 0 b).mapM id

/-- `b.decode("utf-8", "replace")`. -/
def decodeUtf8Replace (b : Bytes) : Str := (utf8Scan false 0 b).map fun c => c.getD (codePoint 0xFFFD)

/-! ## UTF-16 and UTF-32 -/

/-- The 16-bit units of a byte string, or `none` when a byte is left over. -/
def units16 (littleEndian : Bool) : Bytes → Option (List ℕ)
  | [] => some []
  | [_] => none
  | a :: b :: t =>
    (units16 littleEndian t).map fun us =>
      (if littleEndian then b.val * 256 + a.val else a.val * 256 + b.val) :: us

/-- Code points of 16-bit units, with unpaired surrogates passed through. -/
def join16 : List ℕ → Str
  | [] => []
  | [u] => [codePoint u]
  | u :: v :: t =>
    if 0xD800 ≤ u ∧ u ≤ 0xDBFF ∧ 0xDC00 ≤ v ∧ v ≤ 0xDFFF then joinSurrogates u v :: join16 t
    else codePoint u :: join16 (v :: t)

/-- `b.decode("utf-16-le" or "utf-16-be", "surrogatepass")`. -/
def decodeUtf16Pass (littleEndian : Bool) (b : Bytes) : Option Str :=
  (units16 littleEndian b).map join16

/-- `b.decode("utf-32-le" or "utf-32-be", "surrogatepass")`. -/
def decodeUtf32Pass (littleEndian : Bool) : Bytes → Option Str
  | [] => some []
  | a :: b :: c :: d :: t =>
    let n := if littleEndian then d.val * 0x1000000 + c.val * 0x10000 + b.val * 0x100 + a.val
      else a.val * 0x1000000 + b.val * 0x10000 + c.val * 0x100 + d.val
    if n < 0x110000 then (decodeUtf32Pass littleEndian t).map (codePoint n :: ·) else none
  | _ => none

/-! ## Hexadecimal text -/

/-- The white space `bytes.fromhex` skips. -/
def isAsciiSpace (c : CodePoint) : Bool := (0x09 ≤ c.val ∧ c.val ≤ 0x0D) ∨ c.val = 0x20

/-- `bytes.fromhex` from position `i`, with the position of the `ValueError`. -/
def fromHexFrom (i : ℕ) : Str → Except ℕ Bytes
  | [] => .ok []
  | [c] => if isAsciiSpace c then .ok [] else .error (if (hexDigitVal c).isSome then i + 1 else i)
  | c :: d :: s =>
    if isAsciiSpace c then fromHexFrom (i + 1) (d :: s)
    else
      match hexDigitVal c, hexDigitVal d with
      | some hi, some lo => (fromHexFrom (i + 2) s).map (byte (hi * 16 + lo) :: ·)
      | some _, none => .error (i + 1)
      | none, _ => .error i

/-- `bytes.fromhex(s)`. -/
def fromHex (s : Str) : Except ℕ Bytes := fromHexFrom 0 s

/-! ## ASCII through the codecs -/

@[simp] theorem byte_val {n : ℕ} (h : n < 256) : (byte n).val = n := Nat.mod_eq_of_lt h

@[simp] theorem codePoint_val {n : ℕ} (h : n < 0x110000) : (codePoint n).val = n :=
  Nat.mod_eq_of_lt h

theorem codePoint_fin (c : CodePoint) : codePoint c.val = c := Fin.ext (codePoint_val c.isLt)

/-- ASCII bytes decode to themselves, whatever the handling of surrogates. -/
theorem utf8Scan_ascii (pass : Bool) {s : Str} (h : ∀ c ∈ s, isAscii c) :
    utf8Scan pass 0 (s.map fun c => byte c.val) = s.map some := by
  induction s with
  | nil => rfl
  | cons c s ih =>
    have hc : c.val < 0x80 := by simpa [isAscii] using h c (by simp)
    have hb : (byte c.val).val = c.val := byte_val (by omega)
    have hhead (t : Bytes) : utf8Head pass (byte c.val) t = (some c, 0) := by
      rw [utf8Head.eq_def, hb, if_pos hc, codePoint_fin]
    rw [List.map_cons, utf8Scan, hhead, ih fun x hx => h x (List.mem_cons_of_mem _ hx)]
    rfl

theorem mapM_id_map_some {α : Type} (l : List α) : (l.map some).mapM id = some l := by
  induction l with
  | nil => rfl
  | cons a l ih => simp [ih]

theorem encodeAscii_eq_some {s : Str} (h : ∀ c ∈ s, isAscii c) :
    encodeAscii s = some (s.map fun c => byte c.val) := by
  induction s with
  | nil => rfl
  | cons c s ih =>
    have := ih fun x hx => h x (List.mem_cons_of_mem _ hx)
    simp only [encodeAscii] at this ⊢
    rw [List.mapM_cons, this, if_pos (h c (by simp))]
    rfl

/-- Only ASCII strings encode as ASCII. -/
theorem isAscii_of_encodeAscii {s : Str} {b : Bytes} (h : encodeAscii s = some b) :
    ∀ c ∈ s, isAscii c := by
  induction s generalizing b with
  | nil => intro c hc; cases hc
  | cons x s ih =>
    simp only [encodeAscii, List.mapM_cons] at h
    by_cases hx : isAscii x
    · simp only [hx, if_true, Option.bind_eq_bind, Option.bind_some] at h
      obtain ⟨t, ht, -⟩ := Option.bind_eq_some_iff.mp h
      intro c hc
      rcases List.mem_cons.mp hc with rfl | hc
      · exact hx
      · exact ih ht c hc
    · simp [hx] at h

/-- Equal ASCII encodings come from equal strings. -/
theorem encodeAscii_injective {s t : Str} {b : Bytes} (hs : encodeAscii s = some b)
    (ht : encodeAscii t = some b) : s = t := by
  have hs' := isAscii_of_encodeAscii hs
  have ht' := isAscii_of_encodeAscii ht
  rw [encodeAscii_eq_some hs', Option.some.injEq] at hs
  rw [encodeAscii_eq_some ht', Option.some.injEq] at ht
  have hdec : ∀ u : Str, (∀ c ∈ u, isAscii c) → (u.map fun c => byte c.val).map
      (fun x => codePoint x.val) = u := by
    intro u hu
    rw [List.map_map]
    refine (List.map_congr_left fun c hc => ?_).trans (List.map_id u)
    have hc' : c.val < 0x80 := by simpa [isAscii] using hu c hc
    simp only [Function.comp_apply, byte_val (show c.val < 256 by omega), codePoint_fin, id_eq]
  rw [← hdec s hs', ← hdec t ht', hs, ht]

theorem decodeUtf8_ascii {s : Str} (h : ∀ c ∈ s, isAscii c) :
    decodeUtf8 (s.map fun c => byte c.val) = some s := by
  rw [decodeUtf8, utf8Scan_ascii false h, mapM_id_map_some]

theorem decodeUtf8Pass_ascii {s : Str} (h : ∀ c ∈ s, isAscii c) :
    decodeUtf8Pass (s.map fun c => byte c.val) = some s := by
  rw [decodeUtf8Pass, utf8Scan_ascii true h, mapM_id_map_some]

end Py
