import EsphomeMcp.Python.Bytes
import EsphomeMcp.Python.Number

/-!
# Decimal digits of any script

`\d` and `int()` know the decimal digits of all scripts. Which these are is a table of the
interpreter, taken from an instance of `DecimalDigits`; its ASCII part is fixed. `int()` and
`str()` refuse a number with more than `maxStrDigits` digits.
-/

namespace Py

/-- The decimal digits the interpreter knows. -/
class DecimalDigits where
  /-- `unicodedata.decimal(c)`. -/
  decimal : CodePoint → Option ℕ
  decimal_of_isDigit : ∀ c, isDigit c = true → decimal c = some (c.val - 0x30)
  decimal_of_isAscii : ∀ c, isAscii c = true → isDigit c = false → decimal c = none
  decimal_of_isSurrogate : ∀ c, isSurrogate c = true → decimal c = none

section

variable [DecimalDigits]

/-- `\d`. -/
def isDecimal (c : CodePoint) : Bool := (DecimalDigits.decimal c).isSome

/-- The value of a text of decimal digits. -/
def decimalsVal (s : Str) : ℕ :=
  Nat.ofDigits 10 (s.reverse.map fun c => (DecimalDigits.decimal c).getD 0)

/-- `int(s)` of decimal digits, with `none` for the `ValueError`. -/
def intOfDecimals (s : Str) : Option ℕ :=
  if s.length ≤ maxStrDigits then some (decimalsVal s) else none

theorem isDecimal_of_isDigit {c : CodePoint} (h : isDigit c = true) : isDecimal c = true := by
  rw [isDecimal, DecimalDigits.decimal_of_isDigit c h, Option.isSome_some]

theorem not_isDecimal_of_isAscii {c : CodePoint} (ha : isAscii c = true)
    (hd : isDigit c = false) : isDecimal c = false := by
  rw [isDecimal, DecimalDigits.decimal_of_isAscii c ha hd, Option.isSome_none]

theorem not_isSurrogate_of_isDecimal {c : CodePoint} (h : isDecimal c = true) :
    isSurrogate c = false := by
  by_contra hs
  rw [isDecimal, DecimalDigits.decimal_of_isSurrogate c (by simpa using hs)] at h
  exact absurd h nofun

theorem isDecimal_of_mem_natRepr {n : ℕ} {c : CodePoint} (h : c ∈ natRepr n) :
    isDecimal c = true := isDecimal_of_isDigit (isDigit_of_mem_natRepr h)

/-- Of ASCII digits the value is the one `digitsVal` computes. -/
theorem decimalsVal_eq_digitsVal {s : Str} (h : ∀ c ∈ s, isDigit c = true) :
    decimalsVal s = digitsVal s := by
  rw [decimalsVal, digitsVal]
  congr 1
  apply List.map_congr_left
  intro c hc
  rw [DecimalDigits.decimal_of_isDigit c (h c (List.mem_reverse.mp hc)), Option.getD_some]

end

/-- `str(n)` of a natural number, with `none` for the `ValueError`. -/
def strOfNat (n : ℕ) : Option Str :=
  if (natRepr n).length ≤ maxStrDigits then some (natRepr n) else none

/-- `int(str(n)) == n`. -/
theorem intOfDecimals_of_strOfNat [DecimalDigits] {n : ℕ} {s : Str} (h : strOfNat n = some s) :
    intOfDecimals s = some n := by
  rw [strOfNat] at h
  split_ifs at h with hlen
  obtain rfl := Option.some.inj h
  rw [intOfDecimals, if_pos hlen, decimalsVal_eq_digitsVal fun _ => isDigit_of_mem_natRepr,
    digitsVal_natRepr]

/-- The value of an ASCII digit. -/
def asciiDecimal (c : CodePoint) : Option ℕ := if isDigit c then some (c.val - 0x30) else none

theorem asciiDecimal_eq_none {c : CodePoint} (h : isDigit c = false) : asciiDecimal c = none :=
  if_neg (by rw [h]; exact Bool.false_ne_true)

theorem not_isDigit_of_isSurrogate {c : CodePoint} (h : isSurrogate c = true) :
    isDigit c = false := by
  rw [isSurrogate, decide_eq_true_eq] at h
  rw [isDigit, decide_eq_false_iff_not]
  omega

/-- An interpreter that knows the ASCII digits only. -/
@[reducible] def asciiDigits : DecimalDigits where
  decimal := asciiDecimal
  decimal_of_isDigit _ h := if_pos h
  decimal_of_isAscii _ _ h := asciiDecimal_eq_none h
  decimal_of_isSurrogate _ h := asciiDecimal_eq_none (not_isDigit_of_isSurrogate h)

end Py
