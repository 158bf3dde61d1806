import EsphomeMcp.Python.Bytes
import EsphomeMcp.Python.Runtime

/-!
# JSON texts

`json.dumps` and `json.loads` as CPython computes them.

* Writing: ASCII only, two separator styles, `\uXXXX` escapes in surrogate pairs.
* Reading: the C scanner, with its recursion limit, its limit on the digits of an integer,
  the `NaN` and `Infinity` constants a caller may refuse, and the detection of the encoding
  of a byte string. Adjacent `\uXXXX` escapes of a high and a low surrogate are joined.

The loops over items and members take the length of the text as fuel; every turn consumes
at least one character.
-/

namespace Py

/-- How reading a JSON text fails. -/
inductive JsonError where
  /-- `ValueError`: malformed text, `JSONDecodeError` and `UnicodeDecodeError` included. -/
  | value
  /-- `RecursionError`. -/
  | recursion
deriving DecidableEq

/-! ## Writing -/

/-- One hexadecimal digit in lower case, of a number reduced modulo 16. -/
def hexDigit (n : ℕ) : CodePoint :=
  if n % 16 < 10 then codePoint (0x30 + n % 16) else codePoint (0x61 + (n % 16 - 10))

/-- The escape `\uXXXX` of a 16-bit unit. -/
def unicodeEscape (n : ℕ) : Str :=
  [ch '\\', ch 'u', hexDigit (n / 0x1000), hexDigit (n / 0x100), hexDigit (n / 0x10), hexDigit n]

/-- The two-character escapes: the letter after the backslash and what it stands for. -/
def shortEscapes : List (CodePoint × CodePoint) :=
  [(ch '"', ch '"'), (ch '\\', ch '\\'), (ch 'n', codePoint 0x0A), (ch 'r', codePoint 0x0D),
    (ch 't', codePoint 0x09), (ch 'f', codePoint 0x0C), (ch 'b', codePoint 0x08)]

/-- A character that stands for itself inside a string. -/
def isPlain (c : CodePoint) : Bool :=
  0x20 ≤ c.val ∧ c.val ≤ 0x7E ∧ c ≠ ch '"' ∧ c ≠ ch '\\'

/-- A character as `json.dumps` writes it inside a string. -/
def escapeChar (c : CodePoint) : Str :=
  if isPlain c then [c]
  else match shortEscapes.find? (·.2 = c) with
    | some p => [ch '\\', p.1]
    | none =>
      if c.val < 0x10000 then unicodeEscape c.val
      else unicodeEscape (0xD800 + (c.val - 0x10000) / 0x400) ++
        unicodeEscape (0xDC00 + (c.val - 0x10000) % 0x400)

/-- A string with its quotes. -/
def dumpsStr (s : Str) : Str := ch '"' :: s.flatMap escapeChar ++ [ch '"']

/-- The separators of `json.dumps`: `separators=(",", ":")`, or the default ones. -/
inductive JsonStyle where
  | compact
  | spaced

/-- Between two items. -/
def JsonStyle.item : JsonStyle → Str
  | compact => [ch ',']
  | spaced => [ch ',', ch ' ']

/-- Between a key and its value. -/
def JsonStyle.key : JsonStyle → Str
  | compact => [ch ':']
  | spaced => [ch ':', ch ' ']

mutual

/-- The text of a value. -/
def dumpsText (sty : JsonStyle) : Json → Str
  | .null => str "null"
  | .bool true => str "true"
  | .bool false => str "false"
  | .int n => intRepr n
  | .float t => t
  | .str s => dumpsStr s
  | .arr [] => [ch '[', ch ']']
  | .arr (j :: js) => ch '[' :: dumpsText sty j ++ dumpsItems sty js
  | .obj [] => [ch '{', ch '}']
  | .obj ((k, j) :: fs) =>
    ch '{' :: dumpsStr k ++ sty.key ++ dumpsText sty j ++ dumpsFields sty fs

/-- The items after the first, and the closing bracket. -/
def dumpsItems (sty : JsonStyle) : List Json → Str
  | [] => [ch ']']
  | j :: js => sty.item ++ dumpsText sty j ++ dumpsItems sty js

/-- The members after the first, and the closing brace. -/
def dumpsFields (sty : JsonStyle) : List (Str × Json) → Str
  | [] => [ch '}']
  | (k, j) :: fs =>
    sty.item ++ dumpsStr k ++ sty.key ++ dumpsText sty j ++ dumpsFields sty fs

end

namespace Json

mutual

/-- How deeply lists and dicts are nested. -/
def depth : Json → ℕ
  | arr items => depthItems items + 1
  | obj fields => depthFields fields + 1
  | _ => 0

/-- The deepest item. -/
def depthItems : List Json → ℕ
  | [] => 0
  | j :: js => max (depth j) (depthItems js)

/-- The deepest member. -/
def depthFields : List (Str × Json) → ℕ
  | [] => 0
  | (_, j) :: fs => max (depth j) (depthFields fs)

end

end Json

/-! ## Reading strings -/

/-- A unit of a JSON string: a character as written, or a `\uXXXX` escape. -/
inductive StrUnit where
  | raw (c : CodePoint)
  | esc (n : ℕ)
deriving DecidableEq

/-- Where the string scanner is: in plain text, after a backslash, or inside a `\uXXXX`
escape with digits still to come and the value so far. -/
inductive StrState where
  | text
  | escape
  | hex (left value : ℕ)

/-- What a letter after a backslash stands for. -/
def unescape (c : CodePoint) : Option CodePoint :=
  if c = ch '/' then some c else (shortEscapes.find? (·.1 = c)).map Prod.snd

/-- `scanstring`: the units up to the closing quote and the text after it. -/
def scanString : StrState → Str → Option (List StrUnit × Str)
  | _, [] => none
  | .text, c :: s =>
    if c = ch '"' then some ([], s)
    else if c = ch '\\' then scanString .escape s
    else if c.val < 0x20 then none
    else (scanString .text s).map fun p => (.raw c :: p.1, p.2)
  | .escape, c :: s =>
    if c = ch 'u' then scanString (.hex 3 0) s
    else match unescape c with
      | some x => (scanString .text s).map fun p => (.raw x :: p.1, p.2)
      | none => none
  | .hex left value, c :: s =>
    match hexDigitVal c with
    | none => none
    | some d =>
      match left with
      | 0 => (scanString .text s).map fun p => (.esc (value * 16 + d) :: p.1, p.2)
      | left + 1 => scanString (.hex left (value * 16 + d)) s

/-- The units of a string put together, an escaped surrogate pair as one code point. -/
def joinUnits : List StrUnit → Str
  | [] => []
  | .raw c :: us => c :: joinUnits us
  | [.esc n] => [codePoint n]
  | .esc n :: .raw c :: us => codePoint n :: c :: joinUnits us
  | .esc n :: .esc m :: us =>
    if isHighSurrogate (codePoint n) && isLowSurrogate (codePoint m) then
      joinSurrogates n m :: joinUnits us
    else codePoint n :: joinUnits (.esc m :: us)

/-! ## Reading values -/

/-- JSON white space. -/
def isJsonSpace (c : CodePoint) : Bool :=
  c = ch ' ' ∨ c.val = 0x09 ∨ c.val = 0x0A ∨ c.val = 0x0D

/-- The text after leading white space. -/
def skipSpace (s : Str) : Str := s.dropWhile isJsonSpace

/-- The named constants, without `NaN` and the infinities when the caller refuses them. -/
def keywords (strict : Bool) : List (Str × Json) :=
  [(str "null", .null), (str "true", .bool true), (str "false", .bool false)] ++
    if strict then [] else floatConstants.map fun t => (t, .float t)

/-- A named constant at the start of the text. -/
def scanKeyword (strict : Bool) (s : Str) : Option (Json × Str) :=
  (keywords strict).findSome? fun p =>
    if startsWith s p.1 then some (p.2, s.drop p.1.length) else none

section

variable [Runtime]

/-- The value of a number, unless it is an integer too long to convert. -/
def numberValue : Number → Except JsonError Json
  | .int t =>
    if (t.filter isDigit).length ≤ maxStrDigits then .ok (.int (intVal t)) else .error .value
  | .float t => .ok (.float (floatText t))

/-- A value that is no list and no dict. -/
def scanScalar (strict : Bool) (s : Str) : Except JsonError (Json × Str) :=
  match s with
  | [] => .error .value
  | c :: t =>
    if c = ch '"' then
      match scanString .text t with
      | some p => .ok (.str (joinUnits p.1), p.2)
      | none => .error .value
    else match scanKeyword strict s with
      | some p => .ok p
      | none =>
        match scanNumber s with
        | some p => (numberValue p.1).map fun j => (j, p.2)
        | none => .error .value

/-- The items of a list from the first one on, through the closing bracket. -/
def scanItems (value : Str → Except JsonError (Json × Str)) :
    ℕ → Str → Except JsonError (List Json × Str)
  | 0, _ => .error .value
  | fuel + 1, s => do
    let p ← value s
    match skipSpace p.2 with
    | [] => .error .value
    | c :: t =>
      if c = ch ']' then .ok ([p.1], t)
      else if c = ch ',' then do
        let q ← scanItems value fuel (skipSpace t)
        .ok (p.1 :: q.1, q.2)
      else .error .value

/-- A key with the colon and the white space after it. -/
def scanKey : Str → Except JsonError (Str × Str)
  | [] => .error .value
  | c :: s =>
    if c = ch '"' then
      match scanString .text s with
      | none => .error .value
      | some p =>
        match skipSpace p.2 with
        | [] => .error .value
        | d :: t => if d = ch ':' then .ok (joinUnits p.1, skipSpace t) else .error .value
    else .error .value

/-- The members of a dict from the first one on, through the closing brace. -/
def scanFields (value : Str → Except JsonError (Json × Str)) :
    ℕ → Str → Except JsonError (List (Str × Json) × Str)
  | 0, _ => .error .value
  | fuel + 1, s => do
    let k ← scanKey s
    let p ← value k.2
    match skipSpace p.2 with
    | [] => .error .value
    | c :: t =>
      if c = ch '}' then .ok ([(k.1, p.1)], t)
      else if c = ch ',' then do
        let q ← scanFields value fuel (skipSpace t)
        .ok ((k.1, p.1) :: q.1, q.2)
      else .error .value

/-- A list, its opening bracket read. -/
def scanArray (value : Str → Except JsonError (Json × Str)) (s : Str) :
    Except JsonError (Json × Str) :=
  match skipSpace s with
  | [] => .error .value
  | c :: t =>
    if c = ch ']' then .ok (.arr [], t)
    else (scanItems value s.length (c :: t)).map fun p => (.arr p.1, p.2)

/-- A dict, its opening brace read. A repeated key takes its last value. -/
def scanObject (value : Str → Except JsonError (Json × Str)) (s : Str) :
    Except JsonError (Json × Str) :=
  match skipSpace s with
  | [] => .error .value
  | c :: t =>
    if c = ch '}' then .ok (.obj [], t)
    else (scanFields value s.length (c :: t)).map fun p => (.obj (dictOf p.1), p.2)

/-- `scan_once`, with the nesting still allowed. -/
def scanValue (strict : Bool) : ℕ → Str → Except JsonError (Json × Str)
  | _, [] => .error .value
  | 0, c :: t =>
    if c = ch '[' ∨ c = ch '{' then .error .recursion else scanScalar strict (c :: t)
  | depth + 1, c :: t =>
    if c = ch '[' then scanArray (scanValue strict depth) t
    else if c = ch '{' then scanObject (scanValue strict depth) t
    else scanScalar strict (c :: t)

/-- `JSONDecoder.decode`: one value with nothing but white space around it. -/
def decodeJson (strict : Bool) (s : Str) : Except JsonError Json := do
  let p ← scanValue strict recursionLimit (skipSpace s)
  if skipSpace p.2 = [] then .ok p.1 else .error .value

/-- `json.loads(s)` of a string; `strict` refuses `NaN` and the infinities, as a
`parse_constant` that raises `ValueError` does. -/
def loadsWith (strict : Bool) (s : Str) : Except JsonError Json :=
  if s.head? = some (codePoint 0xFEFF) then .error .value else decodeJson strict s

/-- `json.loads(s)`. -/
def loads (s : Str) : Except JsonError Json := loadsWith false s

/-- `json.dumps(j)`: a list or dict nested too deeply raises `RecursionError`. -/
def dumps (sty : JsonStyle) (j : Json) : Except JsonError Str :=
  if j.depth ≤ recursionLimit then .ok (dumpsText sty j) else .error .recursion

end

/-! ## Reading bytes -/

/-- `json.detect_encoding` and the decoding it selects, surrogates passed through. -/
def decodeDetected (b : Bytes) : Option Str :=
  match b with
  | 0x00 :: 0x00 :: 0xFE :: 0xFF :: t => decodeUtf32Pass false t
  | 0xFF :: 0xFE :: 0x00 :: 0x00 :: t => decodeUtf32Pass true t
  | 0xFE :: 0xFF :: t => decodeUtf16Pass false t
  | 0xFF :: 0xFE :: t => decodeUtf16Pass true t
  | 0xEF :: 0xBB :: 0xBF :: t => decodeUtf8Pass t
  | b0 :: b1 :: b2 :: b3 :: _ =>
    if b0 = 0 then (if b1 = 0 then decodeUtf32Pass false b else decodeUtf16Pass false b)
    else if b1 = 0 then
      (if b2 = 0 ∧ b3 = 0 then decodeUtf32Pass true b else decodeUtf16Pass true b)
    else decodeUtf8Pass b
  | [b0, b1] =>
    if b0 = 0 then decodeUtf16Pass false b
    else if b1 = 0 then decodeUtf16Pass true b
    else decodeUtf8Pass b
  | _ => decodeUtf8Pass b

/-- `json.loads(b)` of bytes. -/
def loadsBytes [Runtime] (b : Bytes) : Except JsonError Json :=
  match decodeDetected b with
  | some s => decodeJson false s
  | none => .error .value

end Py
