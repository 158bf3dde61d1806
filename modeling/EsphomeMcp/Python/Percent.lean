import EsphomeMcp.Python.Bytes

/-!
# Percent-encoding

`urllib.parse.unquote`: inside each run of ASCII characters every `%XX` becomes a byte, and
the bytes of the run are decoded as UTF-8 with replacement; characters outside ASCII stay.
-/

namespace Py

/-- `_unquote_impl` of an ASCII string: the bytes with every `%XX` decoded. -/
def percentBytes : Str → Bytes
  | [] => []
  | [c] => [byte c.val]
  | [c, d] => [byte c.val, byte d.val]
  | c :: a :: b :: s =>
    if c = ch '%' then
      match hexDigitVal a, hexDigitVal b with
      | some x, some y => byte (16 * x + y) :: percentBytes s
      | _, _ => byte c.val :: percentBytes (a :: b :: s)
    else byte c.val :: percentBytes (a :: b :: s)

/-- The runs of ASCII characters decoded one by one, `run` being the current one. -/
def unquoteRuns (run : Str) : Str → Str
  | [] => decodeUtf8Replace (percentBytes run)
  | c :: s =>
    if isAscii c then unquoteRuns (run ++ [c]) s
    else decodeUtf8Replace (percentBytes run) ++ c :: unquoteRuns [] s

/-- `urllib.parse.unquote(s)`. -/
def unquote (s : Str) : Str := if ch '%' ∈ s then unquoteRuns [] s else s

end Py
