import EsphomeMcp.Python.Base64
import EsphomeMcp.Python.Json
import EsphomeMcp.Python.Sha256

/-!
# Shared OAuth primitives

The base64url helpers and the PKCE code store of `oauth_common`. A reading of the clock and a
fresh code are arguments: the store itself is a dict and two functions on it.
-/

namespace EsphomeMcp.OAuth

open Py

/-- The exceptions that leave an OAuth function. -/
inductive PyError where
  | value
  | unicodeEncode
  | recursion
  | type
deriving DecidableEq

/-! ## Base64url -/

/-- `_b64url_encode`. -/
def b64urlEncode (raw : Bytes) : Str := rstrip (· = ch '=') (urlsafeB64encode raw)

/-- `_b64url_decode`, with `none` for the `ValueError`. -/
def b64urlDecode (value : Str) : Option Bytes :=
  let pad := List.replicate ((4 - value.length % 4) % 4) (ch '=')
  urlsafeB64decode (value ++ pad)

theorem b64urlEncode_eq (raw : Bytes) : b64urlEncode raw = b64Text raw :=
  rstrip_urlsafeB64encode raw

/-- Decoding puts the padding back that encoding strips. -/
@[simp] theorem b64urlDecode_b64urlEncode (raw : Bytes) :
    b64urlDecode (b64urlEncode raw) = some raw := by
  have hlen := length_b64Text raw
  have hpad : (4 - (b64Text raw).length % 4) % 4 = (3 - raw.length % 3) % 3 := by omega
  rw [b64urlEncode_eq, b64urlDecode, hpad]
  exact urlsafeB64decode_urlsafeB64encode raw

theorem b64urlEncode_injective : Function.Injective b64urlEncode := by
  intro x y h
  rw [b64urlEncode_eq, b64urlEncode_eq] at h
  exact b64Text_injective h

/-- Encoded text is ASCII without a dot. -/
theorem b64urlEncode_spec (raw : Bytes) :
    ∀ c ∈ b64urlEncode raw, isAscii c = true ∧ c ≠ ch '.' := by
  intro c hc
  rw [b64urlEncode_eq] at hc
  have h := isB64urlDigit_spec (isB64urlDigit_b64Text raw c hc)
  exact ⟨h.1, h.2.2⟩

theorem encodeAscii_b64urlEncode (raw : Bytes) :
    encodeAscii (b64urlEncode raw) = some (asciiBytes (b64urlEncode raw)) :=
  encodeAscii_eq_some fun c hc => (b64urlEncode_spec raw c hc).1

/-! ## The code store -/

/-- `AUTH_CODE_TTL`. -/
def authCodeTtl {T : Type} [OfNat T 300] : T := 300

/-- `MAX_PENDING_CODES`. -/
def maxPendingCodes : ℕ := 1000

/-- `PKCE_VERIFIER_MIN`. -/
def pkceVerifierMin : ℕ := 43

/-- `PKCE_VERIFIER_MAX`. -/
def pkceVerifierMax : ℕ := 128

/-- A character of `_PKCE_VERIFIER_RE`. -/
def isPkceVerifierChar (c : CodePoint) : Bool :=
  isAlpha c || isDigit c || c = ch '.' || c = ch '_' || c = ch '~' || c = ch '-'

/-- `_PKCE_VERIFIER_RE.fullmatch(code_verifier)`. -/
def pkceVerifierRe (codeVerifier : Str) : Bool :=
  codeVerifier ≠ [] && codeVerifier.all isPkceVerifierChar

/-- What `consume_code` asks of a verifier before it looks at the code. -/
def isWellFormedVerifier (codeVerifier : Str) : Bool :=
  (pkceVerifierMin ≤ codeVerifier.length && codeVerifier.length ≤ pkceVerifierMax) &&
    pkceVerifierRe codeVerifier

/-- `_PendingCode`. -/
structure PendingCode (T : Type) where
  redirectUri : Str
  codeChallenge : Str
  expires : T

/-- `PKCECodeStore._codes`: pending codes in insertion order. -/
abbrev PKCECodeStore (T : Type) := List (Str × PendingCode T)

/-- `_b64url_encode(hashlib.sha256(code_verifier.encode()).digest())`. -/
def derivedChallenge (codeVerifier : Str) : Str :=
  b64urlEncode (sha256 (codeVerifier.flatMap utf8Char))

namespace PKCECodeStore

variable {T : Type} [LinearOrder T] [Add T] [OfNat T 300]

/-- The entries that have not expired. -/
def prune (codes : PKCECodeStore T) (now : T) : PKCECodeStore T :=
  codes.filter fun e => now < e.2.expires

/-- `issue_code`; `draw` is what `secrets.token_urlsafe(32)` returns if it is called. -/
def issueCode (codes : PKCECodeStore T) (redirectUri codeChallenge : Str) (now : T) (draw : Str) :
    Option Str × PKCECodeStore T :=
  let codes := codes.prune now
  if maxPendingCodes ≤ codes.length then (none, codes)
  else (some draw, dictSet draw ⟨redirectUri, codeChallenge, now + authCodeTtl⟩ codes)

/-- `self._codes.pop(code, None)`. -/
def pop (codes : PKCECodeStore T) (code : Str) : Option (PendingCode T) × PKCECodeStore T :=
  (dictGet? codes code, codes.filter fun e => e.1 ≠ code)

/-- The checks `consume_code` makes on the entry it has popped. -/
def checkEntry (entry : Option (PendingCode T)) (redirectUri codeVerifier : Str) (now : T) :
    Except PyError Bool :=
  match entry with
  | none => .ok false
  | some entry =>
    if entry.expires < now then .ok false
    else if entry.redirectUri ≠ redirectUri then .ok false
    else
      match encodeAscii entry.codeChallenge with
      | none => .error .unicodeEncode
      | some challenge => .ok (encodeAscii (derivedChallenge codeVerifier) = some challenge)

/-- `consume_code`. -/
def consumeCode (codes : PKCECodeStore T) (code redirectUri codeVerifier : Str) (now : T) :
    Except PyError Bool × PKCECodeStore T :=
  if isWellFormedVerifier codeVerifier then
    let (entry, codes) := codes.pop code
    (checkEntry entry redirectUri codeVerifier now, codes)
  else (.ok false, codes)

end PKCECodeStore

end EsphomeMcp.OAuth
