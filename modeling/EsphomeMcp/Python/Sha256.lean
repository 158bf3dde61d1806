import EsphomeMcp.Python.Bytes

/-!
# SHA-256 and HMAC

`hashlib.sha256(b).digest()` and `hmac.new(key, msg, hashlib.sha256).digest()`. The models use
them as functions: what they assume of the hash (no collision between two given inputs) or
of the code (a tag that verifies was computed for that message) they say where they use it.
What is proved here is the length of a digest.
-/

namespace Py

/-- A 32-bit word. -/
abbrev Word := BitVec 32

/-- The round constants. -/
def sha256Constants : List Word :=
  [0x428a2f98, 0x71374491, 0xb5c0fbcf, 0xe9b5dba5, 0x3956c25b, 0x59f111f1, 0x923f82a4, 0xab1c5ed5,
    0xd807aa98, 0x12835b01, 0x243185be, 0x550c7dc3, 0x72be5d74, 0x80deb1fe, 0x9bdc06a7, 0xc19bf174,
    0xe49b69c1, 0xefbe4786, 0x0fc19dc6, 0x240ca1cc, 0x2de92c6f, 0x4a7484aa, 0x5cb0a9dc, 0x76f988da,
    0x983e5152, 0xa831c66d, 0xb00327c8, 0xbf597fc7, 0xc6e00bf3, 0xd5a79147, 0x06ca6351, 0x14292967,
    0x27b70a85, 0x2e1b2138, 0x4d2c6dfc, 0x53380d13, 0x650a7354, 0x766a0abb, 0x81c2c92e, 0x92722c85,
    0xa2bfe8a1, 0xa81a664b, 0xc24b8b70, 0xc76c51a3, 0xd192e819, 0xd6990624, 0xf40e3585, 0x106aa070,
    0x19a4c116, 0x1e376c08, 0x2748774c, 0x34b0bcb5, 0x391c0cb3, 0x4ed8aa4a, 0x5b9cca4f, 0x682e6ff3,
    0x748f82ee, 0x78a5636f, 0x84c87814, 0x8cc70208, 0x90befffa, 0xa4506ceb, 0xbef9a3f7, 0xc67178f2]

/-- The chaining value. -/
structure Sha256State where
  a : Word
  b : Word
  c : Word
  d : Word
  e : Word
  f : Word
  g : Word
  h : Word

/-- The initial chaining value. -/
def sha256Init : Sha256State :=
  ⟨0x6a09e667, 0xbb67ae85, 0x3c6ef372, 0xa54ff53a, 0x510e527f, 0x9b05688c, 0x1f83d9ab, 0x5be0cd19⟩

/-- One round, with its constant and its word of the message schedule. -/
def sha256Round (s : Sha256State) (k w : Word) : Sha256State :=
  let s1 := s.e.rotateRight 6 ^^^ s.e.rotateRight 11 ^^^ s.e.rotateRight 25
  let choice := (s.e &&& s.f) ^^^ (~~~s.e &&& s.g)
  let t1 := s.h + s1 + choice + k + w
  let s0 := s.a.rotateRight 2 ^^^ s.a.rotateRight 13 ^^^ s.a.rotateRight 22
  let majority := (s.a &&& s.b) ^^^ (s.a &&& s.c) ^^^ (s.b &&& s.c)
  ⟨t1 + (s0 + majority), s.a, s.b, s.c, s.d + t1, s.e, s.f, s.g⟩

/-- The next word of the message schedule, from the sixteen before it. -/
def nextWord (w : List Word) : Word :=
  let x := w.getD 1 0
  let y := w.getD 14 0
  w.getD 0 0 + (x.rotateRight 7 ^^^ x.rotateRight 18 ^^^ x >>> 3) + w.getD 9 0 +
    (y.rotateRight 17 ^^^ y.rotateRight 19 ^^^ y >>> 10)

/-- The rounds, with a window of sixteen words of the schedule. -/
def sha256Rounds : List Word → List Word → Sha256State → Sha256State
  | [], _, s => s
  | k :: ks, w, s => sha256Rounds ks (w.tail ++ [nextWord w]) (sha256Round s k (w.headD 0))

/-- The compression function on one block of sixteen words. -/
def sha256Compress (s : Sha256State) (block : List Word) : Sha256State :=
  let t := sha256Rounds sha256Constants block s
  ⟨s.a + t.a, s.b + t.b, s.c + t.c, s.d + t.d, s.e + t.e, s.f + t.f, s.g + t.g, s.h + t.h⟩

/-- Big-endian words of a byte string. -/
def words : Bytes → List Word
  | a :: b :: c :: d :: t =>
    BitVec.ofNat 32 (((a.val * 256 + b.val) * 256 + c.val) * 256 + d.val) :: words t
  | _ => []

/-- The big-endian bytes of a word. -/
def wordBytes (w : Word) : Bytes :=
  [byte (w.toNat / 0x1000000), byte (w.toNat / 0x10000 % 256), byte (w.toNat / 0x100 % 256),
    byte (w.toNat % 256)]

/-- The big-endian bytes of a 64-bit number. -/
def bytes64 (n : ℕ) : Bytes :=
  wordBytes (BitVec.ofNat 32 (n / 0x100000000)) ++ wordBytes (BitVec.ofNat 32 n)

/-- The message with its padding and its length in bits. -/
def sha256Pad (msg : Bytes) : Bytes :=
  msg ++ byte 0x80 :: List.replicate ((55 + 64 - msg.length % 64) % 64) (byte 0) ++
    bytes64 (8 * msg.length)

/-- The chaining value behind a number of blocks. -/
def sha256Blocks : ℕ → List Word → Sha256State → Sha256State
  | 0, _, s => s
  | n + 1, w, s => sha256Blocks n (w.drop 16) (sha256Compress s (w.take 16))

/-- The bytes of a chaining value. -/
def sha256Digest (s : Sha256State) : Bytes :=
  [s.a, s.b, s.c, s.d, s.e, s.f, s.g, s.h].flatMap wordBytes

/-- `hashlib.sha256(msg).digest()`. -/
def sha256 (msg : Bytes) : Bytes :=
  let w := words (sha256Pad msg)
  sha256Digest (sha256Blocks (w.length / 16) w sha256Init)

/-! ## HMAC -/

/-- A key of one block: a longer one is hashed, a shorter one padded with zeros. -/
def hmacKey (key : Bytes) : Bytes :=
  let key := if 64 < key.length then sha256 key else key
  key ++ List.replicate (64 - key.length) (byte 0)

/-- Every byte of a key, combined with a constant. -/
def xorBytes (key : Bytes) (c : ℕ) : Bytes := key.map fun x => byte (x.val ^^^ c)

/-- `hmac.new(key, msg, hashlib.sha256).digest()`. -/
def hmacSha256 (key msg : Bytes) : Bytes :=
  let key := hmacKey key
  sha256 (xorBytes key 0x5c ++ sha256 (xorBytes key 0x36 ++ msg))

example : (sha256 []).take 4 = [0xe3, 0xb0, 0xc4, 0x42] := by decide +kernel

end Py
