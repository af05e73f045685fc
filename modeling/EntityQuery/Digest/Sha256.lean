/-!
# SHA-256

The message is padded with a one bit, zero bits and its length to a multiple of 64 bytes.  Each
block of 64 bytes is expanded to a schedule of 64 words, and the eight words of the state go
through one round for each of them.
-/

namespace EntityQuery.Sha256

/-- The eight words of the state. -/
structure State where
  a : UInt32
  b : UInt32
  c : UInt32
  d : UInt32
  e : UInt32
  f : UInt32
  g : UInt32
  h : UInt32
deriving DecidableEq, Repr

/-- The state at the beginning. -/
def initial : State :=
  ⟨0x6a09e667, 0xbb67ae85, 0x3c6ef372, 0xa54ff53a, 0x510e527f, 0x9b05688c, 0x1f83d9ab, 0x5be0cd19⟩

/-- The constants of the rounds. -/
def roundConstants : List UInt32 :=
  [0x428a2f98, 0x71374491, 0xb5c0fbcf, 0xe9b5dba5, 0x3956c25b, 0x59f111f1, 0x923f82a4, 0xab1c5ed5,
    0xd807aa98, 0x12835b01, 0x243185be, 0x550c7dc3, 0x72be5d74, 0x80deb1fe, 0x9bdc06a7, 0xc19bf174,
    0xe49b69c1, 0xefbe4786, 0x0fc19dc6, 0x240ca1cc, 0x2de92c6f, 0x4a7484aa, 0x5cb0a9dc, 0x76f988da,
    0x983e5152, 0xa831c66d, 0xb00327c8, 0xbf597fc7, 0xc6e00bf3, 0xd5a79147, 0x06ca6351, 0x14292967,
    0x27b70a85, 0x2e1b2138, 0x4d2c6dfc, 0x53380d13, 0x650a7354, 0x766a0abb, 0x81c2c92e, 0x92722c85,
    0xa2bfe8a1, 0xa81a664b, 0xc24b8b70, 0xc76c51a3, 0xd192e819, 0xd6990624, 0xf40e3585, 0x106aa070,
    0x19a4c116, 0x1e376c08, 0x2748774c, 0x34b0bcb5, 0x391c0cb3, 0x4ed8aa4a, 0x5b9cca4f, 0x682e6ff3,
    0x748f82ee, 0x78a5636f, 0x84c87814, 0x8cc70208, 0x90befffa, 0xa4506ceb, 0xbef9a3f7, 0xc67178f2]

/-- A word turned to the right by a number of bits between 1 and 31. -/
def rotate (x count : UInt32) : UInt32 := (x >>> count) ||| (x <<< (32 - count))

/-- The word that four bytes are, the most significant one first. -/
def word (a b c d : UInt8) : UInt32 :=
  (a.toUInt32 <<< 24) ||| (b.toUInt32 <<< 16) ||| (c.toUInt32 <<< 8) ||| d.toUInt32

/-- The words that bytes are; fewer than four bytes at the end are left out. -/
def words : List UInt8 → List UInt32
  | a :: b :: c :: d :: rest => word a b c d :: words rest
  | _ => []

/-- The next word of a schedule, given the words so far, the latest first. -/
def nextWord (latest : List UInt32) : UInt32 :=
  let at? (n : Nat) : UInt32 := latest.getD n 0
  let x := at? 14
  let y := at? 1
  let s0 := rotate x 7 ^^^ rotate x 18 ^^^ (x >>> 3)
  let s1 := rotate y 17 ^^^ rotate y 19 ^^^ (y >>> 10)
  at? 15 + s0 + at? 6 + s1

/-- Adds a number of words to a schedule, the latest first. -/
def extend : Nat → List UInt32 → List UInt32
  | 0, latest => latest
  | n + 1, latest => extend n (nextWord latest :: latest)

/-- The schedule of a block. -/
def schedule (block : List UInt8) : List UInt32 := (extend 48 (words block).reverse).reverse

/-- One round. -/
def round (s : State) (constant word : UInt32) : State :=
  let s1 := rotate s.e 6 ^^^ rotate s.e 11 ^^^ rotate s.e 25
  let choice := (s.e &&& s.f) ^^^ ((~~~ s.e) &&& s.g)
  let t1 := s.h + s1 + choice + constant + word
  let s0 := rotate s.a 2 ^^^ rotate s.a 13 ^^^ rotate s.a 22
  let majority := (s.a &&& s.b) ^^^ (s.a &&& s.c) ^^^ (s.b &&& s.c)
  ⟨t1 + (s0 + majority), s.a, s.b, s.c, s.d + t1, s.e, s.f, s.g⟩

/-- The state after a block. -/
def compress (s : State) (block : List UInt8) : State :=
  let t := (roundConstants.zip (schedule block)).foldl (fun t (k, w) => round t k w) s
  ⟨s.a + t.a, s.b + t.b, s.c + t.c, s.d + t.d, s.e + t.e, s.f + t.f, s.g + t.g, s.h + t.h⟩

/-- The bytes of a number, the most significant one first. -/
def bigEndian : Nat → Nat → List UInt8
  | 0, _ => []
  | count + 1, n => bigEndian count (n / 256) ++ [.ofNat n]

/-- The message with its padding. -/
def padded (message : List UInt8) : List UInt8 :=
  let zeros := (119 - message.length % 64) % 64
  message ++ 0x80 :: (List.replicate zeros 0 ++ bigEndian 8 (message.length * 8))

/-- The state after a number of blocks. -/
def compressAll : Nat → State → List UInt8 → State
  | 0, s, _ => s
  | count + 1, s, bytes => compressAll count (compress s (bytes.take 64)) (bytes.drop 64)

/-- The bytes of a state. -/
def State.bytes (s : State) : List UInt8 :=
  [s.a, s.b, s.c, s.d, s.e, s.f, s.g, s.h].flatMap fun w => bigEndian 4 w.toNat

/-- The digest of a message, 32 bytes. -/
def digest (message : List UInt8) : List UInt8 :=
  let bytes := padded message
  (compressAll (bytes.length / 64) initial bytes).bytes

end EntityQuery.Sha256
