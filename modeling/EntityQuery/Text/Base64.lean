/-!
# Base64

Bytes are written in groups of three as four characters of the standard alphabet, and the last
group is padded with `=`.  Only the canonical form is read: the padding is present and the bits
that the last character has left over are zero.
-/

namespace EntityQuery
namespace Base64

/-- The digits of the alphabet in order. -/
def alphabet : List Char :=
  "ABCDEFGHIJKLMNOPQRSTUVWXYZabcdefghijklmnopqrstuvwxyz0123456789+/".toList

/-- The character of a digit. -/
def digit (n : Nat) : Char := alphabet.getD (n % 64) 'A'

/-- The digit that a character stands for. -/
def value? (c : Char) : Option Nat := alphabet.findIdx? (· == c)

/-- The text of some bytes. -/
def encode : List UInt8 → List Char
  | a :: b :: c :: rest =>
    let n := a.toNat * 65536 + b.toNat * 256 + c.toNat
    digit (n / 262144) :: digit (n / 4096) :: digit (n / 64) :: digit n :: encode rest
  | [a, b] =>
    let n := a.toNat * 1024 + b.toNat * 4
    [digit (n / 4096), digit (n / 64), digit n, '=']
  | [a] => [digit (a.toNat / 4), digit (a.toNat * 16), '=', '=']
  | [] => []

/-- The bytes of a canonical text. -/
def decode? : List Char → Option (List UInt8)
  | [] => some []
  | [p, q, '=', '='] => do
    let a ← value? p
    let b ← value? q
    if b % 16 = 0 then some [.ofNat (a * 4 + b / 16)] else none
  | [p, q, r, '='] => do
    let a ← value? p
    let b ← value? q
    let c ← value? r
    if c % 4 = 0 then some [.ofNat (a * 4 + b / 16), .ofNat (b % 16 * 16 + c / 4)] else none
  | p :: q :: r :: s :: rest => do
    let a ← value? p
    let b ← value? q
    let c ← value? r
    let d ← value? s
    let bytes ← decode? rest
    some (.ofNat (a * 4 + b / 16) :: .ofNat (b % 16 * 16 + c / 4) :: .ofNat (c % 4 * 64 + d) ::
      bytes)
  | _ => none

end Base64
end EntityQuery
