/-!
# Reading UTF-8 bytes

`decodeLossy` reads bytes as UTF-8 and puts one replacement character U+FFFD in place of
each maximal part of an ill-formed sequence: a byte that cannot start a sequence, or the
longest start of a sequence that breaks off before its end. Well-formed input reads as the
string it encodes.
-/

namespace Bourse

/-- Whether a byte lies between the bounds `lo` and `hi`. -/
def byteBetween (lo hi : UInt8) (b : UInt8) : Bool := lo ≤ b && b ≤ hi

/-- The sequence shape starting with a byte: the bounds of the second byte and the number
of further continuation bytes, or none for a byte that cannot start a sequence. -/
def sequenceShape (b : UInt8) : Option (UInt8 × UInt8 × Nat) :=
  if 0xC2 ≤ b ∧ b ≤ 0xDF then some (0x80, 0xBF, 0)
  else if b = 0xE0 then some (0xA0, 0xBF, 1)
  else if (0xE1 ≤ b ∧ b ≤ 0xEC) ∨ b = 0xEE ∨ b = 0xEF then some (0x80, 0xBF, 1)
  else if b = 0xED then some (0x80, 0x9F, 1)
  else if b = 0xF0 then some (0x90, 0xBF, 2)
  else if 0xF1 ≤ b ∧ b ≤ 0xF3 then some (0x80, 0xBF, 2)
  else if b = 0xF4 then some (0x80, 0x8F, 2)
  else none

/-- Takes up to `n` continuation bytes onto a code point. Returns the code point when all
`n` are there, and in any case how many were taken. -/
def continuation : Nat → Nat → List UInt8 → Option Nat × Nat
  | 0, cp, _ => (some cp, 0)
  | n + 1, cp, b :: rest =>
    if byteBetween 0x80 0xBF b then
      let (r, k) := continuation n (cp * 64 + (b.toNat - 0x80)) rest
      (r, k + 1)
    else (none, 0)
  | _ + 1, _, [] => (none, 0)

/-- The lead bits of a sequence's first byte. -/
def leadBits (b : UInt8) : Nat :=
  if b < 0xE0 then b.toNat - 0xC0 else if b < 0xF0 then b.toNat - 0xE0 else b.toNat - 0xF0

/-- Reads bytes as UTF-8, replacing ill-formed parts. Every step reads at least one byte, so
fuel of the input's length suffices. -/
def decodeChars : Nat → List UInt8 → List Char
  | 0, _ => []
  | _, [] => []
  | fuel + 1, b :: rest =>
    if b < 0x80 then Char.ofNat b.toNat :: decodeChars fuel rest
    else
      match sequenceShape b with
      | none => '\uFFFD' :: decodeChars fuel rest
      | some (lo, hi, more) =>
        match rest with
        | b2 :: rest2 =>
          if byteBetween lo hi b2 then
            match continuation more (leadBits b * 64 + (b2.toNat - 0x80)) rest2 with
            | (some cp, k) => Char.ofNat cp :: decodeChars fuel (rest2.drop k)
            | (none, k) => '\uFFFD' :: decodeChars fuel (rest2.drop k)
          else '\uFFFD' :: decodeChars fuel rest
        | [] => ['\uFFFD']

/-- Reads bytes as UTF-8, replacing ill-formed parts. -/
def decodeLossy (bs : List UInt8) : String := String.ofList (decodeChars bs.length bs)

end Bourse
