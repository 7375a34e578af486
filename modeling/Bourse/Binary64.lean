/-!
# Binary64 words

A binary64 word is kept as its 64 bits. This module decodes a finite word into its sign,
significand and binary exponent, and builds words by rounding exact ratios of natural
numbers to the nearest word, ties to an even significand. Multiplication and division of
words are exact products and quotients rounded once, as the IEEE 754 operations are.

No runtime floating-point operation is involved: every step is natural-number arithmetic,
so the results can be reasoned about.
-/

namespace Bourse

/-- A binary64 word: sign bit, 11 exponent bits and 52 fraction bits. -/
structure Binary64 where
  bits : UInt64
  deriving DecidableEq, Repr, Inhabited

namespace Binary64

/-- The low 52 bits. -/
def fractionBits (w : Binary64) : Nat := w.bits.toNat % Nat.pow 2 52

/-- The 11 exponent bits. -/
def exponentBits (w : Binary64) : Nat := (w.bits.toNat / Nat.pow 2 52) % Nat.pow 2 11

/-- The sign bit. -/
def negative (w : Binary64) : Bool := decide (Nat.pow 2 63 ≤ w.bits.toNat)

/-- Whether the word is a number rather than an infinity or a NaN. -/
def isFinite (w : Binary64) : Bool := w.exponentBits != 2047

/-- The significand of the magnitude: the fraction, with the hidden bit when normal. -/
def significand (w : Binary64) : Nat :=
  if w.exponentBits = 0 then w.fractionBits else Nat.pow 2 52 + w.fractionBits

/-- The binary exponent of the magnitude: it is `significand · 2 ^ exponent`. -/
def exponent (w : Binary64) : Int :=
  if w.exponentBits = 0 then -1074 else (w.exponentBits : Int) - 1075

/-- Positive zero. -/
def zero : Binary64 := ⟨0⟩

/-- The word with the sign bit flipped. -/
def negate (w : Binary64) : Binary64 := ⟨w.bits ^^^ 0x8000000000000000⟩

/-- Whether the magnitude is zero (either sign). -/
def isZero (w : Binary64) : Bool := w.significand == 0

/-- `n / (d · 2 ^ e)` as a pair of natural numbers. -/
def scaled (n d : Nat) (e : Int) : Nat × Nat :=
  if 0 ≤ e then (n, d * Nat.pow 2 e.toNat) else (n * Nat.pow 2 (-e).toNat, d)

/-- The binary exponent at which the quotient `n / d` has a 53-bit integer part, not below
the subnormal exponent `-1074`. -/
def scaleFor (n d : Nat) : Int :=
  let e0 : Int := (Nat.log2 n : Int) - (Nat.log2 d : Int) - 52
  let (a, b) := scaled n d e0
  let q := a / b
  let e1 := if Nat.pow 2 53 ≤ q then e0 + 1 else if q < Nat.pow 2 52 then e0 - 1 else e0
  max e1 (-1074)

/-- The word nearest to the positive ratio `n / d`, ties to an even significand; `none` when
the ratio rounds beyond the largest finite word. A zero numerator gives positive zero. -/
def ofRatio (n d : Nat) : Option Binary64 :=
  if n = 0 ∨ d = 0 then some zero
  else
    let e := scaleFor n d
    let (a, b) := scaled n d e
    let q := a / b
    let r := a % b
    let up := 2 * r > b ∨ (2 * r = b ∧ q % 2 = 1)
    let q1 := if up then q + 1 else q
    let (q2, e2) := if q1 = Nat.pow 2 53 then (Nat.pow 2 52, e + 1) else (q1, e)
    if q2 < Nat.pow 2 52 then some ⟨q2.toUInt64⟩
    else
      let biased := e2 + 1075
      if 2047 ≤ biased then none
      else some ⟨(biased.toNat * Nat.pow 2 52 + (q2 - Nat.pow 2 52)).toUInt64⟩

/-- The word nearest to a natural number. -/
def ofNat (n : Nat) : Option Binary64 := ofRatio n 1

/-- The exact product of two magnitudes, rounded once; `none` on overflow. -/
def mulMagnitude (a b : Binary64) : Option Binary64 :=
  let s := a.exponent + b.exponent
  let (n, d) := scaled (a.significand * b.significand) 1 (-s)
  ofRatio n d

/-- The exact quotient of two magnitudes, rounded once; `none` on overflow. -/
def divMagnitude (a b : Binary64) : Option Binary64 :=
  let s := a.exponent - b.exponent
  let (n, d) := scaled a.significand b.significand (-s)
  ofRatio n d

/-- The word nearest to `10 ^ k`. -/
def pow10 (k : Nat) : Option Binary64 := ofRatio (Nat.pow 10 k) 1

end Binary64

end Bourse
