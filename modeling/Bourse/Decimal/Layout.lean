import Bourse.Decimal.Shortest
/-!
# Laying out shortest decimals

A layout decides how the shortest digits of a word are written: which decimal points are
written positionally, what an integral positional value ends with, and how an exponent is
marked. `Layout.render` writes a finite word with them; zero is written `0.0` or `-0.0`.

With digits `d₁…dₙ` and exponent `k` (the value `d₁…dₙ · 10 ^ k`), the point `p = n + k`
is where the decimal point falls.
-/

namespace Bourse

/-- How shortest decimals are written. -/
structure Layout where
  /-- Positional notation is used when `lowPoint < p ≤ highPoint`. -/
  lowPoint : Int
  highPoint : Int
  /-- Appended to an integral value written positionally. -/
  integralMark : String
  /-- Written between the digits and the exponent. -/
  exponentMark : String
  /-- Whether a non-negative exponent carries a `+`. -/
  plusSign : Bool

namespace Layout

/-- `n` zero characters. -/
def zeros (n : Nat) : String := String.ofList (List.replicate n '0')

/-- The decimal text of an integer exponent, signed as the layout says. -/
def exponentText (l : Layout) (x : Int) : String :=
  if x < 0 then "-" ++ toString (-x).toNat
  else (if l.plusSign then "+" else "") ++ toString x.toNat

/-- Writes digits `ds` (most significant first) with decimal exponent `k`. -/
def place (l : Layout) (ds : List Char) (k : Int) : String :=
  let n : Int := ds.length
  let p := n + k
  if 0 ≤ k ∧ p ≤ l.highPoint then
    String.ofList ds ++ zeros k.toNat ++ l.integralMark
  else if 0 < p ∧ p ≤ l.highPoint then
    String.ofList (ds.take p.toNat) ++ "." ++ String.ofList (ds.drop p.toNat)
  else if l.lowPoint < p ∧ p ≤ 0 then
    "0." ++ zeros (-p).toNat ++ String.ofList ds
  else
    match ds with
    | [d] => String.singleton d ++ l.exponentMark ++ l.exponentText (p - 1)
    | d :: rest => String.singleton d ++ "." ++ String.ofList rest ++ l.exponentMark ++
        l.exponentText (p - 1)
    | [] => "0" ++ l.integralMark

/-- The text of a finite word. -/
def render (l : Layout) (w : Binary64) : String :=
  let sign := if w.negative then "-" else ""
  if w.isZero then sign ++ "0" ++ l.integralMark
  else
    let (c, k) := w.shortest
    let (c', k') := Binary64.trimZeros c k 20
    sign ++ l.place (Nat.toDigits 10 c') k'

end Layout

end Bourse
