import Bourse.Binary64
/-!
# Shortest decimal digits of a binary64 word

Every finite word `v = m · 2 ^ e` owns the interval of reals that round to it: half the gap
to each neighbour on either side, both ends included exactly when `m` is even (ties go to
the even significand). `Binary64.shortest` returns the decimal `c · 10 ^ k` inside that
interval with the fewest significant digits; when two decimals of that length qualify it
takes the one nearer to `v`, and of two equally near the even one.

The search tries 1, 2, …, 17 significant digits. For `n` digits the grid is `10 ^ k` with
`k = ⌊log₁₀ v⌋ - n + 1`, and only the two grid points next to `v` can lie in the interval
when any point of that grid does. All comparisons are exact natural-number arithmetic.
-/

namespace Bourse

namespace Binary64

/-- The number of decimal digits of a natural number (one for zero). -/
def decimalLength (n : Nat) : Nat := (Nat.toDigits 10 n).length

/-- `c · 10 ^ k` as a ratio of natural numbers. -/
def decimalRatio (c : Nat) (k : Int) : Nat × Nat :=
  if 0 ≤ k then (c * Nat.pow 10 k.toNat, 1) else (c, Nat.pow 10 (-k).toNat)

/-- Compares two ratios `a / b` and `c / d` of natural numbers with positive denominators. -/
def compareRatio (x y : Nat × Nat) : Ordering := compare (x.1 * y.2) (y.1 * x.2)

/-- The largest `t` with `10 ^ t ≤ n / d`, for a positive ratio. -/
def floorLog10 (n d : Nat) : Int :=
  let t0 : Int := (decimalLength n : Int) - (decimalLength d : Int)
  -- `10 ^ (t0 - 1) ≤ n / d < 10 ^ (t0 + 1)`, so one comparison fixes it
  if compareRatio (decimalRatio 1 t0) (n, d) == .gt then t0 - 1 else t0

/-- The shortest decimal in the rounding interval of a positive finite magnitude, as its
digits `c` (a natural number) and decimal exponent `k`, meaning `c · 10 ^ k`. -/
def shortest (w : Binary64) : Nat × Int :=
  let m := w.significand
  let e := w.exponent
  -- the unit `u = 2 ^ e / 4`, so `v = 4m·u` and the interval ends are `4m ± gap` units
  let (un, ud) : Nat × Nat := if 2 ≤ e then (Nat.pow 2 (e - 2).toNat, 1) else (1, Nat.pow 2 (2 - e).toNat)
  let lowGap := if m = Nat.pow 2 52 ∧ 1 < w.exponentBits then 1 else 2
  let value : Nat × Nat := (4 * m * un, ud)
  let low : Nat × Nat := ((4 * m - lowGap) * un, ud)
  let high : Nat × Nat := ((4 * m + 2) * un, ud)
  let inclusive := m % 2 == 0
  let inside := fun (c : Nat) (k : Int) =>
    let x := decimalRatio c k
    let aboveLow := match compareRatio x low with
      | .gt => true
      | .eq => inclusive
      | .lt => false
    let belowHigh := match compareRatio x high with
      | .lt => true
      | .eq => inclusive
      | .gt => false
    aboveLow && belowHigh
  let top := floorLog10 value.1 value.2
  let pick := fun (n : Nat) =>
    let k := top - (n : Int) + 1
    -- `c1 = ⌊v / 10 ^ k⌋` and its successor are the grid points next to `v`
    let (gn, gd) := decimalRatio 1 k
    let c1 := (value.1 * gd) / (value.2 * gn)
    let c2 := c1 + 1
    match inside c1 k, inside c2 k with
    | true, true =>
      let d1 := value.1 * gd * 1 - c1 * gn * value.2
      let d2 := c2 * gn * value.2 - value.1 * gd
      if d1 < d2 then some (c1, k)
      else if d2 < d1 then some (c2, k)
      else if c1 % 2 = 0 then some (c1, k) else some (c2, k)
    | true, false => some (c1, k)
    | false, true => some (c2, k)
    | false, false => none
  let found := (List.range 17).findSome? fun i => pick (i + 1)
  match found with
  | some r => r
  | none => (m, 0)

/-- Strips trailing zero digits, raising the exponent to match. -/
def trimZeros (c : Nat) (k : Int) (fuel : Nat) : Nat × Int :=
  match fuel with
  | 0 => (c, k)
  | fuel + 1 => if c ≠ 0 ∧ c % 10 = 0 then trimZeros (c / 10) (k + 1) fuel else (c, k)

end Binary64

end Bourse
