import Parens.Number.Binary64

/-!
The shortest decimal that reads back as a given double: of all decimals that round to it, those with
the fewest digits, and of those the nearest. The search goes over the decimal grids from coarse to
fine. On each grid only the two neighbours of the value can be the answer, and both are tested
against the interval of reals that round to the double, all in exact arithmetic.
-/

namespace Parens.Number

/-- The decimal `digits · 10^exponent`. -/
structure Decimal where
  digits : Nat
  exponent : Int
deriving DecidableEq, Repr

/-- The reals that round to a double, in quarters of a unit: `center` is the double itself, and the
bounds belong to the interval when its significand is even. -/
structure RoundingInterval where
  lower : Nat
  center : Nat
  upper : Nat
  closed : Bool

/-- Halfway to the neighbours. Below a power of two the doubles are twice as dense, so the lower
neighbour is only half as far away. -/
def RoundingInterval.of (significand exponent : Nat) : RoundingInterval where
  lower := (4 * significand - if significand = leadingBit ∧ 0 < exponent then 1 else 2) <<< exponent
  center := (4 * significand) <<< exponent
  upper := (4 * significand + 2) <<< exponent
  closed := significand % 2 = 0

/-- Whether a point belongs to the interval, both of them scaled alike. -/
def RoundingInterval.contains (i : RoundingInterval) (scale point : Nat) : Bool :=
  if i.closed then i.lower * scale ≤ point ∧ point ≤ i.upper * scale
  else i.lower * scale < point ∧ point < i.upper * scale

/-- The multiple of `10^exponent` in the interval that is nearest to the center, the even one of two
that are equally near. -/
def RoundingInterval.pointOn? (i : RoundingInterval) (exponent : Int) : Option Nat :=
  let scale := Nat.pow 10 (-exponent).toNat
  let step := 4 * unitsPerOne * Nat.pow 10 exponent.toNat
  let below := i.center * scale / step
  let above := below + 1
  let low := i.contains scale (below * step)
  let high := i.contains scale (above * step)
  if low && high then
    let left := i.center * scale - below * step
    let right := above * step - i.center * scale
    if left < right ∨ left = right ∧ below % 2 = 0 then some below else some above
  else if low then some below
  else if high then some above
  else none

/-- The first point that a grid has in the interval, from the grid of `10^exponent` to finer ones,
over at most so many grids. -/
def RoundingInterval.search (i : RoundingInterval) : (grids : Nat) → (exponent : Int) → Decimal
  | 0, exponent => ⟨(i.pointOn? exponent).getD 0, exponent⟩
  | grids + 1, exponent =>
    match i.pointOn? exponent with
    | some digits => ⟨digits, exponent⟩
    | none => i.search grids (exponent - 1)

/-- An exponent whose power of ten lies above a magnitude of so many units, from the length of the
magnitude in bits; three tenths and a little more are the digits in a bit. -/
def coarseExponent (units : Nat) : Int :=
  ((units.log2 : Int) + 1 - 1074) * 30103 / 100000 + 2

/-- The shortest decimal for a finite double. Seventeen digits always tell a double from its
neighbours, and the search begins at most four grids above the first digit. -/
def shortest (significand exponent : Nat) : Decimal :=
  if significand = 0 then ⟨0, 0⟩
  else (RoundingInterval.of significand exponent).search 24
    (coarseExponent (significand <<< exponent))

example : shortest 0x1999999999999A 1018 = ⟨1, -1⟩ := by decide +kernel
example : shortest 1 0 = ⟨5, -324⟩ := by decide +kernel
example : shortest 0x1FFFFFFFFFFFFF 2045 = ⟨17976931348623157, 292⟩ := by decide +kernel

end Parens.Number
