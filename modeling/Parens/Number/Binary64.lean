/-!
Doubles and the exact values they stand for. All magnitudes are counted in units of the least
positive double, `2^-1074`, so a finite double is a natural number `m · 2^k` of units with a sign,
and its bits below the sign are `k · 2^52 + m`.
-/

namespace Parens.Number

/-- The number of units in one. -/
def unitsPerOne : Nat := 1 <<< 1074

/-- The bit in front of the fraction, which the significand has unless its exponent is zero. -/
def leadingBit : Nat := 1 <<< 52

/-- What the bits of a double say. -/
inductive Decoded where
  | notANumber
  | infinite (negative : Bool)
  /-- The magnitude is `significand · 2^exponent` units; the significand is below `2^53`, and below
  `2^52` only for exponent zero. -/
  | finite (negative : Bool) (significand exponent : Nat)
deriving DecidableEq, Repr

def decode (x : Float) : Decoded :=
  let bits := x.toBits.toNat
  let negative := decide (1 <<< 63 ≤ bits)
  let field := bits / leadingBit % 2048
  let fraction := bits % leadingBit
  if field = 2047 then (if fraction = 0 then .infinite negative else .notANumber)
  else if field = 0 then .finite negative fraction 0
  else .finite negative (leadingBit + fraction) (field - 1)

/-- The bits of positive infinity. -/
def infinityBits : Nat := 2047 * leadingBit

/-- The bits that put a sign before a magnitude. -/
def signBits (negative : Bool) : Nat := if negative then 1 <<< 63 else 0

/-- The natural number nearest to a quotient, the even one of two that are equally near. -/
def roundQuotient (num den : Nat) : Nat :=
  let q := num / den
  let r := num % den
  if den < 2 * r ∨ den = 2 * r ∧ q % 2 = 1 then q + 1 else q

/-- The bits of the double nearest to a positive quotient. A quotient of units is first given the
exponent that leaves a significand of at most 53 bits, then rounded there; a significand that
rounds up to `2^53` carries into the exponent by itself. What would lie beyond the last finite
double is infinite. -/
def nearestBits (num den : Nat) : Nat :=
  let units := num * unitsPerOne
  let exponent := (units / den).log2 + 1 - 53
  min (exponent * leadingBit + roundQuotient units (den <<< exponent)) infinityBits

/-- The double nearest to a quotient with a sign, which a zero keeps too. -/
def ofQuotient (negative : Bool) (num den : Nat) : Float :=
  Float.ofBits (UInt64.ofNat (signBits negative + nearestBits num den))

example : decode (ofQuotient true 1 10) = .finite true 0x1999999999999A 1018 := by decide +kernel
example : decode (ofQuotient false 1 (1 <<< 1075)) = .finite false 0 0 := by decide +kernel
example : decode (ofQuotient false (1 <<< 1024 - 1 <<< 970) 1) = .infinite false := by
  decide +kernel

end Parens.Number
