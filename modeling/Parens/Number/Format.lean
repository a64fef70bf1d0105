import Parens.Number.Shortest

/-!
The two ways in which numbers are written. `text` is surface syntax: no exponent, all digits of a
whole number, and otherwise the shortest digits that read back. `inspect` is for inspection: always
the shortest digits, a point in every finite number, and an exponent for the very large and the very
small.
-/

namespace Parens.Number

def signText (negative : Bool) : List Char := if negative then ['-'] else []

def digitsText (n : Nat) : List Char := Nat.toDigits 10 n

/-- Digits with a point before the last `places` of them, and zeros where digits are missing. -/
def pointed (digits : List Char) (places : Nat) : List Char :=
  if places < digits.length then
    digits.take (digits.length - places) ++ '.' :: digits.drop (digits.length - places)
  else '0' :: '.' :: (List.replicate (places - digits.length) '0' ++ digits)

namespace Decimal

/-- The decimal written out, without an exponent and without a point if it is whole. -/
def positional (d : Decimal) : List Char :=
  if 0 ≤ d.exponent then digitsText d.digits ++ List.replicate d.exponent.toNat '0'
  else pointed (digitsText d.digits) (-d.exponent).toNat

/-- The power of ten of the first digit. -/
def magnitude (d : Decimal) : Int := (digitsText d.digits).length + d.exponent - 1

/-- One digit, the others after a point, and the power of ten of the first in at least two digits.
-/
def scientific (d : Decimal) : List Char :=
  let first := (digitsText d.digits).take 1
  let rest := (digitsText d.digits).drop 1
  let power := digitsText d.magnitude.natAbs
  first ++ (if rest.isEmpty then [] else '.' :: rest) ++
    'e' :: (if d.magnitude < 0 then '-' else '+')
    :: (List.replicate (2 - power.length) '0' ++ power)

/-- An exponent is written below `10^-4` and from `10^16`; other numbers are written out, and a
whole one gets a zero after its point. -/
def inspect (d : Decimal) : List Char :=
  if d.magnitude < -4 ∨ 16 ≤ d.magnitude then d.scientific
  else if 0 ≤ d.exponent then d.positional ++ ['.', '0']
  else d.positional

end Decimal

/-- The surface syntax of a number. -/
def text (x : Float) : List Char :=
  match decode x with
  | .notANumber => "nan".toList
  | .infinite negative => signText negative ++ "inf".toList
  | .finite negative significand exponent =>
    let units := significand <<< exponent
    signText negative ++
      if units % unitsPerOne = 0 then digitsText (units / unitsPerOne)
      else (shortest significand exponent).positional

/-- A number as inspection shows it. -/
def inspect (x : Float) : List Char :=
  match decode x with
  | .notANumber => "nan".toList
  | .infinite negative => signText negative ++ "inf".toList
  | .finite negative significand exponent =>
    signText negative ++ (shortest significand exponent).inspect

end Parens.Number
