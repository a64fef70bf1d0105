import Parens.Number.Binary64

/-!
Numerals: an optional minus sign, then digits with an optional point among them, at least one digit
in all. There is no exponent and no plus sign, and only the ten ASCII digits count. A numeral stands
for an exact decimal fraction, which is rounded once, when a double is wanted.
-/

namespace Parens.Number

def isDigit (c : Char) : Bool := '0' ≤ c ∧ c ≤ '9'

/-- The number that digits write. -/
def digitsValue (digits : List Char) : Nat :=
  digits.foldl (fun n c => 10 * n + (c.toNat - '0'.toNat)) 0

/-- How many characters of a text an unsigned numeral at its start takes. A point without digits
before it needs digits after it. -/
def unsignedLength? (text : List Char) : Option Nat :=
  let whole := (text.takeWhile isDigit).length
  match text.drop whole with
  | '.' :: rest =>
    let places := (rest.takeWhile isDigit).length
    if whole = 0 ∧ places = 0 then none else some (whole + 1 + places)
  | _ => if whole = 0 then none else some whole

/-- How many characters of a text a numeral at its start takes. -/
def numeralLength? : List Char → Option Nat
  | '-' :: rest => (unsignedLength? rest).map (· + 1)
  | text => unsignedLength? text

/-- The fraction `digits / 10^places` with a sign. -/
structure Numeral where
  negative : Bool
  digits : Nat
  places : Nat
deriving DecidableEq, Repr

namespace Numeral

def ofUnsigned? (negative : Bool) (text : List Char) : Option Numeral :=
  let whole := text.takeWhile isDigit
  match text.dropWhile isDigit with
  | [] => if whole.isEmpty then none else some ⟨negative, digitsValue whole, 0⟩
  | '.' :: rest =>
    if (whole ++ rest).isEmpty || !rest.all isDigit then none
    else some ⟨negative, digitsValue (whole ++ rest), rest.length⟩
  | _ => none

/-- The fraction that a text writes, if the whole of it is a numeral. -/
def ofText? : List Char → Option Numeral
  | '-' :: rest => ofUnsigned? true rest
  | text => ofUnsigned? false text

/-- The nearest double. -/
def toFloat (n : Numeral) : Float := ofQuotient n.negative n.digits (Nat.pow 10 n.places)

example : ofText? "-1.50".toList = some ⟨true, 150, 2⟩ := by decide
example : ofText? ".".toList = none := by decide
example : ofText? "7.".toList = some ⟨false, 7, 0⟩ := by decide

end Numeral
end Parens.Number
