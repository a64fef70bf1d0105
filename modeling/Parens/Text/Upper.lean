import Parens.Text.Upper.Table

/-! Uppercase text, character by character. -/

namespace Parens.Text

/-- The uppercase form of a character: several characters for those that are spelt out. -/
def upperChar (c : Char) : List Char :=
  match upperSpellings.lookup c.toNat with
  | some codes => codes.map Char.ofNat
  | none => [Char.ofNat (mapCode upperRuns c.toNat)]

def upper (text : List Char) : List Char := text.flatMap upperChar

end Parens.Text
