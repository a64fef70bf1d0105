import Parens.Token.Layout
import Parens.Token.Lexeme

/-!
Tokens in their places. The place of a token is what it is and where it stands; which of the tokens
handed out it is does not belong to it. Tokens cover a text if they stand in it one behind the
other, with nothing but layout around them.
-/

namespace Parens

/-- A token without its serial number. -/
def Token.place (t : Token) : Lexeme × Nat := (t.lexeme, t.start)

/-- The lexemes of a text, with their places in a longer text that has it from `pos` on. -/
def places (pos : Nat) (text : List Char) : List (Lexeme × Nat) :=
  match _h : Lexeme.first? text with
  | some (x, rest) =>
    let start := pos + layoutLength false 0 text
    (x, start) :: places (start + x.text.length) rest
  | none => []
termination_by text.length
decreasing_by exact Lexeme.length_lt_of_first? _h

/-- Whether tokens cover a text that begins at `pos`. -/
inductive Covers : (pos : Nat) → (text : List Char) → List Token → Prop
  | last {pos : Nat} {layout : List Char} : IsLastLayout layout → Covers pos layout []
  | token {pos : Nat} {layout behind : List Char} {t : Token} {ts : List Token} :
      IsLayout layout → t.text ≠ [] → t.start = pos + layout.length → Covers t.stop behind ts →
      Covers pos (layout ++ (t.text ++ behind)) (t :: ts)

end Parens
