import Parens.Token.Cursor
import Parens.Token.Lexeme

/-!
The way of a cursor from token to token, as a relation between places of one text.
-/

namespace Parens.Cursor

/-- The place of the next token, or the end. -/
def skipLayout (c : Cursor) : Cursor := c.advance (layoutLength false 0 c.after)

/-- Whether reading these lexemes, one after the other, leads from one place of a text to another:
the second stands right behind the last of them. -/
inductive Reads : Cursor → List Lexeme → Cursor → Prop
  | nil (c : Cursor) : Reads c [] c
  | cons {c c₁ c' : Cursor} {x : Lexeme} {xs : List Lexeme} :
      Lexeme.first? c.after = some (x, c₁.after) → c₁.source = c.source → Reads c₁ xs c' →
      Reads c (x :: xs) c'

end Parens.Cursor
