import Mathlib.Data.List.Chain
import Parens.Token.Layout
import Parens.Token.Lexeme
import Parens.Token.Lexer

/-!
Tokens written out again, with layout of one's choice around them. Layout may be left out between
two tokens if one of them is a parenthesis, or the first is a quote.
-/

namespace Parens

/-- Whether a token of a kind may stand right before one of another kind. -/
def Token.Kind.mayTouch : Kind → Kind → Bool
  | .opening, _ | .closing, _ | .quote, _ => true
  | _, .opening | _, .closing => true
  | _, _ => false

/-- The text of layout and then tokens, each with layout behind it. -/
def spaced (first : List Char) (items : List (Token × List Char)) : List Char :=
  first ++ items.flatMap fun item => item.1.text ++ item.2

structure IsSpacing (first : List Char) (items : List (Token × List Char)) : Prop where
  first : IsLayout first
  behind : ∀ item ∈ items, IsLayout item.2
  apart : items.IsChain fun item next => item.2 = [] → item.1.kind.mayTouch next.1.kind

/-- Lexemes written out with single spaces between them. -/
def separated (xs : List Lexeme) : List Char := [' '].intercalate (xs.map Lexeme.text)

end Parens
