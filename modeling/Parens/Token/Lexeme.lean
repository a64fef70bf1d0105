import Parens.Token.Basic

/-!
A text as the sequence of its lexemes. A lexeme is a token without its place: what the grammar of
terms looks at. Lexing is a function of the text alone here, without a cursor and without serial
numbers.
-/

namespace Parens

structure Lexeme where
  kind : Token.Kind
  text : List Char
deriving DecidableEq, Repr

def Token.lexeme (t : Token) : Lexeme := ⟨t.kind, t.text⟩

/-- The text behind its leading layout. -/
def code (text : List Char) : List Char := text.drop (layoutLength false 0 text)

/-- The first lexeme of a text, and the text behind it. -/
def Lexeme.first? (text : List Char) : Option (Lexeme × List Char) :=
  match Token.first? (code text) with
  | some (kind, n) => some (⟨kind, (code text).take n⟩, (code text).drop n)
  | none => none

theorem Lexeme.length_lt_of_first? {text rest : List Char} {x : Lexeme}
    (h : first? text = some (x, rest)) : rest.length < text.length := by
  unfold first? at h
  split at h
  · rename_i kind n hn
    cases h
    have hpos := Token.pos_of_first? hn
    have hne : code text ≠ [] := by
      intro hnil
      rw [hnil] at hn
      cases hn
    have hlen := List.length_pos_iff.2 hne
    simp only [code, List.length_drop] at hlen ⊢
    omega
  · cases h

def lexemes (text : List Char) : List Lexeme :=
  match _h : Lexeme.first? text with
  | some (x, rest) => x :: lexemes rest
  | none => []
termination_by text.length
decreasing_by exact Lexeme.length_lt_of_first? _h

end Parens
