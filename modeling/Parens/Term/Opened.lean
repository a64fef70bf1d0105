import Parens.Term.Grammar

/-!
Terms that have been begun. While a term is read, some quotes and lists are open, each inside the
one before. What has been read by then is a mark for each of them, with the items that already stand
in a list and the point of a list that waits for its tail.
-/

namespace Parens

/-- An open quote or list, with what has been read of it. -/
inductive Opened where
  | quote (mark : Lexeme.Of .quote)
  | list (left : Lexeme.Of .opening) (items : Derivations)
  | tail (left : Lexeme.Of .opening) (items : Derivations) (point : Lexeme.Of .dot)

namespace Opened

def lexemes : Opened → List Lexeme
  | quote mark => [mark.1]
  | list left items => left.1 :: items.lexemes
  | tail left items point => left.1 :: (items.lexemes ++ [point.1])

/-- The lexemes of quotes and lists that are open at once, the innermost of them given first. -/
def spelling : List Opened → List Lexeme
  | [] => []
  | o :: outer => spelling outer ++ o.lexemes

/-- What waits for the rest of an open quote or list. -/
def frame : Opened → Frame
  | quote _ => .quote
  | list _ items => .list items.values.reverse
  | tail _ items _ => .tail items.values.reverse

end Opened

mutual

/-- How many quotes and lists of a term are open at once where it nests deepest. -/
def Derivation.nesting : Derivation → Nat
  | .number _ _ _ | .symbol _ _ _ => 0
  | .quote _ quoted => quoted.nesting + 1
  | .list _ items _ => items.nesting + 1
  | .dotted _ items _ tail _ => max items.nesting tail.nesting + 1

def Derivations.nesting : Derivations → Nat
  | .nil => 0
  | .cons first rest => max first.nesting rest.nesting

end

/-- Whether lexemes can be read up to a place where so many quotes and lists are open at once. -/
def Opens (lexemes : List Lexeme) (n : Nat) : Prop :=
  ∃ os : List Opened, os.length = n ∧ Opened.spelling os <+: lexemes

theorem Opens.of_isPrefix {xs ys : List Lexeme} {n : Nat} (h : Opens xs n) (hxs : xs <+: ys) :
    Opens ys n := by
  obtain ⟨os, hlength, hos⟩ := h
  exact ⟨os, hlength, hos.trans hxs⟩

theorem opens_succ {os : List Opened} {x : Lexeme} (hx : x.kind = .quote ∨ x.kind = .opening) :
    Opens (Opened.spelling os ++ [x]) (os.length + 1) := by
  rcases hx with hx | hx
  · exact ⟨.quote ⟨x, hx⟩ :: os, rfl, List.prefix_rfl⟩
  · exact ⟨.list ⟨x, hx⟩ .nil :: os, rfl, List.prefix_rfl⟩

namespace Derivations

/-- Items with one more behind them. -/
def snoc : Derivations → Derivation → Derivations
  | nil, last => cons last nil
  | cons first rest, last => cons first (rest.snoc last)

theorem lexemes_snoc (items : Derivations) (last : Derivation) :
    (items.snoc last).lexemes = items.lexemes ++ last.lexemes := by
  match items with
  | nil => simp [snoc, lexemes]
  | cons first rest => simp [snoc, lexemes, rest.lexemes_snoc last]

theorem values_snoc (items : Derivations) (last : Derivation) :
    (items.snoc last).values = items.values ++ [last.value] := by
  match items with
  | nil => rfl
  | cons first rest => simp [snoc, values, rest.values_snoc last]

end Derivations
end Parens
