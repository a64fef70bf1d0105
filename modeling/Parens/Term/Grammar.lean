import Parens.Reader.Frame
import Parens.Token.Lexeme

/-!
The grammar of terms over lexemes. A derivation says which rule derives a term, with the lexemes
that the rule takes and the derivations of its parts; it is well formed by its type. It spells
lexemes and stands for a term. What the terms are is written out here, and the same is what the
reader makes. A list with no items before its point is its tail.
-/

namespace Parens

/-- A lexeme of the given kind. -/
abbrev Lexeme.Of (kind : Token.Kind) := { x : Lexeme // x.kind = kind }

/-- What a word stands for: in lower case it is nil, or else the text of a symbol. -/
inductive StandsFor (word : List Char) : Term → Prop
  | nil : Text.lower word = ['n', 'i', 'l'] → StandsFor word .nil
  | symbol {a : Name} : Text.lower word ≠ ['n', 'i', 'l'] → a.text = Text.lower word →
      StandsFor word (.symbol a)

theorem standsFor_iff_ofWord {word : List Char} {t : Term} :
    StandsFor word t ↔ Term.ofWord word = .ok t := by
  constructor
  · intro h
    cases h with
    | nil hnil =>
        have hne : word ≠ [] := by
          rintro rfl
          cases hnil
        rw [Term.ofWord_of_ne_nil hne, if_pos hnil]
    | @symbol a hword htext =>
        have hne : word ≠ [] := fun heq => a.ne_nil (htext.trans (Text.lower_eq_nil_iff.2 heq))
        obtain ⟨text, _, _⟩ := a
        obtain rfl : text = Text.lower word := htext
        rw [Term.ofWord_of_ne_nil hne, if_neg hword]
  · intro h
    by_cases hne : word = []
    · subst hne
      cases h
    · rw [Term.ofWord_of_ne_nil hne] at h
      cases Except.ok.inj h
      split
      · exact .nil ‹_›
      · exact .symbol ‹_› rfl

theorem StandsFor.eq {word : List Char} {t u : Term} (ht : StandsFor word t)
    (hu : StandsFor word u) : t = u :=
  Except.ok.inj ((standsFor_iff_ofWord.1 ht).symm.trans (standsFor_iff_ofWord.1 hu))

mutual

inductive Derivation where
  | number (token : Lexeme.Of .number) (n : Number.Numeral)
      (reads : Number.Numeral.ofText? token.1.text = some n)
  | symbol (token : Lexeme.Of .symbol) (t : Term) (reads : StandsFor token.1.text t)
  | quote (mark : Lexeme.Of .quote) (quoted : Derivation)
  | list (left : Lexeme.Of .opening) (items : Derivations) (right : Lexeme.Of .closing)
  | dotted (left : Lexeme.Of .opening) (items : Derivations) (point : Lexeme.Of .dot)
      (tail : Derivation) (right : Lexeme.Of .closing)

inductive Derivations where
  | nil
  | cons (first : Derivation) (rest : Derivations)

end

mutual

/-- The lexemes that a derivation takes, in their order. -/
def Derivation.lexemes : Derivation → List Lexeme
  | .number token _ _ | .symbol token _ _ => [token.1]
  | .quote mark quoted => mark.1 :: quoted.lexemes
  | .list left items right => left.1 :: (items.lexemes ++ [right.1])
  | .dotted left items point tail right =>
    left.1 :: (items.lexemes ++ point.1 :: (tail.lexemes ++ [right.1]))

def Derivations.lexemes : Derivations → List Lexeme
  | .nil => []
  | .cons first rest => first.lexemes ++ rest.lexemes

end

mutual

/-- The term that a derivation stands for. -/
def Derivation.value : Derivation → Term
  | .number _ n _ => .number n.toFloat
  | .symbol _ t _ => t
  | .quote _ quoted => .cons (.symbol .quote) (.cons quoted.value .nil)
  | .list _ items _ => items.pairs .nil
  | .dotted _ items _ tail _ => items.pairs tail.value

/-- A pair for every item, of the item and what stands behind it; behind the last is the tail. -/
def Derivations.pairs : Derivations → (tail : Term) → Term
  | .nil, tail => tail
  | .cons first rest, tail => .cons first.value (rest.pairs tail)

end

def Derivations.values : Derivations → List Term
  | .nil => []
  | .cons first rest => first.value :: rest.values

theorem Derivations.pairs_eq (ds : Derivations) (tail : Term) :
    ds.pairs tail = .ofList ds.values tail := by
  match ds with
  | .nil => rfl
  | .cons first rest => rw [pairs, values, Term.ofList_cons, rest.pairs_eq]

namespace Derivation

variable (left : Lexeme.Of .opening) (items : Derivations) (right : Lexeme.Of .closing)

theorem value_quote (mark : Lexeme.Of .quote) (quoted : Derivation) :
    (quote mark quoted).value = quoted.value.quoted := rfl

theorem value_list :
    (list left items right).value = .ofList items.values .nil := items.pairs_eq .nil

theorem value_dotted (point : Lexeme.Of .dot) (tail : Derivation) :
    (dotted left items point tail right).value = .ofList items.values tail.value :=
  items.pairs_eq tail.value

end Derivation

/-- Whether tokens derive one term. -/
def Derives (tokens : List Token) (t : Term) : Prop :=
  ∃ d : Derivation, d.lexemes = tokens.map Token.lexeme ∧ d.value = t

/-- Whether tokens derive a sequence of terms. -/
def DerivesAll (tokens : List Token) (ts : List Term) : Prop :=
  ∃ d : Derivations, d.lexemes = tokens.map Token.lexeme ∧ d.values = ts

end Parens
