import Parens.Number.Grammar
import Parens.Term.Basic
import Parens.Token.Basic

/-!
Terms that can be written and read back: without procedures, with finite numbers only, and with
symbols that the reader takes for symbols again.
-/

namespace Parens

/-- Whether a name reads as a symbol. -/
def Name.Readable (a : Name) : Prop :=
  (∀ c ∈ a.text, isDelimiter c = false) ∧ a.text.head? ≠ some '\x27' ∧ a.text ≠ ['.'] ∧
    a.text ≠ ['n', 'i', 'l'] ∧ ¬ Number.IsNumeral a.text

def Number.IsFinite (x : Float) : Prop :=
  ∃ negative significand exponent, decode x = .finite negative significand exponent

def Term.Readable : Term → Prop
  | nil => True
  | number x => Number.IsFinite x
  | symbol a => a.Readable
  | cons a d => a.Readable ∧ d.Readable
  | procedure _ => False

end Parens
