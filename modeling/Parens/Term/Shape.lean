import Parens.Reader.History
import Parens.Term.Readable

/-!
The shape of terms that are read from a text: what their atoms are, and what their lists end in, at
every place in them.
-/

namespace Parens

/-- A name that cannot be taken for anything else where it is written. -/
structure Name.Unmistakable (a : Name) : Prop where
  ne_nil : a.text ≠ []
  lower_eq : Text.lower a.text = a.text
  ne_nil_word : a.text ≠ ['n', 'i', 'l']
  ne_dot : a.text ≠ ['.']
  head?_ne : a.text.head? ≠ some '\x27'
  not_isNumeral : ¬ Number.IsNumeral a.text
  apart : ∀ c ∈ a.text, Text.isBlank c = false ∧ c ≠ '(' ∧ c ≠ ')' ∧ c ≠ ';'

namespace Term

/-- Whether the first term is the second one or stands somewhere in it. -/
inductive OccursIn (u : Term) : Term → Prop
  | self : OccursIn u u
  | car {a d : Term} : OccursIn u a → OccursIn u (cons a d)
  | cdr {a d : Term} : OccursIn u d → OccursIn u (cons a d)

/-- Whether all terms that stand in a term have a property. -/
def Everywhere (P : Term → Prop) (t : Term) : Prop := ∀ u : Term, u.OccursIn t → P u

/-- Whether a term, if it is an atom, is one that a text can spell. -/
def IsSpellable : Term → Prop
  | nil | cons _ _ => True
  | number x => Number.decode x ≠ .notANumber
  | symbol a => a.Unmistakable
  | procedure _ => False

/-- Whether a term, if it is a pair, begins a chain that ends in the empty list. -/
def EndsInNil : Term → Prop
  | cons _ d => d.tail = nil
  | _ => True

end Term

/-- Whether a term is returned when a text is read: by a reader, whatever it has been asked before
and also after it has failed, or as the one term or one of all terms of the text. -/
inductive Returned (source : List Char) (limit : Int) (t : Term) : Prop
  | reader {requests : List Reader.Request} {answer : Reader.Answer} {r : Reader} :
      (answer, r) ∈ (Reader.ofText source limit).transcript requests → t ∈ answer.returned →
      Returned source limit t
  | parse : parse source limit = .ok (some t) → Returned source limit t
  | readAll : t ∈ (readAll source limit).terms → Returned source limit t

end Parens
