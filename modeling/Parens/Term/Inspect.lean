import Parens.Term.Printer
import Parens.Text.Quoted

/-!
Terms as inspection shows them: the constructors by name, symbols in quotes, and numbers with the
shortest digits that tell them apart.
-/

namespace Parens.Term

/-- The inspection of a term, followed by `rest`. -/
def inspectBefore (rest : List Char) : Term → List Char
  | nil => 'n' :: 'i' :: 'l' :: rest
  | number x => "Number(value=".toList ++ (Number.inspect x ++ ')' :: rest)
  | symbol a => "Symbol(".toList ++ (Text.quoted a.text ++ ')' :: rest)
  | cons a d => "Cons(".toList ++ a.inspectBefore (',' :: ' ' :: d.inspectBefore (')' :: rest))
  | procedure f => (procedure f).atomText ++ rest

def inspect (t : Term) : List Char := t.inspectBefore []

end Parens.Term
