import Parens.Term.Printer

/-!
Forms that apply a name to terms as they are: each term stands in the form as a quotation of itself.
-/

namespace Parens

/-- The form that applies what a name stands for to given terms. -/
def Term.application (a : Name) (args : List Term) : Term :=
  cons (symbol a) (ofList (args.map quoted) nil)

/-- The text of such a form, with the name in any spelling. -/
def applicationText (name : List Char) (args : List Term) : List Char :=
  '(' :: (name ++ args.flatMap (fun t => ' ' :: '\x27' :: t.render) ++ [')'])

end Parens
