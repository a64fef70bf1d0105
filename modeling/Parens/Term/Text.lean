import Parens.Term.Printer

/-!
Surface syntax by recursion on the term.
-/

namespace Parens.Term

mutual

def text : Term → List Char
  | cons (symbol a) (cons x nil) =>
    if a = .quote then '\x27' :: x.text else '(' :: (a.text ++ ' ' :: (x.text ++ [')']))
  | cons a d => '(' :: (a.text ++ d.restText)
  | t => t.atomText

/-- The text of a list behind one of its items. -/
def restText : Term → List Char
  | nil => [')']
  | cons a d => ' ' :: (a.text ++ d.restText)
  | t => ' ' :: '.' :: ' ' :: (t.atomText ++ [')'])

end

end Parens.Term
