import Parens.Term.Grammar

/-!
Chains of pairs step by step. A chain is built from its last item on, each put in front of what has
been built. It is taken apart from its first item on, with the items so far kept in their order; and
going through it yields an item at every pair, and none for the tail of a dotted list.
-/

namespace Parens

namespace Term

/-- Puts items in front of a term, the last of them first. -/
def build (items : List Term) (tail : Term) : Term :=
  items.reverse.foldl (fun built a => cons a built) tail

/-- Takes a chain apart, behind the items that have been taken from it. -/
def splitAfter : (taken : List Term) → Term → List Term × Term
  | taken, cons a d => splitAfter (taken ++ [a]) d
  | taken, t => (taken, t)

/-- What a chain is taken apart into: its items, and what it ends in. -/
def split (t : Term) : List Term × Term := splitAfter [] t

/-- What going through a chain yields, and where it goes on. -/
def next? : Term → Option (Term × Term)
  | cons a d => some (a, d)
  | _ => none

/-- Whether going through a term yields these items before it stops. -/
inductive Iterates : Term → List Term → Prop
  | stop {t : Term} : t.next? = none → Iterates t []
  | item {t a d : Term} {items : List Term} :
      t.next? = some (a, d) → Iterates d items → Iterates t (a :: items)

end Term

/-- Whether lexemes are those of a list: its items in brackets, with a point and the tail behind
them if a tail is written. -/
inductive WritesList (items : List Lexeme) : Option (List Lexeme) → List Lexeme → Prop
  | proper (left : Lexeme.Of .opening) (right : Lexeme.Of .closing) :
      WritesList items none (left.1 :: (items ++ [right.1]))
  | dotted (left : Lexeme.Of .opening) (point : Lexeme.Of .dot) (tail : List Lexeme)
      (right : Lexeme.Of .closing) :
      WritesList items (some tail) (left.1 :: (items ++ point.1 :: (tail ++ [right.1])))

/-- What a list ends in: what its written tail stands for, and the empty list without one. -/
def Term.ending (tail : Option Derivation) : Term := (tail.map Derivation.value).getD nil

end Parens
