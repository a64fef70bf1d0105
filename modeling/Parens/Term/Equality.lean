import Parens.Term.Basic

/-!
Equality of terms. Numbers are compared as doubles, so the two zeros are equal and a number that is
not one equals nothing; a procedure equals itself only. Pairs are compared on a list of what is
still to be compared, so neither long nor deep terms need a deep stack.
-/

namespace Parens.Term

/-- Equality of two terms of which at least one is no pair. -/
def atomEqual : Term → Term → Bool
  | nil, nil => true
  | number x, number y => x == y
  | symbol a, symbol b => a == b
  | procedure f, procedure g => f == g
  | _, _ => false

/-- Whether the two terms of every pair of the list are equal. -/
def equalAll : List (Term × Term) → Bool
  | [] => true
  | (cons a d, cons b e) :: rest => equalAll ((a, b) :: (d, e) :: rest)
  | (s, t) :: rest => s.atomEqual t && equalAll rest
termination_by pending => totalSize (pending.map Prod.fst)
decreasing_by
  · simp only [List.map_cons, totalSize, size_cons]
    omega
  · simp only [List.map_cons, totalSize]
    have := s.size_pos
    omega

def equal (s t : Term) : Bool := equalAll [(s, t)]

/-- Equality by recursion on the terms. -/
def same : Term → Term → Bool
  | cons a d, cons b e => a.same b && d.same e
  | s, t => s.atomEqual t

end Parens.Term
