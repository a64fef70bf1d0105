import Parens.Number.Binary64
import Parens.Term.Equality

/-!
The comparison of terms pass by pass. A pass takes two terms from the top of a stack. If they are
one object it goes on with what lies below. Two pairs give way to their parts, a pair differs from
every atom, and of two atoms each is asked what it knows about the other.
-/

namespace Parens

namespace Term

/-- Whether every number in a term is one. -/
def FreeOfNaN : Term → Prop
  | number x => Number.decode x ≠ .notANumber
  | cons a d => a.FreeOfNaN ∧ d.FreeOfNaN
  | nil | symbol _ | procedure _ => True

/-- What an atom answers when it is asked whether it equals another term. It does not know terms of
other kinds, except that the empty list knows all that it does not equal; and a procedure knows
itself only. -/
def answer? : Term → Term → Option Bool
  | nil, t => some (t.kind = .nil)
  | number x, number y => some (x == y)
  | symbol a, symbol b => some (a.text = b.text)
  | procedure f, procedure g => if f = g then some true else none
  | _, _ => none

/-- The second atom is asked if the first has no answer. If neither has one, the two are not equal.
-/
def agree (s t : Term) : Bool := ((s.answer? t).or (t.answer? s)).getD false

end Term

/-- Which terms are one object where a comparison meets them. What is pending shrinks with every
pass, so it tells all meetings apart. One object is one term, and none is met twice that holds what
is no number. -/
structure Sharing where
  isOne : (s t : Term) → (rest : List (Term × Term)) → Bool
  eq_of_isOne {s t : Term} {rest : List (Term × Term)} : isOne s t rest → s = t
  freeOfNaN_of_isOne {s t : Term} {rest : List (Term × Term)} : isOne s t rest → s.FreeOfNaN

/-- No two terms are one object. -/
instance : Inhabited Sharing :=
  ⟨⟨fun _ _ _ => false, (absurd · Bool.false_ne_true), (absurd · Bool.false_ne_true)⟩⟩

/-- What takes the place of two terms that are not one object, the top of the stack first; nothing
does if they differ. -/
def compared? : Term → Term → Option (List (Term × Term))
  | .cons a d, .cons b e => some [(a, b), (d, e)]
  | .cons _ _, _ | _, .cons _ _ => none
  | s, t => if s.agree t then some [] else none

/-- Whether so many passes over what is pending, the top of the stack first, come to this answer. -/
inductive Compares (sharing : Sharing) : Nat → (pending : List (Term × Term)) → Bool → Prop
  | done : Compares sharing 0 [] true
  | one {n : Nat} {s t : Term} {rest : List (Term × Term)} {answer : Bool} :
      sharing.isOne s t rest → Compares sharing n rest answer →
      Compares sharing (n + 1) ((s, t) :: rest) answer
  | pass {n : Nat} {s t : Term} {pushed rest : List (Term × Term)} {answer : Bool} :
      ¬ sharing.isOne s t rest → compared? s t = some pushed →
      Compares sharing n (pushed ++ rest) answer →
      Compares sharing (n + 1) ((s, t) :: rest) answer
  | differ {s t : Term} {rest : List (Term × Term)} :
      ¬ sharing.isOne s t rest → compared? s t = none →
      Compares sharing 1 ((s, t) :: rest) false

end Parens
