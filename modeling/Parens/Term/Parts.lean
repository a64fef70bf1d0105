import Parens.Term.Basic

/-!
A term as a sequence: a mark for every pair, before what its two sides contribute, and the atoms in
between. Equal terms have equal sequences, and the hash of a term is the hash of its sequence.
-/

namespace Parens

/-- A mark of a pair, or an atom. -/
inductive Part where
  | pair
  | nil
  | number (value : Float)
  | symbol (name : Name)
  | procedure (entry : Procedure)
deriving DecidableEq

/-- The parts of several terms, one after the other. -/
def Part.ofTerms : List Term → List Part
  | [] => []
  | .cons a d :: rest => .pair :: ofTerms (a :: d :: rest)
  | .nil :: rest => .nil :: ofTerms rest
  | .number x :: rest => .number x :: ofTerms rest
  | .symbol a :: rest => .symbol a :: ofTerms rest
  | .procedure f :: rest => .procedure f :: ofTerms rest
termination_by pending => Term.totalSize pending
decreasing_by all_goals simp only [Term.totalSize, Term.size]; omega

def Term.parts (t : Term) : List Part := Part.ofTerms [t]

namespace Part

/-- Equality of parts goes with equality of terms: numbers are compared as doubles. -/
def equal : Part → Part → Bool
  | .number x, .number y => x == y
  | p, q => p = q

/-- Equal parts have equal hashes, so both zeros have that of zero. -/
def hash : Part → UInt64
  | pair => 1
  | nil => 2
  | number x => mixHash 3 (if x == 0.0 then 0 else Hashable.hash x.toBits)
  | symbol a => mixHash 5 (Hashable.hash (String.ofList a.text))
  | procedure f => mixHash 7 (Hashable.hash f.table.serial)

end Part

def Term.hash (t : Term) : UInt64 := t.parts.foldl (fun h p => mixHash h p.hash) 11

end Parens
