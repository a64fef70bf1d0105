import Parens.Term.Printer

/-!
Bindings in nested scopes. A store holds scopes that are numbered as they are made, and an outer
scope is older than those inside it, so the way outwards comes to an end. A name is looked up in the
nearest scope that binds it; binding it again in one scope replaces its value and keeps its place.
-/

namespace Parens

/-- Names with their values, in the order in which the names were first defined. -/
abbrev Bindings := List (Name × Term)

/-- Binds a name to a value: in its old place, or behind all others. -/
def Bindings.set (name : Name) (value : Term) : Bindings → Bindings
  | [] => [(name, value)]
  | (a, v) :: rest => if a = name then (a, value) :: rest else (a, v) :: set name value rest

structure Scope where
  outer : Option Nat
  bindings : Bindings

namespace Scope

def get? (s : Scope) (name : Name) : Option Term := s.bindings.lookup name

def names (s : Scope) : List Name := s.bindings.map Prod.fst

def define (s : Scope) (name : Name) (value : Term) : Scope :=
  { s with bindings := s.bindings.set name value }

def inspect (s : Scope) : String :=
  "Environment(" ++ toString s.bindings.length ++ " bindings, outer=" ++
    (if s.outer.isSome then "yes" else "no") ++ ")"

end Scope

/-- What a value is filed under: a name as it is spelled, or a term, which should be a symbol. -/
inductive Key where
  | spelled (text : List Char)
  | term (t : Term)

namespace Term

def name? : Term → Option Name
  | symbol a => some a
  | _ => none

/-- What a term is called as a key that is refused. -/
def typeName : Term → String
  | nil => "NilType"
  | number _ => "Number"
  | symbol _ => "Symbol"
  | cons _ _ => "Cons"
  | procedure _ => "Func"

end Term

def Key.toTerm : Key → Except Failure Term
  | spelled text =>
    match Name.ofText text with
    | .ok a => .ok (.symbol a)
    | .error e => .error e
  | term t => .ok t

structure Store where
  scopes : Array Scope
  /-- How many tables of procedures have been made for its scopes. -/
  tables : Nat
  outer_lt : ∀ {i o : Nat} {s : Scope}, scopes[i]? = some s → s.outer = some o → o < i

namespace Store

def empty : Store := ⟨#[], 0, by simp⟩

/-- Makes a scope inside another that is there already, or one of its own. -/
def addScope (s : Store) (outer : Option Nat) : Store where
  scopes := s.scopes.push ⟨outer.filter (· < s.scopes.size), []⟩
  tables := s.tables
  outer_lt := by
    intro i o t h ho
    rw [Array.getElem?_push] at h
    split at h
    · rename_i hi
      cases h
      obtain ⟨-, hlt⟩ := Option.filter_eq_some_iff.1 ho
      rw [hi]
      exact of_decide_eq_true hlt
    · exact s.outer_lt h ho

def define (s : Store) (i : Nat) (name : Name) (value : Term) : Store where
  scopes := s.scopes.modify i (·.define name value)
  tables := s.tables
  outer_lt := by
    intro j o t h ho
    rw [Array.getElem?_modify] at h
    split at h
    · obtain ⟨u, hu, rfl⟩ := Option.map_eq_some_iff.1 h
      exact s.outer_lt hu ho
    · exact s.outer_lt h ho

/-- Binds a key in a scope, which has to be a symbol or the spelling of one. -/
def defineKey (s : Store) (i : Nat) (key : Key) (value : Term) : Except Failure Unit × Store :=
  match key.toTerm with
  | .error e => (.error e, s)
  | .ok (.symbol a) => (.ok (), s.define i a value)
  | .ok t => (.error (.wrongKind Kind.symbol.name t.typeName (some "define")), s)

/-- The nearest scope that binds a name, from a given scope outwards. -/
def find? (s : Store) (i : Nat) (name : Name) : Option Nat :=
  match _h : s.scopes[i]? with
  | none => none
  | some scope =>
    if (scope.get? name).isSome then some i
    else match _ho : scope.outer with
      | none => none
      | some o => s.find? o name
termination_by i
decreasing_by exact s.outer_lt _h _ho

/-- The value of a name in the nearest scope that binds it. -/
def get? (s : Store) (i : Nat) (name : Name) : Option Term := do
  let j ← s.find? i name
  let scope ← s.scopes[j]?
  scope.get? name

/-- The value under a term. Only symbols have any. -/
def lookup (s : Store) (i : Nat) (key : Term) : Except Failure Term :=
  match key.name?.bind (s.get? i) with
  | some value => .ok value
  | none => .error (.unbound (String.ofList key.render))

def contains (s : Store) (i : Nat) (key : Term) : Bool :=
  (key.name?.bind (s.find? i)).isSome

/-- The names that a scope binds itself, in the order in which they were first defined. -/
def names (s : Store) (i : Nat) : List Name :=
  match s.scopes[i]? with
  | some scope => scope.names
  | none => []

end Store
end Parens
