import Parens.Procedure.Primitive
import Parens.Store

/-!
Tables of procedures. Every table has the same procedures in the same order; they differ in the
scope in which terms are evaluated, if they are evaluated at all.
-/

namespace Parens

def Builtin.all : List Builtin :=
  let arithmetic := [.add, .mul, .sub, .div].map (Builtin.primitive ∘ .arithmetic)
  let lists := [Primitive.list, .cons, .car, .cdr, .isEmpty].map Builtin.primitive
  let comparisons := [.eq, .ne, .gt, .ge, .lt, .le].map (Builtin.primitive ∘ .compare)
  arithmetic ++ lists ++ .eval :: comparisons

namespace Table

/-- The table that belongs to no store and evaluates nothing. -/
def detached : Table := ⟨0, 0, false⟩

def procedures (table : Table) : List Procedure := Builtin.all.map (⟨table, ·⟩)

def find? (table : Table) (name : List Char) : Option Procedure :=
  table.procedures.find? (·.name = String.ofList (Text.lower name))

end Table

def Procedure.key? (f : Procedure) : Option Name := Name.ofText? f.name.toList

/-- Makes a table that evaluates in a scope, and binds its procedures and the truth value there. -/
def Store.register (s : Store) (scope : Nat) (evaluator : Bool) : Table × Store :=
  let table : Table := ⟨s.tables + 1, scope, evaluator⟩
  let bindProcedure (s : Store) (f : Procedure) : Store :=
    match f.key? with
    | some a => s.define scope a (.procedure f)
    | none => s
  let s := table.procedures.foldl bindProcedure { s with tables := s.tables + 1 }
  (table, s.define scope .t (.symbol .t))

end Parens
