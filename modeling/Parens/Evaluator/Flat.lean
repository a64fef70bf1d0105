import Parens.Evaluator

/-!
Bindings without recursive definitions. A symbol that stands for a pair may stand for a form that
mentions the symbol again, so that its evaluation has no end. Atoms cannot do so, if the procedures
among them evaluate in the same scope, or nowhere.
-/

namespace Parens

/-- Whether each procedure in a term belongs to one table, or to one that evaluates nothing. -/
def Term.Uses (table : Table) : Term → Prop
  | cons a d => a.Uses table ∧ d.Uses table
  | procedure f => f.table = table ∨ f.table.evaluator = false
  | nil | number _ | symbol _ => True

/-- Whether no symbol stands for a pair in the scope in which a table evaluates. -/
structure Store.Flat (s : Store) (table : Table) : Prop where
  kind_ne : ∀ {a : Name} {v : Term}, s.get? table.scope a = some v → v.kind ≠ .cons
  uses : ∀ {a : Name} {v : Term}, s.get? table.scope a = some v → v.Uses table

end Parens
