import Parens.Name

/-!
Terms: numbers, symbols, the empty list, pairs, and procedures. A list is a chain of pairs that ends
in the empty list, or in another term if it is dotted. The empty list is also the false value.
-/

namespace Parens

inductive Arithmetic where
  | add | mul | sub | div
deriving DecidableEq, Repr

inductive Comparison where
  | eq | ne | gt | ge | lt | le
deriving DecidableEq, Repr

/-- The procedures that only look at their arguments. -/
inductive Primitive where
  | arithmetic (op : Arithmetic)
  | list | cons | car | cdr | isEmpty
  | compare (op : Comparison)
deriving DecidableEq, Repr

/-- The procedures of a table: the primitives, and the one that calls the evaluator. -/
inductive Builtin where
  | primitive (p : Primitive)
  | eval
deriving DecidableEq, Repr

/-- A table of procedures. Its evaluating procedure works in the given scope, if the table has an
evaluator at all. Tables with different serial numbers have different procedures. -/
structure Table where
  serial : Nat
  scope : Nat
  evaluator : Bool
deriving DecidableEq, Repr

/-- An entry of a table. -/
structure Procedure where
  table : Table
  builtin : Builtin
deriving DecidableEq, Repr

inductive Term where
  | nil
  | number (value : Float)
  | symbol (name : Name)
  | cons (car cdr : Term)
  | procedure (entry : Procedure)
deriving DecidableEq

inductive Kind where
  | number | symbol | cons | nil | function
deriving DecidableEq, Repr

def Kind.name : Kind → String
  | number => "number"
  | symbol => "symbol"
  | cons => "cons"
  | nil => "nil"
  | function => "function"

namespace Term

instance : Inhabited Term := ⟨.nil⟩

def kind : Term → Kind
  | nil => .nil
  | number _ => .number
  | symbol _ => .symbol
  | cons _ _ => .cons
  | procedure _ => .function

/-- The number that a term is. -/
def float : (t : Term) → t.kind = .number → Float
  | number x, _ => x

/-- The two sides of a pair. -/
def sides : (t : Term) → t.kind = .cons → Term × Term
  | cons a d, _ => (a, d)

theorem exists_eq_number {t : Term} (h : t.kind = .number) : ∃ x, t = number x := by
  cases t with
  | number x => exact ⟨x, rfl⟩
  | nil | symbol _ | cons _ _ | procedure _ => cases h

theorem exists_eq_cons {t : Term} (h : t.kind = .cons) : ∃ a d, t = cons a d := by
  cases t with
  | cons a d => exact ⟨a, d, rfl⟩
  | nil | number _ | symbol _ | procedure _ => cases h

/-- Every term but the empty list counts as true. -/
def truthy : Term → Bool
  | nil => false
  | _ => true

def ofBool (flag : Bool) : Term := if flag then symbol .t else nil

/-- The chain of pairs that holds the items in their order and ends in `tail`. -/
def ofList (items : List Term) (tail : Term) : Term := items.foldr cons tail

/-- The items along a chain of pairs. -/
def items : Term → List Term
  | cons a d => a :: d.items
  | _ => []

/-- What a chain of pairs ends in. -/
def tail : Term → Term
  | cons _ d => d.tail
  | t => t

/-- The form that stands for a quoted term. -/
def quoted (t : Term) : Term := cons (symbol .quote) (cons t nil)

/-- The number of pairs and atoms. -/
def size : Term → Nat
  | cons a d => a.size + d.size + 1
  | _ => 1

def totalSize : List Term → Nat
  | [] => 0
  | t :: rest => t.size + totalSize rest

@[simp] theorem size_cons (a d : Term) : (cons a d).size = a.size + d.size + 1 := rfl

theorem size_pos (t : Term) : 0 < t.size := by
  cases t <;> simp [size]

@[simp] theorem ofList_nil (tail : Term) : ofList [] tail = tail := rfl

@[simp] theorem ofList_cons (a : Term) (items : List Term) (tail : Term) :
    ofList (a :: items) tail = cons a (ofList items tail) := rfl

end Term
end Parens
