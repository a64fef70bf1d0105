import Parens.Procedure.Argument
import Parens.Term.Printer

/-!
The primitives. Arithmetic takes any number of numbers and looks at the kinds of its arguments
before it counts them; all other primitives count first. Sums, products, differences and quotients
are folded from the left in double precision.
-/

namespace Parens

namespace Arithmetic

/-- A quotient by zero fails, whatever its sign. -/
def divide (x y : Float) : Except Failure Float :=
  if y == 0.0 then .error (.zeroDivision div.symbol) else .ok (x / y)

/-- With a single number a difference is its negation, and a quotient its reciprocal. -/
def compute (op : Arithmetic) (xs : List Float) : Except Failure Float :=
  match op with
  | add => .ok (xs.foldl (· + ·) 0.0)
  | mul => .ok (xs.foldl (· * ·) 1.0)
  | sub => do
    let (x, rest) ← Argument.leading op.symbol xs
    return if rest.isEmpty then -x else rest.foldl (· - ·) x
  | div => do
    let (x, rest) ← Argument.leading op.symbol xs
    if rest.isEmpty then divide 1.0 x else rest.foldlM divide x

theorem compute_sub_cons (x : Float) (rest : List Float) :
    compute sub (x :: rest) = .ok (if rest.isEmpty then -x else rest.foldl (· - ·) x) := by
  rw [compute, Argument.leading_cons]
  rfl

theorem compute_div_cons (x : Float) (rest : List Float) :
    compute div (x :: rest) =
      if rest.isEmpty then divide 1.0 x else rest.foldlM divide x := by
  rw [compute, Argument.leading_cons]
  rfl

def apply (op : Arithmetic) (args : List Term) : Except Failure Term := do
  let xs ← Argument.numbers (some op.symbol) args
  let x ← op.compute xs
  return .number x

end Arithmetic

namespace Comparison

/-- Comparison as doubles: both zeros are equal, and what is not a number is unequal to all. -/
def holds : Comparison → Float → Float → Bool
  | eq, x, y => x == y
  | ne, x, y => x != y
  | gt, x, y => y < x
  | ge, x, y => y ≤ x
  | lt, x, y => x < y
  | le, x, y => x ≤ y

def apply (op : Comparison) (a b : Term) : Except Failure Term := do
  let x ← Argument.number (some op.symbol) a
  let y ← Argument.number (some op.symbol) b
  return .ofBool (op.holds x y)

end Comparison

namespace Primitive

def apply (p : Primitive) (args : List Term) : Except Failure Term :=
  match p with
  | arithmetic op => op.apply args
  | list => .ok (.ofList args .nil)
  | cons => do
    let (a, b) ← Argument.two p.name args
    return .cons a b
  | car => do
    let a ← Argument.one p.name args
    let (first, _) ← Argument.pair (some p.name) a
    return first
  | cdr => do
    let a ← Argument.one p.name args
    let (_, rest) ← Argument.pair (some p.name) a
    return rest
  | isEmpty => do
    let a ← Argument.one p.name args
    return .ofBool (a.kind = .nil)
  | compare op => do
    let (a, b) ← Argument.two p.name args
    op.apply a b

end Primitive
end Parens
