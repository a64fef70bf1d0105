import Parens.Procedure.Table

/-!
Evaluation. What evaluates is a function on states of any kind, which may fail and keeps its state
when it does; procedures are applied with its help, because one of them evaluates its argument.

The evaluator defined here looks symbols up, takes quotations apart, and otherwise applies the value
of a form's first element to the values of the others. It keeps a log of the terms it was asked for.
-/

namespace Parens

def Evaluator (σ : Type) := (scope : Nat) → Term → σ → Except Failure Term × σ

def Evaluator.missing {σ : Type} : Evaluator σ := fun _ _ s =>
  (.error (.noEvaluator "eval: no evaluator backend attached"), s)

def Procedure.apply {σ : Type} (ev : Evaluator σ) (f : Procedure) (args : List Term) (s : σ) :
    Except Failure Term × σ :=
  match f.builtin with
  | .primitive p => (p.apply args, s)
  | .eval =>
    match Argument.one f.name args with
    | .error e => (.error e, s)
    | .ok t =>
      if f.table.evaluator then ev f.table.scope t s else Evaluator.missing f.table.scope t s

/-- Evaluates terms from left to right, up to the first that fails. -/
def Evaluator.evalAll {σ : Type} (ev : Evaluator σ) (scope : Nat) :
    List Term → σ → Except Failure (List Term) × σ
  | [], s => (.ok [], s)
  | t :: rest, s =>
    match ev scope t s with
    | (.error e, s) => (.error e, s)
    | (.ok v, s) =>
      match ev.evalAll scope rest s with
      | (.error e, s) => (.error e, s)
      | (.ok vs, s) => (.ok (v :: vs), s)

/-- The bindings that evaluation works with, and the terms evaluated so far, the latest first. -/
structure Machine where
  store : Store
  calls : List Term

namespace Machine

def record (m : Machine) (t : Term) : Machine := { m with calls := t :: m.calls }

/-- Applies a value to arguments, if it is a procedure. -/
def applyValue (ev : Evaluator Machine) (f : Term) (args : List Term) (m : Machine) :
    Except Failure Term × Machine :=
  match f with
  | .procedure f => f.apply ev args m
  | _ => (.error .notApplicable, m)

/-- Evaluates a form that is no quotation. It needs a list of arguments, if an empty one is not
among them: a form of one element has none. The tail of a dotted list is ignored. -/
def evalForm (ev : Evaluator Machine) (scope : Nat) (first rest : Term) (m : Machine) :
    Except Failure Term × Machine :=
  match ev scope first m with
  | (.error e, m) => (.error e, m)
  | (.ok f, m) =>
    match rest with
    | .cons _ _ =>
      match ev.evalAll scope rest.items m with
      | (.error e, m) => (.error e, m)
      | (.ok args, m) => applyValue ev f args m
    | _ => (.error .notApplicable, m)

/-- What a quotation quotes: the second element of a form, whatever else follows. -/
def quotedPart : Term → Except Failure Term
  | .cons x _ => .ok x
  | _ => .error .emptyQuotation

/-- Evaluates a term, and the terms inside it by `ev`. -/
def evalStep (ev : Evaluator Machine) : Evaluator Machine := fun scope t m =>
  let m := m.record t
  match t with
  | .symbol _ => (m.store.lookup scope t, m)
  | .cons first rest =>
    if first = .symbol .quote then (quotedPart rest, m) else evalForm ev scope first rest m
  | _ => (.ok t, m)

/-- Evaluation that may nest so many times. -/
def evalWithin : Nat → Evaluator Machine
  | 0 => fun _ _ m => (.error .exhausted, m)
  | depth + 1 => evalStep (evalWithin depth)

/-- How much deeper than its term evaluation may nest, by way of forms that names stand for. -/
def spareDepth : Nat := 10000

def eval : Evaluator Machine := fun scope t m => evalWithin (t.size + spareDepth) scope t m

end Machine
end Parens
