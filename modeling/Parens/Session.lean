import Parens.Reader
import Parens.Evaluator

/-!
Sessions. A session has one global scope with a table of procedures, and an evaluator or none. It
evaluates source text form by form: a form is read only after those before it have been evaluated.
-/

namespace Parens

structure Session (σ : Type) where
  evaluator : Option (Evaluator σ)
  table : Table
  state : σ

namespace Session

variable {σ : Type}

/-- Evaluates the terms that a reader still holds, each before the next is read, and returns the
last value, or the given one if there are no terms. -/
def evalTerms (ev : Evaluator σ) (scope : Nat) (r : Reader) (value : Term) (s : σ) :
    Except Failure Term × σ :=
  match _h : r.readTerm with
  | (.error e, _) => (.error e, s)
  | (.ok none, r) =>
    match r.ensureEmpty with
    | (.error e, _) => (.error e, s)
    | (.ok (), _) => (.ok value, s)
  | (.ok (some t), r) =>
    match ev scope t s with
    | (.error e, s) => (.error e, s)
    | (.ok value, s) => evalTerms ev scope r value s
termination_by r.lexer.remaining
decreasing_by exact Reader.remaining_readTerm_lt _h

/-- Evaluates a text in the global scope. Without an evaluator the text is not even read. -/
def eval (session : Session σ) (limit : Int) (text : List Char) :
    Except Failure Term × Session σ :=
  match session.evaluator with
  | none => (.error (.noEvaluator "no evaluator backend attached"), session)
  | some ev =>
    let (outcome, s) :=
      evalTerms ev session.table.scope (Reader.ofText text limit) .nil session.state
    (outcome, { session with state := s })

/-- Applies a procedure. One that evaluates can do so only if the session does. -/
def apply (session : Session σ) (f : Procedure) (args : List Term) :
    Except Failure Term × Session σ :=
  let (outcome, s) := f.apply (session.evaluator.getD .missing) args session.state
  (outcome, { session with state := s })

def applyValue (session : Session σ) (f : Term) (args : List Term) :
    Except Failure Term × Session σ :=
  match f with
  | .procedure f => session.apply f args
  | _ => (.error .notApplicable, session)

/-- Calls a procedure of the session's table by its name, in any case. -/
def call (session : Session σ) (name : List Char) (args : List Term) :
    Except Failure Term × Session σ :=
  match session.table.find? name with
  | some f => session.apply f args
  | none =>
    match Name.ofText name with
    | .ok a => (.error (.unbound (String.ofList a.text)), session)
    | .error e => (.error e, session)

/-- A session with the bindings of a fresh table, and the given evaluator of machines. -/
def start (evaluator : Option (Evaluator Machine)) : Session Machine :=
  let (table, store) := (Store.empty.addScope none).register 0 evaluator.isSome
  ⟨evaluator, table, ⟨store, []⟩⟩

end Session
end Parens
