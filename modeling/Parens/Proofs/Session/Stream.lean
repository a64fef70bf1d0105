import Parens.Proofs.Evaluation.Sequence
import Parens.Proofs.Reader.Grammar
import Parens.Session

/-!
Evaluating a text form by form comes to the same as reading it as far as possible and then
evaluating what was read, as long as evaluation succeeds. How reading ended counts only after the
last form.
-/

namespace Parens

/-- Evaluates terms one after the other. Behind the last one it fails as their source does, or else
has the last value, or the given one if there are no terms. -/
def Evaluator.evalStream {σ : Type} (ev : Evaluator σ) (scope : Nat)
    (ending : Except Failure Unit) :
    Term → List Term → σ → Except Failure Term × σ
  | value, [], s => (ending.map fun () => value, s)
  | _, t :: rest, s => andThen (ev scope t s) fun v s => ev.evalStream scope ending v rest s

namespace Session

variable {σ : Type}

/-- The forms that are read before a failure are evaluated all the same. -/
theorem evalTerms_eq_evalStream (ev : Evaluator σ) (scope : Nat) (r : Reader) (value : Term)
    (s : σ) :
    evalTerms ev scope r value s =
      ev.evalStream scope r.readAll.ending value r.readAll.terms s := by
  fun_induction evalTerms ev scope r value s with
  | case1 r value s e r' hread =>
      rw [Reader.readAll_of_readTerm_error hread]
      rfl
  | case2 r value s r' hread e r'' hempty =>
      rw [Reader.readAll_of_readTerm_none hread, hempty]
      rfl
  | case3 r value s r' hread r'' hempty =>
      rw [Reader.readAll_of_readTerm_none hread, hempty]
      rfl
  | case4 r value s t r' hread e s' hev =>
      rw [Reader.readAll_of_readTerm hread, Evaluator.evalStream, hev]
      rfl
  | case5 r value s t r' hread v s' hev ih =>
      rw [Reader.readAll_of_readTerm hread, Evaluator.evalStream, hev]
      exact ih

theorem eval_eq_evalStream (session : Session σ) {ev : Evaluator σ}
    (hev : session.evaluator = some ev) (limit : Int) (text : List Char) :
    session.eval limit text =
      let reading := readAll text limit
      let result :=
        ev.evalStream session.table.scope reading.ending .nil reading.terms session.state
      (result.1, { session with state := result.2 }) := by
  simp only [eval, hev, evalTerms_eq_evalStream]
  rfl

/-- A text that holds one term is evaluated as the term. -/
theorem eval_of_terms_eq_singleton (session : Session σ) {ev : Evaluator σ}
    (hev : session.evaluator = some ev) {limit : Int} {text : List Char} {t : Term}
    (hterms : (readAll text limit).terms = [t]) (hending : (readAll text limit).ending = .ok ()) :
    session.eval limit text =
      ((ev session.table.scope t session.state).1,
        { session with state := (ev session.table.scope t session.state).2 }) := by
  rw [eval_eq_evalStream session hev]
  simp only [hterms, hending, Evaluator.evalStream]
  obtain ⟨outcome, s⟩ := ev session.table.scope t session.state
  cases outcome with
  | error e => rfl
  | ok v => rfl

end Session
end Parens
