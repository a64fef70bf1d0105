import Parens.Proofs.Session.Stream

/-!
What a session evaluates, and in which order. The terms of a text are evaluated one after the other,
each once and in the global scope, up to the first that fails; the failure that ends the text itself
comes last, after all of its terms. What an evaluator is asked for is seen in a log that it keeps.
-/

namespace Parens

namespace Evaluator

variable {σ : Type}

/-- Evaluates the terms of a list one after the other, all of them with a value, on the way from one
state to another. -/
inductive Runs (ev : Evaluator σ) (scope : Nat) : List Term → List Term → σ → σ → Prop
  | nil (s : σ) : Runs ev scope [] [] s s
  | cons {t v : Term} {rest values : List Term} {s s₁ s₂ : σ} :
      ev scope t s = (.ok v, s₁) → Runs ev scope rest values s₁ s₂ →
        Runs ev scope (t :: rest) (v :: values) s s₂

/-- The evaluator with a log of what it was asked for, and in which scope, the latest first. -/
def logged (ev : Evaluator σ) : Evaluator (σ × List (Nat × Term)) := fun scope t s =>
  let (outcome, s') := ev scope t s.1
  (outcome, s', (scope, t) :: s.2)

variable {ev : Evaluator σ} {scope : Nat} {ending : Except Failure Unit} {value t : Term}
  {before after values : List Term} {s s' s₁ : σ} {e : Failure}

theorem evalStream_of_runs (h : ev.Runs scope before values s s') :
    ev.evalStream scope ending value before s =
      (ending.map fun () => values.getLastD value, s') := by
  induction h generalizing value with
  | nil s => rfl
  | cons hfirst _ ih =>
      rw [evalStream, hfirst, andThen_ok, ih, List.getLastD_cons]

/-- What stands behind a term that fails is not looked at. -/
theorem evalStream_of_fails (h : ev.Runs scope before values s s₁)
    (hfails : ev scope t s₁ = (.error e, s')) :
    ev.evalStream scope ending value (before ++ t :: after) s = (.error e, s') := by
  induction h generalizing value with
  | nil s =>
      rw [List.nil_append, evalStream, hfails]
      rfl
  | cons hfirst _ ih =>
      rw [List.cons_append, evalStream, hfirst, andThen_ok]
      exact ih hfails

/-- All terms of a list have values, or there is a first that fails. -/
theorem runs_or_fails (ev : Evaluator σ) (scope : Nat) (terms : List Term) (s : σ) :
    (∃ values s', ev.Runs scope terms values s s') ∨
      ∃ before t after values s₁ e s', terms = before ++ t :: after ∧
        ev.Runs scope before values s s₁ ∧ ev scope t s₁ = (.error e, s') := by
  induction terms generalizing s with
  | nil => exact .inl ⟨[], s, .nil s⟩
  | cons t terms ih =>
      rcases hfirst : ev scope t s with ⟨e | v, s'⟩
      · exact .inr ⟨[], t, terms, [], s, e, s', rfl, .nil s, hfirst⟩
      · rcases ih s' with ⟨values, s₂, hruns⟩ |
          ⟨before, u, after, values, s₁, e, s₂, rfl, hruns, hfails⟩
        · exact .inl ⟨v :: values, s₂, .cons hfirst hruns⟩
        · exact .inr ⟨t :: before, u, after, v :: values, s₁, e, s₂, rfl, .cons hfirst hruns,
            hfails⟩

theorem logged_eq {outcome : Except Failure Term} (h : ev scope t s = (outcome, s'))
    (log : List (Nat × Term)) :
    ev.logged scope t (s, log) = (outcome, s', (scope, t) :: log) := by
  simp only [logged, h]

/-- A run is logged term by term. -/
theorem Runs.logged (h : ev.Runs scope before values s s') (log : List (Nat × Term)) :
    ev.logged.Runs scope before values (s, log)
      (s', (before.map (scope, ·)).reverse ++ log) := by
  induction h generalizing log with
  | nil s => exact .nil _
  | @cons t v rest values s s₁ s₂ hfirst _ ih =>
      rw [List.map_cons, List.reverse_cons, List.append_assoc]
      exact .cons (logged_eq hfirst log) (ih ((scope, t) :: log))

end Evaluator

namespace Session

variable {σ : Type}

/-- What a session with an evaluator does to a text is what the evaluator does to the stream read
from it. -/
theorem eval_of_evalStream_eq {ev : Evaluator σ} {table : Table} {limit : Int} {text : List Char}
    {outcome : Except Failure Term} {s s' : σ}
    (h : ev.evalStream table.scope (readAll text limit).ending .nil (readAll text limit).terms s =
      (outcome, s')) :
    (⟨some ev, table, s⟩ : Session σ).eval limit text = (outcome, ⟨some ev, table, s'⟩) := by
  rw [eval_eq_evalStream _ rfl]
  simp only [h]

/-- A session evaluates the terms of a text from left to right, each once and in the global scope,
and none behind the first that fails. If none fails it has the last value, or else fails as reading
did. -/
theorem eval_folds_reading (ev : Evaluator σ) (table : Table) (s : σ) (limit : Int)
    (text : List Char) :
    let reading := readAll text limit
    (reading.ending = .ok () ∨ ∃ p, reading.ending = .error (.parse p)) ∧
    (∃ asked ahead outcome s', reading.terms = asked ++ ahead ∧
      (⟨some ev, table, s⟩ : Session σ).eval limit text = (outcome, ⟨some ev, table, s'⟩) ∧
      (⟨some ev.logged, table, (s, [])⟩ : Session (σ × List (Nat × Term))).eval limit text =
        (outcome, ⟨some ev.logged, table, (s', (asked.map (table.scope, ·)).reverse)⟩) ∧
      ((ahead = [] ∧ ∃ values, ev.Runs table.scope asked values s s' ∧
          outcome = reading.ending.map fun () => values.getLastD .nil) ∨
        ∃ before t values s₁ e, asked = before ++ [t] ∧
          ev.Runs table.scope before values s s₁ ∧ ev table.scope t s₁ = (.error e, s') ∧
          outcome = .error e)) ∧
    (∀ ts, reading.all = .ok ts ↔ reading.ending = .ok () ∧ ts = reading.terms) ∧
    ∀ e, reading.all = .error e ↔ reading.ending = .error e := by
  intro reading
  refine ⟨?_, ?_, ?_⟩
  · rcases (Reader.ofText text limit).readAll_cases with ⟨hok, -⟩ | hfails
    · exact .inl hok
    · exact .inr hfails
  · rcases ev.runs_or_fails table.scope reading.terms s with ⟨values, s', hruns⟩ |
      ⟨before, t, after, values, s₁, e, s', hterms, hruns, hfails⟩
    · have hlog := hruns.logged []
      rw [List.append_nil] at hlog
      exact ⟨reading.terms, [], _, s', (List.append_nil _).symm,
        eval_of_evalStream_eq (Evaluator.evalStream_of_runs hruns),
        eval_of_evalStream_eq (Evaluator.evalStream_of_runs hlog),
        .inl ⟨rfl, values, hruns, rfl⟩⟩
    · have hlog := hruns.logged []
      rw [List.append_nil] at hlog
      refine ⟨before ++ [t], after, .error e, s', ?_, eval_of_evalStream_eq ?_,
        eval_of_evalStream_eq ?_, .inr ⟨before, t, values, s₁, e, rfl, hruns, hfails, rfl⟩⟩
      · rw [hterms, List.append_assoc]
        rfl
      · change (readAll text limit).terms = _ at hterms
        rw [hterms]
        exact Evaluator.evalStream_of_fails hruns hfails
      · change (readAll text limit).terms = _ at hterms
        rw [hterms, Evaluator.evalStream_of_fails hlog (Evaluator.logged_eq hfails _),
          List.map_append, List.reverse_append]
        rfl
  · cases hending : reading.ending with
    | error e => simp [Reading.all, hending]
    | ok _ => simp [Reading.all, hending, eq_comm]

end Session
end Parens
