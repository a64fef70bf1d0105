import Parens.Evaluator
import Parens.Proofs.Store.Bindings

/-!
Evaluation as a sequence. What a form needs is evaluated one after the other, and the first failure
ends all of it. Two evaluations are compared along this sequence: what holds of the single steps
holds of both as a whole, however deep they nest.
-/

namespace Parens

namespace Evaluator

variable {σ α β : Type}

/-- Goes on with a value, and ends with a failure. -/
def andThen (r : Except Failure α × σ) (k : α → σ → Except Failure β × σ) : Except Failure β × σ :=
  match r with
  | (.error e, s) => (.error e, s)
  | (.ok v, s) => k v s

@[simp] theorem andThen_error (e : Failure) (s : σ) (k : α → σ → Except Failure β × σ) :
    andThen (.error e, s) k = (.error e, s) := rfl

@[simp] theorem andThen_ok (v : α) (s : σ) (k : α → σ → Except Failure β × σ) :
    andThen (.ok v, s) k = k v s := rfl

theorem evalAll_cons (ev : Evaluator σ) (scope : Nat) (t : Term) (rest : List Term) (s : σ) :
    ev.evalAll scope (t :: rest) s =
      andThen (ev scope t s) fun v s =>
        andThen (ev.evalAll scope rest s) fun vs s => (.ok (v :: vs), s) := by
  rw [evalAll]
  cases ev scope t s with
  | mk r s =>
      cases r with
      | error e => rfl
      | ok v =>
          cases h : ev.evalAll scope rest s with
          | mk r s' => cases r <;> simp [h]

end Evaluator

/-- A procedure evaluates its only argument in the scope of its table, or its outcome has nothing to
do with what evaluates. -/
theorem Procedure.apply_cases (f : Procedure) (args : List Term) :
    (∃ p, f.builtin = .primitive p ∧
      ∀ {σ : Type} (ev : Evaluator σ) (s : σ), f.apply ev args s = (p.apply args, s)) ∨
    (∃ t, args = [t] ∧ f.table.evaluator ∧
      ∀ {σ : Type} (ev : Evaluator σ) (s : σ), f.apply ev args s = ev f.table.scope t s) ∨
    ∃ e, e ≠ .exhausted ∧
      ∀ {σ : Type} (ev : Evaluator σ) (s : σ), f.apply ev args s = (.error e, s) := by
  obtain ⟨table, builtin⟩ := f
  cases builtin with
  | primitive p => exact .inl ⟨p, rfl, fun ev s => rfl⟩
  | eval =>
      refine .inr ?_
      by_cases hcount : args.length = 1
      · obtain ⟨t, rfl⟩ := List.length_eq_one_iff.1 hcount
        cases hevaluator : table.evaluator with
        | true => exact .inl ⟨t, rfl, rfl, fun ev s => by simp [apply, hevaluator]⟩
        | false =>
            refine .inr ⟨.noEvaluator "eval: no evaluator backend attached", nofun, ?_⟩
            intro σ ev s
            simp [apply, hevaluator, Evaluator.missing]
      · refine .inr ⟨.arity "eval" 1 args.length false, nofun, fun ev s => ?_⟩
        simp only [apply, Argument.one_of_length_ne hcount]
        rfl

namespace Machine

open Evaluator

theorem evalForm_eq (ev : Evaluator Machine) (scope : Nat) (first rest : Term) (m : Machine) :
    evalForm ev scope first rest m =
      andThen (ev scope first m) fun f m =>
        match rest with
        | .cons _ _ => andThen (ev.evalAll scope rest.items m) (applyValue ev f)
        | _ => (.error .notApplicable, m) := by
  rw [evalForm]
  cases ev scope first m with
  | mk r m =>
      cases r with
      | error e => rfl
      | ok f =>
          cases rest with
          | nil | number _ | symbol _ | procedure _ => rfl
          | cons a d =>
              cases h : ev.evalAll scope (Term.cons a d).items m with
              | mk r m' => cases r <;> simp [h]

theorem evalStep_symbol (ev : Evaluator Machine) (scope : Nat) (a : Name) (m : Machine) :
    evalStep ev scope (.symbol a) m =
      (m.store.lookup scope (.symbol a), m.record (.symbol a)) := rfl

theorem evalStep_quoted (ev : Evaluator Machine) (scope : Nat) (t : Term) (m : Machine) :
    evalStep ev scope t.quoted m = (.ok t, m.record t.quoted) := rfl

/-- A form with arguments, the first of which is no quote. -/
theorem evalStep_form {first : Term} (h : first ≠ .symbol .quote) (ev : Evaluator Machine)
    (scope : Nat) (a d : Term) (m : Machine) :
    evalStep ev scope (.cons first (.cons a d)) m =
      andThen (ev scope first (m.record (.cons first (.cons a d)))) fun f m =>
        andThen (ev.evalAll scope (a :: d.items) m) (applyValue ev f) := by
  simp only [evalStep, if_neg h, evalForm_eq, Term.items]

theorem evalWithin_symbol {scope : Nat} {a : Name} {v : Term} {m : Machine}
    (h : m.store.get? scope a = some v) (depth : Nat) :
    evalWithin (depth + 1) scope (.symbol a) m = (.ok v, m.record (.symbol a)) := by
  rw [evalWithin, evalStep_symbol, Store.lookup_of_get?_eq_some h]

/-- A way to compare evaluations step by step: which machines correspond, and which results do. -/
structure Simulation (I : Machine → Machine → Prop)
    (O : {α : Type} → Except Failure α × Machine → Except Failure α × Machine → Prop) : Prop where
  store_eq : ∀ {m m'}, I m m' → m.store = m'.store
  record : ∀ {m m'} t, I m m' → I (m.record t) (m'.record t)
  outcome : ∀ {α : Type} {m m'} (r : Except Failure α), I m m' → O (r, m) (r, m')
  andThen : ∀ {α β : Type} {a b : Except Failure α × Machine}
    {k k' : α → Machine → Except Failure β × Machine},
    O a b → (∀ v {m m'}, I m m' → O (k v m) (k' v m')) → O (andThen a k) (andThen b k')

namespace Simulation

variable {I : Machine → Machine → Prop}
  {O : {α : Type} → Except Failure α × Machine → Except Failure α × Machine → Prop}
  {ev ev' : Evaluator Machine} {m m' : Machine}

theorem evalAll (sim : Simulation I O)
    (hev : ∀ scope t {m m'}, I m m' → O (ev scope t m) (ev' scope t m')) (scope : Nat)
    (ts : List Term) (hm : I m m') :
    O (ev.evalAll scope ts m) (ev'.evalAll scope ts m') := by
  induction ts generalizing m m' with
  | nil => exact sim.outcome _ hm
  | cons t rest ih =>
      rw [evalAll_cons, evalAll_cons]
      refine sim.andThen (hev scope t hm) ?_
      intro v m m' hm
      refine sim.andThen (ih hm) ?_
      intro vs m m' hm
      exact sim.outcome _ hm

theorem applyValue (sim : Simulation I O)
    (hev : ∀ scope t {m m'}, I m m' → O (ev scope t m) (ev' scope t m')) (f : Term)
    (args : List Term) (hm : I m m') :
    O (applyValue ev f args m) (applyValue ev' f args m') := by
  cases f with
  | nil | number _ | symbol _ | cons _ _ => exact sim.outcome _ hm
  | procedure f =>
      obtain ⟨p, -, h⟩ | ⟨t, -, -, h⟩ | ⟨e, -, h⟩ := f.apply_cases args
      · simpa only [Machine.applyValue, h] using sim.outcome (p.apply args) hm
      · simpa only [Machine.applyValue, h] using hev f.table.scope t hm
      · simpa only [Machine.applyValue, h] using sim.outcome (.error e) hm

theorem evalStep (sim : Simulation I O)
    (hev : ∀ scope t {m m'}, I m m' → O (ev scope t m) (ev' scope t m')) (scope : Nat) (t : Term)
    (hm : I m m') : O (evalStep ev scope t m) (evalStep ev' scope t m') := by
  have hrecord := sim.record t hm
  cases t with
  | nil | number _ | procedure _ => exact sim.outcome _ hrecord
  | symbol a =>
      simp only [Machine.evalStep]
      rw [sim.store_eq hrecord]
      exact sim.outcome _ hrecord
  | cons first rest =>
      simp only [Machine.evalStep]
      split
      · exact sim.outcome _ hrecord
      · rw [evalForm_eq, evalForm_eq]
        refine sim.andThen (hev scope first hrecord) ?_
        clear hrecord
        intro f m m' hm
        cases rest with
        | nil | number _ | symbol _ | procedure _ => exact sim.outcome _ hm
        | cons a d =>
            refine sim.andThen (sim.evalAll hev scope _ hm) ?_
            intro args m m' hm
            exact sim.applyValue hev f args hm

end Simulation

/-- A result that is kept, unless there was not enough depth for one. -/
def Refines {α : Type} (a b : Except Failure α × Machine) : Prop := a.1 = .error .exhausted ∨ a = b

theorem simulation_refines : Simulation Eq Refines where
  store_eq h := congrArg store h
  record t h := congrArg (·.record t) h
  outcome _ h := .inr (by rw [h])
  andThen := by
    intro α β a b k k' hab hk
    obtain ⟨r, m⟩ := a
    cases hab with
    | inl hexhausted => exact .inl (by rw [show r = _ from hexhausted]; rfl)
    | inr heq =>
        subst heq
        cases r with
        | error e => exact .inr rfl
        | ok v => exact hk v rfl

/-- Evaluation that may nest deeper comes to the same result. -/
theorem refines_evalWithin {depth depth' : Nat} (h : depth ≤ depth') (scope : Nat) (t : Term)
    (m : Machine) : Refines (evalWithin depth scope t m) (evalWithin depth' scope t m) := by
  induction depth generalizing depth' scope t m with
  | zero => exact .inl rfl
  | succ depth ih =>
      cases depth' with
      | zero => cases h
      | succ depth' =>
          refine simulation_refines.evalStep ?_ scope t rfl
          intro scope t m m' hm
          rw [hm]
          exact ih (Nat.le_of_succ_le_succ h) scope t m'

theorem evalWithin_of_le {depth depth' : Nat} (h : depth ≤ depth') {scope : Nat} {t : Term}
    {m : Machine} (hends : (evalWithin depth scope t m).1 ≠ .error .exhausted) :
    evalWithin depth' scope t m = evalWithin depth scope t m :=
  ((refines_evalWithin h scope t m).resolve_left hends).symm

/-- Results with the same outcome, from machines that have and keep the same store. -/
structure Agree (s : Store) {α : Type} (a b : Except Failure α × Machine) : Prop where
  outcome_eq : a.1 = b.1
  store_eq : a.2.store = s ∧ b.2.store = s

theorem simulation_agree (s : Store) :
    Simulation (fun m m' => m.store = s ∧ m'.store = s) (Agree s) where
  store_eq h := h.1.trans h.2.symm
  record _ h := h
  outcome _ h := ⟨rfl, h⟩
  andThen := by
    intro α β a b k k' hab hk
    obtain ⟨r, m⟩ := a
    obtain ⟨r', m'⟩ := b
    obtain ⟨rfl, hstores⟩ := hab
    cases r with
    | error e => exact ⟨rfl, hstores⟩
    | ok v => exact hk v hstores

/-- Evaluation depends on the bindings, which it keeps, and not on what was evaluated before. -/
theorem agree_evalWithin (depth scope : Nat) (t : Term) {s : Store} {m m' : Machine}
    (hm : m.store = s ∧ m'.store = s) :
    Agree s (evalWithin depth scope t m) (evalWithin depth scope t m') := by
  induction depth generalizing scope t m m' with
  | zero => exact ⟨rfl, hm⟩
  | succ depth ih => exact (simulation_agree s).evalStep ih scope t hm

end Machine
end Parens
