import Mathlib.Algebra.Group.Nat.Defs
import Parens.Proofs.Evaluation.Primitive
import Parens.Proofs.Evaluation.Sequence
import Parens.Proofs.Session.Start

/-!
Evaluation comes to an end where no symbol stands for a pair. What is evaluated next is always
smaller: it stands in the form, or it is the value of an argument, and a value is no larger than its
term. So as much depth as the term has parts is enough.
-/

namespace Parens

namespace Term

theorem uses_of_mem_items {table : Table} {t a : Term} (ht : t.Uses table) (ha : a ∈ t.items) :
    a.Uses table := by
  induction t with
  | nil | number _ | symbol _ | procedure _ => cases ha
  | cons b d _ ih =>
      cases List.mem_cons.1 ha with
      | inl heq => exact heq ▸ ht.1
      | inr hd => exact ih ht.2 hd

/-- A value that takes no more room than the term, and uses no other procedures. -/
structure Bounds (table : Table) (t v : Term) : Prop where
  size_le : v.size ≤ t.size
  uses : v.Uses table

end Term

/-- The calls for two terms, one after the other, are fewer than for a pair of them. -/
theorem two_pow_sub_one_add_le (a b : Nat) : 2 ^ a - 1 + (2 ^ b - 1) ≤ 2 ^ (a + b) - 1 := by
  have hpos := Nat.two_pow_pos a
  have hle : 2 ^ b - 1 ≤ 2 ^ a * (2 ^ b - 1) := Nat.le_mul_of_pos_left _ hpos
  have hmul : 2 ^ a ≤ 2 ^ a * 2 ^ b := Nat.le_mul_of_pos_right _ (Nat.two_pow_pos b)
  rw [Nat.mul_sub, Nat.mul_one] at hle
  rw [Nat.pow_add]
  omega

namespace Machine

open Evaluator

/-- A result that is settled after so many calls, with the bindings as they were. -/
structure Ends {α : Type} (m : Machine) (calls : Nat) (P : α → Prop)
    (result : Except Failure α × Machine) : Prop where
  settled : Settled P result.1
  store_eq : result.2.store = m.store
  calls_le : result.2.calls.length ≤ m.calls.length + calls

namespace Ends

variable {α β : Type} {m : Machine} {calls calls' : Nat} {P : α → Prop} {Q : β → Prop}

theorem mono {P' : α → Prop} {result : Except Failure α × Machine} (h : m.Ends calls P result)
    (hcalls : calls ≤ calls') (himp : ∀ v, P v → P' v) : m.Ends calls' P' result where
  settled := h.settled.mono himp
  store_eq := h.store_eq
  calls_le := Nat.le_trans h.calls_le (Nat.add_le_add_left hcalls _)

theorem failed {e : Failure} (h : e ≠ .exhausted) : m.Ends calls P (.error e, m) :=
  ⟨.failure h, rfl, Nat.le_add_right _ _⟩

theorem notApplicable : m.Ends calls P (.error .notApplicable, m) := failed nofun

theorem of_settled {r : Except Failure α} (h : Settled P r) : m.Ends 0 P (r, m) :=
  ⟨h, rfl, Nat.le_refl _⟩

theorem of_record {t : Term} {result : Except Failure α × Machine}
    (h : (m.record t).Ends calls P result) : m.Ends (calls + 1) P result := by
  have hcalls : result.2.calls.length ≤ m.calls.length + 1 + calls := h.calls_le
  exact ⟨h.settled, h.store_eq, by omega⟩

theorem andThen {a : Except Failure α × Machine} {k : α → Machine → Except Failure β × Machine}
    (h : m.Ends calls P a)
    (hk : ∀ (v : α) (m' : Machine), m'.store = m.store → P v → m'.Ends calls' Q (k v m')) :
    m.Ends (calls + calls') Q (andThen a k) := by
  obtain ⟨r, m'⟩ := a
  obtain ⟨hsettled, hstore, hcalls⟩ := h
  have hcalls : m'.calls.length ≤ m.calls.length + calls := hcalls
  cases hsettled with
  | failure he => exact ⟨.failure he, hstore, by simp only [andThen_error]; omega⟩
  | value hv =>
      have hrest := hk _ m' hstore hv
      have hrestCalls := hrest.calls_le
      exact ⟨hrest.settled, hrest.store_eq.trans hstore, by simp only [andThen_ok]; omega⟩

end Ends

/-- What holds of an evaluator for terms of a limited size, where its table is used. -/
def EndsUpTo (table : Table) (s : Store) (n : Nat) (ev : Evaluator Machine) : Prop :=
  ∀ {t : Term} {m : Machine}, m.store = s → t.size ≤ n → t.Uses table →
    m.Ends (2 ^ t.size - 1) (t.Bounds table) (ev table.scope t m)

/-- The values of some terms, none larger than its term. -/
structure BoundsAll (table : Table) (ts vs : List Term) : Prop where
  length_eq : vs.length = ts.length
  size_le : Term.totalSize vs ≤ Term.totalSize ts
  uses : ∀ v ∈ vs, v.Uses table

section Step

variable {table : Table} {s : Store} {n : Nat} {ev : Evaluator Machine} {m : Machine}

theorem ends_evalAll (hev : EndsUpTo table s n ev) {ts : List Term} (hm : m.store = s)
    (hsize : Term.totalSize ts ≤ n) (huses : ∀ t ∈ ts, t.Uses table) :
    m.Ends (2 ^ Term.totalSize ts - 1) (BoundsAll table ts) (ev.evalAll table.scope ts m) := by
  induction ts generalizing m with
  | nil => exact .of_settled (.value ⟨rfl, Nat.le_refl _, nofun⟩)
  | cons t rest ih =>
      have hrest := fun u hu => huses u (List.mem_cons_of_mem t hu)
      rw [Term.totalSize] at hsize ⊢
      rw [evalAll_cons]
      have hfirst := hev hm (Nat.le_trans (Nat.le_add_right _ _) hsize) (huses t List.mem_cons_self)
      refine (hfirst.andThen ?_).mono (two_pow_sub_one_add_le _ _) fun _ => id
      intro v m₁ hm₁ hv
      have hothers := ih (hm₁.trans hm) (Nat.le_trans (Nat.le_add_left _ _) hsize) hrest
      refine (hothers.andThen ?_).mono (Nat.le_of_eq (Nat.add_zero _)) fun _ => id
      intro vs m₂ _ hvs
      refine .of_settled (.value ⟨congrArg (· + 1) hvs.length_eq, ?_, ?_⟩)
      · exact Nat.add_le_add hv.size_le hvs.size_le
      · exact List.forall_mem_cons.2 ⟨hv.uses, hvs.uses⟩

/-- Only the evaluating procedure of the table itself goes on, with an argument that is already
known to be small. -/
theorem ends_applyValue (hev : EndsUpTo table s n ev) {f : Term} {args : List Term}
    (hm : m.store = s) (hsize : Term.totalSize args ≤ n) (hf : f.Uses table)
    (hargs : ∀ a ∈ args, a.Uses table) :
    m.Ends (2 ^ Term.totalSize args - 1)
      (fun v => v.size ≤ Term.totalSize args + args.length + 1 ∧ v.Uses table)
      (applyValue ev f args m) := by
  cases f with
  | nil | number _ | symbol _ | cons _ _ => exact .notApplicable
  | procedure f =>
      obtain ⟨p, -, happly⟩ | ⟨t, rfl, hevaluator, happly⟩ | ⟨e, he, happly⟩ := f.apply_cases args
      · rw [applyValue, happly]
        refine (Ends.of_settled (p.settled_apply args)).mono (Nat.zero_le _) ?_
        intro v hv
        exact ⟨hv.size_le, hv.uses hargs⟩
      · have htable : f.table = table := by
          cases hf with
          | inl heq => exact heq
          | inr hnone => exact absurd (hevaluator.symm.trans hnone) (by decide)
        rw [applyValue, happly, htable]
        refine (hev hm hsize (hargs t List.mem_cons_self)).mono (Nat.le_refl _) ?_
        intro v hv
        exact ⟨Nat.le_trans hv.size_le (Nat.le_add_right _ 2), hv.uses⟩
      · rw [applyValue, happly]
        exact Ends.failed he

theorem ends_evalForm (hev : EndsUpTo table s n ev) {first rest : Term} (hm : m.store = s)
    (hsize : first.size + rest.size ≤ n) (hfirst : first.Uses table) (hrest : rest.Uses table) :
    m.Ends (2 ^ (first.size + rest.size) - 1) ((Term.cons first rest).Bounds table)
      (evalForm ev table.scope first rest m) := by
  rw [evalForm_eq]
  refine ((hev hm (Nat.le_trans (Nat.le_add_right _ _) hsize) hfirst).andThen ?_).mono
    (two_pow_sub_one_add_le _ _) fun _ => id
  intro f m₁ hm₁ hf
  cases rest with
  | nil | number _ | symbol _ | procedure _ => exact .notApplicable
  | cons a d =>
      have hitems := Term.size_eq_items (Term.cons a d)
      have htail := Term.size_pos (Term.cons a d).tail
      have hlength : 0 < (Term.cons a d).items.length := Nat.succ_pos _
      have hitemsSize : Term.totalSize (Term.cons a d).items ≤ n := by omega
      have hargs := ends_evalAll hev (hm₁.trans hm) hitemsSize fun _ => Term.uses_of_mem_items hrest
      -- the arguments are evaluated, and at most one of their values is evaluated once more
      have hcalls : 2 ^ Term.totalSize (Term.cons a d).items - 1 +
          (2 ^ Term.totalSize (Term.cons a d).items - 1) ≤ 2 ^ (Term.cons a d).size - 1 := by
        have hpow := Nat.pow_le_pow_right (n := 2) (by decide)
          (by omega : Term.totalSize (Term.cons a d).items + 1 ≤ (Term.cons a d).size)
        rw [Nat.pow_succ] at hpow
        omega
      refine (hargs.andThen ?_).mono hcalls fun _ => id
      intro args m₂ hm₂ hvs
      have hvalues := hvs.size_le
      have hlengths := hvs.length_eq
      refine (ends_applyValue hev (hm₂.trans (hm₁.trans hm)) (by omega) hf.uses hvs.uses).mono ?_ ?_
      · exact Nat.sub_le_sub_right (Nat.pow_le_pow_right (by decide) hvalues) 1
      · intro v hv
        refine ⟨?_, hv.2⟩
        rw [Term.size_cons]
        omega

theorem settled_lookup (hflat : s.Flat table) (a : Name) :
    Settled ((Term.symbol a).Bounds table) (s.lookup table.scope (.symbol a)) := by
  cases hvalue : s.get? table.scope a with
  | some v =>
      rw [Store.lookup_of_get?_eq_some hvalue]
      have hsize := Term.size_eq_one (hflat.kind_ne hvalue)
      exact .value ⟨Nat.le_of_eq hsize, hflat.uses hvalue⟩
  | none =>
      rw [Store.lookup_of_get?_eq_none hvalue]
      exact .failure nofun

theorem settled_quotedPart (first : Term) {rest : Term} (hrest : rest.Uses table) :
    Settled ((Term.cons first rest).Bounds table) (quotedPart rest) := by
  cases rest with
  | nil | number _ | symbol _ | procedure _ => exact .failure nofun
  | cons a d =>
      refine .value ⟨?_, hrest.1⟩
      simp only [Term.size_cons]
      omega

/-- One more level of depth is enough for terms that are one part larger. -/
theorem endsUpTo_evalStep (hflat : s.Flat table) (hev : EndsUpTo table s n ev) :
    EndsUpTo table s (n + 1) (evalStep ev) := by
  intro t m hm hsize ht
  -- The call for the term itself comes on top of those for what is inside it.
  have hatom : ∀ {r : Except Failure Term}, Settled (t.Bounds table) r →
      m.Ends (2 ^ t.size - 1) (t.Bounds table) (r, m.record t) := by
    intro r hr
    have hpow := Nat.pow_le_pow_right (n := 2) (by decide) t.size_pos
    exact (Ends.of_settled hr).of_record.mono (by omega) fun _ => id
  cases t with
  | nil | number _ | procedure _ => exact hatom (.value ⟨Nat.le_refl _, ht⟩)
  | symbol a =>
      rw [evalStep_symbol, hm]
      exact hatom (settled_lookup hflat a)
  | cons first rest =>
      rw [Term.size_cons] at hsize
      rw [evalStep]
      split
      · exact hatom (settled_quotedPart first ht.2)
      · have hform := ends_evalForm (m := m.record (.cons first rest)) hev hm
          (Nat.le_of_succ_le_succ hsize) ht.1 ht.2
        have hpos := Nat.two_pow_pos (first.size + rest.size)
        refine hform.of_record.mono ?_ fun _ => id
        rw [Term.size_cons, Nat.pow_succ]
        omega

theorem endsUpTo_evalWithin (hflat : s.Flat table) (depth : Nat) :
    EndsUpTo table s depth (evalWithin depth) := by
  induction depth with
  | zero => exact fun _ hsize => absurd hsize (Nat.not_le_of_gt (Term.size_pos _))
  | succ depth ih => exact endsUpTo_evalStep hflat ih

end Step

/-- A form that evaluates what a symbol stands for, which is the form itself: no depth is enough. -/
theorem exhausted_of_self_reference {table : Table} {s : Store} {a b : Name} {m : Machine}
    (hevaluator : table.evaluator) (ha : s.get? table.scope a = some (.procedure ⟨table, .eval⟩))
    (hb : s.get? table.scope b = some (.cons (.symbol a) (.cons (.symbol b) .nil)))
    (hne : a ≠ .quote) (hm : m.store = s) (depth : Nat) :
    (evalWithin depth table.scope (.cons (.symbol a) (.cons (.symbol b) .nil)) m).1 =
      .error .exhausted := by
  induction depth generalizing m with
  | zero => rfl
  | succ depth ih =>
      have hfirst : Term.symbol a ≠ .symbol .quote := fun h => hne (Term.symbol.inj h)
      rw [evalWithin, evalStep_form hfirst]
      cases depth with
      | zero => rfl
      | succ depth =>
          have hvalue : ∀ {c : Name} {v : Term} (m : Machine), m.store = s →
              s.get? table.scope c = some v →
              evalWithin (depth + 1) table.scope (.symbol c) m = (.ok v, m.record (.symbol c)) :=
            fun m hm hc => evalWithin_symbol (hm ▸ hc) depth
          rw [hvalue (m.record _) hm ha, andThen_ok, evalAll_cons,
            hvalue ((m.record _).record _) hm hb]
          simp only [Term.items, evalAll, andThen_ok, applyValue, Procedure.apply, hevaluator,
            if_true]
          exact ih hm

theorem evalWithin_eq_eval {table : Table} {m : Machine} {t : Term} (hstore : m.store.Flat table)
    (ht : t.Uses table) {depth : Nat} (hdepth : t.size ≤ depth) :
    evalWithin depth table.scope t m = eval table.scope t m := by
  have hleast := (endsUpTo_evalWithin hstore t.size rfl (Nat.le_refl _) ht).settled.ne_exhausted
  exact (evalWithin_of_le hdepth hleast).trans
    (evalWithin_of_le (Nat.le_add_right _ _) hleast).symm

theorem ends_eval {table : Table} {m : Machine} {t : Term} (hstore : m.store.Flat table)
    (ht : t.Uses table) :
    m.Ends (2 ^ t.size - 1) (t.Bounds table) (eval table.scope t m) :=
  endsUpTo_evalWithin hstore _ rfl (Nat.le_add_right _ _) ht

/-- Where no symbol stands for a pair, evaluation settles with as much depth as its term has parts,
or any more. Its value is no larger than the term, and the number of calls has a bound. -/
theorem eval_settles_of_flat :
    (∀ evaluator, (Session.start evaluator).state.store.Flat (Session.start evaluator).table) ∧
    ∀ (table : Table) (m : Machine) (t : Term), m.store.Flat table → t.Uses table →
      (∀ depth, t.size ≤ depth →
        evalWithin depth table.scope t m = eval table.scope t m) ∧
      (eval table.scope t m).1 ≠ .error .exhausted ∧
      (∀ v, (eval table.scope t m).1 = .ok v → v.size ≤ t.size) ∧
      (eval table.scope t m).2.store = m.store ∧
      (eval table.scope t m).2.calls.length < m.calls.length + 2 ^ t.size := by
  refine ⟨Session.flat_start, fun table m t hstore ht => ?_⟩
  have hends := ends_eval hstore ht
  refine ⟨fun _ => evalWithin_eq_eval hstore ht, hends.settled.ne_exhausted, ?_, hends.store_eq, ?_⟩
  · intro v hv
    have hbounds := hends.settled
    rw [hv] at hbounds
    exact hbounds.of_ok.size_le
  · have hcalls := hends.calls_le
    have hpos := Nat.two_pow_pos t.size
    omega

theorem eval_settles_of_flat_computed_form :
    let session := Session.start (some eval)
    let form := Term.cons (.symbol Builtin.eval.key) (.cons (.ofList
      [.symbol (Builtin.primitive .cons).key, .quoted (.symbol (Builtin.primitive .list).key),
        .quoted (.ofList [.symbol .t, .procedure ⟨session.table, .eval⟩] .nil)] .nil) .nil)
    session.state.store.Flat session.table ∧ form.Uses session.table ∧ form.size = 23 ∧
      (∀ depth, 23 ≤ depth → evalWithin depth session.table.scope form session.state =
        eval session.table.scope form session.state) ∧
      (eval session.table.scope form session.state).1 ≠ .error .exhausted := by
  intro session form
  have hflat : session.state.store.Flat session.table := eval_settles_of_flat.1 (some eval)
  have huses : form.Uses session.table := by
    simp [form, Term.Uses, Term.quoted]
  have hsize : form.size = 23 := rfl
  obtain ⟨hdepth, hends, -⟩ := eval_settles_of_flat.2 session.table session.state form hflat huses
  exact ⟨hflat, huses, hsize, hsize ▸ hdepth, hends⟩

end Machine
end Parens
