import Parens.Evaluator.Flat
import Parens.Proofs.Term.Size

/-!
What a primitive makes of its arguments. It fails for a reason of its own, or its value is no larger
than a list of the arguments: no primitive uses an argument twice, and none brings in another
procedure.
-/

namespace Parens

/-- An outcome that is a value of some kind, or a failure that more depth would not mend. -/
inductive Settled {α : Type} (P : α → Prop) : Except Failure α → Prop
  | value {v : α} (h : P v) : Settled P (.ok v)
  | failure {e : Failure} (h : e ≠ .exhausted) : Settled P (.error e)

namespace Settled

variable {α β : Type} {P : α → Prop} {Q : β → Prop} {r : Except Failure α}

theorem ne_exhausted (h : Settled P r) : r ≠ .error .exhausted := by
  cases h with
  | value _ => exact nofun
  | failure h => exact fun heq => h (Except.error.inj heq)

theorem of_ok {v : α} (h : Settled P (.ok v)) : P v := by
  cases h with
  | value h => exact h

theorem mono {P' : α → Prop} (h : Settled P r) (himp : ∀ v, P v → P' v) : Settled P' r := by
  cases h with
  | value h => exact .value (himp _ h)
  | failure h => exact .failure h

theorem bind {k : α → Except Failure β} (h : Settled P r) (hk : ∀ v, P v → Settled Q (k v)) :
    Settled Q (r >>= k) := by
  cases h with
  | value h => exact hk _ h
  | failure h => exact .failure h

end Settled

namespace Term

theorem uses_ofList {table : Table} {items : List Term} {tail : Term}
    (hitems : ∀ a ∈ items, a.Uses table) (htail : tail.Uses table) :
    (ofList items tail).Uses table := by
  induction items with
  | nil => exact htail
  | cons a items ih =>
      have hrest := ih fun b hb => hitems b (List.mem_cons_of_mem a hb)
      exact ⟨hitems a List.mem_cons_self, hrest⟩

/-- A value that takes no more room than a list of the arguments, and uses no procedure but theirs.
-/
structure MadeFrom (args : List Term) (v : Term) : Prop where
  size_le : v.size ≤ totalSize args + args.length + 1
  uses : ∀ {table : Table}, (∀ a ∈ args, a.Uses table) → v.Uses table

theorem madeFrom_number (args : List Term) (x : Float) : (number x).MadeFrom args where
  size_le := Nat.le_add_left 1 _
  uses _ := trivial

theorem madeFrom_ofBool (args : List Term) (flag : Bool) : (ofBool flag).MadeFrom args := by
  cases flag <;> exact ⟨Nat.le_add_left 1 _, fun _ => trivial⟩

end Term

namespace Argument

theorem settled_number (procedure : Option String) (t : Term) :
    Settled (fun _ => True) (number procedure t) := by
  by_cases h : t.kind = .number
  · obtain ⟨x, rfl⟩ := Term.exists_eq_number h
    rw [number_number]
    exact .value trivial
  · rw [number_of_kind_ne h]
    exact .failure nofun

theorem settled_numbers (procedure : Option String) (args : List Term) :
    Settled (fun _ => True) (numbers procedure args) := by
  induction args with
  | nil => exact .value trivial
  | cons t rest ih =>
      exact (settled_number procedure t).bind fun x _ => ih.bind fun xs _ => .value trivial

theorem settled_one (procedure : String) (args : List Term) :
    Settled (fun a => args = [a]) (one procedure args) := by
  match args with
  | [a] =>
      rw [one_singleton]
      exact .value rfl
  | [] | _ :: _ :: _ =>
      rw [one_of_length_ne (by simp)]
      exact .failure nofun

theorem settled_two (procedure : String) (args : List Term) :
    Settled (fun pair => args = [pair.1, pair.2]) (two procedure args) := by
  match args with
  | [a, b] =>
      rw [two_pair]
      exact .value rfl
  | [] | [_] | _ :: _ :: _ :: _ =>
      rw [two_of_length_ne (by simp)]
      exact .failure nofun

theorem settled_leading (procedure : String) (xs : List Float) :
    Settled (fun _ => True) (leading procedure xs) := by
  cases xs with
  | nil =>
      rw [leading_nil]
      exact .failure nofun
  | cons x rest =>
      rw [leading_cons]
      exact .value trivial

theorem settled_pair (procedure : Option String) (t : Term) :
    Settled (fun parts => t = .cons parts.1 parts.2) (pair procedure t) := by
  by_cases h : t.kind = .cons
  · obtain ⟨a, d, rfl⟩ := Term.exists_eq_cons h
    rw [pair_cons]
    exact .value rfl
  · rw [pair_of_kind_ne h]
    exact .failure nofun

end Argument

namespace Arithmetic

theorem settled_divide (x y : Float) : Settled (fun _ => True) (divide x y) := by
  rw [divide]
  split
  · exact .failure nofun
  · exact .value trivial

theorem settled_foldlM_divide (x : Float) (ys : List Float) :
    Settled (fun _ => True) (ys.foldlM divide x) := by
  induction ys generalizing x with
  | nil => exact .value trivial
  | cons y ys ih => exact (settled_divide x y).bind fun z _ => ih z

theorem settled_compute (op : Arithmetic) (xs : List Float) :
    Settled (fun _ => True) (op.compute xs) := by
  cases op with
  | add | mul => exact .value trivial
  | sub => exact (Argument.settled_leading _ xs).bind fun _ _ => .value trivial
  | div =>
      refine (Argument.settled_leading _ xs).bind ?_
      intro parts _
      change Settled _
        (if parts.2.isEmpty then divide 1.0 parts.1 else parts.2.foldlM divide parts.1)
      split
      · exact settled_divide 1.0 parts.1
      · exact settled_foldlM_divide parts.1 parts.2

theorem settled_apply (op : Arithmetic) (args : List Term) :
    Settled (Term.MadeFrom args) (op.apply args) :=
  (Argument.settled_numbers _ args).bind fun xs _ =>
    (op.settled_compute xs).bind fun x _ => .value (Term.madeFrom_number args x)

end Arithmetic

theorem Comparison.settled_apply (op : Comparison) (args : List Term) (a b : Term) :
    Settled (Term.MadeFrom args) (op.apply a b) :=
  (Argument.settled_number _ a).bind fun x _ =>
    (Argument.settled_number _ b).bind fun y _ => .value (Term.madeFrom_ofBool args (op.holds x y))

namespace Primitive

theorem settled_apply (p : Primitive) (args : List Term) :
    Settled (Term.MadeFrom args) (p.apply args) := by
  cases p with
  | arithmetic op => exact op.settled_apply args
  | list =>
      refine .value ⟨?_, fun hargs => Term.uses_ofList hargs trivial⟩
      exact Nat.le_of_eq (Term.size_ofList args .nil)
  | cons =>
      refine (Argument.settled_two _ args).bind ?_
      intro pair hargs
      subst hargs
      refine .value ⟨?_, fun huses => ⟨huses pair.1 (by simp), huses pair.2 (by simp)⟩⟩
      simp only [Term.size_cons, Term.totalSize, List.length_cons, List.length_nil]
      omega
  | car =>
      refine (Argument.settled_one _ args).bind ?_
      intro t hargs
      refine (Argument.settled_pair _ t).bind ?_
      intro parts ht
      subst hargs ht
      refine .value ⟨?_, fun huses => (huses _ List.mem_cons_self).1⟩
      simp only [Term.size_cons, Term.totalSize]
      omega
  | cdr =>
      refine (Argument.settled_one _ args).bind ?_
      intro t hargs
      refine (Argument.settled_pair _ t).bind ?_
      intro parts ht
      subst hargs ht
      refine .value ⟨?_, fun huses => (huses _ List.mem_cons_self).2⟩
      simp only [Term.size_cons, Term.totalSize]
      omega
  | isEmpty =>
      refine (Argument.settled_one _ args).bind ?_
      intro a _
      exact .value (Term.madeFrom_ofBool args _)
  | compare op =>
      refine (Argument.settled_two _ args).bind ?_
      intro pair _
      exact op.settled_apply args pair.1 pair.2

end Primitive
end Parens
