import Parens.Evaluator.Flat
import Parens.Proofs.Store.Bindings
import Parens.Session

/-!
A session at its start. Its table has one procedure under each name, in any case, and the symbols of
the same names stand for the same procedures in the global scope. The only other symbol there stands
for itself.
-/

namespace Parens

namespace Builtin

theorem mem_all (b : Builtin) : b ∈ all := by
  cases b with
  | eval => decide
  | primitive p =>
      cases p with
      | list | cons | car | cdr | isEmpty => decide
      | arithmetic op => cases op <;> decide
      | compare op => cases op <;> decide

instance {p : Builtin → Prop} [DecidablePred p] : Decidable (∀ b, p b) :=
  decidable_of_iff (∀ b ∈ all, p b) ⟨fun h b => h b b.mem_all, fun h b _ => h b⟩

theorem eq_of_name_eq : ∀ b c : Builtin, b.name = c.name → b = c := by decide

theorem lower_name : ∀ b : Builtin, Text.lower b.name.toList = b.name.toList := by decide

theorem toList_name_ne_nil : ∀ b : Builtin, b.name.toList ≠ [] := by decide

/-- The symbol that stands for the procedure. -/
def key (b : Builtin) : Name := ⟨b.name.toList, b.toList_name_ne_nil, b.lower_name⟩

theorem key_ne_t : ∀ b : Builtin, b.key ≠ .t := by decide

theorem key_ne_quote : ∀ b : Builtin, b.key ≠ .quote := by decide

theorem eq_of_key_eq {b c : Builtin} (h : b.key = c.key) : b = c :=
  eq_of_name_eq b c (String.toList_inj.1 (congrArg Name.text h))

end Builtin

theorem Procedure.key?_eq (f : Procedure) : f.key? = some f.builtin.key :=
  Name.ofText?_text f.builtin.key

/-- An element is found if no other can be. -/
theorem find?_eq_some_of_unique {α : Type} {p : α → Bool} {x : α} {l : List α} (hx : x ∈ l)
    (hp : p x) (hunique : ∀ y ∈ l, p y → y = x) : l.find? p = some x := by
  cases hfound : l.find? p with
  | none => exact absurd hp (List.find?_eq_none.1 hfound x hx)
  | some y => rw [hunique y (List.mem_of_find?_eq_some hfound) (List.find?_some hfound)]

namespace Table

variable (table : Table)

theorem mem_procedures_iff {f : Procedure} : f ∈ table.procedures ↔ f.table = table := by
  constructor
  · intro h
    obtain ⟨b, -, rfl⟩ := List.mem_map.1 h
    rfl
  · intro h
    exact List.mem_map.2 ⟨f.builtin, f.builtin.mem_all, by rw [← h]⟩

theorem find?_of_lower_eq {name : List Char} {b : Builtin} (h : Text.lower name = b.name.toList) :
    table.find? name = some ⟨table, b⟩ := by
  rw [find?, h, String.ofList_toList]
  refine find?_eq_some_of_unique ((mem_procedures_iff table).2 rfl) (by simp [Procedure.name]) ?_
  intro f hf hname
  rw [← (mem_procedures_iff table).1 hf,
    ← Builtin.eq_of_name_eq f.builtin b (of_decide_eq_true hname)]

theorem find?_key (b : Builtin) :
    (table.procedures.reverse.find? fun f => f.builtin.key = b.key) = some ⟨table, b⟩ := by
  refine find?_eq_some_of_unique (List.mem_reverse.2 ((mem_procedures_iff table).2 rfl))
    (decide_eq_true rfl) ?_
  intro f hf hkey
  rw [← (mem_procedures_iff table).1 (List.mem_reverse.1 hf),
    ← Builtin.eq_of_key_eq (of_decide_eq_true hkey)]

end Table

namespace Store

theorem get?_of_outer_eq_none {s : Store} {i : Nat} {scope : Scope} (h : s.scopes[i]? = some scope)
    (houter : scope.outer = none) (a : Name) : s.get? i a = scope.get? a := by
  have hget : s.get? i a =
      (s.find? i a).bind fun j => s.scopes[j]?.bind fun scope => scope.get? a :=
    rfl
  rw [hget]
  cases hbound : scope.get? a with
  | some v =>
      rw [find?_of_bound h (by rw [hbound]; rfl), Option.bind_some, h, Option.bind_some, hbound]
  | none => rw [find?_of_unbound h hbound, houter]; rfl

/-- Procedures are bound one after the other, the last of a name for good. -/
theorem exists_scope_foldl_define {s : Store} {i : Nat} {scope : Scope}
    (h : s.scopes[i]? = some scope) (fs : List Procedure) :
    ∃ scope', (fs.foldl (fun s f => s.define i f.builtin.key (.procedure f)) s).scopes[i]? =
        some scope' ∧ scope'.outer = scope.outer ∧
      ∀ a, scope'.get? a =
        ((fs.reverse.find? fun f => f.builtin.key = a).map .procedure).or (scope.get? a) := by
  induction fs generalizing s scope with
  | nil => exact ⟨scope, h, rfl, fun a => rfl⟩
  | cons f fs ih =>
      have hdefine : (s.define i f.builtin.key (.procedure f)).scopes[i]? =
          some (scope.define f.builtin.key (.procedure f)) := by
        rw [scopes_define, if_pos rfl, h, Option.map_some]
      obtain ⟨scope', hscope', houter, hget⟩ := ih hdefine
      refine ⟨scope', hscope', houter, fun a => ?_⟩
      rw [hget, Scope.get?_define, List.reverse_cons, List.find?_append, List.find?_singleton]
      cases fs.reverse.find? fun f => f.builtin.key = a with
      | some g => rfl
      | none =>
          by_cases ha : f.builtin.key = a
          · simp [ha]
          · simp [ha, Ne.symm ha]

theorem get?_register {s : Store} {i : Nat} {scope : Scope} (h : s.scopes[i]? = some scope)
    (houter : scope.outer = none) (evaluator : Bool) (a : Name) :
    (s.register i evaluator).2.get? i a =
      if a = .t then some (.symbol .t)
      else (((s.register i evaluator).1.procedures.reverse.find? fun f =>
        f.builtin.key = a).map .procedure).or (scope.get? a) := by
  obtain ⟨scope', hscope', houter', hget⟩ := exists_scope_foldl_define
    (s := { s with tables := s.tables + 1 }) h (s.register i evaluator).1.procedures
  have hstore : (s.register i evaluator).2.scopes[i]? =
      some (scope'.define .t (.symbol .t)) := by
    simp only [register, Procedure.key?_eq] at hscope' ⊢
    rw [scopes_define, if_pos rfl, hscope', Option.map_some]
  rw [get?_of_outer_eq_none hstore (houter'.trans houter), Scope.get?_define, hget]

end Store

namespace Session

variable (evaluator : Option (Evaluator Machine))

/-- The symbols that are bound at the start, and what they stand for. -/
theorem get?_start_eq_some_iff {a : Name} {v : Term} :
    (start evaluator).state.store.get? (start evaluator).table.scope a = some v ↔
      a = .t ∧ v = .symbol .t ∨
        ∃ b : Builtin, a = b.key ∧ v = .procedure ⟨(start evaluator).table, b⟩ := by
  have hget : (start evaluator).state.store.get? (start evaluator).table.scope a =
      if a = .t then some (.symbol .t)
      else (((start evaluator).table.procedures.reverse.find? fun f =>
        f.builtin.key = a).map .procedure).or none :=
    Store.get?_register (s := Store.empty.addScope none) (i := 0) rfl rfl evaluator.isSome a
  rw [hget]
  constructor
  · intro h
    split at h
    · rename_i ht
      exact .inl ⟨ht, (Option.some.inj h).symm⟩
    · rw [Option.or_none] at h
      obtain ⟨f, hfound, rfl⟩ := Option.map_eq_some_iff.1 h
      have hkey := List.find?_some hfound
      have htable := (start evaluator).table.mem_procedures_iff.1
        (List.mem_reverse.1 (List.mem_of_find?_eq_some hfound))
      exact .inr ⟨f.builtin, (of_decide_eq_true hkey).symm, by rw [← htable]⟩
  · intro h
    cases h with
    | inl h => rw [if_pos h.1, h.2]
    | inr h =>
        obtain ⟨b, rfl, rfl⟩ := h
        rw [if_neg b.key_ne_t, Table.find?_key]
        rfl

theorem get?_start_key (b : Builtin) :
    (start evaluator).state.store.get? (start evaluator).table.scope b.key =
      some (.procedure ⟨(start evaluator).table, b⟩) :=
  (get?_start_eq_some_iff evaluator).2 (.inr ⟨b, rfl, rfl⟩)

theorem flat_start : (start evaluator).state.store.Flat (start evaluator).table where
  kind_ne := by
    intro a v hv
    cases (get?_start_eq_some_iff evaluator).1 hv with
    | inl h => rw [h.2]; exact nofun
    | inr h =>
        obtain ⟨b, -, rfl⟩ := h
        exact nofun
  uses := by
    intro a v hv
    cases (get?_start_eq_some_iff evaluator).1 hv with
    | inl h => rw [h.2]; trivial
    | inr h =>
        obtain ⟨b, -, rfl⟩ := h
        exact .inl rfl

end Session
end Parens
