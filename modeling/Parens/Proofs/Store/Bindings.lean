import Parens.Proofs.Term.Text
import Parens.Store

/-!
Bindings of one scope, and the way outwards. Binding a name changes what is found under this name
only and puts a new name behind the others. What is found under a name is the value in the scope
itself, or else what is found in the scope around it.
-/

namespace Parens

theorem Bindings.lookup_set (bindings : Bindings) (name a : Name) (value : Term) :
    (bindings.set name value).lookup a = if a = name then some value else bindings.lookup a := by
  induction bindings with
  | nil =>
      by_cases h : a = name
      · simp [set, h]
      · simp [set, List.lookup_cons, h, beq_false_of_ne h]
  | cons binding rest ih =>
      obtain ⟨b, v⟩ := binding
      by_cases hb : b = name
      · subst hb
        by_cases h : a = b
        · simp [set, h]
        · simp [set, List.lookup_cons, h, beq_false_of_ne h]
      · by_cases h : a = b
        · subst h
          simp [set, hb]
        · simp [set, List.lookup_cons, hb, beq_false_of_ne h, ih]

theorem Bindings.names_set (bindings : Bindings) (name : Name) (value : Term) :
    (bindings.set name value).map Prod.fst =
      if name ∈ bindings.map Prod.fst then bindings.map Prod.fst
      else bindings.map Prod.fst ++ [name] := by
  induction bindings with
  | nil => rfl
  | cons binding rest ih =>
      obtain ⟨b, v⟩ := binding
      by_cases hb : b = name
      · subst hb
        simp [set]
      · simp only [set, hb, if_false, List.map_cons, ih, List.mem_cons, Ne.symm hb, false_or]
        split
        · rfl
        · rfl

namespace Scope

theorem get?_define (s : Scope) (name a : Name) (value : Term) :
    (s.define name value).get? a = if a = name then some value else s.get? a :=
  Bindings.lookup_set s.bindings name a value

theorem names_define (s : Scope) (name : Name) (value : Term) :
    (s.define name value).names = if name ∈ s.names then s.names else s.names ++ [name] :=
  Bindings.names_set s.bindings name value

end Scope

namespace Store

variable {s : Store} {i : Nat} {name : Name} {scope : Scope}

theorem find?_of_missing (h : s.scopes[i]? = none) : s.find? i name = none := by
  rw [find?]
  split <;> simp_all

theorem find?_of_bound (h : s.scopes[i]? = some scope) (hbound : (scope.get? name).isSome) :
    s.find? i name = some i := by
  rw [find?]
  split <;> simp_all

theorem find?_of_unbound (h : s.scopes[i]? = some scope) (hbound : scope.get? name = none) :
    s.find? i name = scope.outer.bind (s.find? · name) := by
  rw [find?]
  split
  · simp_all
  · rename_i scope' h'
    obtain rfl := Option.some.inj (h'.symm.trans h)
    simp only [hbound, Option.isSome_none, Bool.false_eq_true, if_false]
    split <;> simp_all

theorem scopes_define (s : Store) (i j : Nat) (name : Name) (value : Term) :
    (s.define i name value).scopes[j]? =
      if i = j then s.scopes[j]?.map (·.define name value) else s.scopes[j]? :=
  Array.getElem?_modify

theorem lookup_of_get?_eq_some {value : Term} (h : s.get? i name = some value) :
    s.lookup i (.symbol name) = .ok value := by
  simp only [lookup, Term.name?, Option.bind_some, h]

theorem lookup_of_get?_eq_none (h : s.get? i name = none) :
    s.lookup i (.symbol name) = .error (.unbound (String.ofList name.text)) := by
  have hrender : (Term.symbol name).render = name.text :=
    (Term.render_eq_text _).trans (Term.text_atom nofun)
  simp only [lookup, Term.name?, Option.bind_some, h, hrender]

theorem lookup_eq_ok_iff {value : Term} :
    s.lookup i (.symbol name) = .ok value ↔ s.get? i name = some value := by
  cases h : s.get? i name with
  | some value' => simp [lookup_of_get?_eq_some h]
  | none => simp [lookup_of_get?_eq_none h]

theorem lookup_eq_error_iff {e : Failure} :
    s.lookup i (.symbol name) = .error e ↔
      s.get? i name = none ∧ e = .unbound (String.ofList name.text) := by
  cases h : s.get? i name with
  | some value => simp [lookup_of_get?_eq_some h]
  | none => simp [lookup_of_get?_eq_none h, eq_comm]

theorem lookup_congr {s' : Store} (h : s.get? i name = s'.get? i name) :
    s.lookup i (.symbol name) = s'.lookup i (.symbol name) := by
  simp only [lookup, Term.name?, Option.bind_some, h]

end Store
end Parens
