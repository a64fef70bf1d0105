import Parens.Proofs.Store.Bindings
import Parens.Store.History

/-!
Looking names up, told from the history of a store. A scope holds what was defined last under each
name in it, and the scopes around it are those that it was made in, so a name has the value that was
defined last in the nearest scope that has the name at all. To define a key changes this for its own
name only, and only where the scope is not hidden by a nearer one.
-/

namespace Parens

theorem Key.name?_eq_some_iff {key : Key} {a : Name} :
    key.name? = some a ↔ key.toTerm = .ok (.symbol a) := by
  cases key with
  | spelled text =>
      rw [name?, toTerm, Name.ofText]
      cases Name.ofText? text <;> simp
  | term t => cases t <;> simp [name?, toTerm, Term.name?]

theorem Key.exists_name?_spelled {text : List Char} (h : text ≠ []) :
    ∃ a, (spelled text).name? = some a ∧ a.text = Text.lower text := by
  cases ha : Name.ofText? text with
  | none => simp [Name.ofText?, h] at ha
  | some a => exact ⟨a, ha, Name.text_of_ofText? ha⟩

namespace Store

theorem defineKey_of_name?_eq_some {key : Key} {a : Name} (h : key.name? = some a) (s : Store)
    (i : Nat) (value : Term) : s.defineKey i key value = (.ok (), s.define i a value) := by
  rw [defineKey, Key.name?_eq_some_iff.1 h]

theorem defineKey_term_of_name?_eq_none {t : Term} (h : t.name? = none) (s : Store) (i : Nat)
    (value : Term) : s.defineKey i (.term t) value =
      (.error (.wrongKind "symbol" t.typeName (some "define")), s) := by
  cases t with
  | symbol a => cases h
  | nil | number _ | cons _ _ | procedure _ => rfl

/-- A key that stands for no name is refused, and nothing changes. -/
theorem defineKey_of_name?_eq_none {key : Key} (h : key.name? = none) (s : Store) (i : Nat)
    (value : Term) : ∃ e, s.defineKey i key value = (.error e, s) := by
  cases key with
  | spelled text =>
      have htext : Name.ofText? text = none := h
      exact ⟨.emptyName, by simp only [defineKey, Key.toTerm, Name.ofText, htext]⟩
  | term t => exact ⟨_, defineKey_term_of_name?_eq_none h s i value⟩

theorem defineKey_eq_ok_iff {s : Store} {i : Nat} {key : Key} {value : Term} :
    (s.defineKey i key value).1 = .ok () ↔ ∃ a, key.name? = some a := by
  cases hkey : key.name? with
  | some a => simp [defineKey_of_name?_eq_some hkey]
  | none =>
      obtain ⟨e, he⟩ := defineKey_of_name?_eq_none hkey s i value
      simp [he]

theorem scopes_addScope (s : Store) (outer : Option (Fin s.scopes.size)) (i : Nat) :
    (s.addScope (outer.map Fin.val)).scopes[i]? =
      if i = s.scopes.size then some ⟨outer.map Fin.val, []⟩ else s.scopes[i]? := by
  have houter : (outer.map Fin.val).filter (· < s.scopes.size) = outer.map Fin.val := by
    cases outer with
    | none => rfl
    | some o => simp [o.isLt]
  simp only [Store.addScope, Array.getElem?_push, houter]

/-- A name that comes behind others is new, or it is one of them. -/
theorem eraseDups_concat (names : List Name) (a : Name) :
    (names ++ [a]).eraseDups =
      if a ∈ names then names.eraseDups else names.eraseDups ++ [a] := by
  rw [List.eraseDups_append]
  by_cases h : a ∈ names
  · simp [List.removeAll, h]
  · simp [List.removeAll, List.eraseDups_cons, h]

namespace History

variable {n : Nat} {h : History n}

theorem latest?_of_le (h : History n) (name : Name) {i : Nat} (hi : n ≤ i) :
    h.latest? name i = none := by
  induction h with
  | start => rfl
  | addScope before outer ih => exact ih (Nat.le_of_succ_le hi)
  | define before scope key value ih =>
      have hne : scope.val ≠ i := Nat.ne_of_lt (Nat.lt_of_lt_of_le scope.isLt hi)
      rw [latest?, if_neg fun hand => hne hand.1]
      exact ih hi

theorem defined_of_le (h : History n) {i : Nat} (hi : n ≤ i) : h.defined i = [] := by
  induction h with
  | start => rfl
  | addScope before outer ih => exact ih (Nat.le_of_succ_le hi)
  | define before scope key value ih =>
      have hne : scope.val ≠ i := Nat.ne_of_lt (Nat.lt_of_lt_of_le scope.isLt hi)
      rw [defined, if_neg hne]
      exact ih hi

theorem chain_of_le (h : History n) {i : Nat} (hi : n ≤ i) : h.chain i = [] := by
  induction h with
  | start => rfl
  | addScope before outer ih =>
      rw [chain, if_neg (Nat.ne_of_gt hi)]
      exact ih (Nat.le_of_succ_le hi)
  | define before scope key value ih => exact ih hi

/-- What the history tells about a scope: what is in it, and in which order, and how the way
outwards goes on. -/
structure Tells (h : History n) (i : Nat) (scope : Scope) : Prop where
  get?_eq : ∀ a, scope.get? a = h.latest? a i
  names_eq : scope.names = (h.defined i).eraseDups
  chain_eq : h.chain i = i :: (scope.outer.map h.chain).getD []

structure Describes (h : History n) (s : Store) : Prop where
  size_eq : s.scopes.size = n
  tells : ∀ {i : Nat} {scope : Scope}, s.scopes[i]? = some scope → h.Tells i scope

theorem describes_start : Describes .start .empty where
  size_eq := rfl
  tells := nofun

theorem chain_addScope_of_lt (outer : Option (Fin n)) {i : Nat} (hi : i < n) :
    (addScope h outer).chain i = h.chain i :=
  if_neg (Nat.ne_of_lt hi)

theorem tells_addScope_new (outer : Option (Fin n)) :
    (addScope h outer).Tells n ⟨outer.map Fin.val, []⟩ where
  get?_eq a := (latest?_of_le h a (Nat.le_refl n)).symm
  names_eq := by
    rw [defined, defined_of_le h (Nat.le_refl n)]
    rfl
  chain_eq := by
    rw [chain, if_pos rfl]
    cases outer with
    | none => rfl
    | some o => simp [chain_addScope_of_lt (some o) o.isLt]

theorem Tells.addScope {i : Nat} {scope : Scope} (ht : h.Tells i scope) (outer : Option (Fin n))
    (hi : i < n) (houter : ∀ {o}, scope.outer = some o → o < n) :
    (addScope h outer).Tells i scope where
  get?_eq := ht.get?_eq
  names_eq := ht.names_eq
  chain_eq := by
    rw [chain_addScope_of_lt outer hi, ht.chain_eq]
    cases ho : scope.outer with
    | none => rfl
    | some o => simp [chain_addScope_of_lt outer (houter ho)]

theorem Tells.define_here {scope : Fin n} {t : Scope} (ht : h.Tells scope t) {key : Key} {a : Name}
    (hkey : key.name? = some a) (value : Term) :
    (define h scope key value).Tells scope (t.define a value) where
  get?_eq b := by
    rw [Scope.get?_define, ht.get?_eq, latest?, hkey]
    simp only [true_and, Option.some.injEq, eq_comm]
  names_eq := by
    rw [Scope.names_define, ht.names_eq, defined, if_pos rfl, hkey]
    simp only [Option.toList_some, List.mem_eraseDups, eraseDups_concat]
  chain_eq := ht.chain_eq

/-- A definition says nothing about other scopes, and about none at all if its key is refused. -/
theorem Tells.define_of_ne {scope : Fin n} {key : Key} {i : Nat} {t : Scope} (ht : h.Tells i t)
    (hne : key.name? = none ∨ scope.val ≠ i) (value : Term) :
    (define h scope key value).Tells i t where
  get?_eq a := by
    have hother : ¬ (scope.val = i ∧ key.name? = some a) := by
      intro hand
      cases hne with
      | inl hnone => exact nomatch hnone.symm.trans hand.2
      | inr hne => exact hne hand.1
    rw [ht.get?_eq, latest?, if_neg hother]
  names_eq := by
    rw [ht.names_eq, defined]
    cases hne with
    | inl hnone => simp [hnone]
    | inr hne => rw [if_neg hne]
  chain_eq := ht.chain_eq

theorem Describes.addScope {s : Store} (hs : Describes h s) (outer : Option (Fin n)) :
    Describes (.addScope h outer) (s.addScope (outer.map Fin.val)) := by
  obtain ⟨rfl, htells⟩ := hs
  refine ⟨Array.size_push _, ?_⟩
  intro i scope hi
  rw [scopes_addScope] at hi
  split at hi
  · rename_i heq
    cases hi
    rw [heq]
    exact tells_addScope_new outer
  · have hlt : i < s.scopes.size := (Array.getElem?_eq_some_iff.1 hi).1
    exact (htells hi).addScope outer hlt fun ho => Nat.lt_trans (s.outer_lt hi ho) hlt

theorem Describes.define {s : Store} (hs : Describes h s) (scope : Fin n) {key : Key} {a : Name}
    (hkey : key.name? = some a) (value : Term) :
    Describes (.define h scope key value) (s.define scope a value) := by
  refine ⟨(Array.size_modify).trans hs.size_eq, ?_⟩
  intro i t hi
  rw [scopes_define] at hi
  split at hi
  · rename_i heq
    obtain ⟨t, ht, rfl⟩ := Option.map_eq_some_iff.1 hi
    subst heq
    exact (hs.tells ht).define_here hkey value
  · rename_i hne
    exact (hs.tells hi).define_of_ne (.inr hne) value

/-- A key that is refused is as if it had not been defined. -/
theorem Describes.refuse {s : Store} (hs : Describes h s) (scope : Fin n) {key : Key}
    (hkey : key.name? = none) (value : Term) : Describes (.define h scope key value) s :=
  ⟨hs.size_eq, fun hi => (hs.tells hi).define_of_ne (.inl hkey) value⟩

theorem store_define_of_name?_eq_none {scope : Fin n} {key : Key} {value : Term}
    (hkey : key.name? = none) : (define h scope key value).store = h.store := by
  obtain ⟨e, he⟩ := defineKey_of_name?_eq_none hkey h.store scope value
  rw [store, he]

theorem describes_store (h : History n) : Describes h h.store := by
  induction h with
  | start => exact describes_start
  | @addScope n before outer ih => exact ih.addScope outer
  | define before scope key value ih =>
      cases hkey : key.name? with
      | some a =>
          rw [store, defineKey_of_name?_eq_some hkey]
          exact ih.define scope hkey value
      | none =>
          rw [store_define_of_name?_eq_none hkey]
          exact ih.refuse scope hkey value

/-- A name is found in the first scope on the way outwards in which it was ever defined. -/
theorem Describes.find?_eq {s : Store} (hs : Describes h s) (i : Nat) (a : Name) :
    s.find? i a = (h.chain i).find? fun j => (h.latest? a j).isSome := by
  -- An outer scope is older, so the way outwards is followed by induction on the scope number.
  induction i using Nat.strongRecOn with
  | ind i ih =>
      cases hi : s.scopes[i]? with
      | none =>
          have hle : n ≤ i := hs.size_eq ▸ Array.getElem?_eq_none_iff.1 hi
          rw [find?_of_missing hi, chain_of_le h hle]
          rfl
      | some scope =>
          rw [(hs.tells hi).chain_eq]
          have hget := (hs.tells hi).get?_eq a
          cases hbound : h.latest? a i with
          | some value =>
              rw [hbound] at hget
              rw [find?_of_bound hi (by rw [hget]; rfl),
                List.find?_cons_of_pos (by rw [hbound]; rfl)]
          | none =>
              rw [hbound] at hget
              rw [find?_of_unbound hi hget, List.find?_cons_of_neg (by rw [hbound]; exact nofun)]
              cases ho : scope.outer with
              | none => rfl
              | some o => exact ih o (s.outer_lt hi ho)

theorem bind_find?_isSome (f : Nat → Option Term) (js : List Nat) :
    (js.find? fun j => (f j).isSome).bind f = js.findSome? f := by
  induction js with
  | nil => rfl
  | cons j js ih => cases hj : f j <;> simp [hj, ih]

theorem Describes.get?_eq_findSome? {s : Store} (hs : Describes h s) (i : Nat) (a : Name) :
    s.get? i a = (h.chain i).findSome? (h.latest? a) := by
  have hvalue : ∀ j, (s.scopes[j]?.bind fun scope => scope.get? a) = h.latest? a j := by
    intro j
    cases hj : s.scopes[j]? with
    | none =>
        have hle : n ≤ j := hs.size_eq ▸ Array.getElem?_eq_none_iff.1 hj
        exact (latest?_of_le h a hle).symm
    | some scope => exact (hs.tells hj).get?_eq a
  have hget : s.get? i a =
      (s.find? i a).bind fun j => s.scopes[j]?.bind fun scope => scope.get? a :=
    rfl
  rw [hget, hs.find?_eq, funext hvalue, bind_find?_isSome]

/-- A name has the value that was defined last in the nearest scope that has the name. -/
theorem get?_eq_some_iff {i : Nat} {a : Name} {value : Term} :
    h.store.get? i a = some value ↔
      ∃ j, h.Exposes a i j ∧ h.latest? a j = some value := by
  rw [h.describes_store.get?_eq_findSome?, List.findSome?_eq_some_iff]
  constructor
  · rintro ⟨front, j, behind, hchain, hvalue, hfront⟩
    exact ⟨j, ⟨front, behind, hchain, hfront⟩, hvalue⟩
  · rintro ⟨j, ⟨front, behind, hchain, hfront⟩, hvalue⟩
    exact ⟨front, j, behind, hchain, hvalue, hfront⟩

theorem get?_eq_none_iff {i : Nat} {a : Name} :
    h.store.get? i a = none ↔ ∀ j ∈ h.chain i, h.latest? a j = none := by
  rw [h.describes_store.get?_eq_findSome?, List.findSome?_eq_none_iff]

theorem contains_iff {i : Nat} {a : Name} :
    h.store.contains i (.symbol a) ↔ ∃ value, h.store.lookup i (.symbol a) = .ok value := by
  have hcontains : h.store.contains i (.symbol a) = (h.store.find? i a).isSome := rfl
  simp only [lookup_eq_ok_iff, hcontains, h.describes_store.find?_eq, List.find?_isSome,
    h.describes_store.get?_eq_findSome?, ← Option.isSome_iff_exists, List.findSome?_isSome_iff]

section Define

variable {scope : Fin n} {key : Key} {value : Term} {i : Nat} {a : Name}

theorem latest?_define_self (hkey : key.name? = some a) :
    (define h scope key value).latest? a scope = some value :=
  if_pos ⟨rfl, hkey⟩

theorem latest?_define_of_ne {j : Nat} (hne : ¬ (scope = j ∧ key.name? = some a)) :
    (define h scope key value).latest? a j = h.latest? a j :=
  if_neg hne

/-- What is defined is found from wherever no nearer scope has the name. -/
theorem get?_define_of_exposes (hkey : key.name? = some a) (hexposes : h.Exposes a i scope) :
    (define h scope key value).store.get? i a = some value := by
  obtain ⟨front, behind, hchain, hfront⟩ := hexposes
  rw [(describes_store _).get?_eq_findSome?, chain, hchain]
  clear hchain
  induction front with
  | nil => rw [List.nil_append, List.findSome?_cons, latest?_define_self hkey]
  | cons j front ih =>
      rw [List.cons_append, List.findSome?_cons]
      by_cases hj : scope = j
      · rw [← hj, latest?_define_self hkey]
      · rw [latest?_define_of_ne fun hand => hj hand.1, hfront j List.mem_cons_self]
        exact ih fun k hk => hfront k (List.mem_cons_of_mem j hk)

/-- The definition is looked for in vain along a way on which a nearer scope has the name. -/
theorem findSome?_define_of_hidden {js : List Nat}
    (hhidden : ∀ front behind, js = front ++ scope.val :: behind →
      ∃ k ∈ front, h.latest? a k ≠ none) :
    js.findSome? ((define h scope key value).latest? a) = js.findSome? (h.latest? a) := by
  induction js with
  | nil => rfl
  | cons j js ih =>
      have hj : scope ≠ j := by
        rintro rfl
        obtain ⟨k, hk, -⟩ := hhidden [] js rfl
        cases hk
      rw [List.findSome?_cons, List.findSome?_cons, latest?_define_of_ne fun hand => hj hand.1]
      cases hbound : h.latest? a j with
      | some v => rfl
      | none =>
          apply ih
          intro front behind hjs
          obtain ⟨k, hk, hne⟩ := hhidden (j :: front) behind (by rw [hjs, List.cons_append])
          cases List.mem_cons.1 hk with
          | inl heq => exact absurd (heq ▸ hbound) hne
          | inr hk => exact ⟨k, hk, hne⟩

theorem get?_define_of_not_exposes (hhidden : ¬ (key.name? = some a ∧ h.Exposes a i scope)) :
    (define h scope key value).store.get? i a = h.store.get? i a := by
  rw [(describes_store _).get?_eq_findSome?, (describes_store _).get?_eq_findSome?, chain]
  by_cases hkey : key.name? = some a
  · apply findSome?_define_of_hidden
    intro front behind hchain
    apply Classical.byContradiction
    intro hnone
    have hfront : ∀ k ∈ front, h.latest? a k = none := fun k hk =>
      Classical.byContradiction fun hne => hnone ⟨k, hk, hne⟩
    exact hhidden ⟨hkey, front, behind, hchain, hfront⟩
  · have hsame : (define h scope key value).latest? a = h.latest? a :=
      funext fun j => latest?_define_of_ne fun hand => hkey hand.2
    exact congrArg (fun f => (h.chain i).findSome? f) hsame

end Define

theorem names_eq (h : History n) (i : Nat) : h.store.names i = (h.defined i).eraseDups := by
  rw [names]
  cases hi : h.store.scopes[i]? with
  | some scope => exact (h.describes_store.tells hi).names_eq
  | none =>
      have hle : n ≤ i := h.describes_store.size_eq ▸ Array.getElem?_eq_none_iff.1 hi
      rw [h.defined_of_le hle]
      rfl

theorem nodup_eraseDups_defined (h : History n) (i : Nat) : (h.defined i).eraseDups.Nodup := by
  induction h with
  | start => exact List.nodup_nil
  | addScope before outer ih => exact ih
  | define before scope key value ih =>
      rw [defined]
      split
      · cases key.name? with
        | none => rwa [Option.toList_none, List.append_nil]
        | some a =>
            rw [Option.toList_some, eraseDups_concat]
            split
            · exact ih
            · rename_i hnew
              have hne : ∀ b ∈ before.defined i, b ≠ a := fun b hb heq => hnew (heq ▸ hb)
              simpa [List.nodup_append, ih] using hne
      · exact ih

theorem find?_eq_some_iff {i j : Nat} {a : Name} :
    h.store.find? i a = some j ↔ h.Exposes a i j ∧ (h.latest? a j).isSome := by
  rw [h.describes_store.find?_eq, List.find?_eq_some_iff_append]
  simp only [Exposes, Bool.not_eq_true', Option.isSome_eq_false_iff, Option.isNone_iff_eq_none]
  constructor
  · rintro ⟨hbound, front, behind, hchain, hfront⟩
    exact ⟨⟨front, behind, hchain, hfront⟩, hbound⟩
  · rintro ⟨⟨front, behind, hchain, hfront⟩, hbound⟩
    exact ⟨hbound, front, behind, hchain, hfront⟩

/-- Looking up, told from the history. A name has the value that was defined last under it, in any
spelling, in the nearest scope in which it was defined at all. -/
theorem lookup_last_in_nearest (h : History n) :
    (∀ text, text ≠ [] → ∃ a, (Key.spelled text).name? = some a ∧ a.text = Text.lower text) ∧
    (∀ (key : Key) (a : Name), key.name? = some a ↔ key.toTerm = .ok (.symbol a)) ∧
    (∀ (i : Nat) (a : Name),
      (∀ value, h.store.lookup i (.symbol a) = .ok value ↔
        ∃ j, h.Exposes a i j ∧ h.latest? a j = some value) ∧
      (∀ e, h.store.lookup i (.symbol a) = .error e ↔
        (∀ j ∈ h.chain i, h.latest? a j = none) ∧ e = .unbound (String.ofList a.text)) ∧
      (∀ j, h.store.find? i a = some j ↔ h.Exposes a i j ∧ (h.latest? a j).isSome) ∧
      (h.store.contains i (.symbol a) ↔ ∃ value, h.store.lookup i (.symbol a) = .ok value)) ∧
    (∀ (scope : Fin n) (key : Key) (value : Term),
      ((h.store.defineKey scope key value).1 = .ok () ↔ ∃ a, key.name? = some a) ∧
      (key.name? = none → (define h scope key value).store = h.store) ∧
      (∀ t : Term, t.name? = none → (h.store.defineKey scope (.term t) value).1 =
        .error (.wrongKind "symbol" t.typeName (some "define"))) ∧
      ∀ (i : Nat) (a : Name),
        (key.name? = some a ∧ h.Exposes a i scope →
          (define h scope key value).store.lookup i (.symbol a) = .ok value) ∧
        (¬ (key.name? = some a ∧ h.Exposes a i scope) →
          (define h scope key value).store.lookup i (.symbol a) = h.store.lookup i (.symbol a))) ∧
    ∀ i, (h.store.names i).Nodup ∧ h.store.names i = (h.defined i).eraseDups := by
  refine ⟨fun text => Key.exists_name?_spelled, fun key a => Key.name?_eq_some_iff, ?_, ?_, ?_⟩
  · intro i a
    refine ⟨fun value => ?_, fun e => ?_, fun j => find?_eq_some_iff, contains_iff⟩
    · rw [lookup_eq_ok_iff, get?_eq_some_iff]
    · rw [lookup_eq_error_iff, get?_eq_none_iff]
  · intro scope key value
    refine ⟨defineKey_eq_ok_iff, store_define_of_name?_eq_none, ?_, ?_⟩
    · intro t ht
      rw [defineKey_term_of_name?_eq_none ht]
    · intro i a
      constructor
      · intro hand
        exact lookup_of_get?_eq_some (get?_define_of_exposes hand.1 hand.2)
      · intro hhidden
        exact lookup_congr (get?_define_of_not_exposes hhidden)
  · intro i
    rw [h.names_eq i]
    exact ⟨h.nodup_eraseDups_defined i, rfl⟩

end History
end Store
end Parens
