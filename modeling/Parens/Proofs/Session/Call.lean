import Parens.Proofs.Evaluation.Termination
import Parens.Proofs.Session.Stream
import Parens.Proofs.Term.Application
import Parens.Proofs.Text.Ascii

/-!
Calling a procedure from a text. A form that applies a procedure's name to quoted terms comes to
what the procedure makes of the terms, whether it looks at them only or evaluates one of them again.
-/

namespace Parens

section Spelling

open Text

theorem Builtin.lower_of_map_toLower {b : Builtin} {name : List Char}
    (h : name.map Char.toLower = b.name.toList) : lower name = b.name.toList := by
  have hascii : ∀ b : Builtin, b.name.toList.all fun c => c.toNat < 0x80 := by decide
  rw [← h]
  refine lowerAfter_eq_map_toLower (fun c hc => toNat_lt_of_toNat_toLower_lt ?_) []
  exact of_decide_eq_true (List.all_eq_true.1 (hascii b) _ (h ▸ List.mem_map_of_mem hc))

theorem Builtin.readable_key : ∀ b : Builtin, b.key.Readable := by decide

end Spelling

theorem Term.uses_of_readable {t : Term} (h : t.Readable) (table : Table) : t.Uses table := by
  induction t with
  | nil | number _ | symbol _ => trivial
  | cons a d iha ihd => exact ⟨iha h.1, ihd h.2⟩
  | procedure f => exact h.elim

theorem Term.uses_application {table : Table} {args : List Term}
    (h : ∀ t ∈ args, t.Uses table) (a : Name) : (application a args).Uses table := by
  refine ⟨trivial, uses_ofList (fun u hu => ?_) trivial⟩
  obtain ⟨t, ht, rfl⟩ := List.mem_map.1 hu
  exact ⟨trivial, h t ht, trivial⟩

namespace Machine

open Evaluator

variable {m : Machine}

theorem evalAll_quoted (depth scope : Nat) (args : List Term) (m : Machine) :
    ∃ m', m'.store = m.store ∧
      (evalWithin (depth + 1)).evalAll scope (args.map Term.quoted) m = (.ok args, m') := by
  induction args generalizing m with
  | nil => exact ⟨m, rfl, rfl⟩
  | cons t args ih =>
      obtain ⟨m', hstore, hargs⟩ := ih (m.record t.quoted)
      refine ⟨m', hstore, ?_⟩
      rw [List.map_cons, evalAll_cons, evalWithin, evalStep_quoted, andThen_ok]
      rw [evalWithin] at hargs
      rw [hargs, andThen_ok]

/-- The procedure gets the terms as they are. -/
theorem evalWithin_application {scope : Nat} {a : Name} {f : Procedure} {args : List Term}
    (ha : m.store.get? scope a = some (.procedure f)) (hne : a ≠ .quote) (hargs : args ≠ [])
    (depth : Nat) : ∃ m', m'.store = m.store ∧
      evalWithin (depth + 2) scope (.application a args) m =
        f.apply (evalWithin (depth + 1)) args m' := by
  cases args with
  | nil => exact absurd rfl hargs
  | cons t args =>
      have hfirst : Term.symbol a ≠ .symbol .quote := fun h => hne (Term.symbol.inj h)
      obtain ⟨m', hstore, hvalues⟩ := evalAll_quoted depth scope (t :: args)
        ((m.record (.application a (t :: args))).record (.symbol a))
      have hitems : (Term.ofList (args.map Term.quoted) .nil).items = args.map Term.quoted :=
        Term.items_ofList _ nofun
      refine ⟨m', hstore, ?_⟩
      rw [Term.application, List.map_cons, Term.ofList_cons, evalWithin, evalStep_form hfirst,
        evalWithin_symbol (m := m.record _) ha, andThen_ok, hitems, ← List.map_cons]
      rw [Term.application, List.map_cons, Term.ofList_cons, ← List.map_cons] at hvalues
      rw [hvalues, andThen_ok]
      rfl

/-- A procedure comes to the same by all evaluators that evaluate its arguments alike, whatever was
evaluated before. -/
theorem agree_apply {table : Table} {s : Store} {args : List Term} {ev ev' : Evaluator Machine}
    (hev : ∀ t ∈ args, ∀ m : Machine, m.store = s → ev table.scope t m = eval table.scope t m)
    (hev' : ∀ t ∈ args, ∀ m : Machine, m.store = s → ev' table.scope t m = eval table.scope t m)
    {m m' : Machine} (hm : m.store = s) (hm' : m'.store = s) (b : Builtin) :
    Agree s ((⟨table, b⟩ : Procedure).apply ev args m)
      ((⟨table, b⟩ : Procedure).apply ev' args m') := by
  obtain ⟨p, -, happly⟩ | ⟨t, rfl, -, happly⟩ | ⟨e, -, happly⟩ :=
    (⟨table, b⟩ : Procedure).apply_cases args
  · rw [happly, happly]
    exact ⟨rfl, hm, hm'⟩
  · rw [happly, happly, hev t List.mem_cons_self m hm, hev' t List.mem_cons_self m' hm']
    exact agree_evalWithin _ table.scope t ⟨hm, hm'⟩
  · rw [happly, happly]
    exact ⟨rfl, hm, hm'⟩

/-- The form that applies a symbol to terms comes to what the procedure makes of them, which the
symbol stands for. -/
theorem agree_eval_application {table : Table} {s : Store} {a : Name} {b : Builtin}
    {args : List Term} (hflat : s.Flat table)
    (ha : s.get? table.scope a = some (.procedure ⟨table, b⟩)) (hne : a ≠ .quote)
    (hargs : args ≠ []) (huses : ∀ t ∈ args, t.Uses table) {m m' : Machine} (hm : m.store = s)
    (hm' : m'.store = s) :
    Agree s (eval table.scope (.application a args) m)
      ((⟨table, b⟩ : Procedure).apply eval args m') := by
  obtain ⟨t, ht⟩ := List.exists_mem_of_ne_nil args hargs
  obtain ⟨depth, hdepth⟩ : ∃ depth, (Term.application a args).size = depth + 2 :=
    Nat.exists_eq_add_of_le' (Nat.le_trans (Nat.le_add_left 2 _) (Term.size_le_application ht a))
  have heval := evalWithin_eq_eval (hm ▸ hflat) (Term.uses_application huses a)
    (Nat.le_of_eq hdepth)
  obtain ⟨m₁, hstore, hform⟩ := evalWithin_application (hm ▸ ha) hne hargs depth
  rw [← heval, hform]
  refine agree_apply ?_ (fun _ _ _ _ => rfl) (hstore.trans hm) hm' b
  intro u hu m₂ hm₂
  have hsize := Term.size_le_application hu a
  exact evalWithin_eq_eval (hm₂ ▸ hflat) (huses u hu) (by omega)

end Machine

namespace Session

/-- A fresh session, but for the terms that it has evaluated so far. -/
def started (calls : List Term) : Session Machine :=
  { start (some Machine.eval) with state := ⟨(start (some Machine.eval)).state.store, calls⟩ }

/-- What a procedure of the table comes to in a fresh session. -/
def outcomeOf (b : Builtin) (args : List Term) : Except Failure Term :=
  ((started []).apply ⟨(started []).table, b⟩ args).1

section Application

variable {b : Builtin} {name : List Char} {args : List Term}

/-- A fresh session stays fresh if its bindings are kept. -/
theorem exists_result_started {result : Except Failure Term × Machine}
    (h : Machine.Agree (started []).state.store result
      ((⟨(started []).table, b⟩ : Procedure).apply Machine.eval args (started []).state))
    (calls : List Term) :
    ∃ calls', (result.1, { started calls with state := result.2 }) =
      (outcomeOf b args, started calls') := by
  obtain ⟨outcome, store, calls'⟩ := result
  obtain ⟨houtcome, hstore, -⟩ := h
  have houtcome : outcome = outcomeOf b args := houtcome
  have hstore : store = (started []).state.store := hstore
  rw [houtcome, hstore]
  exact ⟨calls', rfl⟩

theorem call_started (hname : Text.lower name = b.name.toList) (calls : List Term) :
    (started calls).call name args = (started calls).apply ⟨(started []).table, b⟩ args := by
  have hfound : (started calls).table.find? name = some ⟨(started []).table, b⟩ :=
    Table.find?_of_lower_eq _ hname
  rw [call, hfound]

theorem exists_call_started (hname : Text.lower name = b.name.toList) (args calls : List Term) :
    ∃ calls', (started calls).call name args = (outcomeOf b args, started calls') := by
  have hagree : Machine.Agree (started []).state.store
      ((⟨(started []).table, b⟩ : Procedure).apply Machine.eval args (started calls).state)
      ((⟨(started []).table, b⟩ : Procedure).apply Machine.eval args (started []).state) :=
    Machine.agree_apply (m := (started calls).state) (fun _ _ _ _ => rfl) (fun _ _ _ _ => rfl) rfl
      (rfl : (started []).state.store = _) b
  rw [call_started hname]
  exact exists_result_started hagree calls

theorem exists_eval_started (hname : Text.lower name = b.name.toList) (hargs : args ≠ [])
    (hreadable : ∀ t ∈ args, t.Readable) (calls : List Term) :
    ∃ calls', (started calls).eval 0 (applicationText name args) =
      (outcomeOf b args, started calls') := by
  obtain ⟨hterms, hending⟩ := readAll_of_spells (spells_applicationText (a := b.key) hname
    b.readable_key hreadable)
  rw [eval_of_terms_eq_singleton (started calls) rfl hterms hending]
  exact exists_result_started (Machine.agree_eval_application (m := (started calls).state)
    (flat_start (some Machine.eval)) (get?_start_key (some Machine.eval) b) b.key_ne_quote hargs
    (fun t ht => Term.uses_of_readable (hreadable t ht) _) rfl rfl) calls

theorem outcomeOf_ne_exhausted (hreadable : ∀ t ∈ args, t.Readable) :
    outcomeOf b args ≠ .error .exhausted := by
  have hflat : (started []).state.store.Flat (started []).table := flat_start (some Machine.eval)
  obtain ⟨p, -, happly⟩ | ⟨t, rfl, -, happly⟩ | ⟨e, he, happly⟩ :=
    (⟨(started []).table, b⟩ : Procedure).apply_cases args
  · rw [outcomeOf, apply, happly]
    exact (p.settled_apply args).ne_exhausted
  · rw [outcomeOf, apply, happly]
    have huses := Term.uses_of_readable (hreadable t List.mem_cons_self) (started []).table
    exact (Machine.ends_eval hflat huses).settled.ne_exhausted
  · rw [outcomeOf, apply, happly]
    exact fun h => he (Except.error.inj h)

/-- A form that applies a name to quoted terms has the outcome of calling it by the name, also on
the same session afterwards. -/
theorem eval_application_eq_call (hname : name.map Char.toLower = b.name.toList) (hargs : args ≠ [])
    (hreadable : ∀ t ∈ args, t.Readable) :
    let session := start (some Machine.eval)
    let text := applicationText name args
    session.call name args = session.apply ⟨session.table, b⟩ args ∧
      (session.call name args).1 ≠ .error .exhausted ∧
      (session.eval 0 text).1 = (session.call name args).1 ∧
      ((session.eval 0 text).2.call name args).1 = (session.call name args).1 ∧
      ((session.call name args).2.eval 0 text).1 = (session.call name args).1 := by
  intro session text
  have hname := Builtin.lower_of_map_toLower hname
  obtain ⟨evaluated, heval⟩ := exists_eval_started hname hargs hreadable []
  obtain ⟨called, hcall⟩ := exists_call_started hname args []
  obtain ⟨_, hcall'⟩ := exists_call_started hname args evaluated
  obtain ⟨_, heval'⟩ := exists_eval_started hname hargs hreadable called
  have hsession : session = started [] := rfl
  refine ⟨call_started hname [], ?_, ?_, ?_, ?_⟩
  · rw [hsession, hcall]
    exact outcomeOf_ne_exhausted hreadable
  · rw [hsession, heval, hcall]
  · rw [hsession, heval, hcall, hcall']
  · rw [hsession, hcall, heval']

end Application

theorem eval_application_eq_call_nested :
    let session := start (some Machine.eval)
    let form := Term.application (Builtin.primitive .cons).key [.symbol .t, .nil]
    applicationText "EvAl".toList [form] = "(EvAl \x27(cons \x27t \x27nil))".toList ∧
      (session.call "EvAl".toList [form]).1 = .ok (.cons (.symbol .t) .nil) ∧
      (session.eval 0 (applicationText "EvAl".toList [form])).1 =
        .ok (.cons (.symbol .t) .nil) := by
  intro session form
  have hname : "EvAl".toList.map Char.toLower = Builtin.eval.name.toList := by decide
  have hreadable : form.Readable := by
    have ht : Name.t.Readable := by decide
    exact ⟨Builtin.readable_key _, Term.readable_quotations (by simpa [Term.Readable] using ht)⟩
  obtain ⟨hcall, -, heval, -, -⟩ := eval_application_eq_call hname (by decide : [form] ≠ [])
    (by simpa using hreadable)
  have htext : applicationText "EvAl".toList [form] = "(EvAl \x27(cons \x27t \x27nil))".toList := by
    rw [applicationText, List.flatMap_cons, Term.render_eq_text]
    decide
  have houtcome : (session.call "EvAl".toList [form]).1 = .ok (.cons (.symbol .t) .nil) := by
    have hvalue := Machine.agree_eval_application (flat_start (some Machine.eval))
      (get?_start_key (some Machine.eval) (.primitive .cons)) (Builtin.key_ne_quote _)
      (by decide : [Term.symbol .t, .nil] ≠ []) (by simp [Term.Uses]) rfl rfl
    rw [hcall]
    exact hvalue.outcome_eq
  exact ⟨htext, houtcome, heval.trans houtcome⟩

end Session
end Parens
