import Mathlib.Data.List.Forall2
import Parens.Proofs.Number.Comparison
import Parens.Proofs.Term.Equality
import Parens.Proofs.Term.Size
import Parens.Term.Matching

/-!
Equality of terms against its rules. The comparison on a list of pending pairs gives the answer of
the rules, whichever objects it passes over. Equality is symmetric and transitive; a term equals
itself unless it holds something that is no number.
-/

namespace Parens
namespace Term

/-- Equality by its rules. Numbers are equal by value, and what is no number has none. -/
inductive Equals : Term → Term → Prop
  | nil : Equals nil nil
  | number {x y : Float} : Number.ByValue (· = ·) x y → Equals (number x) (number y)
  | symbol {a b : Name} : a.text = b.text → Equals (symbol a) (symbol b)
  | procedure (f : Procedure) : Equals (procedure f) (procedure f)
  | cons {a b d e : Term} : Equals a b → Equals d e → Equals (cons a d) (cons b e)

theorem equals_number_iff {x y : Float} : (number x).Equals (number y) ↔ x == y := by
  rw [Number.beq_iff_byValue]
  constructor
  · intro h
    cases h with
    | number hvalue => exact hvalue
  · exact .number

theorem equals_symbol_iff {a b : Name} : (symbol a).Equals (symbol b) ↔ a = b := by
  constructor
  · intro h
    cases h with
    | symbol htext =>
        obtain ⟨text, _, _⟩ := a
        cases htext
        rfl
  · rintro rfl
    exact .symbol rfl

theorem equals_cons_iff {a b d e : Term} :
    (cons a d).Equals (cons b e) ↔ a.Equals b ∧ d.Equals e := by
  constructor
  · intro h
    cases h with
    | cons ha hd => exact ⟨ha, hd⟩
  · exact fun h => .cons h.1 h.2

theorem same_iff_equals (s t : Term) : s.same t ↔ s.Equals t := by
  induction s generalizing t with
  | nil =>
      cases t with
      | nil => exact iff_of_true rfl .nil
      | number _ | symbol _ | cons _ _ | procedure _ =>
          exact iff_of_false Bool.false_ne_true (by rintro ⟨⟩)
  | number x =>
      cases t with
      | number y => exact equals_number_iff.symm
      | nil | symbol _ | cons _ _ | procedure _ =>
          exact iff_of_false Bool.false_ne_true (by rintro ⟨⟩)
  | symbol a =>
      cases t with
      | symbol b => exact beq_iff_eq.trans equals_symbol_iff.symm
      | nil | number _ | cons _ _ | procedure _ =>
          exact iff_of_false Bool.false_ne_true (by rintro ⟨⟩)
  | procedure f =>
      cases t with
      | procedure g =>
          refine beq_iff_eq.trans ⟨?_, ?_⟩
          · rintro rfl
            exact .procedure f
          · rintro ⟨⟩
            rfl
      | nil | number _ | symbol _ | cons _ _ =>
          exact iff_of_false Bool.false_ne_true (by rintro ⟨⟩)
  | cons a d iha ihd =>
      cases t with
      | cons b e => rw [equals_cons_iff, ← iha, ← ihd, same, Bool.and_eq_true]
      | nil | number _ | symbol _ | procedure _ =>
          exact iff_of_false Bool.false_ne_true (by rintro ⟨⟩)

theorem equal_iff_equals {s t : Term} : s.equal t ↔ s.Equals t := by
  rw [equal_eq_same, same_iff_equals]

theorem Equals.symm {s t : Term} (h : s.Equals t) : t.Equals s := by
  induction h with
  | nil => exact .nil
  | number hvalue =>
      obtain ⟨v, w, hx, hy, rfl⟩ := hvalue
      exact .number ⟨v, v, hy, hx, rfl⟩
  | symbol htext => exact .symbol htext.symm
  | procedure f => exact .procedure f
  | cons _ _ iha ihd => exact .cons iha ihd

theorem Equals.trans {s t u : Term} (h : s.Equals t) (h' : t.Equals u) : s.Equals u := by
  induction h generalizing u with
  | nil | procedure _ => exact h'
  | number hvalue =>
      cases h' with
      | number hvalue' =>
          obtain ⟨v, _, hx, hy, rfl⟩ := hvalue
          obtain ⟨w, _, hy', hz, rfl⟩ := hvalue'
          exact .number ⟨v, w, hx, hz, Option.some.inj (hy.symm.trans hy')⟩
  | symbol htext =>
      cases h' with
      | symbol htext' => exact .symbol (htext.trans htext')
  | cons _ _ iha ihd =>
      cases h' with
      | cons ha hd => exact .cons (iha ha) (ihd hd)

theorem equals_self_iff {t : Term} : t.Equals t ↔ t.FreeOfNaN := by
  induction t with
  | nil => exact iff_of_true .nil trivial
  | number x => exact equals_number_iff.trans Number.beq_self_iff
  | symbol a => exact iff_of_true (.symbol rfl) trivial
  | procedure f => exact iff_of_true (.procedure f) trivial
  | cons a d iha ihd => rw [equals_cons_iff, iha, ihd, FreeOfNaN]

/-- Lists with as many items are equal if the items and the tails are, and only then. -/
theorem equals_ofList_iff {xs ys : List Term} {t u : Term} (h : xs.length = ys.length) :
    (ofList xs t).Equals (ofList ys u) ↔ List.Forall₂ Equals xs ys ∧ t.Equals u := by
  induction xs generalizing ys with
  | nil =>
      cases ys with
      | nil => simp
      | cons b ys => cases h
  | cons a xs ih =>
      cases ys with
      | nil => cases h
      | cons b ys =>
          rw [ofList_cons, ofList_cons, equals_cons_iff, ih (Nat.succ.inj h), List.forall₂_cons,
            and_assoc]

/-- Asking the atoms in turn gives the answer of the rules. -/
theorem agree_iff_equals {s t : Term} (hs : s.kind ≠ .cons) (ht : t.kind ≠ .cons) :
    s.agree t ↔ s.Equals t := by
  rw [← same_iff_equals]
  cases s with
  | cons a d => exact absurd rfl hs
  | nil =>
      cases t with
      | cons b e => exact absurd rfl ht
      | nil | number _ | symbol _ | procedure _ => exact Iff.rfl
  | number x =>
      cases t with
      | cons b e => exact absurd rfl ht
      | nil | number _ | symbol _ | procedure _ => exact Iff.rfl
  | symbol a =>
      cases t with
      | cons b e => exact absurd rfl ht
      | symbol b =>
          change decide (a.text = b.text) = true ↔ _
          rw [same_iff_equals, decide_eq_true_eq]
          exact ⟨.symbol, fun | .symbol h => h⟩
      | nil | number _ | procedure _ => exact Iff.rfl
  | procedure f =>
      cases t with
      | cons b e => exact absurd rfl ht
      | procedure g =>
          rw [same_iff_equals]
          by_cases h : f = g
          · subst h
            exact iff_of_true (by simp [agree, answer?]) (.procedure f)
          · have h' : ¬ g = f := fun heq => h heq.symm
            refine iff_of_false (by simp [agree, answer?, h, h']) ?_
            rintro ⟨⟩
            exact h rfl
      | nil | number _ | symbol _ => exact Iff.rfl

end Term

theorem compared?_of_atoms {s t : Term} (hs : s.kind ≠ .cons) (ht : t.kind ≠ .cons) :
    compared? s t = if s.agree t then some [] else none := by
  cases s with
  | cons a d => exact absurd rfl hs
  | nil | number _ | symbol _ | procedure _ =>
      cases t with
      | cons b e => exact absurd rfl ht
      | nil | number _ | symbol _ | procedure _ => rfl

/-- Whether an outcome of a pass is right: no terms if the two differ, or else smaller ones, which
are equal if the two are. -/
inductive Reduces (s t : Term) : Option (List (Term × Term)) → Prop
  | differ : ¬ s.Equals t → Reduces s t none
  | push {pushed : List (Term × Term)} : (s.Equals t ↔ ∀ p ∈ pushed, p.1.Equals p.2) →
      Term.totalSize (pushed.map Prod.fst) < s.size → Reduces s t (some pushed)

theorem reduces_of_atoms {s t : Term} (hs : s.kind ≠ .cons) (ht : t.kind ≠ .cons) :
    Reduces s t (compared? s t) := by
  rw [compared?_of_atoms hs ht]
  by_cases hagree : s.agree t
  · have hequals := (Term.agree_iff_equals hs ht).1 hagree
    rw [if_pos hagree]
    exact .push (iff_of_true hequals nofun) s.size_pos
  · rw [if_neg hagree]
    exact .differ (mt (Term.agree_iff_equals hs ht).2 hagree)

theorem reduces_compared? (s t : Term) : Reduces s t (compared? s t) := by
  cases s with
  | cons a d =>
      cases t with
      | cons b e =>
          refine .push ?_ ?_
          · rw [Term.equals_cons_iff, List.forall_mem_cons, List.forall_mem_singleton]
          · simp [Term.totalSize]
      | nil | number _ | symbol _ | procedure _ => exact .differ (by rintro ⟨⟩)
  | nil | number _ | symbol _ | procedure _ =>
      cases t with
      | cons b e => exact .differ (by rintro ⟨⟩)
      | nil | number _ | symbol _ | procedure _ =>
          exact reduces_of_atoms (by rintro ⟨⟩) (by rintro ⟨⟩)

section

variable (sharing : Sharing)

/-- The passes over what is pending come to an answer. -/
theorem exists_compares (pending : List (Term × Term)) :
    ∃ n ≤ Term.totalSize (pending.map Prod.fst), ∃ answer, Compares sharing n pending answer := by
  induction hn : Term.totalSize (pending.map Prod.fst) using Nat.strongRecOn
    generalizing pending with
  | ind n ih =>
      cases pending with
      | nil => exact ⟨0, Nat.zero_le n, true, .done⟩
      | cons p rest =>
          obtain ⟨s, t⟩ := p
          simp only [List.map_cons, Term.totalSize] at hn
          have hpos := s.size_pos
          by_cases hone : sharing.isOne s t rest
          · obtain ⟨k, hk, answer, hcompares⟩ := ih _ (by omega) rest rfl
            exact ⟨k + 1, by omega, answer, .one hone hcompares⟩
          · have hreduces := reduces_compared? s t
            generalize houtcome : compared? s t = outcome at hreduces
            cases hreduces with
            | differ _ => exact ⟨1, by omega, false, .differ hone houtcome⟩
            | @push pushed _ hlt =>
                have hsize : Term.totalSize ((pushed ++ rest).map Prod.fst) < n := by
                  rw [List.map_append, Term.totalSize_append]
                  omega
                obtain ⟨k, hk, answer, hcompares⟩ := ih _ hsize (pushed ++ rest) rfl
                exact ⟨k + 1, by omega, answer, .pass hone houtcome hcompares⟩

variable {sharing}

/-- The answer is the one of the rules. -/
theorem Compares.answer_iff {n : Nat} {pending : List (Term × Term)} {answer : Bool}
    (h : Compares sharing n pending answer) : answer ↔ ∀ p ∈ pending, p.1.Equals p.2 := by
  induction h with
  | done => exact iff_of_true rfl nofun
  | @one _ s t rest _ hone _ ih =>
      obtain rfl := sharing.eq_of_isOne hone
      have hself := Term.equals_self_iff.2 (sharing.freeOfNaN_of_isOne hone)
      rw [ih, List.forall_mem_cons, and_iff_right hself]
  | @pass _ s t pushed rest _ _ hpushed _ ih =>
      have hreduces := reduces_compared? s t
      rw [hpushed] at hreduces
      cases hreduces with
      | push hiff _ => rw [ih, List.forall_mem_cons, hiff, List.forall_mem_append]
  | @differ s t rest _ hnone =>
      have hreduces := reduces_compared? s t
      rw [hnone] at hreduces
      cases hreduces with
      | differ hne => exact iff_of_false nofun fun hall => hne (List.forall_mem_cons.1 hall).1

end

/-- Equality of terms is the one of its rules. A comparison pass by pass comes to its answer,
whichever objects are passed over on the way. Equality is symmetric and transitive, and holds
between a term and a copy of it if every number in the term is one. Pairs, and lists with as many
items, are equal if their parts are. -/
theorem Term.equal_by_rules :
    (∀ (sharing : Sharing) (s t : Term),
      (∃ n ≤ s.size, Compares sharing n [(s, t)] (s.equal t)) ∧
        ∀ n answer, Compares sharing n [(s, t)] answer → answer = s.equal t) ∧
    (∀ s t : Term, s.equal t ↔ s.Equals t) ∧
    (∀ s t : Term, s.equal t = t.equal s) ∧
    (∀ s t u : Term, s.equal t → t.equal u → s.equal u) ∧
    (∀ t : Term, t.equal t ↔ t.FreeOfNaN) ∧
    (∀ a b d e : Term, (cons a d).equal (cons b e) = (a.equal b && d.equal e)) ∧
    ∀ (xs ys : List Term) (t u : Term), xs.length = ys.length →
      ((ofList xs t).equal (ofList ys u) ↔ List.Forall₂ (·.equal ·) xs ys ∧ t.equal u) := by
  have hanswer : ∀ (sharing : Sharing) (s t : Term) (n : Nat) (answer : Bool),
      Compares sharing n [(s, t)] answer → answer = s.equal t := fun sharing s t n answer h => by
    rw [Bool.eq_iff_iff, h.answer_iff, List.forall_mem_singleton, equal_iff_equals]
  refine ⟨fun sharing s t => ⟨?_, hanswer sharing s t⟩, fun s t => equal_iff_equals,
    fun s t => ?_, fun s t u h h' => ?_, fun t => ?_, fun a b d e => ?_, fun xs ys t u h => ?_⟩
  · obtain ⟨n, hn, answer, hcompares⟩ := exists_compares sharing [(s, t)]
    rw [hanswer sharing s t n answer hcompares] at hcompares
    exact ⟨n, hn, hcompares⟩
  · rw [Bool.eq_iff_iff, equal_iff_equals, equal_iff_equals]
    exact ⟨.symm, .symm⟩
  · exact equal_iff_equals.2 ((equal_iff_equals.1 h).trans (equal_iff_equals.1 h'))
  · rw [equal_iff_equals, equals_self_iff]
  · rw [equal_eq_same, equal_eq_same, equal_eq_same, same]
  · simp only [equal_iff_equals]
    exact equals_ofList_iff h

example :
    (Term.ofList [.number 0.0, .symbol .t] .nil).equal
      (.ofList [.number (-0.0), .symbol .t] .nil) := by
  decide +kernel

end Parens
