import Parens.Evaluator
import Parens.Proofs.Number.Comparison

/-!
What every primitive does with every list of arguments, told as rules. Arithmetic refuses the first
argument that is no number, then too few arguments, then a zero that divides. The other primitives
refuse a wrong count before they look at kinds. There is one rule for each outcome, and a primitive
keeps to them in all cases.
-/

namespace Parens

open Number

/-- Whether a term is the first of the arguments that is not of a kind. -/
def IsFirstNot (kind : Kind) (args : List Term) (t : Term) : Prop :=
  ∃ before behind, args = before ++ t :: behind ∧ (∀ a ∈ before, a.kind = kind) ∧ t.kind ≠ kind

namespace Arithmetic

/-- The numbers that a quotient divides by: those behind the first, or a single one. -/
def divisors : List Float → List Float
  | [x] => [x]
  | xs => xs.tail

/-- The numbers folded from the left. A sum starts from zero and a product from one; differences and
quotients start from the first number, and with it alone they are its negation and its reciprocal.
-/
def fold? : Arithmetic → List Float → Option Float
  | add, xs => some (xs.foldl (· + ·) 0.0)
  | mul, xs => some (xs.foldl (· * ·) 1.0)
  | sub, [x] => some (-x)
  | div, [x] => some (1.0 / x)
  | sub, x :: rest => some (rest.foldl (· - ·) x)
  | div, x :: rest => some (rest.foldl (· / ·) x)
  | sub, [] | div, [] => none

inductive Meets (op : Arithmetic) : List Term → Except Failure Term → Prop
  | notNumber {args : List Term} {t : Term} : IsFirstNot .number args t →
      Meets op args (.error (.wrongKind "number" t.kind.name (some op.symbol)))
  | missing : op = sub ∨ op = div → Meets op [] (.error (.arity op.symbol 1 0 true))
  | zeroDivision {xs : List Float} : op = div → (∃ y ∈ divisors xs, IsZero y) →
      Meets op (xs.map .number) (.error (.zeroDivision "/"))
  | value {xs : List Float} {x : Float} : (op = div → ∀ y ∈ divisors xs, ¬ IsZero y) →
      op.fold? xs = some x → Meets op (xs.map .number) (.ok (.number x))

end Arithmetic

/-- Comparison by value. What is no number is unequal to all and in no order. -/
def Comparison.Relates : Comparison → Float → Float → Prop
  | eq => ByValue (· = ·)
  | ne => fun x y => ¬ ByValue (· = ·) x y
  | gt => ByValue (· > ·)
  | ge => ByValue (· ≥ ·)
  | lt => ByValue (· < ·)
  | le => ByValue (· ≤ ·)

namespace Primitive

/-- How many arguments a primitive needs; arithmetic and `list` take any number. -/
def count? : Primitive → Option Nat
  | arithmetic _ | list => none
  | car | cdr | isEmpty => some 1
  | cons | compare _ => some 2

/-- The kind that all arguments need to have once they have been counted. -/
def kind? : Primitive → Option Kind
  | compare _ => some .number
  | car | cdr => some .cons
  | arithmetic _ | list | cons | isEmpty => none

inductive Meets : Primitive → List Term → Except Failure Term → Prop
  | arithmetic {op : Arithmetic} {args : List Term} {r : Except Failure Term} :
      op.Meets args r → Meets (.arithmetic op) args r
  | miscounted {p : Primitive} {n : Nat} {args : List Term} : p.count? = some n → args.length ≠ n →
      Meets p args (.error (.arity p.name n args.length false))
  | wrongKind {p : Primitive} {n : Nat} {kind : Kind} {args : List Term} {t : Term} :
      p.count? = some n → args.length = n → p.kind? = some kind → IsFirstNot kind args t →
      Meets p args (.error (.wrongKind kind.name t.kind.name (some p.name)))
  | list (args : List Term) : Meets .list args (.ok (.ofList args .nil))
  | cons (a b : Term) : Meets .cons [a, b] (.ok (.cons a b))
  | car (a d : Term) : Meets .car [.cons a d] (.ok a)
  | cdr (a d : Term) : Meets .cdr [.cons a d] (.ok d)
  | empty : Meets .isEmpty [.nil] (.ok (.symbol .t))
  | notEmpty {a : Term} : a ≠ .nil → Meets .isEmpty [a] (.ok .nil)
  | related {op : Comparison} {x y : Float} : op.Relates x y →
      Meets (.compare op) [.number x, .number y] (.ok (.symbol .t))
  | unrelated {op : Comparison} {x y : Float} : ¬ op.Relates x y →
      Meets (.compare op) [.number x, .number y] (.ok .nil)

end Primitive

section

variable {kind : Kind} {a t : Term} {args : List Term}

theorem isFirstNot_cons_iff :
    IsFirstNot kind (a :: args) t ↔
      a.kind ≠ kind ∧ t = a ∨ a.kind = kind ∧ IsFirstNot kind args t := by
  constructor
  · rintro ⟨before, behind, hargs, hbefore, ht⟩
    cases before with
    | nil =>
        cases hargs
        exact .inl ⟨ht, rfl⟩
    | cons b before =>
        cases hargs
        obtain ⟨hb, hbefore⟩ := List.forall_mem_cons.1 hbefore
        exact .inr ⟨hb, before, behind, rfl, hbefore, ht⟩
  · rintro (⟨ha, rfl⟩ | ⟨ha, before, behind, rfl, hbefore, ht⟩)
    · exact ⟨[], args, rfl, nofun, ha⟩
    · exact ⟨a :: before, behind, rfl, List.forall_mem_cons.2 ⟨ha, hbefore⟩, ht⟩

theorem not_isFirstNot_nil : ¬ IsFirstNot kind [] t := by
  rintro ⟨before, behind, hargs, -⟩
  cases before <;> cases hargs

theorem isFirstNot_singleton_iff : IsFirstNot kind [a] t ↔ a.kind ≠ kind ∧ t = a := by
  rw [isFirstNot_cons_iff, or_iff_left fun h => not_isFirstNot_nil h.2]

/-- All arguments are of a kind, or one is the first that is not. -/
theorem forall_kind_or_isFirstNot (kind : Kind) (args : List Term) :
    (∀ a ∈ args, a.kind = kind) ∨ ∃ t, IsFirstNot kind args t := by
  induction args with
  | nil => exact .inl nofun
  | cons a args ih =>
      by_cases ha : a.kind = kind
      · cases ih with
        | inl hall => exact .inl (List.forall_mem_cons.2 ⟨ha, hall⟩)
        | inr hfirst =>
            obtain ⟨t, ht⟩ := hfirst
            exact .inr ⟨t, isFirstNot_cons_iff.2 (.inr ⟨ha, ht⟩)⟩
      · exact .inr ⟨a, isFirstNot_cons_iff.2 (.inl ⟨ha, rfl⟩)⟩

theorem exists_eq_map_number (h : ∀ a ∈ args, a.kind = .number) :
    ∃ xs : List Float, args = xs.map .number := by
  induction args with
  | nil => exact ⟨[], rfl⟩
  | cons a args ih =>
      obtain ⟨ha, hargs⟩ := List.forall_mem_cons.1 h
      obtain ⟨x, rfl⟩ := Term.exists_eq_number ha
      obtain ⟨xs, rfl⟩ := ih hargs
      exact ⟨x :: xs, rfl⟩

end

namespace Argument

variable {procedure : Option String} {t : Term}

theorem numbers_map (xs : List Float) : numbers procedure (xs.map .number) = .ok xs := by
  induction xs with
  | nil => rfl
  | cons x xs ih =>
      rw [List.map_cons, numbers, number_number, ih]
      rfl

theorem numbers_of_isFirstNot {args : List Term} (h : IsFirstNot .number args t) :
    numbers procedure args = .error (wrongKind .number t procedure) := by
  induction args with
  | nil => exact absurd h not_isFirstNot_nil
  | cons a args ih =>
      rcases isFirstNot_cons_iff.1 h with ⟨ha, rfl⟩ | ⟨ha, hfirst⟩
      · rw [numbers, number_of_kind_ne ha]
        rfl
      · obtain ⟨x, rfl⟩ := Term.exists_eq_number ha
        rw [numbers, ih hfirst]
        rfl

end Argument

namespace Arithmetic

variable {op : Arithmetic} {args : List Term} {r : Except Failure Term}

theorem divide_of_isZero {x y : Float} (h : IsZero y) : divide x y = .error (.zeroDivision "/") :=
  if_pos (beq_zero_iff.2 h)

theorem divide_of_not_isZero {x y : Float} (h : ¬ IsZero y) : divide x y = .ok (x / y) :=
  if_neg (mt beq_zero_iff.1 h)

theorem foldlM_divide_of_isZero {ys : List Float} (h : ∃ y ∈ ys, IsZero y) (x : Float) :
    ys.foldlM divide x = .error (.zeroDivision "/") := by
  induction ys generalizing x with
  | nil =>
      obtain ⟨y, hy, -⟩ := h
      cases hy
  | cons y ys ih =>
      rw [List.foldlM_cons]
      by_cases hy : IsZero y
      · rw [divide_of_isZero hy]
        rfl
      · have hrest : ∃ y ∈ ys, IsZero y := by
          simpa [hy] using h
        rw [divide_of_not_isZero hy]
        exact ih hrest (x / y)

theorem foldlM_divide_of_not_isZero {ys : List Float} (h : ∀ y ∈ ys, ¬ IsZero y) (x : Float) :
    ys.foldlM divide x = .ok (ys.foldl (· / ·) x) := by
  induction ys generalizing x with
  | nil => rfl
  | cons y ys ih =>
      obtain ⟨hy, hrest⟩ := List.forall_mem_cons.1 h
      rw [List.foldlM_cons, divide_of_not_isZero hy]
      exact ih hrest (x / y)

theorem compute_div_of_isZero {xs : List Float} (h : ∃ y ∈ divisors xs, IsZero y) :
    compute div xs = .error (.zeroDivision "/") := by
  match xs, h with
  | [x], h =>
      rw [compute_div_cons]
      exact divide_of_isZero (by simpa [divisors] using h)
  | x :: y :: rest, h =>
      rw [compute_div_cons]
      exact foldlM_divide_of_isZero h x

theorem compute_of_fold? {xs : List Float} {x : Float}
    (h : op = div → ∀ y ∈ divisors xs, ¬ IsZero y) (hx : op.fold? xs = some x) :
    op.compute xs = .ok x := by
  cases op with
  | add | mul => exact congrArg Except.ok (Option.some.inj hx)
  | sub =>
      match xs, hx with
      | [y], hx | y :: z :: rest, hx =>
          rw [compute_sub_cons]
          exact congrArg Except.ok (Option.some.inj hx)
  | div =>
      match xs, h rfl, hx with
      | [y], h, hx =>
          rw [compute_div_cons, ← Option.some.inj hx]
          exact divide_of_not_isZero (h y List.mem_cons_self)
      | y :: z :: rest, h, hx =>
          rw [compute_div_cons, ← Option.some.inj hx]
          exact foldlM_divide_of_not_isZero h y

theorem apply_map (op : Arithmetic) (xs : List Float) :
    op.apply (xs.map .number) = op.compute xs >>= fun x => .ok (.number x) := by
  rw [apply, Argument.numbers_map]
  rfl

theorem eq_nil_of_fold?_eq_none {xs : List Float} (h : op.fold? xs = none) :
    xs = [] ∧ (op = sub ∨ op = div) := by
  cases xs with
  | nil =>
      cases op with
      | add | mul => cases h
      | sub => exact ⟨rfl, .inl rfl⟩
      | div => exact ⟨rfl, .inr rfl⟩
  | cons x rest => cases op <;> cases rest <;> cases h

theorem apply_of_meets (h : op.Meets args r) : op.apply args = r := by
  cases h with
  | notNumber hfirst =>
      rw [apply, Argument.numbers_of_isFirstNot hfirst]
      rfl
  | missing hop =>
      rcases hop with rfl | rfl <;> rfl
  | zeroDivision hop hzero =>
      subst hop
      rw [apply_map, compute_div_of_isZero hzero]
      rfl
  | value hnonzero hx =>
      rw [apply_map, compute_of_fold? hnonzero hx]
      rfl

theorem exists_meets (op : Arithmetic) (args : List Term) : ∃ r, op.Meets args r := by
  rcases forall_kind_or_isFirstNot .number args with hall | ⟨t, hfirst⟩
  · obtain ⟨xs, rfl⟩ := exists_eq_map_number hall
    by_cases hzero : op = div ∧ ∃ y ∈ divisors xs, IsZero y
    · exact ⟨_, .zeroDivision hzero.1 hzero.2⟩
    · have hnonzero : op = div → ∀ y ∈ divisors xs, ¬ IsZero y := fun hop y hy h =>
        hzero ⟨hop, y, hy, h⟩
      cases hfold : op.fold? xs with
      | some x => exact ⟨_, .value hnonzero hfold⟩
      | none =>
          obtain ⟨rfl, hop⟩ := eq_nil_of_fold?_eq_none hfold
          exact ⟨_, .missing hop⟩
  · exact ⟨_, .notNumber hfirst⟩

end Arithmetic

namespace Comparison

theorem holds_iff_relates {op : Comparison} {x y : Float} : op.holds x y ↔ op.Relates x y := by
  cases op with
  | eq => exact beq_iff_byValue
  | ne =>
      have hne : x != y ↔ ¬ x == y := by rw [bne, Bool.not_eq_true', Bool.not_eq_true]
      exact hne.trans (not_congr beq_iff_byValue)
  | gt => exact (decide_eq_true_iff.trans lt_iff_byValue).trans byValue_flip.symm
  | ge => exact (decide_eq_true_iff.trans le_iff_byValue).trans byValue_flip.symm
  | lt => exact decide_eq_true_iff.trans lt_iff_byValue
  | le => exact decide_eq_true_iff.trans le_iff_byValue

theorem apply_of_isFirstNot {op : Comparison} {a b t : Term} (h : IsFirstNot .number [a, b] t) :
    op.apply a b = .error (Argument.wrongKind .number t (some op.symbol)) := by
  rcases isFirstNot_cons_iff.1 h with ⟨ha, rfl⟩ | ⟨ha, hrest⟩
  · rw [apply, Argument.number_of_kind_ne ha]
    rfl
  · obtain ⟨x, rfl⟩ := Term.exists_eq_number ha
    obtain ⟨hb, rfl⟩ := isFirstNot_singleton_iff.1 hrest
    rw [apply, Argument.number_of_kind_ne hb]
    rfl

end Comparison

namespace Primitive

variable {p : Primitive} {args : List Term} {r : Except Failure Term}

theorem apply_of_length_ne {n : Nat} (hcount : p.count? = some n) (h : args.length ≠ n) :
    p.apply args = .error (.arity p.name n args.length false) := by
  cases p with
  | arithmetic _ | list => cases hcount
  | car | cdr | isEmpty =>
      cases hcount
      rw [apply, Argument.one_of_length_ne h]
      rfl
  | cons | compare _ =>
      cases hcount
      rw [apply, Argument.two_of_length_ne h]
      rfl

theorem apply_of_isFirstNot {n : Nat} {kind : Kind} {t : Term} (hcount : p.count? = some n)
    (hlength : args.length = n) (hkind : p.kind? = some kind) (h : IsFirstNot kind args t) :
    p.apply args = .error (.wrongKind kind.name t.kind.name (some p.name)) := by
  cases p with
  | arithmetic _ | list | cons | isEmpty => cases hkind
  | car | cdr =>
      cases hcount
      cases hkind
      obtain ⟨a, rfl⟩ := List.length_eq_one_iff.1 hlength
      obtain ⟨ha, rfl⟩ := isFirstNot_singleton_iff.1 h
      rw [apply, Argument.one_singleton]
      change (Argument.pair _ _ >>= _) = _
      rw [Argument.pair_of_kind_ne ha]
      rfl
  | compare op =>
      cases hcount
      cases hkind
      obtain ⟨a, b, rfl⟩ := List.length_eq_two.1 hlength
      exact Comparison.apply_of_isFirstNot h

theorem apply_compare (op : Comparison) (x y : Float) :
    (compare op).apply [.number x, .number y] = .ok (.ofBool (op.holds x y)) := rfl

theorem apply_of_meets (h : p.Meets args r) : p.apply args = r := by
  cases h with
  | arithmetic h => exact Arithmetic.apply_of_meets h
  | miscounted hcount hlength => exact apply_of_length_ne hcount hlength
  | wrongKind hcount hlength hkind hfirst => exact apply_of_isFirstNot hcount hlength hkind hfirst
  | list | cons | car | cdr | empty => rfl
  | @notEmpty a hne =>
      cases a with
      | nil => exact absurd rfl hne
      | number _ | symbol _ | cons _ _ | procedure _ => rfl
  | @related op x y h =>
      rw [apply_compare, Comparison.holds_iff_relates.2 h]
      rfl
  | @unrelated op x y h =>
      have hfalse : op.holds x y = false :=
        Bool.eq_false_iff.2 (mt Comparison.holds_iff_relates.1 h)
      rw [apply_compare, hfalse]
      rfl

theorem exists_meets_of_length_eq {n : Nat} (hcount : p.count? = some n) (hlength : args.length = n)
    (hkinds : ∀ kind, p.kind? = some kind → ∀ a ∈ args, a.kind = kind) : ∃ r, p.Meets args r := by
  cases p with
  | arithmetic _ | list => cases hcount
  | cons =>
      cases hcount
      obtain ⟨a, b, rfl⟩ := List.length_eq_two.1 hlength
      exact ⟨_, .cons a b⟩
  | car =>
      cases hcount
      obtain ⟨a, rfl⟩ := List.length_eq_one_iff.1 hlength
      obtain ⟨b, d, rfl⟩ := Term.exists_eq_cons (hkinds _ rfl a List.mem_cons_self)
      exact ⟨_, .car b d⟩
  | cdr =>
      cases hcount
      obtain ⟨a, rfl⟩ := List.length_eq_one_iff.1 hlength
      obtain ⟨b, d, rfl⟩ := Term.exists_eq_cons (hkinds _ rfl a List.mem_cons_self)
      exact ⟨_, .cdr b d⟩
  | isEmpty =>
      cases hcount
      obtain ⟨a, rfl⟩ := List.length_eq_one_iff.1 hlength
      by_cases ha : a = .nil
      · subst ha
        exact ⟨_, .empty⟩
      · exact ⟨_, .notEmpty ha⟩
  | compare op =>
      cases hcount
      obtain ⟨a, b, rfl⟩ := List.length_eq_two.1 hlength
      obtain ⟨ha, hb⟩ := List.forall_mem_cons.1 (hkinds _ rfl)
      obtain ⟨x, rfl⟩ := Term.exists_eq_number ha
      obtain ⟨y, rfl⟩ := Term.exists_eq_number (hb b List.mem_cons_self)
      by_cases hrelates : op.Relates x y
      · exact ⟨_, .related hrelates⟩
      · exact ⟨_, .unrelated hrelates⟩

/-- There is a rule for all arguments. -/
theorem exists_meets (p : Primitive) (args : List Term) : ∃ r, p.Meets args r := by
  cases hcount : p.count? with
  | none =>
      cases p with
      | arithmetic op =>
          obtain ⟨r, hr⟩ := op.exists_meets args
          exact ⟨r, .arithmetic hr⟩
      | list => exact ⟨_, .list args⟩
      | cons | car | cdr | isEmpty | compare _ => cases hcount
  | some n =>
      by_cases hlength : args.length = n
      · cases hkind : p.kind? with
        | none =>
            refine exists_meets_of_length_eq hcount hlength fun kind h => ?_
            rw [hkind] at h
            cases h
        | some kind =>
            cases forall_kind_or_isFirstNot kind args with
            | inl hall =>
                refine exists_meets_of_length_eq hcount hlength fun kind' h => ?_
                rw [hkind] at h
                cases h
                exact hall
            | inr hfirst =>
                obtain ⟨t, ht⟩ := hfirst
                exact ⟨_, .wrongKind hcount hlength hkind ht⟩
      · exact ⟨_, .miscounted hcount hlength⟩

end Primitive

/-- A primitive has one outcome for all arguments, in every state and whatever evaluates: the one
that the rules tell. -/
theorem Procedure.apply_keeps_contract {σ : Type} (ev : Evaluator σ) (table : Table) (p : Primitive)
    (args : List Term) (s : σ) :
    ∃ r, Procedure.apply ev ⟨table, .primitive p⟩ args s = (r, s) ∧
      ∀ r', p.Meets args r' ↔ r' = r := by
  refine ⟨p.apply args, rfl, fun r' => ⟨fun h => (Primitive.apply_of_meets h).symm, ?_⟩⟩
  rintro rfl
  obtain ⟨r, hr⟩ := p.exists_meets args
  rwa [Primitive.apply_of_meets hr]

end Parens
