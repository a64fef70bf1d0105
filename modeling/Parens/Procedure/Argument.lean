import Parens.Term.Basic
import Parens.Failure

/-!
Checks of arguments. A check refuses what a procedure cannot use. What only some arguments have is
taken out of those that have passed the check for it. A procedure without a name is not mentioned in
the failure.
-/

namespace Parens.Argument

def wrongKind (expected : Kind) (t : Term) (procedure : Option String) : Failure :=
  .wrongKind expected.name t.kind.name procedure

def ofKind (expected : Kind) (procedure : Option String) (t : Term) : Except Failure Unit :=
  if t.kind = expected then .ok () else .error (wrongKind expected t procedure)

def exactly (procedure : String) (expected actual : Int) : Except Failure Unit :=
  if actual = expected then .ok () else .error (.arity procedure expected actual false)

def atLeast (procedure : String) (expected actual : Int) : Except Failure Unit :=
  if actual < expected then .error (.arity procedure expected actual true) else .ok ()

section

variable {procedure : Option String} {name : String} {expected actual : Int} {kind : Kind}
  {t : Term}

theorem ofKind_eq_ok_iff : ofKind kind procedure t = .ok () ↔ t.kind = kind := by
  simp [ofKind]

theorem ofKind_of_ne (h : t.kind ≠ kind) :
    ofKind kind procedure t = .error (wrongKind kind t procedure) := if_neg h

theorem exactly_eq_ok_iff : exactly name expected actual = .ok () ↔ actual = expected := by
  simp [exactly]

theorem exactly_of_ne (h : actual ≠ expected) :
    exactly name expected actual = .error (.arity name expected actual false) := if_neg h

theorem atLeast_eq_ok_iff : atLeast name expected actual = .ok () ↔ expected ≤ actual := by
  simp [atLeast]

theorem ne_nil_of_exactly {α : Type} {xs : List α} (h : exactly name 1 xs.length = .ok ()) :
    xs ≠ [] := by
  rintro rfl
  cases exactly_eq_ok_iff.1 h

theorem ne_nil_of_atLeast {α : Type} {xs : List α} (h : atLeast name 1 xs.length = .ok ()) :
    xs ≠ [] := by
  rintro rfl
  exact absurd (atLeast_eq_ok_iff.1 h) (show ¬ (1 : Int) ≤ 0 by decide)

end

/-- What can be taken once a check is passed. -/
def taken {α : Type} (check : Except Failure Unit) (take : check = .ok () → α) :
    Except Failure α :=
  match check, take with
  | .ok (), take => .ok (take rfl)
  | .error e, _ => .error e

theorem taken_of_ok {α : Type} {check : Except Failure Unit} {take : check = .ok () → α}
    (h : check = .ok ()) : taken check take = .ok (take h) := by
  subst h
  rfl

theorem taken_of_error {α : Type} {check : Except Failure Unit} {take : check = .ok () → α}
    {e : Failure} (h : check = .error e) : taken check take = .error e := by
  subst h
  rfl

def number (procedure : Option String) (t : Term) : Except Failure Float :=
  taken (ofKind .number procedure t) fun h => t.float (ofKind_eq_ok_iff.1 h)

def pair (procedure : Option String) (t : Term) : Except Failure (Term × Term) :=
  taken (ofKind .cons procedure t) fun h => t.sides (ofKind_eq_ok_iff.1 h)

/-- The numbers that the terms are; the first term that is none is refused. -/
def numbers (procedure : Option String) : List Term → Except Failure (List Float)
  | [] => .ok []
  | t :: rest => do
    let x ← number procedure t
    let xs ← numbers procedure rest
    return x :: xs

def one (procedure : String) (args : List Term) : Except Failure Term :=
  taken (exactly procedure 1 args.length) fun h => args.head (ne_nil_of_exactly h)

def two (procedure : String) (args : List Term) : Except Failure (Term × Term) :=
  taken (exactly procedure 2 args.length) fun h =>
    have hlength : args.length = 2 := Int.ofNat_inj.1 (exactly_eq_ok_iff.1 h)
    (args[0], args[1])

/-- The first of the numbers, and those behind it. -/
def leading (procedure : String) (xs : List Float) : Except Failure (Float × List Float) :=
  taken (atLeast procedure 1 xs.length) fun h => (xs.head (ne_nil_of_atLeast h), xs.tail)

section

variable {procedure : Option String} {name : String} {t : Term} {args : List Term}

theorem number_of_kind_ne (h : t.kind ≠ .number) :
    number procedure t = .error (wrongKind .number t procedure) :=
  taken_of_error (ofKind_of_ne h)

theorem pair_of_kind_ne (h : t.kind ≠ .cons) :
    pair procedure t = .error (wrongKind .cons t procedure) :=
  taken_of_error (ofKind_of_ne h)

theorem one_of_length_ne (h : args.length ≠ 1) :
    one name args = .error (.arity name 1 args.length false) :=
  taken_of_error (exactly_of_ne fun heq => h (Int.ofNat_inj.1 heq))

theorem two_of_length_ne (h : args.length ≠ 2) :
    two name args = .error (.arity name 2 args.length false) :=
  taken_of_error (exactly_of_ne fun heq => h (Int.ofNat_inj.1 heq))

@[simp] theorem number_number (x : Float) : number procedure (.number x) = .ok x := rfl

@[simp] theorem pair_cons (a d : Term) : pair procedure (.cons a d) = .ok (a, d) := rfl

@[simp] theorem one_singleton (t : Term) : one name [t] = .ok t := rfl

@[simp] theorem two_pair (t u : Term) : two name [t, u] = .ok (t, u) := rfl

@[simp] theorem leading_nil : leading name [] = .error (.arity name 1 0 true) := rfl

@[simp] theorem leading_cons (x : Float) (xs : List Float) :
    leading name (x :: xs) = .ok (x, xs) :=
  taken_of_ok (atLeast_eq_ok_iff.2 (by simp only [List.length_cons]; omega))

end

end Parens.Argument
