import Parens.Reader.Frame

/-!
The reader: a text, how far it has been read, and how deep it may nest. It reads one term at a time
or all that are left, and can tell whether anything is left at all. After a failure it stands where
reading stopped, and may be asked again.
-/

namespace Parens

structure Reader where
  lexer : Lexer
  /-- How many quotes and lists may be open at once; zero means any number. -/
  limit : Int

/-- What reading all terms comes to: the terms up to a failure or to the end, and where the reader
stands after them. -/
structure Reading where
  terms : List Term
  ending : Except Failure Unit
  reader : Reader

/-- The terms, if reading came to the end. -/
def Reading.all (r : Reading) : Except Failure (List Term) :=
  match r.ending with
  | .ok () => .ok r.terms
  | .error e => .error e

/-- Whether two readings end alike: both well, or both for the same reason. -/
def Reading.EndsAs (r s : Reading) : Prop :=
  r.ending = .ok () ∧ s.ending = .ok () ∨
    ∃ p q, r.ending = .error (.parse p) ∧ s.ending = .error (.parse q) ∧ p.reason = q.reason

namespace Reader

def ofText (text : List Char) (limit : Int) : Reader := ⟨.ofText text, limit⟩

/-- The next term. There is none at the end, and none in front of a parenthesis or point that cannot
begin a term. -/
def readTerm (r : Reader) : Except Failure (Option Term) × Reader :=
  let (outcome, l) := run r.limit .empty r.lexer
  (outcome, { r with lexer := l })

/-- Goes to the next token, and tells whether there is none. -/
def isEmpty (r : Reader) : Bool × Reader :=
  let l := r.lexer.skipLayout
  (l.atEnd, { r with lexer := l })

def ensureEmpty (r : Reader) : Except Failure Unit × Reader :=
  let (empty, r) := r.isEmpty
  (if empty then .ok () else .error (r.lexer.fault .trailing), r)

theorem remaining_readTerm_lt {r r' : Reader} {t : Term} (h : r.readTerm = (.ok (some t), r')) :
    r'.lexer.remaining < r.lexer.remaining := by
  obtain ⟨ho, rfl⟩ := Prod.mk.inj h
  exact remaining_run_lt (Prod.ext ho rfl)

/-- Reads terms until there is none, which has to be the end. -/
def readAll (r : Reader) : Reading :=
  match _h : r.readTerm with
  | (.error e, r) => ⟨[], .error e, r⟩
  | (.ok none, r) =>
    let (ending, r) := r.ensureEmpty
    ⟨[], ending, r⟩
  | (.ok (some t), r) =>
    let reading := r.readAll
    { reading with terms := t :: reading.terms }
termination_by r.lexer.remaining
decreasing_by exact remaining_readTerm_lt _h

end Reader

/-- The one term that a text holds, or none if it holds nothing but layout. -/
def parse (text : List Char) (limit : Int) : Except Failure (Option Term) :=
  match (Reader.ofText text limit).readTerm with
  | (.error e, _) => .error e
  | (.ok term, r) =>
    match r.ensureEmpty.1 with
    | .error e => .error e
    | .ok () => .ok term

/-- All terms that a text holds. -/
def readAll (text : List Char) (limit : Int) : Reading := (Reader.ofText text limit).readAll

end Parens
