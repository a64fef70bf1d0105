import Parens.Reader

/-!
A reader over time: what it is asked, in any order and also after failures, and what it answers. To
leave off reading all terms after some of them is to read so many single terms.
-/

namespace Parens.Reader

inductive Request where
  | readTerm
  | readAll
  | isEmpty
  | ensureEmpty
deriving DecidableEq, Repr

inductive Answer where
  | term (outcome : Except Failure (Option Term))
  /-- All terms that were left, and how reading them ended. -/
  | terms (terms : List Term) (ending : Except Failure Unit)
  | isEmpty (answer : Bool)
  | ensureEmpty (outcome : Except Failure Unit)

/-- The failure that an answer is, or ends with. -/
def Answer.failure? : Answer → Option Failure
  | term (.error e) | terms _ (.error e) | ensureEmpty (.error e) => some e
  | _ => none

/-- The terms that an answer hands out. -/
def Answer.returned : Answer → List Term
  | term (.ok (some t)) => [t]
  | terms ts _ => ts
  | _ => []

def perform (r : Reader) : Request → Answer × Reader
  | .readTerm =>
    let (outcome, r) := r.readTerm
    (.term outcome, r)
  | .readAll =>
    let reading := r.readAll
    (.terms reading.terms reading.ending, reading.reader)
  | .isEmpty =>
    let (answer, r) := r.isEmpty
    (.isEmpty answer, r)
  | .ensureEmpty =>
    let (outcome, r) := r.ensureEmpty
    (.ensureEmpty outcome, r)

/-- The answers to one request after the other, each with the reader as it is left. -/
def transcript (r : Reader) : List Request → List (Answer × Reader)
  | [] => []
  | request :: requests =>
    r.perform request :: (r.perform request).2.transcript requests

end Parens.Reader
