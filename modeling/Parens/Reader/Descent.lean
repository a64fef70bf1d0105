import Parens.Reader.Frame

/-!
The reader by recursion on the nesting of terms, as the grammar suggests it. What is a frame in the
reader proper is a call here.
-/

namespace Parens.Descent

def isTooDeep (limit : Int) (depth : Nat) : Bool := limit ≠ 0 ∧ limit < depth

mutual

/-- Reads a term with `depth` quotes and lists around it. -/
def readTerm (limit : Int) : (fuel depth : Nat) → Lexer → Except Failure (Option Term) × Lexer
  | 0, _, l => (.error .exhausted, l)
  | fuel + 1, depth, l =>
    match l.next with
    | (.error e, l) => (.error e, l)
    | (.ok none, l) => (.ok none, l)
    | (.ok (some token), l) =>
      match token.kind with
      | .number =>
        match Number.Numeral.ofText? token.text with
        | some n => (.ok (some (.number n.toFloat)), l)
        | none => (.error (.malformedNumeral token.text), l)
      | .symbol => ((Term.ofWord token.text).map some, l)
      | .quote =>
        if isTooDeep limit (depth + 1) then (.error (l.fault (.tooDeep limit)), l)
        else match readTerm limit fuel (depth + 1) l with
          | (.error e, l) => (.error e, l)
          | (.ok none, l) => (.error (l.fault .termAfterQuote), l)
          | (.ok (some t), l) => (.ok (some t.quoted), l)
      | .opening =>
        if isTooDeep limit (depth + 1) then (.error (l.fault (.tooDeep limit)), l)
        else readItems limit fuel (depth + 1) [] l
      | .closing | .dot =>
        match l.unread? token with
        | some l => (.ok none, l)
        | none => (.error .staleToken, l)

/-- Reads the rest of a list, of which some items have been read, the latest first. -/
def readItems (limit : Int) :
    (fuel depth : Nat) → List Term → Lexer → Except Failure (Option Term) × Lexer
  | 0, _, _, l => (.error .exhausted, l)
  | fuel + 1, depth, items, l =>
    match readTerm limit fuel depth l with
    | (.error e, l) => (.error e, l)
    | (.ok (some t), l) => readItems limit fuel depth (t :: items) l
    | (.ok none, l) =>
      match l.next with
      | (.error e, l) => (.error e, l)
      | (.ok none, l) => (.error (l.fault .unclosed), l)
      | (.ok (some token), l) =>
        match token.kind with
        | .closing => (.ok (some (.ofList items.reverse .nil)), l)
        | .dot =>
          match readTerm limit fuel depth l with
          | (.error e, l) => (.error e, l)
          | (.ok none, l) => (.error (l.fault .termAfterDot), l)
          | (.ok (some t), l) =>
            match Reader.close l with
            | (.error e, l) => (.error e, l)
            | (.ok (), l) => (.ok (some (.ofList items.reverse t)), l)
        | _ => (.error (l.fault .closeExpected), l)

end

/-- Every token takes two calls at most. -/
def read (limit : Int) (l : Lexer) : Except Failure (Option Term) × Lexer :=
  readTerm limit (2 * l.remaining + 2) 0 l

end Parens.Descent
