/-!
Why an operation fails. A failure is a cause with what belongs to it; `Failure.message` holds the
wording of all of them.
-/

namespace Parens

/-- What stops the reader. -/
inductive Reason where
  | termAfterQuote
  | termAfterDot
  | unclosed
  | closeExpected
  | trailing
  | tooDeep (limit : Int)
  | unrecognised
  | note (text : String)
deriving DecidableEq, Repr

def Reason.text : Reason → String
  | termAfterQuote => "expected a term after quote"
  | termAfterDot => "expected a term after '.'"
  | unclosed => "missing ')'"
  | closeExpected => "expected ')'"
  | trailing => "unexpected trailing input"
  | tooDeep limit => "nesting deeper than " ++ toString limit
  | unrecognised => "unrecognised token"
  | note text => text

/-- A place in a source text where reading stops: what lies before it and what lies behind. -/
structure ParseError where
  consumed : List Char
  remaining : List Char
  reason : Option Reason
deriving DecidableEq, Repr

/-- A reason without words is not mentioned. -/
def ParseError.message (e : ParseError) : String :=
  let place := "parse error: " ++ String.ofList e.consumed ++ "<here>" ++ String.ofList e.remaining
  match e.reason.map Reason.text with
  | none => place
  | some reason => if reason = "" then place else place ++ " (" ++ reason ++ ")"

inductive Failure where
  | parse (error : ParseError)
  | arity (procedure : String) (expected actual : Int) (atLeast : Bool)
  /-- A term is not of the kind that an operation needs. -/
  | wrongKind (expected actual : String) (procedure : Option String)
  | zeroDivision (procedure : String)
  /-- A key without a binding, as it is printed. -/
  | unbound (key : String)
  | noEvaluator (message : String)
  | other (message : String)
  | emptyName
  /-- A token was pushed back that is not the last one read. -/
  | staleToken
  | malformedNumeral (text : List Char)
  /-- A value that is not a procedure was applied, or a form has no list of arguments. -/
  | notApplicable
  | emptyQuotation
  /-- Evaluation went deeper than its budget. -/
  | exhausted
deriving DecidableEq, Repr

namespace Failure

def arityMessage (procedure : String) (expected actual : Int) (atLeast : Bool) : String :=
  procedure ++ " expects " ++ (if atLeast then "at least " else "") ++ toString expected ++
    " argument" ++ (if expected = 1 then "" else "s") ++ ", got " ++ toString actual

/-- A procedure without a name is not mentioned. -/
def wrongKindMessage (expected actual : String) (procedure : Option String) : String :=
  let place := match procedure with
    | none => ""
    | some name => if name = "" then "" else name ++ ": "
  place ++ "expected " ++ expected ++ ", got " ++ actual

def message : Failure → String
  | parse error => error.message
  | arity procedure expected actual atLeast => arityMessage procedure expected actual atLeast
  | wrongKind expected actual procedure => wrongKindMessage expected actual procedure
  | zeroDivision procedure => procedure ++ ": division by zero"
  | unbound key => "unbound symbol " ++ key
  | noEvaluator text | other text => text
  | emptyName => "symbol name must not be empty"
  | staleToken => "only the most recently read token can be pushed back"
  | malformedNumeral text => "malformed numeral " ++ String.ofList text
  | notApplicable => "not applicable"
  | emptyQuotation => "nothing to quote"
  | exhausted => "evaluation budget exhausted"

end Failure
end Parens
