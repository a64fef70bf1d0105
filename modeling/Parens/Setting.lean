import Parens.Text.Blank
import Parens.Text.Digit
import Parens.Text.Quoted
import Parens.Text.Upper

/-!
Settings that come as text from outside: whole numbers and log levels. White space around a setting
does not count. A number may be written in the digits of any script, with single underscores between
them. A setting that is no good is refused with a message that shows it.
-/

namespace Parens.Setting

open Text

inductive Fault where
  | notInteger (name : String) (raw : List Char)
  | negative (name : String) (value : Int)
  | notLevel (raw : List Char)
deriving DecidableEq, Repr

def levelVariable : String := "SEXPREAD_LOG_LEVEL"

def depthVariable : String := "SEXPREAD_MAX_DEPTH"

def Fault.message : Fault → String
  | notInteger name raw =>
    name ++ " must be an integer, got " ++ String.ofList (quoted raw)
  | negative name value => name ++ " must not be negative, got " ++ toString value
  | notLevel raw =>
    levelVariable ++ " must be a logging level name, got " ++ String.ofList (quoted raw)

/-- How many digits a number may have, leading zeros included. -/
def maxDigits : Nat := 4300

/-- The values of the digits of a numeral that goes on after a digit. -/
def digitsAfter : List Char → Option (List Nat)
  | [] => some []
  | '_' :: c :: rest => do
    let d ← digitValue? c
    let ds ← digitsAfter rest
    return d :: ds
  | c :: rest => do
    let d ← digitValue? c
    let ds ← digitsAfter rest
    return d :: ds

/-- The values of the digits of a numeral: at least one, and single underscores only between them.
-/
def digits? : List Char → Option (List Nat)
  | [] => none
  | c :: rest => do
    let d ← digitValue? c
    let ds ← digitsAfter rest
    return d :: ds

def natural? (text : List Char) : Option Nat := do
  let ds ← digits? text
  if maxDigits < ds.length then none else some (ds.foldl (10 * · + ·) 0)

def integer? : List Char → Option Int
  | '+' :: rest => (natural? rest).map Int.ofNat
  | '-' :: rest => (natural? rest).map fun n => -Int.ofNat n
  | text => (natural? text).map Int.ofNat

/-- The number that a variable is set to, or the default if it is not set or set to white space. -/
def integer (name : String) (raw : Option (List Char)) (default : Int) : Except Fault Int :=
  match raw with
  | none => .ok default
  | some raw =>
    if (trim raw).isEmpty then .ok default
    else match integer? (trim raw) with
      | none => .error (.notInteger name raw)
      | some value => if value < 0 then .error (.negative name value) else .ok value

/-- The nesting limit of the reader; zero means none. -/
def maxDepth (raw : Option (List Char)) : Except Fault Int := integer depthVariable raw 0

inductive Level where
  | notSet | debug | info | warning | error | critical
deriving DecidableEq, Repr

namespace Level

def value : Level → Nat
  | notSet => 0
  | debug => 10
  | info => 20
  | warning => 30
  | error => 40
  | critical => 50

def names : List (String × Level) :=
  [("CRITICAL", critical), ("FATAL", critical), ("ERROR", error), ("WARN", warning),
   ("WARNING", warning), ("INFO", info), ("DEBUG", debug), ("NOTSET", notSet)]

end Level

/-- The log level; its name is recognised in any case. -/
def logLevel (raw : Option (List Char)) : Except Fault Level :=
  match raw with
  | none => .ok .warning
  | some raw =>
    let name := upper (trim raw)
    match Level.names.lookup (String.ofList name) with
    | some level => .ok level
    | none => .error (.notLevel name)

/-- The log level to work with, and a warning if the setting had to be ignored. -/
def effectiveLevel (raw : Option (List Char)) : Level × Option String :=
  match logLevel raw with
  | .ok level => (level, none)
  | .error fault => (.warning, some (fault.message ++ "; using WARNING"))

end Parens.Setting
