import Parens.Text.Blank
import Parens.Number.Numeral

/-!
Tokens and the rules by which a source text is cut into them. The rules are tried in order and the
first that matches wins. Some rules are gated: a match counts only if the text ends there or goes on
with white space, a parenthesis or a comment. So `12abc` is one symbol and no number.
-/

namespace Parens

open Text Number

inductive Token.Kind where
  | opening | closing | dot | quote | number | symbol
deriving DecidableEq, Repr

/-- A token that has been read. Its serial number says which of the tokens handed out it is: a text
that is read again yields a token of its own. -/
structure Token where
  kind : Token.Kind
  text : List Char
  start : Nat
  serial : Nat
deriving DecidableEq, Repr

def Token.stop (t : Token) : Nat := t.start + t.text.length

/-- Whether a character ends a number or symbol in front of it. -/
def isDelimiter (c : Char) : Bool := isBlank c || c = '(' || c = ')' || c = ';'

/-- Whether a token may end before the text. -/
def atBoundary : List Char → Bool
  | [] => true
  | c :: _ => isDelimiter c

/-- How many characters of a text are layout: white space, and comments from a semicolon to the end
of the line. -/
def layoutLength (inComment : Bool) (counted : Nat) : List Char → Nat
  | [] => counted
  | c :: rest =>
    if inComment then layoutLength (c != '\n') (counted + 1) rest
    else if c = ';' then layoutLength true (counted + 1) rest
    else if isBlank c then layoutLength false (counted + 1) rest
    else counted

namespace Token

/-- A rule for one kind of token: how many characters of a text a token at its start takes. -/
structure Rule where
  kind : Kind
  length? : List Char → Option Nat
  gated : Bool

def charLength? (c : Char) : List Char → Option Nat
  | d :: _ => if d = c then some 1 else none
  | [] => none

/-- A run of characters up to the next delimiter, if there are any. -/
def runLength? (text : List Char) : Option Nat :=
  let n := (text.takeWhile fun c => !isDelimiter c).length
  if n = 0 then none else some n

def rules : List Rule :=
  [⟨.opening, charLength? '(', false⟩, ⟨.closing, charLength? ')', false⟩,
   ⟨.dot, charLength? '.', true⟩, ⟨.quote, charLength? '\x27', false⟩,
   ⟨.number, numeralLength?, true⟩, ⟨.symbol, runLength?, true⟩]

def Rule.match? (r : Rule) (text : List Char) : Option (Kind × Nat) :=
  match r.length? text with
  | some n => if r.gated && !atBoundary (text.drop n) then none else some (r.kind, n)
  | none => none

/-- The kind and length of the first token of a text that does not begin with layout. -/
def first? (text : List Char) : Option (Kind × Nat) := rules.findSome? (·.match? text)

theorem pos_of_unsignedLength? {text : List Char} {n : Nat} (h : unsignedLength? text = some n) :
    0 < n := by
  simp only [unsignedLength?] at h
  split at h
  · split at h
    · cases h
    · cases h
      omega
  · split at h
    · cases h
    · cases h
      omega

theorem pos_of_numeralLength? {text : List Char} {n : Nat} (h : numeralLength? text = some n) :
    0 < n := by
  unfold numeralLength? at h
  split at h
  · obtain ⟨m, -, rfl⟩ := Option.map_eq_some_iff.1 h
    exact Nat.succ_pos m
  · exact pos_of_unsignedLength? h

theorem pos_of_first? {text : List Char} {k : Kind} {n : Nat} (h : first? text = some (k, n)) :
    0 < n := by
  obtain ⟨r, hr, hm⟩ := List.exists_of_findSome?_eq_some h
  have hl : r.length? text = some n := by
    unfold Rule.match? at hm
    split at hm
    · split at hm
      · cases hm
      · cases hm
        assumption
    · cases hm
  have hchar : ∀ c, charLength? c text = some n → 0 < n := by
    intro c h
    unfold charLength? at h
    split at h
    · split at h
      · cases h
        exact Nat.one_pos
      · cases h
    · cases h
  simp only [rules, List.mem_cons, List.not_mem_nil, or_false] at hr
  rcases hr with rfl | rfl | rfl | rfl | rfl | rfl
  · exact hchar _ hl
  · exact hchar _ hl
  · exact hchar _ hl
  · exact hchar _ hl
  · exact pos_of_numeralLength? hl
  · simp only [runLength?] at hl
    split at hl
    · cases hl
    · cases hl
      omega

end Token
end Parens
