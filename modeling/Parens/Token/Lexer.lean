import Parens.Failure
import Parens.Token.Basic
import Parens.Token.Cursor

/-!
Reading tokens one at a time, with a pushback of one token. A token can be pushed back only right
after it was read: it has to be the last one handed out, and the cursor has to stand behind it
still.
-/

namespace Parens

structure Lexer where
  cursor : Cursor
  /-- The token that may be pushed back. -/
  last : Option Token
  /-- How many tokens have been handed out. -/
  issued : Nat

namespace Lexer

def ofText (text : List Char) : Lexer := ⟨.ofText text, none, 0⟩

def remaining (l : Lexer) : Nat := l.cursor.after.length

/-- The failure of reading at this place. -/
def parseError (l : Lexer) (reason : Option Reason) : ParseError :=
  ⟨l.cursor.consumed, l.cursor.after, reason⟩

def fault (l : Lexer) (reason : Reason) : Failure := .parse (l.parseError (some reason))

def atEnd (l : Lexer) : Bool := l.cursor.after.isEmpty

/-- The lexer before the next token, or at the end. The token that may be pushed back is kept, but
the cursor need not stand behind it any more. -/
def skipLayout (l : Lexer) : Lexer :=
  { l with cursor := l.cursor.advance (layoutLength false 0 l.cursor.after) }

def issue (l : Lexer) (kind : Token.Kind) (length : Nat) : Token × Lexer :=
  let token : Token := ⟨kind, l.cursor.after.take length, l.cursor.pos, l.issued⟩
  (token, ⟨l.cursor.advance length, some token, l.issued + 1⟩)

/-- The next token, or none at the end. -/
def next (l : Lexer) : Except Failure (Option Token) × Lexer :=
  let l := l.skipLayout
  if l.atEnd then (.ok none, { l with last := none })
  else match Token.first? l.cursor.after with
    | some (kind, length) =>
      let (token, l) := l.issue kind length
      (.ok (some token), l)
    | none => (.error (l.fault .unrecognised), l)

/-- Pushes a token back, so that it is read again next time. -/
def unread? (l : Lexer) (token : Token) : Option Lexer :=
  if l.last = some token ∧ token.stop = l.cursor.pos then
    some { l with cursor := l.cursor.retreat token.text.length, last := none }
  else none

theorem remaining_skipLayout_le (l : Lexer) : l.skipLayout.remaining ≤ l.remaining := by
  simp [skipLayout, remaining]

theorem remaining_issue_lt {l : Lexer} {kind : Token.Kind} {length : Nat} (h : 0 < length)
    (hl : l.cursor.after ≠ []) : (l.issue kind length).2.remaining < l.remaining := by
  have := List.length_pos_iff.2 hl
  simp only [issue, remaining, Cursor.after_advance, List.length_drop]
  omega

/-- What reading a token does: it stops at the end, or issues the first token behind the layout. -/
theorem next_eq_some {l l' : Lexer} {token : Token} (h : l.next = (.ok (some token), l')) :
    ∃ kind length, 0 < length ∧ l.skipLayout.cursor.after ≠ [] ∧
      Token.first? l.skipLayout.cursor.after = some (kind, length) ∧
      l.skipLayout.issue kind length = (token, l') := by
  simp only [next] at h
  split at h
  · cases h
  · rename_i hend
    split at h
    · rename_i kind length hf
      refine ⟨kind, length, Token.pos_of_first? hf, ?_, hf, ?_⟩
      · simpa [atEnd] using hend
      · cases h
        rfl
    · cases h

theorem remaining_next_lt {l l' : Lexer} {token : Token} (h : l.next = (.ok (some token), l')) :
    l'.remaining < l.remaining := by
  obtain ⟨kind, length, hpos, hne, -, hi⟩ := next_eq_some h
  have := @remaining_issue_lt _ kind _ hpos hne
  rw [hi] at this
  exact Nat.lt_of_lt_of_le this l.remaining_skipLayout_le

theorem remaining_next_le (l : Lexer) : l.next.2.remaining ≤ l.remaining := by
  have h := l.remaining_skipLayout_le
  unfold next
  dsimp only
  split
  · exact h
  · split
    · refine Nat.le_trans ?_ h
      simp [issue, remaining]
    · exact h

/-- A token that was just read can be pushed back, which leads to the place before it. -/
theorem unread?_next {l l' : Lexer} {token : Token} (h : l.next = (.ok (some token), l')) :
    l'.unread? token = some { l' with cursor := l.skipLayout.cursor, last := none } := by
  obtain ⟨kind, length, -, -, -, hi⟩ := next_eq_some h
  obtain ⟨rfl, rfl⟩ := Prod.mk.inj hi
  have hstop : l.skipLayout.cursor.pos + (l.skipLayout.cursor.after.take length).length =
      (l.skipLayout.cursor.advance length).pos := rfl
  simp only [unread?, Token.stop, hstop, Cursor.retreat_advance, and_self, if_true]

theorem remaining_unread?_le {l l' l'' : Lexer} {token : Token}
    (h : l.next = (.ok (some token), l')) (h' : l'.unread? token = some l'') :
    l''.remaining ≤ l.remaining := by
  rw [unread?_next h] at h'
  cases h'
  exact l.remaining_skipLayout_le

def drain (l : Lexer) : Except Failure (List Token) × Lexer :=
  match _h : l.next with
  | (.error e, l') => (.error e, l')
  | (.ok none, l') => (.ok [], l')
  | (.ok (some token), l') =>
    match l'.drain with
    | (.ok tokens, l'') => (.ok (token :: tokens), l'')
    | (.error e, l'') => (.error e, l'')
termination_by l.remaining
decreasing_by exact remaining_next_lt _h

end Lexer

def tokens (text : List Char) : Except Failure (List Token) := (Lexer.ofText text).drain.1

end Parens
