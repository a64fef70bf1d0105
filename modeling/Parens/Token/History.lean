import Parens.Token.Lexer

/-!
A lexer over time: what it is asked, in any order, and what it answers. Tokens are pushed back by
naming one that was handed out before, and this may be refused.
-/

namespace Parens

namespace Lexer

/-- Pushes a token back, or refuses to and leaves everything as it is. -/
def unread (l : Lexer) (token : Token) : Except Failure Unit × Lexer :=
  match l.unread? token with
  | some l => (.ok (), l)
  | none => (.error .staleToken, l)

inductive Request where
  | next
  /-- To push back the token that was handed out after so many others. -/
  | unread (index : Nat)
  | skip
  | atEnd

inductive Event where
  | next (outcome : Except Failure (Option Token))
  | unread (token : Token) (outcome : Except Failure Unit)
  | skip
  | atEnd (answer : Bool)

end Lexer

/-- A lexer and what has happened to it, the latest event first. -/
structure History where
  lexer : Lexer
  events : List Lexer.Event

namespace History

open Lexer (Request Event)

/-- All tokens that were handed out, in this order. -/
def handedOut : List Event → List Token
  | [] => []
  | .next (.ok (some token)) :: events => handedOut events ++ [token]
  | _ :: events => handedOut events

/-- The tokens that were handed out, but for those that were pushed back. -/
def kept : List Event → List Token
  | [] => []
  | .next (.ok (some token)) :: events => kept events ++ [token]
  | .unread token (.ok ()) :: events => (kept events).erase token
  | _ :: events => kept events

/-- What was handed out when a token was last asked for. -/
def latest : List Event → Option Token
  | [] => none
  | .next (.ok token) :: _ => token
  | .next (.error _) :: _ => none
  | _ :: events => latest events

/-- Whether a token was pushed back since one was last asked for. -/
def isTakenBack : List Event → Bool
  | [] => false
  | .next _ :: _ => false
  | .unread _ (.ok ()) :: _ => true
  | _ :: events => isTakenBack events

def start (source : List Char) : History := ⟨.ofText source, []⟩

/-- A token that was not handed out cannot be named, and then nothing happens. -/
def perform (h : History) : Request → History
  | .next =>
    let (outcome, l) := h.lexer.next
    ⟨l, .next outcome :: h.events⟩
  | .unread index =>
    match (handedOut h.events)[index]? with
    | some token =>
      let (outcome, l) := h.lexer.unread token
      ⟨l, .unread token outcome :: h.events⟩
    | none => h
  | .skip => ⟨h.lexer.skipLayout, .skip :: h.events⟩
  | .atEnd => ⟨h.lexer, .atEnd h.lexer.atEnd :: h.events⟩

def run (source : List Char) (requests : List Request) : History :=
  requests.foldl perform (start source)

end History
end Parens
