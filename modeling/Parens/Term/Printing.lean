import Parens.Store
import Parens.Term.Printer

/-!
Surface syntax by its rules, and the printer pass by pass. A pass takes the piece on top of a stack,
writes some text for it and pushes what is still to be written, the last of it first. What is no
piece of a term cannot be written.
-/

namespace Parens

/-- Whether a text is given to every term by the rules of surface syntax: one for atoms, one for
quotations and one for all other pairs. -/
structure IsSurfaceSyntax (text : Term → List Char) : Prop where
  atom {t : Term} : t.kind ≠ .cons → text t = t.atomText
  quoted (x : Term) : text x.quoted = '\x27' :: text x
  list {t : Term} : t.kind = .cons → (∀ x : Term, t ≠ x.quoted) →
    text t = '(' :: ([' '].intercalate (t.items.map text) ++
      ((if t.tail = .nil then [] else [' ', '.', ' '] ++ text t.tail) ++ [')']))

namespace Piece

/-- What is pushed for a list, in this order: what ends it, and then its items from the last to the
first, with a space between them. -/
def pushes (items : List Term) (tail : Term) : List Piece :=
  text [')'] :: ((if tail = .nil then [] else [term tail, text [' ', '.', ' ']]) ++
    items.zipIdx.reverse.flatMap fun p => if p.2 = 0 then [term p.1] else [term p.1, text [' ']])

/-- What a pass writes for a piece, and what it pushes. -/
def pass : Piece → Except Failure (List Char × List Piece)
  | text s => .ok (s, [])
  | term (.number x) => .ok (Number.text x, [])
  | term (.symbol a) => .ok (a.text, [])
  | term .nil => .ok (['n', 'i', 'l'], [])
  | term (.procedure f) => .ok ((Term.procedure f).atomText, [])
  | term t =>
    match t.quotation? with
    | some x => .ok (['\x27'], [term x])
    | none =>
      if t.kind = .cons then .ok (['('], pushes t.items t.tail)
      else .error (.wrongKind "term" t.typeName (some "render"))

end Piece

/-- Whether so many passes over what is pending, the top of the stack first, come to this result. -/
inductive Prints :
    Nat → (pending : List Piece) → (written : List Char) → Except Failure (List Char) → Prop
  | done (written : List Char) : Prints 0 [] written (.ok written)
  | pass {n : Nat} {p : Piece} {pushed rest : List Piece} {s written : List Char}
      {result : Except Failure (List Char)} : p.pass = .ok (s, pushed) →
      Prints n (pushed.reverse ++ rest) (written ++ s) result →
      Prints (n + 1) (p :: rest) written result
  | fail {p : Piece} {rest : List Piece} {written : List Char} {e : Failure} : p.pass = .error e →
      Prints 0 (p :: rest) written (.error e)

end Parens
