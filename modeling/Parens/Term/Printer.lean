import Parens.Term.Basic
import Parens.Number.Format

/-!
Surface syntax of terms. Lists are written in parentheses, with the tail of a dotted one after a
point; a quotation is written with an apostrophe; all other pairs are dotted lists of one item or
more. The printer keeps a list of the terms and texts that are still to be written, so that depth
costs no stack.
-/

namespace Parens

def Arithmetic.symbol : Arithmetic → String
  | add => "+"
  | mul => "*"
  | sub => "-"
  | div => "/"

def Comparison.symbol : Comparison → String
  | eq => "="
  | ne => "/="
  | gt => ">"
  | ge => ">="
  | lt => "<"
  | le => "<="

def Primitive.name : Primitive → String
  | arithmetic op => op.symbol
  | list => "list"
  | cons => "cons"
  | car => "car"
  | cdr => "cdr"
  | isEmpty => "empty?"
  | compare op => op.symbol

def Builtin.name : Builtin → String
  | primitive p => p.name
  | eval => "eval"

def Procedure.name (f : Procedure) : String := f.builtin.name

namespace Term

/-- What a quotation quotes: the `x` of a pair that is exactly `(quote x)`. -/
def quotation? : Term → Option Term
  | cons (symbol a) (cons x nil) => if a = .quote then some x else none
  | _ => none

theorem quotation?_eq_some_iff {t x : Term} : t.quotation? = some x ↔ t = quoted x := by
  constructor
  · intro h
    unfold quotation? at h
    split at h
    · split at h
      · rename_i ha
        cases h
        rw [ha, quoted]
      · cases h
    · cases h
  · rintro rfl
    simp [quoted, quotation?]

theorem size_lt_of_quotation? {t x : Term} (h : t.quotation? = some x) : x.size < t.size := by
  rw [quotation?_eq_some_iff.1 h]
  simp only [quoted, size]
  omega

/-- The text of an atom; no list is written this way. -/
def atomText : Term → List Char
  | nil | cons _ _ => ['n', 'i', 'l']
  | number x => Number.text x
  | symbol a => a.text
  | procedure f => "#<function ".toList ++ f.name.toList ++ ['>']

end Term

/-- Something to be written: a term, or a text as it stands. -/
inductive Piece where
  | term (t : Term)
  | text (s : List Char)

namespace Piece

/-- A term weighs more than the pieces that it is taken apart into. -/
def weight : Piece → Nat
  | term t => 4 * t.size
  | text _ => 1

/-- The items of a list with a space between them. -/
def spaced : List Term → List Piece
  | [] => []
  | [t] => [term t]
  | t :: rest => term t :: text [' '] :: spaced rest

/-- What ends a list: the parenthesis, after the tail of a dotted list. -/
def closing : Term → List Piece
  | .nil => [text [')']]
  | tail => [text [' ', '.', ' '], term tail, text [')']]

def total : List Piece → Nat
  | [] => 0
  | p :: rest => p.weight + total rest

theorem total_append (p q : List Piece) : total (p ++ q) = total p + total q := by
  induction p with
  | nil => simp [total]
  | cons _ p ih => simp [total, ih, Nat.add_assoc]

theorem total_spaced_le (items : List Term) :
    total (spaced items) ≤ 4 * Term.totalSize items + items.length := by
  induction items with
  | nil => simp [spaced, total]
  | cons t rest ih =>
    cases rest with
    | nil => simp [spaced, total, weight, Term.totalSize]
    | cons u rest =>
      simp only [spaced, total, weight, Term.totalSize, List.length_cons] at ih ⊢
      omega

theorem total_closing_le (tail : Term) : total (closing tail) ≤ 4 * tail.size + 2 := by
  cases tail <;> simp [closing, total, weight] <;> omega

/-- A pair outweighs its items with the spaces between them, its tail, and its parentheses. -/
theorem total_list_lt (a d : Term) :
    total (spaced (Term.cons a d).items) + total (closing (Term.cons a d).tail) <
      (term (.cons a d)).weight := by
  have key : ∀ t : Term,
      Term.totalSize t.items + t.tail.size + t.items.length ≤ t.size := by
    intro t
    induction t with
    | cons a d _ ih =>
      simp only [Term.items, Term.tail, Term.totalSize, Term.size_cons, List.length_cons]
      omega
    | nil | number _ | symbol _ | procedure _ => simp [Term.items, Term.tail, Term.totalSize]
  have h₁ := total_spaced_le (Term.cons a d).items
  have h₂ := total_closing_le (Term.cons a d).tail
  have h₃ := key (.cons a d)
  simp only [weight]
  simp only [Term.items, List.length_cons] at h₁ h₃ ⊢
  omega

end Piece

/-- Writes the pieces after what has been written, which is given backwards. -/
def writePieces : (pending : List Piece) → (written : List Char) → List Char
  | [], written => written.reverse
  | .text s :: rest, written => writePieces rest (s.reverse ++ written)
  | .term (.cons a d) :: rest, written =>
    match _h : (Term.cons a d).quotation? with
    | some x => writePieces (.term x :: rest) ('\x27' :: written)
    | none =>
      writePieces
        (Piece.spaced (Term.cons a d).items ++ (Piece.closing (Term.cons a d).tail ++ rest))
        ('(' :: written)
  | .term t :: rest, written => writePieces rest (t.atomText.reverse ++ written)
termination_by pending => Piece.total pending
decreasing_by
  · simp [Piece.total, Piece.weight]
  · have := Term.size_lt_of_quotation? _h
    simp only [Piece.total, Piece.weight]
    omega
  · have := Piece.total_list_lt a d
    rw [Piece.total_append, Piece.total_append, Piece.total]
    omega
  · have := t.size_pos
    simp only [Piece.total, Piece.weight]
    omega

namespace Term

/-- The surface syntax of a term. -/
def render (t : Term) : List Char := writePieces [.term t] []

end Term
end Parens
