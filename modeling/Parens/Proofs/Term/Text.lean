import Parens.Term.Text

/-!
The printer against surface syntax by recursion. What is still to be written counts piece by piece,
so the printer writes the text of a term, whatever has been written before it.
-/

namespace Parens

/-- What a piece adds to the text. -/
def Piece.written : Piece → List Char
  | .term t => t.text
  | .text s => s

namespace Term

theorem text_of_quotation? {t x : Term} (h : t.quotation? = some x) :
    t.text = '\x27' :: x.text := by
  rw [quotation?_eq_some_iff.1 h, quoted, text, if_pos rfl]

theorem text_cons {a d : Term} (h : (cons a d).quotation? = none) :
    (cons a d).text = '(' :: (a.text ++ d.restText) := by
  by_cases hform : ∃ name x, a = symbol name ∧ d = cons x nil
  · obtain ⟨name, x, rfl, rfl⟩ := hform
    have hname : name ≠ .quote := by
      intro hquote
      rw [quotation?, if_pos hquote] at h
      cases h
    rw [text, if_neg hname]
    rfl
  · rw [text]
    rintro name x rfl rfl
    exact hform ⟨name, x, rfl, rfl⟩

theorem text_atom {t : Term} (h : ∀ a d, t ≠ cons a d) : t.text = t.atomText := by
  cases t with
  | cons a d => exact absurd rfl (h a d)
  | nil | number _ | symbol _ | procedure _ => rfl

/-- The text of a list behind an item is its other items and what ends it. -/
theorem restText_eq_written (d : Term) (item : Term) :
    (Piece.spaced (item :: d.items) ++ Piece.closing d.tail).flatMap Piece.written =
      item.text ++ d.restText := by
  induction d generalizing item with
  | nil => simp [items, tail, restText, Piece.spaced, Piece.closing, Piece.written]
  | number _ | symbol _ | procedure _ =>
      simp [items, tail, restText, Piece.spaced, Piece.closing, Piece.written, text]
  | cons a d _ ih =>
      have hrest := ih a
      simp only [items, tail, restText, Piece.spaced, List.flatMap_append, List.flatMap_cons,
        Piece.written] at hrest ⊢
      rw [List.append_assoc, List.append_assoc, hrest]
      rfl

theorem text_eq_written {a d : Term} (h : (cons a d).quotation? = none) :
    (cons a d).text = '(' :: (Piece.spaced (cons a d).items ++
      Piece.closing (cons a d).tail).flatMap Piece.written := by
  rw [text_cons h, items, tail, restText_eq_written]

end Term

theorem writePieces_eq (pending : List Piece) (written : List Char) :
    writePieces pending written = written.reverse ++ pending.flatMap Piece.written := by
  fun_induction writePieces pending written with
  | case1 written => simp
  | case2 s rest written ih => simpa [Piece.written] using ih
  | case3 written a d rest x h ih =>
      simp [ih, Piece.written, Term.text_of_quotation? h]
  | case4 written a d rest h ih =>
      rw [ih, List.flatMap_cons, Piece.written, Term.text_eq_written h]
      simp [List.flatMap_append, List.append_assoc]
  | case5 written t rest h ih =>
      simp [ih, Piece.written, Term.text_atom h]

theorem Term.render_eq_text (t : Term) : t.render = t.text := by
  simp [render, writePieces_eq, Piece.written]

end Parens
