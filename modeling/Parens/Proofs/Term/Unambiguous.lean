import Parens.Term.Grammar

/-!
The grammar is unambiguous. The first lexeme of a term decides its rule but for the two kinds of
lists, and these differ in the lexeme behind their items, which begins no term. So lexemes are spelt
by one derivation at most, even when more lexemes follow.
-/

namespace Parens

theorem Lexeme.Of.kind_eq {k l : Token.Kind} {x : Of k} {y : Of l} (h : x.1 = y.1) : k = l := by
  rw [← x.2, ← y.2, h]

/-- Whether a term can begin with a lexeme of the kind. -/
def Token.Kind.beginsTerm : Token.Kind → Bool
  | .closing | .dot => false
  | _ => true

/-- Lexemes in front of which a sequence of terms cannot go on. -/
def EndsItems : List Lexeme → Prop
  | [] => True
  | x :: _ => x.kind.beginsTerm = false

theorem endsItems_closing (right : Lexeme.Of .closing) (rest : List Lexeme) :
    EndsItems (right.1 :: rest) := by
  rw [EndsItems, right.2]
  rfl

theorem endsItems_dot (point : Lexeme.Of .dot) (rest : List Lexeme) :
    EndsItems (point.1 :: rest) := by
  rw [EndsItems, point.2]
  rfl

theorem Derivation.exists_lexemes_eq_cons (d : Derivation) :
    ∃ x rest, d.lexemes = x :: rest ∧ x.kind.beginsTerm := by
  cases d with
  | number token _ _ | symbol token _ _ => exact ⟨token.1, [], rfl, by rw [token.2]; rfl⟩
  | quote mark quoted => exact ⟨mark.1, quoted.lexemes, rfl, by rw [mark.2]; rfl⟩
  | list left _ _ | dotted left _ _ _ _ => exact ⟨left.1, _, rfl, by rw [left.2]; rfl⟩

theorem Derivation.length_lexemes_pos (d : Derivation) : 0 < d.lexemes.length := by
  obtain ⟨x, rest, hx, -⟩ := d.exists_lexemes_eq_cons
  simp [hx]

theorem Derivation.append_ne_of_endsItems (d : Derivation) {r s : List Lexeme} (hs : EndsItems s) :
    d.lexemes ++ r ≠ s := by
  obtain ⟨x, rest, hx, hbegins⟩ := d.exists_lexemes_eq_cons
  rintro rfl
  rw [hx, List.cons_append, EndsItems, hbegins] at hs
  cases hs

mutual

theorem Derivation.eq_of_append (d e : Derivation) {r s : List Lexeme}
    (h : d.lexemes ++ r = e.lexemes ++ s) : d = e ∧ r = s := by
  cases d with
  | number token n reads =>
      cases e with
      | number token' n' reads' =>
          obtain ⟨hhead, hrest⟩ := List.cons.inj h
          obtain rfl := Subtype.ext hhead
          rw [reads] at reads'
          cases reads'
          exact ⟨rfl, hrest⟩
      | symbol _ _ _ | quote _ _ | list _ _ _ | dotted _ _ _ _ _ =>
          cases Lexeme.Of.kind_eq (List.cons.inj h).1
  | symbol token t reads =>
      cases e with
      | symbol token' t' reads' =>
          obtain ⟨hhead, hrest⟩ := List.cons.inj h
          obtain rfl := Subtype.ext hhead
          obtain rfl := reads.eq reads'
          exact ⟨rfl, hrest⟩
      | number _ _ _ | quote _ _ | list _ _ _ | dotted _ _ _ _ _ =>
          cases Lexeme.Of.kind_eq (List.cons.inj h).1
  | quote mark quoted =>
      cases e with
      | quote mark' quoted' =>
          obtain ⟨hhead, hrest⟩ := List.cons.inj h
          obtain rfl := Subtype.ext hhead
          obtain ⟨rfl, hrs⟩ := Derivation.eq_of_append quoted quoted' hrest
          exact ⟨rfl, hrs⟩
      | number _ _ _ | symbol _ _ _ | list _ _ _ | dotted _ _ _ _ _ =>
          cases Lexeme.Of.kind_eq (List.cons.inj h).1
  | list left items right =>
      simp only [Derivation.lexemes, List.append_assoc, List.cons_append] at h
      cases e with
      | list left' items' right' =>
          simp only [Derivation.lexemes, List.append_assoc, List.cons_append] at h
          obtain ⟨hhead, hrest⟩ := List.cons.inj h
          obtain rfl := Subtype.ext hhead
          obtain ⟨rfl, hback⟩ := Derivations.eq_of_append items items'
            (endsItems_closing right _) (endsItems_closing right' _) hrest
          obtain ⟨hright, hrs⟩ := List.cons.inj hback
          obtain rfl := Subtype.ext hright
          exact ⟨rfl, hrs⟩
      | dotted left' items' point' tail' right' =>
          simp only [Derivation.lexemes, List.append_assoc, List.cons_append] at h
          obtain ⟨-, hback⟩ := Derivations.eq_of_append items items'
            (endsItems_closing right _) (endsItems_dot point' _) (List.cons.inj h).2
          cases Lexeme.Of.kind_eq (List.cons.inj hback).1
      | number _ _ _ | symbol _ _ _ | quote _ _ =>
          cases Lexeme.Of.kind_eq (List.cons.inj h).1
  | dotted left items point tail right =>
      simp only [Derivation.lexemes, List.append_assoc, List.cons_append] at h
      cases e with
      | list left' items' right' =>
          simp only [Derivation.lexemes, List.append_assoc, List.cons_append] at h
          obtain ⟨-, hback⟩ := Derivations.eq_of_append items items'
            (endsItems_dot point _) (endsItems_closing right' _) (List.cons.inj h).2
          cases Lexeme.Of.kind_eq (List.cons.inj hback).1
      | dotted left' items' point' tail' right' =>
          simp only [Derivation.lexemes, List.append_assoc, List.cons_append] at h
          obtain ⟨hhead, hrest⟩ := List.cons.inj h
          obtain rfl := Subtype.ext hhead
          obtain ⟨rfl, hback⟩ := Derivations.eq_of_append items items'
            (endsItems_dot point _) (endsItems_dot point' _) hrest
          obtain ⟨hpoint, htail⟩ := List.cons.inj hback
          obtain rfl := Subtype.ext hpoint
          obtain ⟨rfl, hlast⟩ := Derivation.eq_of_append tail tail' htail
          obtain ⟨hright, hrs⟩ := List.cons.inj hlast
          obtain rfl := Subtype.ext hright
          exact ⟨rfl, hrs⟩
      | number _ _ _ | symbol _ _ _ | quote _ _ =>
          cases Lexeme.Of.kind_eq (List.cons.inj h).1

theorem Derivations.eq_of_append (d e : Derivations) {r s : List Lexeme} (hr : EndsItems r)
    (hs : EndsItems s) (h : d.lexemes ++ r = e.lexemes ++ s) : d = e ∧ r = s := by
  cases d with
  | nil =>
      cases e with
      | nil => exact ⟨rfl, h⟩
      | cons first rest =>
          simp only [Derivations.lexemes, List.nil_append, List.append_assoc] at h
          exact absurd h.symm (first.append_ne_of_endsItems hr)
  | cons first rest =>
      simp only [Derivations.lexemes, List.append_assoc] at h
      cases e with
      | nil => exact absurd h (first.append_ne_of_endsItems hs)
      | cons first' rest' =>
          simp only [Derivations.lexemes, List.append_assoc] at h
          obtain ⟨rfl, hrest⟩ := Derivation.eq_of_append first first' h
          obtain ⟨rfl, hrs⟩ := Derivations.eq_of_append rest rest' hr hs hrest
          exact ⟨rfl, hrs⟩

end

theorem Derivation.eq_of_lexemes_eq {d e : Derivation} (h : d.lexemes = e.lexemes) : d = e :=
  (Derivation.eq_of_append d e (congrArg (· ++ []) h)).1

theorem Derivations.eq_of_lexemes_eq {d e : Derivations} (h : d.lexemes = e.lexemes) : d = e :=
  (Derivations.eq_of_append d e (r := []) (s := []) trivial trivial (congrArg (· ++ []) h)).1

end Parens
