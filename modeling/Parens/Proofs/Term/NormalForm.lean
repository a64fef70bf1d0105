import Parens.Proofs.Term.RoundTrip

/-!
Printed text is a normal form. A term that was read from its own text has the same text again, also
where an infinite number has become a symbol: the symbol is spelt as the number was, and neither of
them makes a list a quotation or ends it.
-/

namespace Parens

open Number

namespace Term

theorem reread_quoted (t : Term) : t.quoted.reread = t.reread.quoted := rfl

theorem reread_eq_nil_iff {t : Term} : t.reread = nil ↔ t = nil := by
  cases t with
  | number x =>
      unfold reread
      split <;> simp
  | nil | symbol _ | cons _ _ | procedure _ => simp [reread]

/-- No number is read again as the symbol that begins a quotation. -/
theorem reread_eq_quote_iff {t : Term} : t.reread = symbol .quote ↔ t = symbol .quote := by
  cases t with
  | number x =>
      have hnan : Name.nan ≠ .quote := by decide
      have hinfinity : ∀ negative, Name.infinity negative ≠ .quote := by decide
      unfold reread
      split <;> simp [hnan, hinfinity]
  | nil | symbol _ | cons _ _ | procedure _ => simp [reread]

theorem exists_eq_quoted_of_reread {t x : Term} (h : t.reread = x.quoted) :
    ∃ y : Term, t = y.quoted := by
  cases t with
  | cons a d =>
      obtain ⟨ha, hd⟩ := cons.inj h
      cases d with
      | cons b e =>
          rw [reread_eq_quote_iff.1 ha, reread_eq_nil_iff.1 (cons.inj hd).2]
          exact ⟨b, rfl⟩
      | number y =>
          unfold reread at hd
          split at hd <;> cases hd
      | nil | symbol _ | procedure _ => cases hd
  | number y =>
      unfold reread at h
      split at h <;> cases h
  | nil | symbol _ | procedure _ => cases h

theorem quotation?_reread {t : Term} (h : t.quotation? = none) : t.reread.quotation? = none := by
  rw [Option.eq_none_iff_forall_ne_some]
  intro x hx
  obtain ⟨y, rfl⟩ := exists_eq_quoted_of_reread (quotation?_eq_some_iff.1 hx)
  rw [quotation?_eq_some_iff.2 rfl] at h
  cases h

/-- What is read for a number is spelt as the number is. -/
theorem atomText_reread_number (x : Float) : (number x).reread.atomText = Number.text x := by
  cases hdecode : decode x with
  | notANumber =>
      rw [reread, Number.text, hdecode]
      rfl
  | infinite negative =>
      rw [reread, Number.text, hdecode]
      rfl
  | finite negative m k =>
      have hfinite : Number.IsFinite x := ⟨negative, m, k, hdecode⟩
      rw [reread_number hfinite]
      rfl

theorem atomText_reread (t : Term) : t.reread.atomText = t.atomText := by
  cases t with
  | number x => exact atomText_reread_number x
  | nil | symbol _ | cons _ _ | procedure _ => rfl

theorem reread_ne_cons {t : Term} (h : ∀ a d, t ≠ cons a d) (a d : Term) : t.reread ≠ cons a d := by
  cases t with
  | number x =>
      unfold reread
      split <;> simp
  | cons b e => exact absurd rfl (h b e)
  | nil | symbol _ | procedure _ => simp [reread]

theorem text_reread_atom {t : Term} (h : ∀ a d, t ≠ cons a d) : t.reread.text = t.text := by
  rw [text_atom (reread_ne_cons h), text_atom h, atomText_reread]

theorem restText_atom {t : Term} (h : ∀ a d, t ≠ cons a d) (hnil : t ≠ nil) :
    t.restText = ' ' :: '.' :: ' ' :: (t.atomText ++ [')']) := by
  cases t with
  | nil => exact absurd rfl hnil
  | cons a d => exact absurd rfl (h a d)
  | number _ | symbol _ | procedure _ => rfl

theorem restText_reread_atom {t : Term} (h : ∀ a d, t ≠ cons a d) :
    t.reread.restText = t.restText := by
  by_cases hnil : t = nil
  · rw [hnil]
    rfl
  · rw [restText_atom (reread_ne_cons h) (mt reread_eq_nil_iff.1 hnil), restText_atom h hnil,
      atomText_reread]

mutual

theorem text_reread (t : Term) : t.reread.text = t.text := by
  cases t with
  | nil | number _ | symbol _ | procedure _ => exact text_reread_atom nofun
  | cons a d =>
      cases hquotation : (cons a d).quotation? with
      | some x =>
          have hlt := size_lt_of_quotation? hquotation
          rw [text_of_quotation? hquotation, quotation?_eq_some_iff.1 hquotation, reread_quoted,
            text_of_quotation? (quotation?_eq_some_iff.2 rfl), text_reread x]
      | none =>
          rw [text_cons hquotation, ← text_reread a, ← restText_reread d]
          exact text_cons (quotation?_reread hquotation)
termination_by t.size
decreasing_by all_goals simp only [size_cons] at *; omega

theorem restText_reread (d : Term) : d.reread.restText = d.restText := by
  cases d with
  | nil | number _ | symbol _ | procedure _ => exact restText_reread_atom nofun
  | cons a d =>
      rw [restText, ← text_reread a, ← restText_reread d]
      rfl
termination_by d.size

end

end Term

/-- The text of a term that was read from a source is read, and printing what was read gives the
same text, however large the numerals of the source are. -/
theorem render_of_parse_render {source : List Char} {t : Term}
    (h : parse source 0 = .ok (some t)) :
    ∃ u, parse t.render 0 = .ok (some u) ∧ u.render = t.render := by
  refine ⟨t.reread, parse_render_of_plain (plain_of_parse h), ?_⟩
  rw [Term.render_eq_text, Term.render_eq_text, Term.text_reread]

theorem render_of_parse_render_quoted_nines :
    ∃ t u, parse ('\x27' :: '-' :: List.replicate 400 '9') 0 = .ok (some t) ∧
      parse t.render 0 = .ok (some u) ∧ u.render = t.render ∧ t.render = "\x27-inf".toList ∧
      u = (Term.symbol (.infinity true)).quoted ∧ u ≠ t := by
  have hn : Numeral.ofText? ('-' :: List.replicate 400 '9') = some ⟨true, 10 ^ 400 - 1, 0⟩ := by
    decide +kernel
  have hinfinite : decode (Numeral.toFloat ⟨true, 10 ^ 400 - 1, 0⟩) = .infinite true := by
    decide +kernel
  have hreread : (Term.number (Numeral.toFloat ⟨true, 10 ^ 400 - 1, 0⟩)).reread =
      .symbol (.infinity true) := by
    rw [Term.reread, hinfinite]
  have hparse := parse_of_spells (spells_quoted (spells_numeral hn))
  obtain ⟨u, hu, hrender⟩ := render_of_parse_render hparse
  have hback := parse_render_of_plain (plain_of_parse hparse)
  rw [hu, Term.reread_quoted, hreread] at hback
  cases hback
  have htext : (Term.symbol (.infinity true)).text = "-inf".toList :=
    Term.text_atom fun a d h => Term.noConfusion h
  refine ⟨_, _, hparse, hu, hrender, ?_, rfl, ?_⟩
  · rw [← hrender, Term.render_eq_text, Term.text_of_quotation? (Term.quotation?_eq_some_iff.2 rfl),
      htext]
    rfl
  · intro heq
    cases heq

end Parens
