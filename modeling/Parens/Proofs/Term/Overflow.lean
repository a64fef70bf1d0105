import Parens.Proofs.Term.RoundTrip

/-!
What becomes of terms that were read from a text. They are plain, so their text is read again, but a
numeral beyond the finite doubles is read as infinity, written as a word, and then read as a symbol.
The terms that come back are those without such numerals.
-/

namespace Parens

open Number

/-- Whether a numeral lies below the halfway point between the last finite double and the next power
of two, and so is read as a finite double. -/
def Number.Numeral.InRange (n : Numeral) : Prop := n.digits < (2 ^ 1024 - 2 ^ 970) * 10 ^ n.places

/-- Whether all numerals among lexemes are in range. -/
def NumeralsInRange (lexemes : List Lexeme) : Prop :=
  ∀ x ∈ lexemes, x.kind = .number → ∀ n, Numeral.ofText? x.text = some n → n.InRange

theorem numeralsInRange_append {a b : List Lexeme} :
    NumeralsInRange (a ++ b) ↔ NumeralsInRange a ∧ NumeralsInRange b := by
  simp only [NumeralsInRange, List.mem_append]
  exact ⟨fun h => ⟨fun x hx => h x (.inl hx), fun x hx => h x (.inr hx)⟩,
    fun h x hx => hx.elim (h.1 x) (h.2 x)⟩

theorem numeralsInRange_cons_of {kind : Token.Kind} (x : Lexeme.Of kind) (hk : kind ≠ .number)
    {rest : List Lexeme} : NumeralsInRange (x.1 :: rest) ↔ NumeralsInRange rest := by
  have hx : x.1.kind ≠ .number := by rwa [x.2]
  simp [NumeralsInRange, hx]

theorem numeralsInRange_nil : NumeralsInRange [] := nofun

theorem numeralsInRange_number (token : Lexeme.Of .number) {n : Numeral}
    (reads : Numeral.ofText? token.1.text = some n) : NumeralsInRange [token.1] ↔ n.InRange := by
  simp [NumeralsInRange, token.2, reads]

theorem Term.isFinite_of_standsFor {word : List Char} {t : Term} (h : StandsFor word t) :
    t.IsFinite := by
  cases h with
  | nil _ | symbol _ _ => trivial

theorem Term.isFinite_ofList {items : List Term} {tail : Term} :
    (ofList items tail).IsFinite ↔ (∀ t ∈ items, t.IsFinite) ∧ tail.IsFinite := by
  induction items with
  | nil => simp
  | cons t rest ih => simp [IsFinite, ih, and_assoc]

mutual

theorem Derivation.isFinite_value_iff (d : Derivation) :
    d.value.IsFinite ↔ NumeralsInRange d.lexemes := by
  cases d with
  | number token n reads =>
      rw [Derivation.lexemes, numeralsInRange_number token reads]
      exact n.isFinite_toFloat_iff
  | symbol token t reads =>
      rw [Derivation.lexemes, numeralsInRange_cons_of token nofun]
      exact iff_of_true (Term.isFinite_of_standsFor reads) numeralsInRange_nil
  | quote mark quoted =>
      rw [Derivation.lexemes, numeralsInRange_cons_of mark nofun, ← quoted.isFinite_value_iff]
      simp [Derivation.value, Term.IsFinite]
  | list left items right =>
      rw [Derivation.lexemes, numeralsInRange_cons_of left nofun, numeralsInRange_append,
        numeralsInRange_cons_of right nofun, ← items.isFinite_values_iff,
        Derivation.value_list, Term.isFinite_ofList]
      simp [Term.IsFinite, numeralsInRange_nil]
  | dotted left items point tail right =>
      rw [Derivation.lexemes, numeralsInRange_cons_of left nofun, numeralsInRange_append,
        numeralsInRange_cons_of point nofun, numeralsInRange_append,
        numeralsInRange_cons_of right nofun, ← items.isFinite_values_iff, ← tail.isFinite_value_iff,
        Derivation.value_dotted, Term.isFinite_ofList]
      simp [numeralsInRange_nil]

theorem Derivations.isFinite_values_iff (d : Derivations) :
    (∀ t ∈ d.values, t.IsFinite) ↔ NumeralsInRange d.lexemes := by
  cases d with
  | nil => simp [Derivations.values, Derivations.lexemes, numeralsInRange_nil]
  | cons first rest =>
      rw [Derivations.lexemes, numeralsInRange_append, ← first.isFinite_value_iff,
        ← rest.isFinite_values_iff]
      simp [Derivations.values]

end

/-- A term that was read from a text is read again from its own, and comes back if and only if all
numerals of the text are in range. -/
theorem comes_back_iff_numeralsInRange {source : List Char} {t : Term} {ts : List Token}
    (hparse : parse source 0 = .ok (some t)) (hts : tokens source = .ok ts) :
    parse t.render 0 = .ok (some t.reread) ∧
      ((∃ u, parse t.render 0 = .ok (some u) ∧ u.equal t) ↔
        NumeralsInRange (ts.map Token.lexeme)) := by
  have hplain := plain_of_parse hparse
  obtain ⟨ts', hts', hlex⟩ := exists_tokens source
  rw [hts] at hts'
  cases hts'
  obtain ⟨d, hd, rfl⟩ := exists_derivation_iff_parse.2 hparse
  rw [exists_parse_render_iff_of_plain hplain, hlex, ← hd]
  exact ⟨parse_render_of_plain hplain, d.isFinite_value_iff⟩

theorem nines_come_back_as_symbol :
    ∃ t ts, parse (List.replicate 400 '9') 0 = .ok (some t) ∧
      tokens (List.replicate 400 '9') = .ok ts ∧
      parse t.render 0 = .ok (some (.symbol (.infinity false))) ∧
      ¬ NumeralsInRange (ts.map Token.lexeme) ∧
      ¬ ∃ u, parse t.render 0 = .ok (some u) ∧ u.equal t := by
  have hn : Numeral.ofText? (List.replicate 400 '9') = some ⟨false, 10 ^ 400 - 1, 0⟩ := by
    decide +kernel
  have hinfinite : decode (Numeral.toFloat ⟨false, 10 ^ 400 - 1, 0⟩) = .infinite false := by
    decide +kernel
  have hparse := parse_of_spells (spells_numeral hn)
  obtain ⟨ts, hts, -⟩ := exists_tokens (List.replicate 400 '9')
  obtain ⟨hback, hiff⟩ := comes_back_iff_numeralsInRange hparse hts
  rw [Term.reread, hinfinite] at hback
  have hnot : ¬ ∃ u, parse (Term.render (.number (Numeral.toFloat ⟨false, 10 ^ 400 - 1, 0⟩))) 0 =
      .ok (some u) ∧ u.equal (.number (Numeral.toFloat ⟨false, 10 ^ 400 - 1, 0⟩)) := by
    rintro ⟨u, hu, hequal⟩
    rw [hback] at hu
    cases hu
    rw [Term.equal_eq_same] at hequal
    cases hequal
  exact ⟨_, ts, hparse, hts, hback, mt hiff.2 hnot, hnot⟩

end Parens
