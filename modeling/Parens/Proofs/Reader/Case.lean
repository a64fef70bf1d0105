import Parens.Proofs.Reader.Forward
import Parens.Proofs.Reader.Lockstep
import Parens.Proofs.Token.Case

/-!
Reading does not depend on case. In lowercase a text has as many tokens of the same kinds, with the
same numerals, and a word in lowercase stands for what the word stands for: names are kept in
lowercase anyway, and to fold them again changes nothing.
-/

namespace Parens

open Text

theorem Name.ofText_lower (text : List Char) : Name.ofText (lower text) = Name.ofText text := by
  by_cases h : text = []
  · rw [h]
    rfl
  · have h' : lower text ≠ [] := mt lower_eq_nil_iff.1 h
    simp only [ofText, ofText?, h, h', dite_false, lower_lower]

theorem Lexeme.alike_lower (x : Lexeme) : x.Alike x.lower where
  kind_eq := rfl
  numeral_eq := numeral_lower x.text
  word_eq := by rw [lower, Term.ofWord, Term.ofWord, Name.ofText_lower]

theorem alike_lexemes_lower (text : List Char) :
    List.Forall₂ Lexeme.Alike (lexemes text) (lexemes (lower text)) := by
  rw [lexemes_lower, List.forall₂_map_right_iff, List.forall₂_same]
  exact fun x _ => x.alike_lower

theorem Name.exists_ofText {text : List Char} (h : text ≠ []) :
    ∃ a, Name.ofText text = .ok a ∧ a.text = lower text := by
  refine ⟨⟨lower text, mt lower_eq_nil_iff.1 h, lower_lower text⟩, ?_, rfl⟩
  simp only [ofText, ofText?, h, dite_false]

theorem parse_of_lexemes_eq_symbol {source : List Char} (token : Lexeme.Of .symbol) {t : Term}
    (reads : Term.ofWord token.1.text = .ok t) (h : lexemes source = [token.1]) (limit : Int) :
    parse source limit = .ok (some t) := by
  obtain ⟨l, hlex, -, hrun⟩ := Reader.run_symbol limit token reads .empty (l := .ofText source) h
  have hread : (Reader.ofText source limit).readTerm = (.ok (some t), ⟨l, limit⟩) := by
    simp only [Reader.readTerm, Reader.ofText, hrun]
    rfl
  rcases (⟨l, limit⟩ : Reader).ensureEmpty_cases with ⟨-, hempty⟩ | ⟨hne, -⟩
  · simp only [parse, hread, hempty]
  · exact absurd hlex hne

/-- A text in lowercase holds the same terms, and reading it ends alike. A symbol token by itself is
read as the empty list if it is called nil in any case, and else as the symbol that it names; to
lowercase it before it is taken for a name changes nothing. -/
theorem readAll_lower (source : List Char) (limit : Int) :
    (readAll (lower source) limit).terms = (readAll source limit).terms ∧
      (readAll (lower source) limit).EndsAs (readAll source limit) ∧
      ∃ ts, tokens source = .ok ts ∧ ∀ t ∈ ts, t.kind = .symbol →
        ∃ a, Name.ofText t.text = .ok a ∧ Name.ofText (lower t.text) = .ok a ∧
          parse t.text limit =
            .ok (some (if lower t.text = ['n', 'i', 'l'] then .nil else .symbol a)) := by
  obtain ⟨hterms, hends⟩ := readAll_of_alike (alike_lexemes_lower source) limit
  obtain ⟨ts, hts, hlex⟩ := exists_tokens source
  refine ⟨hterms, hends, ts, hts, fun t ht hkind => ?_⟩
  have hmem : t.lexeme ∈ lexemes source := by
    rw [← hlex]
    exact List.mem_map_of_mem ht
  have hproper : t.lexeme.Proper := proper_of_mem_lexemes hmem
  have hne : t.text ≠ [] := hproper.text_ne_nil
  obtain ⟨a, ha, hname⟩ := Name.exists_ofText hne
  refine ⟨a, ha, (Name.ofText_lower t.text).trans ha, ?_⟩
  refine parse_of_lexemes_eq_symbol ⟨t.lexeme, hkind⟩ ?_ hproper.lexemes_text limit
  change Term.ofWord t.text = _
  simp only [Term.ofWord, ha, hname]

theorem readAll_lower_nil_sigma :
    lower "(NIL \x27ΑΣ)".toList = "(nil \x27ας)".toList ∧
      (readAll "(nil \x27ας)".toList 2).terms = (readAll "(NIL \x27ΑΣ)".toList 2).terms ∧
      (readAll "(nil \x27ας)".toList 2).EndsAs (readAll "(NIL \x27ΑΣ)".toList 2) ∧
      parse "NIL".toList 2 = .ok (some .nil) ∧
      ∃ a, Name.ofText "ΑΣ".toList = .ok a ∧ parse "ΑΣ".toList 2 = .ok (some (.symbol a)) := by
  have hlower : lower "(NIL \x27ΑΣ)".toList = "(nil \x27ας)".toList := by decide +kernel
  obtain ⟨hterms, hends, ts, hts, hsymbols⟩ := readAll_lower "(NIL \x27ΑΣ)".toList 2
  rw [hlower] at hterms hends
  have htokens : tokens "(NIL \x27ΑΣ)".toList =
      .ok [⟨.opening, ['('], 0, 0⟩, ⟨.symbol, "NIL".toList, 1, 1⟩, ⟨.quote, ['\x27'], 5, 2⟩,
        ⟨.symbol, "ΑΣ".toList, 6, 3⟩, ⟨.closing, [')'], 8, 4⟩] := by decide +kernel
  obtain rfl := Except.ok.inj (htokens.symm.trans hts)
  obtain ⟨_, _, _, hnil⟩ := hsymbols ⟨.symbol, "NIL".toList, 1, 1⟩ (by simp) rfl
  obtain ⟨a, ha, -, hsigma⟩ := hsymbols ⟨.symbol, "ΑΣ".toList, 6, 3⟩ (by simp) rfl
  rw [if_pos (by decide +kernel)] at hnil
  rw [if_neg (by decide +kernel)] at hsigma
  exact ⟨hlower, hterms, hends, hnil, a, ha, hsigma⟩

end Parens
