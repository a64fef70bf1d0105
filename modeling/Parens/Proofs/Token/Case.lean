import Parens.Proofs.Text.Context
import Parens.Proofs.Text.Reserved
import Parens.Proofs.Token.Path

/-!
The tokens of a text in lowercase. Delimiters stay where they are, and they separate words. So
layout stays layout, and each token is lowercased as if it stood alone: the letters that decide
about a capital sigma in it are its own. What is numeral or point stays so, and nothing else becomes
one.
-/

namespace Parens

open Text Number

theorem isReserved_of_isDelimiter {c : Char} (h : isDelimiter c) : isReserved c := by
  simp only [isDelimiter, isBlank, Bool.or_eq_true, decide_eq_true_eq] at h
  rcases h with ((h | rfl) | rfl) | rfl
  · rw [isReserved, reservedRanges, inRanges, List.any_append]
    exact Bool.or_eq_true _ _ ▸ .inl h
  · rfl
  · rfl
  · rfl

theorem isReserved_of_isDigit {c : Char} (h : isDigit c) : isReserved c := by
  have h' : '0' ≤ c ∧ c ≤ '9' := by simpa [isDigit] using h
  have hcode : (⟨0x30, 0x39⟩ : CodeRange).contains c.toNat := by
    simp only [CodeRange.contains, Bool.and_eq_true, Nat.ble_eq]
    exact h'
  exact List.any_eq_true.2 ⟨_, by decide, hcode⟩

/-- The delimiters by their code points. -/
def delimiterRanges : List CodeRange := blankRanges ++ [⟨0x28, 0x29⟩, ⟨0x3B, 0x3B⟩]

theorem inRanges_of_isDelimiter {c : Char} (h : isDelimiter c) : inRanges delimiterRanges c := by
  simp only [isDelimiter, isBlank, Bool.or_eq_true, decide_eq_true_eq] at h
  rcases h with ((h | rfl) | rfl) | rfl
  · rw [inRanges, delimiterRanges, List.any_append]
    exact Bool.or_eq_true _ _ ▸ .inl h
  · rfl
  · rfl
  · rfl

theorem separatesWords_of_isDelimiter {c : Char} (h : isDelimiter c) : separatesWords c := by
  have hc := inRanges_of_isDelimiter h
  have hignorable : isCaseIgnorable c = false := inRanges_eq_false_of_apart (by decide +kernel) hc
  have hcased : isCased c = false := inRanges_eq_false_of_apart (by decide +kernel) hc
  simp [separatesWords, hignorable, hcased]

theorem meetsCased_cons_of_isDelimiter {c : Char} {text : List Char} (h : isDelimiter c) :
    meetsCased (c :: text) = false :=
  meetsCased_cons_of_separatesWords (separatesWords_of_isDelimiter h)

theorem meetsCased_of_atBoundary {text : List Char} (h : atBoundary text) :
    meetsCased text = false := by
  cases text with
  | nil => rfl
  | cons c text => exact meetsCased_cons_of_isDelimiter h

theorem isDelimiter_of_isBlank {c : Char} (h : isBlank c) : isDelimiter c := by
  simp [isDelimiter, h]

variable {before text run : List Char}

theorem lowerAfter_cons_of_isDelimiter {c : Char} (hc : isDelimiter c) :
    lowerAfter before (c :: text) = c :: lowerAfter (c :: before) text :=
  lowerAfter_cons_of_isReserved (isReserved_of_isDelimiter hc)

theorem atBoundary_lowerAfter (h : atBoundary text) : atBoundary (lowerAfter before text) := by
  cases text with
  | nil => rfl
  | cons c text =>
      rw [lowerAfter_cons_of_isDelimiter h]
      exact h

/-- Layout in front of a text stays layout, and what comes behind it is lowercased by itself. -/
theorem IsLayout.exists_lowerAfter {layout : List Char} (h : IsLayout layout)
    (before text : List Char) :
    ∃ layout' before', IsLayout layout' ∧
      lowerAfter before (layout ++ text) = layout' ++ lowerAfter before' text ∧
      (layout = [] ∧ before' = before ∨ meetsCased before' = false) := by
  induction h generalizing before with
  | nil => exact ⟨[], before, .nil, rfl, .inl ⟨rfl, rfl⟩⟩
  | @blank c rest hc _ ih =>
      have hdelimiter := isDelimiter_of_isBlank hc
      obtain ⟨layout', before', hlayout', hlower, hbefore⟩ := ih (c :: before)
      refine ⟨c :: layout', before', .blank hc hlayout', ?_, .inr ?_⟩
      · rw [List.cons_append, lowerAfter_cons_of_isDelimiter hdelimiter, hlower, List.cons_append]
      · rcases hbefore with ⟨-, rfl⟩ | hbefore
        · exact meetsCased_cons_of_isDelimiter hdelimiter
        · exact hbefore
  | @comment body rest hbody _ ih =>
      have hnewline : meetsCased ('\n' :: (rest ++ text)) = false :=
        meetsCased_cons_of_isDelimiter rfl
      obtain ⟨layout', before', hlayout', hlower, hbefore⟩ :=
        ih ('\n' :: (body.reverse ++ ';' :: before))
      have hbody' : '\n' ∉ lowerAfter (';' :: before) body := fun hmem =>
        hbody (mem_of_mem_lowerAfter hmem rfl)
      refine ⟨_, before', .comment hbody' hlayout', ?_, .inr ?_⟩
      · rw [List.cons_append, List.append_assoc, List.cons_append,
          lowerAfter_cons_of_isDelimiter rfl, lowerAfter_append hnewline,
          lowerAfter_cons_of_isDelimiter rfl, hlower]
        simp only [List.cons_append, List.append_assoc]
      · rcases hbefore with ⟨-, rfl⟩ | hbefore
        · exact meetsCased_cons_of_isDelimiter rfl
        · exact hbefore

theorem IsLastLayout.lowerAfter {layout : List Char} (h : IsLastLayout layout)
    (before : List Char) : IsLastLayout (lowerAfter before layout) := by
  cases h with
  | closed h =>
      obtain ⟨layout', before', hlayout', hlower, -⟩ := h.exists_lowerAfter before []
      rw [List.append_nil] at hlower
      rw [hlower, Text.lowerAfter, List.append_nil]
      exact .closed hlayout'
  | @unclosed layout body h hbody =>
      obtain ⟨layout', before', hlayout', hlower, -⟩ := h.exists_lowerAfter before (';' :: body)
      rw [hlower, lowerAfter_cons_of_isDelimiter rfl]
      exact .unclosed hlayout' fun hmem => hbody (mem_of_mem_lowerAfter hmem rfl)

/-- Text in reserved characters only is the same in any case. -/
theorem lower_eq_iff_of_isReserved {spelt : List Char} (h : ∀ c ∈ spelt, isReserved c) :
    lower text = spelt ↔ text = spelt := by
  constructor
  · rintro rfl
    exact (lower_eq_self h).symm
  · rintro rfl
    exact lowerAfter_of_settled fun c hc => settled_of_isReserved (h c hc)

theorem isNumeral_lower_iff : IsNumeral (lower run) ↔ IsNumeral run := by
  have hreserved : ∀ {text : List Char}, IsNumeral text → ∀ c ∈ text, isReserved c := fun h =>
    h.forall_mem (fun _ => isReserved_of_isDigit) rfl rfl
  constructor
  · intro h
    rwa [lower_eq_self (hreserved h)] at h
  · intro h
    rwa [(lower_eq_iff_of_isReserved (hreserved h)).2 rfl]

theorem numeral_lower (run : List Char) : Numeral.ofText? (lower run) = Numeral.ofText? run := by
  by_cases h : IsNumeral run
  · have hreserved := h.forall_mem (fun _ => isReserved_of_isDigit) rfl rfl
    rw [(lower_eq_iff_of_isReserved hreserved).2 rfl]
  · have hnone : ∀ {text : List Char}, ¬ IsNumeral text → Numeral.ofText? text = none := fun h =>
      Option.not_isSome_iff_eq_none.1 (mt Numeral.isSome_ofText?_iff.1 h)
    rw [hnone h, hnone (mt isNumeral_lower_iff.1 h)]

theorem Token.Kind.ofRun_lower (run : List Char) : ofRun (lower run) = ofRun run := by
  have hpoint : lower run = ['.'] ↔ run = ['.'] :=
    lower_eq_iff_of_isReserved (List.forall_mem_singleton.2 rfl)
  simp only [ofRun, hpoint, numeral_lower]

namespace Lexeme

/-- The lexeme in lowercase. -/
def lower (x : Lexeme) : Lexeme := ⟨x.kind, Text.lower x.text⟩

theorem Proper.lower {x : Lexeme} (h : x.Proper) : x.lower.Proper := by
  cases h with
  | opening => exact .opening
  | closing => exact .closing
  | quote => exact .quote
  | @run run hne hrun hquote =>
      rw [Lexeme.lower, ← Token.Kind.ofRun_lower]
      refine .run (mt lower_eq_nil_iff.1 hne) (fun c hc => ?_)
        (fun h => hquote (head?_eq_of_head?_lower h rfl))
      rw [Bool.eq_false_iff]
      intro hdelimiter
      have hmem := mem_of_mem_lowerAfter hc (isReserved_of_isDelimiter hdelimiter)
      exact Bool.eq_false_iff.1 (hrun c hmem) hdelimiter

/-- A lexeme in front of a text is lowercased by itself, and so is what comes behind it. -/
theorem Proper.exists_lowerAfter {x : Lexeme} {before rest : List Char} (h : x.Proper)
    (hends : x.kind.mayTouch .symbol ∨ Parens.atBoundary rest)
    (hbefore : meetsCased before = false ∨ Parens.atBoundary (x.text ++ rest)) :
    ∃ before', lowerAfter before (x.text ++ rest) = x.lower.text ++ lowerAfter before' rest ∧
      (meetsCased before' = false ∨ Parens.atBoundary rest) := by
  cases h with
  | opening =>
      exact ⟨'(' :: before, lowerAfter_cons_of_isDelimiter rfl,
        .inl (meetsCased_cons_of_isDelimiter rfl)⟩
  | closing =>
      exact ⟨')' :: before, lowerAfter_cons_of_isDelimiter rfl,
        .inl (meetsCased_cons_of_isDelimiter rfl)⟩
  | quote =>
      -- The quote is ignored, so the letters before it would be met behind it.
      have hbefore := hbefore.resolve_right (show ¬ isDelimiter '\x27' by decide)
      refine ⟨'\x27' :: before, lowerAfter_cons_of_isReserved rfl, .inl ?_⟩
      rw [meetsCased_cons_of_isCaseIgnorable rfl]
      exact hbefore
  | @run run hne hrun hquote =>
      have hrest : Parens.atBoundary rest :=
        hends.resolve_left (by simp [Token.Kind.mayTouch_ofRun])
      have hbefore : meetsCased before = false := by
        refine hbefore.resolve_right ?_
        obtain ⟨c, run, rfl⟩ := List.exists_cons_of_ne_nil hne
        exact Bool.eq_false_iff.1 (hrun c List.mem_cons_self)
      refine ⟨run.reverse ++ before, ?_, .inr hrest⟩
      rw [lowerAfter_append (meetsCased_of_atBoundary hrest), lowerAfter_eq_lower hbefore]
      rfl

end Lexeme

/-- The lexemes of a text in lowercase are its lexemes in lowercase, one by one. -/
theorem lexemes_lowerAfter (h : meetsCased before = false ∨ atBoundary text) :
    lexemes (lowerAfter before text) = (lexemes text).map Lexeme.lower := by
  fun_induction lexemes text generalizing before with
  | case1 text x rest hfirst ih =>
      obtain ⟨layout, hlayout, rfl, hproper, hends⟩ := Lexeme.exists_layout_of_first? hfirst
      obtain ⟨layout', before', hlayout', hlower, hbefore⟩ :=
        hlayout.exists_lowerAfter before (x.text ++ rest)
      have hbefore' : meetsCased before' = false ∨ atBoundary (x.text ++ rest) := by
        rcases hbefore with ⟨rfl, rfl⟩ | hbefore
        · exact h
        · exact .inl hbefore
      obtain ⟨before'', hlower', hrest⟩ := hproper.exists_lowerAfter hends hbefore'
      have hends' : x.lower.kind.mayTouch .symbol ∨ atBoundary (lowerAfter before'' rest) :=
        hends.imp_right atBoundary_lowerAfter
      rw [hlower, hlower', lexemes_of_first? (hproper.lower.first?_of_isLayout hlayout' hends'),
        ih hrest, List.map_cons]
  | case2 text hnone =>
      have hlayout := isLastLayout_of_lexemes_eq_nil (lexemes_of_first?_eq_none hnone)
      exact (hlayout.lowerAfter before).lexemes_eq_nil

theorem lexemes_lower (text : List Char) : lexemes (lower text) = (lexemes text).map Lexeme.lower :=
  lexemes_lowerAfter (.inl rfl)

end Parens
