import Parens.Proofs.Token.Lexing
import Parens.Token.Spacing

/-!
Tokens that are written out with other layout between them are read as the same tokens. A token that
is a run of characters is read as it was written if it is followed by a delimiter, and layout begins
with one. Any other token stands for itself whatever follows.
-/

namespace Parens

theorem Token.Kind.mayTouch_cases {k l : Kind} (h : k.mayTouch l) :
    k.mayTouch .symbol ∨ l = .opening ∨ l = .closing := by
  cases k <;> cases l <;> simp_all [mayTouch]

theorem Token.Kind.mayTouch_ofRun (run : List Char) : (ofRun run).mayTouch .symbol = false := by
  unfold ofRun
  split_ifs <;> rfl

theorem IsLayout.atBoundary {layout : List Char} (h : IsLayout layout) (hne : layout ≠ [])
    (text : List Char) : atBoundary (layout ++ text) := by
  cases h with
  | nil => exact absurd rfl hne
  | blank hc _ => simp [Parens.atBoundary, isDelimiter, hc]
  | comment _ _ => simp [Parens.atBoundary, isDelimiter]

namespace Lexeme

/-- A lexeme is read as it is spelt if it can stand right before a parenthesis, or stands before a
boundary. -/
theorem Proper.first?_append {x : Lexeme} (h : x.Proper) {rest : List Char}
    (hrest : x.kind.mayTouch .symbol ∨ atBoundary rest) :
    first? (x.text ++ rest) = some (x, rest) := by
  cases h with
  | opening => exact first?_opening rest
  | closing => exact first?_closing rest
  | quote => exact first?_quote rest
  | @run run hne hrun hquote =>
      have hb : atBoundary rest := hrest.resolve_left (by simp [Token.Kind.mayTouch_ofRun])
      exact first?_run hb hrun hne hquote

/-- A lexeme by itself is a text of one lexeme. -/
theorem Proper.lexemes_text {x : Lexeme} (h : x.Proper) : lexemes x.text = [x] := by
  have hfirst : first? (x.text ++ []) = some (x, []) := h.first?_append (.inr rfl)
  rw [List.append_nil] at hfirst
  rw [lexemes_of_first? hfirst, lexemes_eq_nil_iff.2 rfl]

theorem Proper.atBoundary {x : Lexeme} (h : x.Proper) (hk : x.kind = .opening ∨ x.kind = .closing)
    (text : List Char) : atBoundary (x.text ++ text) := by
  cases h with
  | opening => rfl
  | closing => rfl
  | quote => rcases hk with hk | hk <;> cases hk
  | @run run _ _ _ =>
      exfalso
      simp only [Token.Kind.ofRun] at hk
      split_ifs at hk <;> rcases hk with hk | hk <;> cases hk

end Lexeme

/-- Tokens with layout behind each of them are read as these tokens, if none that needs a delimiter
stands right before another. -/
theorem lexemes_flatMap {items : List (Token × List Char)}
    (hproper : ∀ item ∈ items, item.1.lexeme.Proper) (hbehind : ∀ item ∈ items, IsLayout item.2)
    (hapart : items.IsChain fun item next => item.2 = [] → item.1.kind.mayTouch next.1.kind) :
    lexemes (items.flatMap fun item => item.1.text ++ item.2) =
      items.map fun item => item.1.lexeme := by
  induction items with
  | nil => exact lexemes_eq_nil_iff.2 rfl
  | cons item items ih =>
      obtain ⟨hx, hproper⟩ := List.forall_mem_cons.1 hproper
      obtain ⟨hlayout, hbehind⟩ := List.forall_mem_cons.1 hbehind
      have hends : item.1.kind.mayTouch .symbol ∨
          atBoundary (item.2 ++ items.flatMap fun item => item.1.text ++ item.2) := by
        by_cases hnil : item.2 = []
        · rw [hnil]
          cases items with
          | nil => exact .inr rfl
          | cons next items =>
              have htouch := (List.isChain_cons_cons.1 hapart).1 hnil
              refine (Token.Kind.mayTouch_cases htouch).imp_right fun hk => ?_
              have hnext := (List.forall_mem_cons.1 hproper).1
              rw [List.nil_append, List.flatMap_cons, List.append_assoc]
              exact hnext.atBoundary hk _
        · exact .inr (hlayout.atBoundary hnil _)
      have hfirst := lexemes_of_first? (hx.first?_append hends)
      rw [lexemes_append_of_isLayout hlayout, ih hproper hbehind hapart.tail] at hfirst
      rw [List.flatMap_cons, List.append_assoc, List.map_cons]
      exact hfirst

theorem lexemes_spaced {source first : List Char} {items : List (Token × List Char)}
    (hlex : lexemes source = items.map fun item => item.1.lexeme) (h : IsSpacing first items) :
    lexemes (spaced first items) = lexemes source := by
  have hproper : ∀ item ∈ items, item.1.lexeme.Proper := fun item hitem => by
    have hmem : item.1.lexeme ∈ lexemes source := hlex ▸ List.mem_map_of_mem hitem
    exact proper_of_mem_lexemes hmem
  rw [spaced, lexemes_append_of_isLayout h.first, lexemes_flatMap hproper h.behind h.apart, hlex]

theorem lexemes_separated {xs : List Lexeme} (h : ∀ x ∈ xs, x.Proper) :
    lexemes (separated xs) = xs := by
  induction xs with
  | nil => exact lexemes_eq_nil_iff.2 rfl
  | cons x xs ih =>
      obtain ⟨hx, hxs⟩ := List.forall_mem_cons.1 h
      cases xs with
      | nil =>
          rw [separated, List.map_cons, List.map_nil, List.intercalate_singleton]
          exact hx.lexemes_text
      | cons y xs =>
          have hspace : separated (x :: y :: xs) = x.text ++ ([' '] ++ separated (y :: xs)) := by
            simp only [separated, List.map_cons, List.intercalate_cons_cons, List.append_assoc]
          have hblank : IsLayout [' '] := .blank rfl .nil
          rw [hspace, lexemes_of_first? (hx.first?_append (.inr rfl)),
            lexemes_append_of_isLayout hblank, ih hxs]

end Parens
