import Parens.Proofs.Token.MaximalRun
import Parens.Proofs.Token.Spacing
import Parens.Token.Path

/-!
A lexeme that is read depends on the text behind it only through the boundary. So the text behind
the last lexeme of a path may be cut off, or exchanged for another that begins alike, and the same
lexemes are read. An end of line separates: it ends the token and the comment before it.
-/

namespace Parens

namespace Lexeme

/-- In front of a lexeme that is read there is layout, and behind it what may stand there. -/
theorem exists_layout_of_first? {text rest : List Char} {x : Lexeme}
    (h : first? text = some (x, rest)) :
    ∃ layout, IsLayout layout ∧ text = layout ++ (x.text ++ rest) ∧ x.Proper ∧
      (x.kind.mayTouch .symbol ∨ atBoundary rest) := by
  obtain ⟨layout, code', hskips⟩ := exists_skipsTo text
  rw [← first?_code, hskips.code_eq] at h
  cases code' with
  | nil => cases h
  | cons c tail =>
      have hlayout : IsLayout layout := hskips.isLayout.resolve_right fun hnil => by cases hnil.1
      have hproper : x.Proper := by
        rcases first?_cases (c :: tail) with ⟨-, hnone⟩ | ⟨y, rest', hy, hfirst⟩
        · rw [h] at hnone
          cases hnone
        · rw [h] at hfirst
          cases hfirst
          exact hy
      obtain ⟨y, behind, hfirst, hsplit, -, hheads⟩ := exists_heads hskips.isCode
      rw [h] at hfirst
      cases hfirst
      refine ⟨layout, hlayout, by rw [hskips.eq_append, hsplit], hproper, ?_⟩
      by_cases hc : c ∈ ['(', ')', '\x27']
      · left
        simp only [List.mem_cons, List.not_mem_nil, or_false] at hc
        rcases hc with hc | hc | hc
        · rw [hheads.opening hc]
          rfl
        · rw [hheads.closing hc]
          rfl
        · rw [hheads.quote hc]
          rfl
      · right
        have hbehind : rest = (c :: tail).dropWhile fun d => !isDelimiter d := by
          have hrun : x.text ++ rest = x.text ++ (c :: tail).dropWhile fun d => !isDelimiter d := by
            rw [← hsplit, hheads.text_eq hc, List.takeWhile_append_dropWhile]
          exact List.append_cancel_left hrun
        rw [hbehind]
        exact atBoundary_dropWhile _

theorem Proper.first?_of_isLayout {layout rest : List Char} {x : Lexeme} (hx : x.Proper)
    (hlayout : IsLayout layout) (hrest : x.kind.mayTouch .symbol ∨ Parens.atBoundary rest) :
    first? (layout ++ (x.text ++ rest)) = some (x, rest) := by
  rw [← first?_code, code_append_of_isLayout hlayout, first?_code, hx.first?_append hrest]

end Lexeme

theorem atBoundary_of_head?_eq {a b : List Char} (h : b.head? = a.head?) :
    atBoundary b = atBoundary a := by
  cases a <;> cases b <;> simp_all [atBoundary]

namespace IsLastLayout

variable {layout : List Char}

theorem atBoundary (h : IsLastLayout layout) : atBoundary layout := by
  cases h with
  | closed h =>
      cases h with
      | nil => rfl
      | blank hc _ => simp [Parens.atBoundary, isDelimiter, hc]
      | comment _ _ => rfl
  | @unclosed layout _ h _ =>
      by_cases hnil : layout = []
      · rw [hnil]
        rfl
      · exact h.atBoundary hnil _

theorem lexemes_eq_nil (h : IsLastLayout layout) : lexemes layout = [] := by
  have hnil : lexemes [] = [] := lexemes_eq_nil_iff.2 rfl
  cases h with
  | closed h => rw [← List.append_nil layout, lexemes_append_of_isLayout h, hnil]
  | unclosed h hbody =>
      rw [lexemes_append_of_isLayout h, lexemes_eq_nil_iff, (skipsTo_unclosed hbody).code_eq]

end IsLastLayout

theorem isLastLayout_of_lexemes_eq_nil {text : List Char} (h : lexemes text = []) :
    IsLastLayout text := by
  obtain ⟨layout, rest, hskips⟩ := exists_skipsTo text
  obtain rfl : [] = rest := (lexemes_eq_nil_iff.1 h).symm.trans hskips.code_eq
  rw [hskips.eq_append, List.append_nil]
  exact hskips.isLayout.elim .closed And.right

/-- A line end closes the last comment. -/
theorem IsLastLayout.append_newline {text : List Char} (h : IsLastLayout text) :
    IsLayout (text ++ ['\n']) := by
  cases h with
  | closed hclosed => exact hclosed.append (.blank rfl .nil)
  | unclosed hclosed hbody =>
      rw [List.append_assoc]
      exact hclosed.append (.comment hbody .nil)

/-- A line end separates the lexemes before it from those behind it. -/
theorem lexemes_append_newline (text more : List Char) :
    lexemes (text ++ '\n' :: more) = lexemes text ++ lexemes more := by
  fun_induction lexemes text with
  | case1 text x rest hfirst ih =>
      obtain ⟨layout, hlayout, rfl, hproper, hends⟩ := Lexeme.exists_layout_of_first? hfirst
      have hends' : x.kind.mayTouch .symbol ∨ atBoundary (rest ++ '\n' :: more) := by
        refine hends.imp_right fun hb => ?_
        cases rest with
        | nil => rfl
        | cons c rest => exact hb
      have hfirst' := hproper.first?_of_isLayout hlayout hends'
      rw [List.append_assoc, List.append_assoc, lexemes_of_first? hfirst', ih]
      rfl
  | case2 text hnone =>
      have hlayout := isLastLayout_of_lexemes_eq_nil (lexemes_of_first?_eq_none hnone)
      rw [show text ++ '\n' :: more = text ++ ['\n'] ++ more by simp,
        lexemes_append_of_isLayout hlayout.append_newline, List.nil_append]

namespace Cursor

theorem ext_source {c d : Cursor} (hafter : c.after = d.after) (hsource : c.source = d.source) :
    c = d := by
  have hconsumed : c.consumed = d.consumed := by
    rw [source, source, hafter] at hsource
    exact List.append_cancel_right hsource
  have hbefore : c.before = d.before := List.reverse_injective hconsumed
  ext1
  · exact hbefore
  · exact hafter
  · rw [c.pos_eq, d.pos_eq, hbefore]

theorem after_skipLayout (c : Cursor) : c.skipLayout.after = code c.after := rfl

theorem source_skipLayout (c : Cursor) : c.skipLayout.source = c.source := source_advance _ _

theorem skipsTo_skipLayout (c : Cursor) :
    ∃ layout, SkipsTo c.after layout c.skipLayout.after ∧
      c.skipLayout.consumed = c.consumed ++ layout := by
  obtain ⟨layout, rest, hskips⟩ := exists_skipsTo c.after
  obtain rfl : c.skipLayout.after = rest := hskips.code_eq
  refine ⟨layout, hskips, ?_⟩
  rw [skipLayout, consumed_advance, hskips.length_eq, hskips.eq_append, List.take_left]

theorem exists_layout_skipLayout (c : Cursor) :
    ∃ layout, IsLastLayout layout ∧ c.skipLayout.consumed = c.consumed ++ layout := by
  obtain ⟨layout, hskips, hconsumed⟩ := c.skipsTo_skipLayout
  exact ⟨layout, hskips.isLayout.elim .closed And.right, hconsumed⟩

theorem skipLayout_skipLayout (c : Cursor) : c.skipLayout.skipLayout = c.skipLayout :=
  ext_source (code_code c.after) c.skipLayout.source_skipLayout

namespace Reads

variable {c c₁ c' : Cursor} {x : Lexeme} {xs ys : List Lexeme}

theorem source_eq (h : c.Reads xs c') : c'.source = c.source := by
  induction h with
  | nil c => rfl
  | cons _ hsource _ ih => exact ih.trans hsource

theorem append (h : c.Reads xs c₁) (h' : c₁.Reads ys c') : c.Reads (xs ++ ys) c' := by
  induction h with
  | nil c => exact h'
  | cons hfirst hsource _ ih => exact .cons hfirst hsource (ih h')

theorem lexemes_eq (h : c.Reads xs c') : lexemes c.after = xs ++ lexemes c'.after := by
  induction h with
  | nil c => rfl
  | cons hfirst _ _ ih => rw [lexemes_of_first? hfirst, ih, List.cons_append]

/-- Where a path ends is told by the lexemes on it. -/
theorem unique {c'' : Cursor} (h : c.Reads xs c') (h' : c.Reads xs c'') : c' = c'' := by
  induction h with
  | nil c =>
      cases h'
      rfl
  | cons hfirst hsource _ ih =>
      cases h' with
      | cons hfirst' hsource' h' =>
          rw [hfirst] at hfirst'
          have hafter := (Prod.mk.inj (Option.some.inj hfirst')).2
          rw [ext_source hafter (hsource.trans hsource'.symm)] at ih
          exact ih h'

theorem lexemes_unique (h : c.Reads xs c') (h' : c.Reads ys c') : xs = ys :=
  List.append_cancel_right (h.lexemes_eq.symm.trans h'.lexemes_eq)

theorem of_skipLayout (h : c.skipLayout.Reads [x] c') : c.Reads [x] c' := by
  cases h with
  | cons hfirst hsource h =>
      rw [after_skipLayout, Lexeme.first?_code] at hfirst
      exact .cons hfirst (hsource.trans c.source_skipLayout) h

/-- What the cursor passes when a lexeme is read. -/
theorem exists_layout (h : c.Reads [x] c') :
    ∃ layout, IsLayout layout ∧ c.after = layout ++ (x.text ++ c'.after) ∧
      c'.consumed = c.consumed ++ (layout ++ x.text) ∧ x.Proper ∧
      (x.kind.mayTouch .symbol ∨ atBoundary c'.after) := by
  cases h with
  | cons hfirst hsource h =>
      cases h
      obtain ⟨layout, hlayout, hafter, hproper, hends⟩ := Lexeme.exists_layout_of_first? hfirst
      have hpassed : c'.consumed ++ c'.after = c.consumed ++ (layout ++ x.text) ++ c'.after := by
        rw [List.append_assoc, List.append_assoc, ← hafter]
        exact hsource
      exact ⟨layout, hlayout, hafter, List.append_cancel_right hpassed, hproper, hends⟩

/-- The text along a path. The same lexemes are read from any text that begins with it, if what
follows is a boundary or begins as what follows here. -/
theorem exists_front (h : c.Reads xs c') :
    ∃ front, c.after = front ++ c'.after ∧ c'.consumed = c.consumed ++ front ∧
      ∀ rest, atBoundary rest ∨ rest.head? = c'.after.head? →
        ∀ d : Cursor, d.after = front ++ rest →
        ∃ d' : Cursor, d.Reads xs d' ∧ d'.after = rest ∧ d'.consumed = d.consumed ++ front := by
  induction h with
  | nil c =>
      refine ⟨[], rfl, (List.append_nil _).symm, ?_⟩
      intro rest _ d hd
      exact ⟨d, .nil d, hd, (List.append_nil _).symm⟩
  | @cons c c₁ c' x xs hfirst hsource h ih =>
      obtain ⟨layout, hlayout, hafter, hconsumed₁, hproper, hends⟩ :=
        exists_layout (.cons hfirst hsource (.nil c₁))
      obtain ⟨front, hfront, hconsumed, hother⟩ := ih
      refine ⟨layout ++ (x.text ++ front), ?_, ?_, ?_⟩
      · rw [hafter, hfront]
        simp only [List.append_assoc]
      · rw [hconsumed, hconsumed₁]
        simp only [List.append_assoc]
      · intro rest hrest d hd
        let d₁ := d.advance (layout ++ x.text).length
        have hd' : d.after = layout ++ x.text ++ (front ++ rest) := by
          rw [hd]
          simp only [List.append_assoc]
        have hafter₁ : d₁.after = front ++ rest := by
          rw [Cursor.after_advance, hd', List.drop_left]
        have hconsumed₂ : d₁.consumed = d.consumed ++ (layout ++ x.text) := by
          rw [Cursor.consumed_advance, hd', List.take_left]
        have hends' : x.kind.mayTouch .symbol ∨ atBoundary (front ++ rest) := by
          refine hends.imp_right fun hb => ?_
          rw [hfront] at hb
          cases front with
          | nil =>
              rcases hrest with hrest | hrest
              · exact hrest
              · exact (atBoundary_of_head?_eq hrest).trans hb
          | cons e front => exact hb
        have hfirst' : Lexeme.first? d.after = some (x, d₁.after) := by
          rw [hafter₁, hd', List.append_assoc]
          exact hproper.first?_of_isLayout hlayout hends'
        obtain ⟨d', hreads, hafter', hconsumed'⟩ := hother rest hrest d₁ hafter₁
        refine ⟨d', .cons hfirst' (Cursor.source_advance _ _) hreads, hafter', ?_⟩
        rw [hconsumed', hconsumed₂]
        simp only [List.append_assoc]

/-- What is consumed along a path from the start of a text spells the path, with layout behind it
too. -/
theorem lexemes_consumed_append {text layout : List Char} (h : (ofText text).Reads xs c)
    (hlayout : IsLastLayout layout) : lexemes (c.consumed ++ layout) = xs := by
  obtain ⟨front, -, hconsumed, hother⟩ := h.exists_front
  obtain ⟨d, hreads, hafter, -⟩ :=
    hother layout (.inl hlayout.atBoundary) (ofText (front ++ layout)) rfl
  have hlex := hreads.lexemes_eq
  rw [hafter, hlayout.lexemes_eq_nil, List.append_nil] at hlex
  rw [hconsumed]
  exact hlex

theorem lexemes_consumed {text : List Char} (h : (ofText text).Reads xs c) :
    lexemes c.consumed = xs := by
  rw [← List.append_nil c.consumed]
  exact h.lexemes_consumed_append (.closed .nil)

theorem lexemes_consumed_skipLayout {text : List Char} (h : (ofText text).Reads xs c) :
    lexemes c.skipLayout.consumed = xs := by
  obtain ⟨layout, hlayout, hconsumed⟩ := c.exists_layout_skipLayout
  rw [hconsumed]
  exact h.lexemes_consumed_append hlayout

end Reads
end Cursor

namespace Lexer

variable {l m : Lexer}

theorem next_congr (h : l.skipLayout = m.skipLayout) : l.next = m.next := by
  simp only [next, h]

theorem cursor_skipLayout (l : Lexer) : l.skipLayout.cursor = l.cursor.skipLayout := rfl

theorem lexemes_of_reads {xs : List Lexeme} (h : l.cursor.Reads xs m.cursor) :
    l.lexemes = xs ++ m.lexemes := h.lexemes_eq

theorem isPrefix_of_reads {xs : List Lexeme} (h : l.cursor.Reads xs m.cursor) :
    xs <+: l.lexemes := by
  rw [lexemes_of_reads h]
  exact List.prefix_append _ _

/-- Behind what has been read, the rest is left. -/
theorem lexemes_behind {xs behind : List Lexeme} (h : l.cursor.Reads xs m.cursor)
    (hlex : l.lexemes = xs ++ behind) : m.lexemes = behind :=
  List.append_cancel_left ((lexemes_of_reads h).symm.trans hlex)

/-- Reading a token goes one lexeme further. -/
theorem reads_of_next {l l' : Lexer} {token : Token} (h : l.next = (.ok (some token), l')) :
    l.cursor.Reads [token.lexeme] l'.cursor := by
  obtain ⟨layout, htakes⟩ := takes_of_next h
  exact .cons htakes.first?_eq (source_of_takes htakes) (.nil _)

theorem cursor_of_next_eq_none {l l' : Lexer} (h : l.next = (.ok none, l')) :
    l'.cursor = l.cursor.skipLayout := by
  simp only [next] at h
  split at h
  · cases h
    rfl
  · split at h <;> cases h

theorem next_path_cases (l : Lexer) :
    (l.lexemes = [] ∧ ∃ l', l.next = (.ok none, l') ∧ l'.cursor = l.cursor.skipLayout) ∨
      ∃ token l', l.next = (.ok (some token), l') ∧ token.lexeme.Proper ∧
        l.cursor.Reads [token.lexeme] l'.cursor := by
  rcases l.next_cases with ⟨hnil, l', hnext, -⟩ | ⟨token, l', hnext, hproper, -⟩
  · exact .inl ⟨hnil, l', hnext, cursor_of_next_eq_none hnext⟩
  · exact .inr ⟨token, l', hnext, hproper, reads_of_next hnext⟩

end Lexer
end Parens
