import Parens.Proofs.Token.Lexing

/-!
What reading one token does, from any place in any text. All layout is skipped. A parenthesis or
quote behind it is a token by itself, and anything else is read as the whole run of characters up to
the next delimiter, of the kind that this run spells. The cursor is left right behind the token.
-/

namespace Parens

open Number

/-- A text that is cut behind the layout that is skipped in front of it. -/
structure SkipsTo (text layout rest : List Char) : Prop where
  eq_append : text = layout ++ rest
  length_eq : layoutLength false 0 text = layout.length
  isCode : IsCode rest
  /-- Only where the text ends may the layout end in a comment that stays open. -/
  isLayout : IsLayout layout ∨ rest = [] ∧ IsLastLayout layout

theorem SkipsTo.code_eq {text layout rest : List Char} (h : SkipsTo text layout rest) :
    code text = rest := by
  rw [code, h.length_eq, h.eq_append, List.drop_left]

theorem SkipsTo.append {front text layout rest : List Char} (hfront : IsLayout front)
    (h : SkipsTo text layout rest) : SkipsTo (front ++ text) (front ++ layout) rest where
  eq_append := by rw [h.eq_append, List.append_assoc]
  length_eq := by
    rw [layoutLength_append hfront, layoutLength_add, h.length_eq, List.length_append, Nat.zero_add]
  isCode := h.isCode
  isLayout := h.isLayout.imp hfront.append (And.imp_right (IsLastLayout.append hfront))

theorem skipsTo_of_isCode {text : List Char} (h : IsCode text) : SkipsTo text [] text where
  eq_append := rfl
  length_eq := by
    cases text with
    | nil => rfl
    | cons c text => simp [layoutLength, h.1, h.2]
  isCode := h
  isLayout := .inl .nil

theorem skipsTo_unclosed {body : List Char} (h : '\n' ∉ body) :
    SkipsTo (';' :: body) (';' :: body) [] where
  eq_append := (List.append_nil _).symm
  length_eq := by
    simp only [layoutLength, Bool.false_eq_true, if_false, if_true, layoutLength_unclosed h,
      List.length_cons]
    omega
  isCode := trivial
  isLayout := .inr ⟨rfl, .unclosed .nil h⟩

/-- Every text is cut in one of these ways. -/
theorem exists_skipsTo (text : List Char) : ∃ layout rest, SkipsTo text layout rest := by
  match text with
  | [] => exact ⟨[], [], skipsTo_of_isCode trivial⟩
  | c :: text =>
      by_cases hsemi : c = ';'
      · subst hsemi
        by_cases hend : '\n' ∈ text
        · obtain ⟨body, behind, hsplit, hbody⟩ := List.eq_append_cons_of_mem hend
          have hlt : behind.length < text.length := by
            rw [hsplit, List.length_append, List.length_cons]
            omega
          obtain ⟨layout, rest, h⟩ := exists_skipsTo behind
          have hcomment := h.append (.comment hbody .nil)
          simp only [List.cons_append, List.append_assoc, List.nil_append] at hcomment
          rw [hsplit]
          exact ⟨_, rest, hcomment⟩
        · exact ⟨_, [], skipsTo_unclosed hend⟩
      · by_cases hblank : Text.isBlank c
        · obtain ⟨layout, rest, h⟩ := exists_skipsTo text
          exact ⟨[c] ++ layout, rest, h.append (.blank hblank .nil)⟩
        · exact ⟨[], _, skipsTo_of_isCode ⟨Bool.eq_false_iff.2 hblank, hsemi⟩⟩
termination_by text.length
decreasing_by
  · exact Nat.lt_succ_of_lt hlt
  · exact Nat.lt_succ_self _

namespace Token.Kind

variable {run : List Char}

theorem ofRun_eq_dot_iff : ofRun run = .dot ↔ run = ['.'] := by
  unfold ofRun
  split_ifs <;> simp_all

theorem ofRun_eq_number_iff : ofRun run = .number ↔ IsNumeral run := by
  have hpoint : ¬ IsNumeral ['.'] := mt Numeral.isSome_ofText?_iff.2 (by decide)
  rw [← Numeral.isSome_ofText?_iff] at hpoint ⊢
  unfold ofRun
  split_ifs <;> simp_all

theorem ofRun_eq_symbol_iff : ofRun run = .symbol ↔ run ≠ ['.'] ∧ ¬ IsNumeral run := by
  rw [← Numeral.isSome_ofText?_iff]
  unfold ofRun
  split_ifs <;> simp_all

end Token.Kind

/-- What is read at the front of code: a parenthesis or a quote by itself, and else the whole run of
characters up to the next delimiter, of the kind that all of the run spells. -/
structure Lexeme.Heads (x : Lexeme) (c : Char) (rest : List Char) : Prop where
  opening : c = '(' → x = ⟨.opening, ['(']⟩
  closing : c = ')' → x = ⟨.closing, [')']⟩
  quote : c = '\x27' → x = ⟨.quote, ['\x27']⟩
  text_eq : c ∉ ['(', ')', '\x27'] → x.text = (c :: rest).takeWhile fun d => !isDelimiter d
  kind_eq_dot : c ∉ ['(', ')', '\x27'] → (x.kind = .dot ↔ x.text = ['.'])
  kind_eq_number : c ∉ ['(', ')', '\x27'] → (x.kind = .number ↔ IsNumeral x.text)
  kind_eq_symbol : c ∉ ['(', ')', '\x27'] →
    (x.kind = .symbol ↔ x.text ≠ ['.'] ∧ ¬ IsNumeral x.text)

namespace Lexeme

theorem heads_run {c : Char} {run rest : List Char} (hc : c ∉ ['(', ')', '\x27'])
    (hrun : run = (c :: rest).takeWhile fun d => !isDelimiter d) :
    Heads ⟨.ofRun run, run⟩ c rest where
  opening h := absurd (by rw [h]; decide) hc
  closing h := absurd (by rw [h]; decide) hc
  quote h := absurd (by rw [h]; decide) hc
  text_eq _ := hrun
  kind_eq_dot _ := Token.Kind.ofRun_eq_dot_iff
  kind_eq_number _ := Token.Kind.ofRun_eq_number_iff
  kind_eq_symbol _ := Token.Kind.ofRun_eq_symbol_iff

theorem exists_length_of_first? {text rest : List Char} {x : Lexeme}
    (h : first? text = some (x, rest)) :
    ∃ n, Token.first? (code text) = some (x.kind, n) ∧ x.text = (code text).take n ∧
      rest = (code text).drop n := by
  unfold first? at h
  split at h
  · rename_i kind n hn
    cases h
    exact ⟨n, hn, rfl, rfl⟩
  · cases h

/-- Code that is not at its end has a first lexeme, which stands at its front. -/
theorem exists_heads {c : Char} {rest : List Char} (hcode : IsCode (c :: rest)) :
    ∃ x behind, first? (c :: rest) = some (x, behind) ∧ c :: rest = x.text ++ behind ∧
      x.text ≠ [] ∧ x.Heads c rest := by
  by_cases hc : c ∈ ['(', ')', '\x27']
  · simp only [List.mem_cons, List.not_mem_nil, or_false] at hc
    rcases hc with rfl | rfl | rfl
    · exact ⟨_, rest, first?_opening rest, rfl, List.cons_ne_nil _ _, by constructor <;> simp⟩
    · exact ⟨_, rest, first?_closing rest, rfl, List.cons_ne_nil _ _, by constructor <;> simp⟩
    · exact ⟨_, rest, first?_quote rest, rfl, List.cons_ne_nil _ _, by constructor <;> simp⟩
  · have hdelimiter : isDelimiter c = false := by
      rw [Bool.eq_false_iff]
      intro hd
      rcases isDelimiter_blank hd hcode.1 with rfl | rfl | rfl
      · exact hc (by decide)
      · exact hc (by decide)
      · exact hcode.2 rfl
    have hquote : c ≠ '\x27' := by
      rintro rfl
      exact hc (by decide)
    obtain ⟨run, behind, hrun, hsplit, hproper, hfirst⟩ := exists_first?_run rest hdelimiter hquote
    refine ⟨_, behind, hfirst, hsplit, ?_, heads_run hc hrun⟩
    simp [hrun, hdelimiter]

end Lexeme

namespace Lexer

theorem skipLayout_of_skipsTo {l : Lexer} {layout rest : List Char}
    (h : SkipsTo l.cursor.after layout rest) :
    l.skipLayout.cursor.after = rest ∧ l.skipLayout.cursor.consumed = l.cursor.consumed ++ layout ∧
      l.skipLayout.cursor.pos = l.cursor.pos + layout.length := by
  have hlength : layout.length ≤ l.cursor.after.length := by
    rw [h.eq_append, List.length_append]
    exact Nat.le_add_right _ _
  simp only [skipLayout, h.length_eq]
  refine ⟨?_, ?_, Cursor.pos_advance hlength⟩
  · rw [Cursor.after_advance, h.eq_append, List.drop_left]
  · rw [Cursor.consumed_advance, h.eq_append, List.take_left]

/-- What reading a token does to a lexer: it skips the layout in front and takes the token. -/
structure Takes (l : Lexer) (layout : List Char) (token : Token) (l' : Lexer) : Prop where
  next_eq : l.next = (.ok (some token), l')
  skipsTo : SkipsTo l.cursor.after layout (token.text ++ l'.cursor.after)
  isLayout : IsLayout layout
  text_ne_nil : token.text ≠ []
  first?_eq : Lexeme.first? l.cursor.after = some (token.lexeme, l'.cursor.after)
  start_eq : token.start = l.cursor.pos + layout.length
  pos_eq : l'.cursor.pos = token.stop
  consumed_eq : l'.cursor.consumed = l.cursor.consumed ++ layout ++ token.text
  serial_eq : token.serial = l.issued
  issued_eq : l'.issued = l.issued + 1
  last_eq : l'.last = some token

/-- What reading a token does to a lexer in front of layout only. -/
structure Ends (l : Lexer) (layout : List Char) (l' : Lexer) : Prop where
  next_eq : l.next = (.ok none, l')
  skipsTo : SkipsTo l.cursor.after layout []
  isLastLayout : IsLastLayout layout
  after_eq : l'.cursor.after = []
  consumed_eq : l'.cursor.consumed = l.cursor.consumed ++ layout
  issued_eq : l'.issued = l.issued
  last_eq : l'.last = none

theorem ends_of_skipsTo {l : Lexer} {layout : List Char} (h : SkipsTo l.cursor.after layout []) :
    ∃ l', l.Ends layout l' := by
  obtain ⟨hafter, hconsumed, -⟩ := skipLayout_of_skipsTo h
  have hend : l.skipLayout.atEnd := by rw [atEnd, hafter]; rfl
  have hlayout : IsLastLayout layout := h.isLayout.elim .closed And.right
  exact ⟨_, if_pos hend, h, hlayout, hafter, hconsumed, rfl, rfl⟩

theorem takes_of_skipsTo {l : Lexer} {layout rest : List Char} {c : Char}
    (h : SkipsTo l.cursor.after layout (c :: rest)) :
    ∃ token l', l.Takes layout token l' ∧ token.lexeme.Heads c rest := by
  obtain ⟨hafter, hconsumed, hpos⟩ := skipLayout_of_skipsTo h
  obtain ⟨x, behind, hfirst, hsplit, hne, hheads⟩ := Lexeme.exists_heads h.isCode
  obtain ⟨n, hkind, htext, hbehind⟩ := Lexeme.exists_length_of_first? hfirst
  rw [code_of_isCode h.isCode, ← hafter] at hkind htext hbehind
  have hcode : code l.cursor.after = c :: rest := hafter
  have hend : ¬ l.skipLayout.atEnd := by simp [atEnd, hafter]
  have hnext : l.next =
      (.ok (some (l.skipLayout.issue x.kind n).1), (l.skipLayout.issue x.kind n).2) := by
    rw [next, if_neg hend]
    simp only [hkind]
  have hlexeme : (l.skipLayout.issue x.kind n).1.lexeme = x := by
    rw [Token.lexeme, issue, ← htext]
  have htext' : (l.skipLayout.issue x.kind n).1.text ≠ [] := by rwa [issue, ← htext]
  have hlayout : IsLayout layout := h.isLayout.resolve_right fun hnil => by cases hnil.1
  refine ⟨_, _, ⟨hnext, ?_, hlayout, htext', ?_, hpos, rfl, ?_, rfl, rfl, rfl⟩, hlexeme ▸ hheads⟩
  · rw [issue, Cursor.after_advance, List.take_append_drop, hafter]
    exact h
  · rw [hlexeme, ← Lexeme.first?_code, hcode, hfirst, hbehind]
    rfl
  · rw [issue, Cursor.consumed_advance, hconsumed]

theorem takes_or_ends (l : Lexer) :
    (∃ layout token l', l.Takes layout token l') ∨ ∃ layout l', l.Ends layout l' := by
  obtain ⟨layout, rest, h⟩ := exists_skipsTo l.cursor.after
  cases rest with
  | nil => exact .inr ⟨layout, ends_of_skipsTo h⟩
  | cons c rest =>
      obtain ⟨token, l', htakes, -⟩ := takes_of_skipsTo h
      exact .inl ⟨layout, token, l', htakes⟩

theorem takes_of_next {l l' : Lexer} {token : Token} (h : l.next = (.ok (some token), l')) :
    ∃ layout, l.Takes layout token l' := by
  rcases l.takes_or_ends with ⟨layout, token', l'', htakes⟩ | ⟨layout, l'', hends⟩
  · rw [htakes.next_eq] at h
    cases h
    exact ⟨layout, htakes⟩
  · rw [hends.next_eq] at h
    cases h

theorem ends_of_next {l l' : Lexer} (h : l.next = (.ok none, l')) : ∃ layout, l.Ends layout l' := by
  rcases l.takes_or_ends with ⟨layout, token', l'', htakes⟩ | ⟨layout, l'', hends⟩
  · rw [htakes.next_eq] at h
    cases h
  · rw [hends.next_eq] at h
    cases h
    exact ⟨layout, hends⟩

theorem source_of_takes {l l' : Lexer} {layout : List Char} {token : Token}
    (h : l.Takes layout token l') : l'.cursor.source = l.cursor.source := by
  rw [Cursor.source, Cursor.source, h.consumed_eq, h.skipsTo.eq_append]
  simp only [List.append_assoc]

theorem source_of_ends {l l' : Lexer} {layout : List Char} (h : l.Ends layout l') :
    l'.cursor.source = l.cursor.source := by
  rw [Cursor.source, Cursor.source, h.consumed_eq, h.after_eq, h.skipsTo.eq_append]
  simp only [List.append_assoc]

/-- Reading a token never fails. Behind the layout it finds nothing exactly at the end of the text,
and else it reads what stands there and leaves the cursor right behind it. -/
theorem next_reads_maximal_run (l : Lexer) :
    ∃ layout rest, l.cursor.after = layout ++ rest ∧ IsCode rest ∧
      (IsLayout layout ∨ rest = [] ∧ IsLastLayout layout) ∧
      (∀ e, l.next.1 ≠ .error e) ∧ (l.next.1 = .ok none ↔ rest = []) ∧
      ∀ c tail, rest = c :: tail → ∃ token l', l.next = (.ok (some token), l') ∧
        token.lexeme.Heads c tail ∧ rest = token.text ++ l'.cursor.after ∧
        token.start = l.cursor.pos + layout.length ∧ l'.cursor.pos = token.stop ∧
        l'.cursor.consumed = l.cursor.consumed ++ layout ++ token.text := by
  obtain ⟨layout, rest, h⟩ := exists_skipsTo l.cursor.after
  refine ⟨layout, rest, h.eq_append, h.isCode, h.isLayout, ?_⟩
  cases rest with
  | nil =>
      obtain ⟨l', hends⟩ := ends_of_skipsTo h
      exact ⟨by simp [hends.next_eq], by simp [hends.next_eq], nofun⟩
  | cons c rest =>
      obtain ⟨token, l', htakes, hheads⟩ := takes_of_skipsTo h
      refine ⟨by simp [htakes.next_eq], by simp [htakes.next_eq], ?_⟩
      rintro c' rest' ⟨⟩
      have hrest := List.append_cancel_left (h.eq_append.symm.trans htakes.skipsTo.eq_append)
      exact ⟨token, l', htakes.next_eq, hheads, hrest, htakes.start_eq, htakes.pos_eq,
        htakes.consumed_eq⟩

end Lexer

end Parens
