import Parens.Proofs.Reader.Forward
import Parens.Proofs.Reader.Grammar

/-!
How far the reader has gone when it fails. What it has consumed by then can nearly always be gone on
with so that a term comes of it: a term for an open quote or list and parentheses for all that are
open will do. The exception is the token behind the tail of a list. That token is read before it is
looked at, so a wrong one is consumed, and nothing that follows makes up for it.
-/

namespace Parens

/-- Whether a text can be gone on with so that it holds a term. -/
def Viable (text : List Char) : Prop := ∃ more t, parse (text ++ more) 0 = .ok (some t)

namespace Lexeme

def closing : Lexeme := ⟨.closing, [')']⟩

/-- A closing parenthesis is told by its first character. -/
theorem Proper.kind_eq_closing_iff {x : Lexeme} (h : x.Proper) :
    x.kind = .closing ↔ x.text.head? = some ')' := by
  cases h with
  | opening | closing | quote => decide
  | @run run hne hrun _ =>
      obtain ⟨c, run, rfl⟩ := List.exists_cons_of_ne_nil hne
      refine iff_of_false ?_ ?_
      · simp only [Token.Kind.ofRun]
        split_ifs <;> decide
      · intro hc
        have hdelimiter := hrun c List.mem_cons_self
        rw [Option.some.inj hc] at hdelimiter
        cases hdelimiter

/-- Text behind a lexeme may make it longer, but no closing parenthesis comes of it. -/
theorem Proper.exists_first?_append {x : Lexeme} (h : x.Proper) (hx : x.kind ≠ .closing)
    (more : List Char) :
    ∃ y rest, first? (x.text ++ more) = some (y, rest) ∧ y.kind ≠ .closing := by
  obtain ⟨c, tail, hc⟩ := List.exists_cons_of_ne_nil h.text_ne_nil
  have hcode := h.isCode more
  rw [hc, List.cons_append] at hcode ⊢
  obtain ⟨y, rest, hfirst, hsplit, hne, -⟩ := exists_heads hcode
  refine ⟨y, rest, hfirst, fun hy => hx ?_⟩
  obtain ⟨layout, -, -, hproper, -⟩ := exists_layout_of_first? hfirst
  have hhead := hproper.kind_eq_closing_iff.1 hy
  obtain ⟨d, run, hd⟩ := List.exists_cons_of_ne_nil hne
  rw [hd] at hsplit hhead
  rw [h.kind_eq_closing_iff, hc, ← hhead]
  exact congrArg some (List.cons.inj hsplit).1

end Lexeme

theorem lexemes_closings (k : Nat) :
    lexemes (List.replicate k ')') = List.replicate k .closing := by
  induction k with
  | zero => exact lexemes_eq_nil_iff.2 rfl
  | succ k ih =>
      rw [List.replicate_succ, lexemes_of_first? (Lexeme.first?_closing _), ih]
      rfl

theorem lexemes_word_closings (k : Nat) :
    lexemes ('a' :: List.replicate k ')') =
      ⟨.symbol, ['a']⟩ :: List.replicate k .closing := by
  have hboundary : atBoundary (List.replicate k ')') := by cases k <;> rfl
  have hfirst : Lexeme.first? (['a'] ++ List.replicate k ')') = _ :=
    Lexeme.first?_run hboundary (List.forall_mem_singleton.2 rfl) (by decide) (by decide)
  rw [← lexemes_closings k]
  exact lexemes_of_first? hfirst

/-- With a term more and enough parentheses, all that is open is closed. -/
theorem Opened.exists_completion (os : List Opened) (d : Derivation) :
    ∃ (e : Derivation) (k : Nat),
      e.lexemes = spelling os ++ (d.lexemes ++ List.replicate k Lexeme.closing) := by
  induction os generalizing d with
  | nil => exact ⟨d, 0, (List.append_nil _).symm⟩
  | cons o outer ih =>
      let right : Lexeme.Of .closing := ⟨.closing, rfl⟩
      cases o with
      | quote mark =>
          obtain ⟨e, k, he⟩ := ih (.quote mark d)
          refine ⟨e, k, ?_⟩
          simp [he, spelling, lexemes, Derivation.lexemes]
      | list left items =>
          obtain ⟨e, k, he⟩ := ih (.list left (items.snoc d) right)
          refine ⟨e, k + 1, ?_⟩
          simp [he, spelling, lexemes, Derivation.lexemes, Derivations.lexemes_snoc,
            List.replicate_succ, right]
      | tail left items point =>
          obtain ⟨e, k, he⟩ := ih (.dotted left items point d right)
          refine ⟨e, k + 1, ?_⟩
          simp [he, spelling, lexemes, Derivation.lexemes, List.replicate_succ, right]

/-- A term that is needed may be put in, behind a line end. -/
theorem viable_of_lexemes_eq_spelling {text : List Char} (os : List Opened)
    (h : lexemes text = Opened.spelling os) : Viable text := by
  let a : Lexeme.Of .symbol := ⟨⟨.symbol, ['a']⟩, rfl⟩
  have ha : StandsFor ['a'] (.symbol ⟨['a'], by decide, by decide⟩) :=
    .symbol (by decide) (by decide)
  obtain ⟨e, k, he⟩ := Opened.exists_completion os (.symbol a _ ha)
  refine ⟨'\n' :: 'a' :: List.replicate k ')', e.value, parse_of_derivation e ?_⟩
  rw [lexemes_append_newline, lexemes_word_closings, h, he]
  rfl

theorem viable_of_lexemes_eq_append {text : List Char} (os : List Opened) {d : Derivation}
    (h : lexemes text = Opened.spelling os ++ d.lexemes) : Viable text := by
  obtain ⟨e, k, he⟩ := Opened.exists_completion os d
  refine ⟨'\n' :: List.replicate k ')', e.value, parse_of_derivation e ?_⟩
  rw [lexemes_append_newline, lexemes_closings, h, he, List.append_assoc]

namespace Reader

/-- The tail of a list has to be followed by a parenthesis. -/
theorem run_eq_error_of_ne_closing (limit : Int) {l : Lexer} {left : Lexeme.Of .opening}
    {items : Derivations} {point : Lexeme.Of .dot} {tail : Derivation} {os : List Opened}
    {y : Lexeme}
    {ys : List Lexeme}
    (h : l.lexemes = Opened.spelling (.tail left items point :: os) ++ (tail.lexemes ++ y :: ys))
    (hy : y.kind ≠ .closing) : ∃ e l', run limit .empty l = (.error e, l') := by
  rcases exists_reached limit h with ⟨s, l₁, hreached, hrun⟩ | ⟨-, l', -, -, hrun⟩
  · have hlex₁ : l₁.lexemes = tail.lexemes ++ y :: ys := Lexer.lexemes_behind hreached.reads h
    rcases goesThrough limit tail s l₁ _ hlex₁ with ⟨l₂, hreads, hrun'⟩ | ⟨-, l', -, -, hrun'⟩
    · have hlex₂ : l₂.lexemes = y :: ys := Lexer.lexemes_behind hreads hlex₁
      obtain ⟨outer, rfl, -⟩ := Stack.exists_push hreached.frames_eq
      rw [Opened.frame, settle_push_tail] at hrun'
      rw [hrun, Opened.frame, hrun']
      rcases close_path_cases l₂ with
        ⟨right, l', -, hright⟩ | ⟨l', hclose, -⟩ | ⟨x, l', -, hclose, -⟩
      · have hright' : l₂.lexemes = right.1 :: l'.lexemes := Lexer.lexemes_of_reads hright
        rw [hlex₂] at hright'
        rw [(List.cons.inj hright').1] at hy
        exact absurd right.2 hy
      · exact ⟨_, l', by rw [hclose]; rfl⟩
      · exact ⟨_, l', by rw [hclose]; rfl⟩
    · exact ⟨_, l', hrun.trans hrun'⟩
  · exact ⟨_, l', hrun⟩

end Reader

namespace Cursor.Reads

variable {text : List Char} {xs : List Lexeme} {x : Lexeme} {c c' : Cursor}

/-- Behind a lexeme that is no closing parenthesis, none comes of it whatever text follows. -/
theorem exists_lexemes_append (h : (ofText text).Reads xs c) (hx : c.Reads [x] c')
    (hkind : x.kind ≠ .closing) (more : List Char) :
    ∃ y ys, y.kind ≠ .closing ∧ lexemes (c'.consumed ++ more) = xs ++ y :: ys := by
  obtain ⟨layout, hlayout, hafter, hconsumed, hproper, -⟩ := hx.exists_layout
  obtain ⟨front, -, hfront, hother⟩ := h.exists_front
  have hhead : (layout ++ (x.text ++ more)).head? = c.after.head? := by
    obtain ⟨a, run, ha⟩ := List.exists_cons_of_ne_nil hproper.text_ne_nil
    rw [hafter, ha]
    cases layout <;> rfl
  obtain ⟨d, hreads, hd, -⟩ :=
    hother _ (.inr hhead) (ofText (front ++ (layout ++ (x.text ++ more)))) rfl
  obtain ⟨y, rest, hfirst, hy⟩ := hproper.exists_first?_append hkind more
  refine ⟨y, lexemes rest, hy, ?_⟩
  have hlex := hreads.lexemes_eq
  rw [hd, lexemes_append_of_isLayout hlayout, lexemes_of_first? hfirst] at hlex
  rw [hconsumed, hfront, ← hlex]
  simp only [ofText, consumed, List.reverse_nil, List.nil_append, List.append_assoc]

end Cursor.Reads

theorem not_viable_of_ne_closing {text : List Char} {left : Lexeme.Of .opening}
    {items : Derivations}
    {point : Lexeme.Of .dot} {tail : Derivation} {os : List Opened} {x : Lexeme} {c c' : Cursor}
    (h : (Cursor.ofText text).Reads
      (Opened.spelling (.tail left items point :: os) ++ tail.lexemes) c)
    (hx : c.Reads [x] c') (hkind : x.kind ≠ .closing) : ¬ Viable c'.consumed := by
  rintro ⟨more, t, hparse⟩
  obtain ⟨y, ys, hy, hlex⟩ := h.exists_lexemes_append hx hkind more
  rw [List.append_assoc] at hlex
  obtain ⟨e, l', hrun⟩ :=
    Reader.run_eq_error_of_ne_closing 0 (l := .ofText (c'.consumed ++ more)) hlex hy
  have hread : (Reader.ofText (c'.consumed ++ more) 0).readTerm = (.error e, ⟨l', 0⟩) := by
    simp only [Reader.readTerm, Reader.ofText, hrun]
  rw [parse, hread] at hparse
  cases hparse

theorem Reader.Stuck.source_eq {limit : Int} {reason : Reason} {c c' : Cursor}
    (h : Stuck limit c reason c') : c'.source = c.source := by
  cases h with
  | termAfterQuote hreads | termAfterDot hreads | unclosed hreads | unclosedTail hreads =>
      exact (Cursor.source_skipLayout _).trans hreads.source_eq
  | closeExpected hreads hx _ => exact hx.source_eq.trans hreads.source_eq
  | tooDeep hreads _ _ _ => exact hreads.source_eq

/-- What stops the reading of a text: a term that cannot be read, or text behind a term or where
none begins. -/
theorem parse_error_cases {source : List Char} {limit : Int} {e : Failure}
    (h : parse source limit = .error e) :
    ∃ (reason : Reason) (l : Lexer), e = l.fault reason ∧
      (Reader.Stuck limit (.ofText source) reason l.cursor ∨
        reason = .trailing ∧ (l.cursor = (Cursor.ofText source).skipLayout ∨
          ∃ (d : Derivation) (c : Cursor), (Cursor.ofText source).Reads d.lexemes c ∧
            l.cursor = c.skipLayout)) := by
  rw [parse] at h
  rcases hread : (Reader.ofText source limit).readTerm with ⟨e' | term, r⟩
  · rw [hread] at h
    obtain rfl := Except.error.inj h
    obtain ⟨reason, he, hstuck⟩ := Reader.exists_stuck_of_readTerm_eq_error hread
    exact ⟨reason, r.lexer, he, .inl hstuck⟩
  · rw [hread] at h
    rcases r.ensureEmpty_cases with ⟨-, hempty⟩ | ⟨-, hfails⟩
    · simp only [hempty] at h
      cases h
    · simp only [hfails, Except.error.injEq] at h
      refine ⟨_, _, h.symm, .inr ⟨rfl, ?_⟩⟩
      cases term with
      | none =>
          left
          rw [Lexer.cursor_skipLayout, Reader.cursor_of_readTerm_eq_none hread,
            Cursor.skipLayout_skipLayout]
          rfl
      | some t =>
          obtain ⟨d, -, hreads⟩ := Reader.exists_reads_of_readTerm hread
          exact .inr ⟨d, _, hreads, rfl⟩

/-- Where reading is stopped within a term, what has been consumed is viable, unless a token was
taken for the parenthesis behind a tail. -/
theorem viable_cases_of_stuck {source : List Char} {limit : Int} {reason : Reason} {c : Cursor}
    (h : Reader.Stuck limit (.ofText source) reason c) :
    reason ≠ .closeExpected ∧ Viable c.consumed ∨
      reason = .closeExpected ∧ ¬ Viable c.consumed ∧ ∃ (before : List Char) (x : Lexeme),
        c.consumed = before ++ x.text ∧ x.kind ≠ .closing ∧
        lexemes c.consumed = lexemes before ++ [x] ∧ Viable before := by
  cases h with
  | termAfterQuote hreads | termAfterDot hreads | unclosed hreads =>
      exact .inl ⟨nofun, viable_of_lexemes_eq_spelling _ hreads.lexemes_consumed_skipLayout⟩
  | unclosedTail hreads =>
      exact .inl ⟨nofun, viable_of_lexemes_eq_append _ hreads.lexemes_consumed_skipLayout⟩
  | @tooDeep os x _ hreads hkind _ _ =>
      refine .inl ⟨nofun, ?_⟩
      -- What is one too many is open as well.
      rcases hkind with hkind | hkind
      · exact viable_of_lexemes_eq_spelling (.quote ⟨x, hkind⟩ :: os) hreads.lexemes_consumed
      · exact viable_of_lexemes_eq_spelling (.list ⟨x, hkind⟩ .nil :: os) hreads.lexemes_consumed
  | closeExpected hreads hx hkind =>
      refine .inr ⟨rfl, not_viable_of_ne_closing hreads hx hkind, ?_⟩
      obtain ⟨layout, hlayout, -, hconsumed, -⟩ := hx.exists_layout
      have hbefore := hreads.lexemes_consumed_append (.closed hlayout)
      refine ⟨_, _, by rw [hconsumed, List.append_assoc], hkind, ?_,
        viable_of_lexemes_eq_append _ hbefore⟩
      rw [hbefore]
      exact (hreads.append hx).lexemes_consumed

/-- What a rejected text is consumed up to is viable, unless the parenthesis behind a tail is
missed. Then the token in its place is consumed, which makes the text before it unviable. -/
theorem consumed_viable_iff {source : List Char} {limit : Int} {e : Failure}
    (h : parse source limit = .error e) :
    ∃ p : ParseError, e = .parse p ∧ p.consumed ++ p.remaining = source ∧
      (Viable p.consumed ↔ p.reason ≠ some .closeExpected) ∧
      (p.reason = some .closeExpected → ∃ (before : List Char) (x : Lexeme),
        p.consumed = before ++ x.text ∧ x.kind ≠ .closing ∧
        lexemes p.consumed = lexemes before ++ [x] ∧ Viable before) := by
  obtain ⟨reason, l, rfl, hstop⟩ := parse_error_cases h
  refine ⟨_, rfl, ?_⟩
  simp only [Lexer.parseError, ne_eq, Option.some.injEq]
  rcases hstop with hstuck | ⟨rfl, hcursor⟩
  · refine ⟨hstuck.source_eq.trans (Cursor.source_ofText source), ?_⟩
    rcases viable_cases_of_stuck hstuck with ⟨hreason, hviable⟩ | ⟨hreason, hviable, hbefore⟩
    · exact ⟨iff_of_true hviable hreason, fun h => absurd h hreason⟩
    · exact ⟨iff_of_false hviable (not_not_intro hreason), fun _ => hbefore⟩
  · have htrailing : l.cursor.source = source ∧ Viable l.cursor.consumed := by
      rcases hcursor with hcursor | ⟨d, c, hreads, hcursor⟩
      · rw [hcursor, Cursor.source_skipLayout, Cursor.source_ofText]
        have hnil : (Cursor.ofText source).Reads [] (.ofText source) := .nil _
        exact ⟨rfl, viable_of_lexemes_eq_spelling [] hnil.lexemes_consumed_skipLayout⟩
      · rw [hcursor, Cursor.source_skipLayout, hreads.source_eq, Cursor.source_ofText]
        exact ⟨rfl, viable_of_lexemes_eq_append [] hreads.lexemes_consumed_skipLayout⟩
    exact ⟨htrailing.1, iff_of_true htrailing.2 nofun, nofun⟩

theorem second_tail_consumed :
    ∃ p : ParseError, parse "(a . b c)".toList 0 = .error (.parse p) ∧
      p.consumed = "(a . b c".toList ∧ ¬ Viable p.consumed := by
  have h : parse "(a . b c)".toList 0 =
      .error (.parse ⟨"(a . b c".toList, [')'], some .closeExpected⟩) := by
    have hfailure : (match parse "(a . b c)".toList 0 with
        | .error e => some e
        | .ok _ => none) = some (.parse ⟨"(a . b c".toList, [')'], some .closeExpected⟩) := by
      decide +kernel
    cases heq : parse "(a . b c)".toList 0 with
    | ok t =>
        rw [heq] at hfailure
        cases hfailure
    | error e =>
        rw [heq] at hfailure
        rw [Option.some.inj hfailure]
  obtain ⟨p, hp, -, hviable, -⟩ := consumed_viable_iff h
  obtain rfl := Failure.parse.inj hp
  exact ⟨_, h, rfl, fun hv => hviable.1 hv rfl⟩

end Parens
