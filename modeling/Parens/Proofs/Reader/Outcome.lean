import Parens.Proofs.Reader.Descent
import Parens.Proofs.Term.Unambiguous
import Parens.Proofs.Token.Path
import Parens.Term.Opened

/-!
What reading a term comes to, from any place in any text and under any limit. The frames of the
reader are the quotes and lists that are open, and together they take all that has been read. So
reading ends with a term that takes what was read, with no term where none begins, or at one of the
places where open quotes and lists cannot go on.
-/

namespace Parens.Reader

/-- A state of the reader that started from `c`, and the quotes and lists that are open then. -/
structure Reached (limit : Int) (c : Cursor) (os : List Opened) (s : Stack) (l : Lexer) : Prop where
  frames_eq : s.frames = os.map Opened.frame
  reads : c.Reads (Opened.spelling os) l.cursor
  within : ∀ n < os.length, Descent.isTooDeep limit (n + 1) = false

/-- Where and why reading a term fails that started from `c`. -/
inductive Stuck (limit : Int) (c : Cursor) : Reason → Cursor → Prop
  | termAfterQuote {mark : Lexeme.Of .quote} {os : List Opened} {c' : Cursor} :
      c.Reads (Opened.spelling (.quote mark :: os)) c' → Stuck limit c .termAfterQuote c'.skipLayout
  | termAfterDot {left : Lexeme.Of .opening} {items : Derivations} {point : Lexeme.Of .dot}
      {os : List Opened} {c' : Cursor} :
      c.Reads (Opened.spelling (.tail left items point :: os)) c' →
      Stuck limit c .termAfterDot c'.skipLayout
  | unclosed {left : Lexeme.Of .opening} {items : Derivations} {os : List Opened} {c' : Cursor} :
      c.Reads (Opened.spelling (.list left items :: os)) c' → Stuck limit c .unclosed c'.skipLayout
  | unclosedTail {left : Lexeme.Of .opening} {items : Derivations} {point : Lexeme.Of .dot}
      {tail : Derivation} {os : List Opened} {c' : Cursor} :
      c.Reads (Opened.spelling (.tail left items point :: os) ++ tail.lexemes) c' →
      Stuck limit c .unclosed c'.skipLayout
  /-- The token behind the tail of a list has been read when it turns out to be wrong. -/
  | closeExpected {left : Lexeme.Of .opening} {items : Derivations} {point : Lexeme.Of .dot}
      {tail : Derivation} {os : List Opened} {x : Lexeme} {c₁ c' : Cursor} :
      c.Reads (Opened.spelling (.tail left items point :: os) ++ tail.lexemes) c₁ →
      c₁.Reads [x] c' → x.kind ≠ .closing → Stuck limit c .closeExpected c'
  | tooDeep {os : List Opened} {x : Lexeme} {c' : Cursor} :
      c.Reads (Opened.spelling os ++ [x]) c' → x.kind = .quote ∨ x.kind = .opening →
      (∀ n < os.length, Descent.isTooDeep limit (n + 1) = false) →
      Descent.isTooDeep limit (os.length + 1) → Stuck limit c (.tooDeep limit) c'

/-- What reading a term may come to that started from `c`. -/
inductive Outcome (limit : Int) (c : Cursor) : Except Failure (Option Term) × Lexer → Prop
  | term (d : Derivation) {l : Lexer} : c.Reads d.lexemes l.cursor →
      Outcome limit c (.ok (some d.value), l)
  | none {l : Lexer} : l.cursor = c.skipLayout → EndsItems (lexemes c.after) →
      Outcome limit c (.ok none, l)
  | fault {reason : Reason} {l : Lexer} : Stuck limit c reason l.cursor →
      Outcome limit c (.error (l.fault reason), l)

/-- What one step may come to. -/
inductive Progress (limit : Int) (c : Cursor) : Step → Prop
  | more (os : List Opened) {s : Stack} {l : Lexer} : Reached limit c os s l →
      Progress limit c (.more s l)
  | done {term : Option Term} {l : Lexer} : Outcome limit c (.ok term, l) →
      Progress limit c (.done term l)
  | fail {e : Failure} {l : Lexer} : Outcome limit c (.error e, l) → Progress limit c (.fail e l)

variable {limit : Int} {c : Cursor} {os : List Opened} {s : Stack} {l : Lexer}

theorem Reached.depth_eq (h : Reached limit c os s l) : s.depth = os.length := by
  rw [s.depth_eq, h.frames_eq, List.length_map]

theorem Reached.push (h : Reached limit c os s l) {o : Opened} {frame : Frame} {l' : Lexer}
    (hframe : o.frame = frame) (hreads : l.cursor.Reads o.lexemes l'.cursor)
    (hdeep : Descent.isTooDeep limit (s.depth + 1) = false) :
    Reached limit c (o :: os) (s.push frame) l' where
  frames_eq := by
    rw [List.map_cons, hframe, ← h.frames_eq]
    rfl
  reads := h.reads.append hreads
  within n hn := by
    rcases Nat.lt_succ_iff_lt_or_eq.1 hn with hn | rfl
    · exact h.within n hn
    · rw [← h.depth_eq]
      exact hdeep

theorem progress_fault {reason : Reason} {l' : Lexer} {c' : Cursor} (h : Stuck limit c reason c')
    (hl : l'.cursor = c') : Progress limit c (.fail (l'.fault reason) l') := by
  subst hl
  exact .fail (.fault h)

theorem close_path_cases (l : Lexer) :
    (∃ (right : Lexeme.Of .closing) (l' : Lexer), close l = (.ok (), l') ∧
      l.cursor.Reads [right.1] l'.cursor) ∨
    (∃ l' : Lexer, close l = (.error (l'.fault .unclosed), l') ∧
      l'.cursor = l.cursor.skipLayout) ∨
    ∃ (x : Lexeme) (l' : Lexer), x.kind ≠ .closing ∧
      close l = (.error (l'.fault .closeExpected), l') ∧ l.cursor.Reads [x] l'.cursor := by
  unfold close
  rcases l.next_path_cases with ⟨-, l', hnext, hl'⟩ | ⟨token, l', hnext, -, hreads⟩
  · exact .inr (.inl ⟨l', by rw [hnext], hl'⟩)
  · by_cases hk : token.kind = .closing
    · exact .inl ⟨⟨token.lexeme, hk⟩, l', by simp only [hnext, hk, if_true], hreads⟩
    · exact .inr (.inr ⟨token.lexeme, l', hk, by simp only [hnext, hk, if_false], hreads⟩)

/-- A term that is complete is handed to the open quotes and lists. -/
theorem progress_settle {d : Derivation} (hframes : s.frames = os.map Opened.frame)
    (hreads : c.Reads (Opened.spelling os ++ d.lexemes) l.cursor)
    (hwithin : ∀ n < os.length, Descent.isTooDeep limit (n + 1) = false) :
    Progress limit c (settle (some d.value) s l) := by
  induction os generalizing d s l with
  | nil =>
      rw [settle_of_frames_eq_nil hframes]
      exact .done (.term d hreads)
  | cons o outer ih =>
      obtain ⟨s, rfl, hrest⟩ := Stack.exists_push hframes
      have houter : ∀ n < outer.length, Descent.isTooDeep limit (n + 1) = false :=
        fun n hn => hwithin n (Nat.lt_succ_of_lt hn)
      rw [Opened.spelling, List.append_assoc] at hreads
      cases o with
      | quote mark =>
          rw [Opened.frame, settle_push_quote, ← Derivation.value_quote mark d]
          exact ih hrest hreads houter
      | list left items =>
          rw [Opened.frame, settle_push_list]
          refine .more (.list left (items.snoc d) :: outer) ⟨?_, ?_, hwithin⟩
          · rw [List.map_cons, Opened.frame, Derivations.values_snoc, List.reverse_append,
              ← hrest]
            rfl
          · rw [Opened.spelling, Opened.lexemes, Derivations.lexemes_snoc]
            exact hreads
      | tail left items point =>
          rw [Opened.frame, settle_push_tail, List.reverse_reverse]
          have htail : c.Reads (Opened.spelling (.tail left items point :: outer) ++ d.lexemes)
              l.cursor := by
            rw [Opened.spelling, List.append_assoc]
            exact hreads
          rcases close_path_cases l with
            ⟨right, l', hclose, hright⟩ | ⟨l', hclose, hl'⟩ | ⟨x, l', hx, hclose, hright⟩
          · rw [hclose]
            dsimp only
            rw [← Derivation.value_dotted left items right point d]
            refine ih hrest ?_ houter
            have hall := htail.append hright
            simpa [Opened.spelling, Opened.lexemes, Derivation.lexemes] using hall
          · rw [hclose]
            exact progress_fault (.unclosedTail htail) hl'
          · rw [hclose]
            exact progress_fault (.closeExpected htail hright hx) rfl

theorem Reached.settle (h : Reached limit c os s l) {d : Derivation} {l' : Lexer}
    (hd : l.cursor.Reads d.lexemes l'.cursor) :
    Progress limit c (Reader.settle (some d.value) s l') :=
  progress_settle h.frames_eq (h.reads.append hd) h.within

/-- The absence of a term is handed to the innermost quote or list that is open. -/
theorem Reached.settle_none (h : Reached limit c os s l) (hends : EndsItems l.lexemes) {l' : Lexer}
    (hl' : l'.cursor = l.cursor.skipLayout) :
    Progress limit c (Reader.settle none s l') := by
  cases os with
  | nil =>
      have hc : l.cursor = c := by
        have hreads := h.reads
        rw [Opened.spelling] at hreads
        cases hreads
        rfl
      rw [settle_of_frames_eq_nil h.frames_eq]
      exact .done (.none (by rw [hl', hc]) (hc ▸ hends))
  | cons o outer =>
      obtain ⟨s, rfl, hframes⟩ := Stack.exists_push h.frames_eq
      cases o with
      | quote mark =>
          rw [Opened.frame, settle_push_quote_none]
          exact progress_fault (.termAfterQuote h.reads) hl'
      | tail left items point =>
          rw [Opened.frame, settle_push_tail_none]
          exact progress_fault (.termAfterDot h.reads) hl'
      | list left items =>
          rw [Opened.frame, settle_push_list_none, List.reverse_reverse]
          rcases l'.next_path_cases with ⟨-, l'', hnext, hl''⟩ | ⟨token, l'', hnext, -, hreads⟩
          · rw [hnext]
            refine progress_fault (.unclosed h.reads) ?_
            rw [hl'', hl', Cursor.skipLayout_skipLayout]
          · rw [hl'] at hreads
            have htoken : l.cursor.Reads [token.lexeme] l''.cursor := hreads.of_skipLayout
            have hlex : l.lexemes = token.lexeme :: l''.lexemes := Lexer.lexemes_of_reads htoken
            have hall := h.reads.append htoken
            simp only [hnext]
            cases hk : token.kind with
            | closing =>
                dsimp only
                rw [← Derivation.value_list left items ⟨token.lexeme, hk⟩]
                refine progress_settle hframes ?_ fun n hn => h.within n (Nat.lt_succ_of_lt hn)
                simpa [Opened.spelling, Opened.lexemes, Derivation.lexemes] using hall
            | dot =>
                refine .more (.tail left items ⟨token.lexeme, hk⟩ :: outer) ⟨?_, ?_, h.within⟩
                · rw [List.map_cons, ← hframes]
                  rfl
                · simpa [Opened.spelling, Opened.lexemes] using hall
            | opening | quote | number | symbol =>
                rw [hlex, EndsItems, Token.lexeme, hk] at hends
                cases hends

/-- A quote or list that is opened is one more, or one too many. -/
theorem Reached.openFrame (h : Reached limit c os s l) {o : Opened} {x : Lexeme} {l' : Lexer}
    (hlexemes : o.lexemes = [x]) (hkind : x.kind = .quote ∨ x.kind = .opening)
    (hx : l.cursor.Reads [x] l'.cursor) :
    Progress limit c (Reader.openFrame limit o.frame s l') := by
  unfold Reader.openFrame
  split
  · rename_i htoo
    have hdeep := isTooDeep_succ_iff.2 htoo
    rw [h.depth_eq] at hdeep
    exact progress_fault (.tooDeep (h.reads.append hx) hkind h.within hdeep) rfl
  · rename_i htoo
    have hdeep := Bool.eq_false_iff.2 (mt isTooDeep_succ_iff.1 htoo)
    rw [← hlexemes] at hx
    exact .more (o :: os) (h.push rfl hx hdeep)

/-- A step from a state that was reached leads to another, or to the end. -/
theorem Reached.step (h : Reached limit c os s l) : Progress limit c (Reader.step limit s l) := by
  unfold Reader.step
  rcases l.next_path_cases with ⟨hnil, l', hnext, hl'⟩ | ⟨token, l', hnext, hproper, hreads⟩
  · simp only [hnext]
    exact h.settle_none (by rw [hnil]; trivial) hl'
  · have hlex : l.lexemes = token.lexeme :: l'.lexemes := Lexer.lexemes_of_reads hreads
    simp only [hnext, shift]
    cases hk : token.kind with
    | opening =>
        exact h.openFrame (o := .list ⟨token.lexeme, hk⟩ .nil) rfl (.inr hk) hreads
    | quote => exact h.openFrame (o := .quote ⟨token.lexeme, hk⟩) rfl (.inl hk) hreads
    | number =>
        obtain ⟨n, hn⟩ := hproper.exists_numeral hk
        have hn' : Number.Numeral.ofText? token.text = some n := hn
        simp only [hn']
        exact h.settle (d := .number ⟨token.lexeme, hk⟩ n hn) hreads
    | symbol =>
        obtain ⟨t, ht⟩ := hproper.exists_word hk
        have ht' : Term.ofWord token.text = .ok t := ht
        simp only [ht']
        exact h.settle (d := .symbol ⟨token.lexeme, hk⟩ t (standsFor_iff_ofWord.2 ht)) hreads
    | closing | dot =>
        simp only [Lexer.unread?_next hnext]
        refine h.settle_none ?_ rfl
        rw [hlex, EndsItems, Token.lexeme, hk]
        rfl

/-- However reading goes on from a state that was reached, it comes to one of the outcomes. -/
theorem Reached.run (h : Reached limit c os s l) : Outcome limit c (Reader.run limit s l) := by
  fun_induction Reader.run limit s l generalizing os with
  | case1 s l s' l' hstep ih =>
      have hprogress := h.step
      rw [hstep] at hprogress
      cases hprogress with
      | more os' h' => exact ih h'
  | case2 s l term l' hstep =>
      have hprogress := h.step
      rw [hstep] at hprogress
      cases hprogress with
      | done houtcome => exact houtcome
  | case3 s l e l' hstep =>
      have hprogress := h.step
      rw [hstep] at hprogress
      cases hprogress with
      | fail houtcome => exact houtcome

theorem reached_empty (limit : Int) (l : Lexer) : Reached limit l.cursor [] .empty l :=
  ⟨rfl, .nil _, nofun⟩

theorem outcome_of_readTerm {r r' : Reader} {result : Except Failure (Option Term)}
    (h : r.readTerm = (result, r')) : Outcome r.limit r.lexer.cursor (result, r'.lexer) := by
  have houtcome := (reached_empty r.limit r.lexer).run
  obtain ⟨hresult, rfl⟩ := Prod.mk.inj h
  rw [← hresult]
  exact houtcome

theorem exists_reads_of_readTerm {r r' : Reader} {t : Term} (h : r.readTerm = (.ok (some t), r')) :
    ∃ d : Derivation, d.value = t ∧ r.lexer.cursor.Reads d.lexemes r'.lexer.cursor := by
  have houtcome := outcome_of_readTerm h
  generalize r'.lexer = l at houtcome ⊢
  cases houtcome with
  | term d hreads => exact ⟨d, rfl, hreads⟩

theorem cursor_of_readTerm_eq_none {r r' : Reader} (h : r.readTerm = (.ok none, r')) :
    r'.lexer.cursor = r.lexer.cursor.skipLayout := by
  have houtcome := outcome_of_readTerm h
  generalize r'.lexer = l at houtcome ⊢
  cases houtcome with
  | none hcursor _ => exact hcursor

theorem exists_stuck_of_readTerm_eq_error {r r' : Reader} {e : Failure}
    (h : r.readTerm = (.error e, r')) :
    ∃ reason, e = r'.lexer.fault reason ∧
      Stuck r.limit r.lexer.cursor reason r'.lexer.cursor := by
  have houtcome := outcome_of_readTerm h
  generalize r'.lexer = l at houtcome ⊢
  cases houtcome with
  | fault hstuck => exact ⟨_, rfl, hstuck⟩

/-- Where the limit cuts reading off: behind the quote or parenthesis that opens one too many. -/
theorem exists_of_run_eq_tooDeep {n : Int} {l' : Lexer}
    (hrun : run limit .empty l = (.error (l'.fault (.tooDeep n)), l')) :
    n = limit ∧ ∃ (os : List Opened) (x : Lexeme),
      l.cursor.Reads (Opened.spelling os ++ [x]) l'.cursor ∧ (x.kind = .quote ∨ x.kind = .opening) ∧
      (∀ n < os.length, Descent.isTooDeep limit (n + 1) = false) ∧
      Descent.isTooDeep limit (os.length + 1) := by
  have houtcome := (reached_empty limit l).run
  rw [hrun] at houtcome
  generalize hresult : (Except.error (l'.fault (.tooDeep n)), l') = result at houtcome
  cases houtcome with
  | term d _ => cases hresult
  | none _ _ => cases hresult
  | @fault reason _ hstuck =>
      obtain ⟨hfault, rfl⟩ := Prod.mk.inj hresult
      have hreason := (ParseError.mk.inj (Failure.parse.inj (Except.error.inj hfault))).2.2
      obtain rfl := Option.some.inj hreason
      cases hstuck with
      | tooDeep hreads hkind hwithin hdeep => exact ⟨rfl, _, _, hreads, hkind, hwithin, hdeep⟩

end Parens.Reader
