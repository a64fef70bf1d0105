import Parens.Proofs.Reader.Grammar
import Parens.Proofs.Token.Pushback
import Parens.Reader.History

/-!
How the reader gets on in its text. Every step that needs more tokens uses one up for good, so
reading comes to an end. A term is read up to the end of its last token and no further. Where no
term begins, the reader stays in front of the token that stands there, however often it is asked. So
reading all terms ends too, well if nothing is left then.
-/

namespace Parens

namespace Cursor

/-- The tokens in front of a cursor, each with its place. -/
def ahead (c : Cursor) : List (Lexeme × Nat) := places c.pos c.after

variable {c c' : Cursor} {x : Lexeme} {xs : List Lexeme}

theorem Reads.exists_start (h : c.Reads [x] c') :
    ∃ start, c.ahead = (x, start) :: c'.ahead ∧ c'.pos = start + x.text.length := by
  let l : Lexer := ⟨c, none, 0⟩
  rcases l.takes_or_ends with ⟨layout, token, l', htakes⟩ | ⟨layout, l', hends⟩
  · have hreads : c.Reads [token.lexeme] l'.cursor := Lexer.reads_of_next htakes.next_eq
    have hx : x :: lexemes c'.after = token.lexeme :: lexemes l'.cursor.after :=
      h.lexemes_eq.symm.trans hreads.lexemes_eq
    obtain rfl := (List.cons.inj hx).1
    obtain rfl := hreads.unique h
    exact ⟨token.start, Lexer.places_of_takes htakes, htakes.pos_eq⟩
  · have hnil : lexemes c.after = [] := lexemes_eq_nil_iff.2 hends.skipsTo.code_eq
    cases h.lexemes_eq.symm.trans hnil

/-- Along a path the cursor comes to stand at the end of the last token on it. -/
theorem Reads.exists_places (h : c.Reads xs c') (hne : xs ≠ []) :
    ∃ before last, (before ++ [last]).map Prod.fst = xs ∧ c.ahead = before ++ last :: c'.ahead ∧
      c'.pos = last.2 + last.1.text.length := by
  induction h with
  | nil c => exact absurd rfl hne
  | @cons c c₁ c' x xs hfirst hsource h ih =>
      have hx : c.Reads [x] c₁ := .cons hfirst hsource (.nil c₁)
      obtain ⟨start, hahead, hpos⟩ := hx.exists_start
      by_cases hnil : xs = []
      · subst hnil
        cases h
        exact ⟨[], (x, start), rfl, hahead, hpos⟩
      · obtain ⟨before, last, hxs, hahead', hpos'⟩ := ih hnil
        refine ⟨(x, start) :: before, last, ?_, ?_, hpos'⟩
        · rw [List.cons_append, List.map_cons, hxs]
        · rw [hahead, hahead', List.cons_append]

end Cursor

namespace Reader

variable {limit : Int} {r r' : Reader}

/-- Whether the reader comes to an end with this result, after so many steps that need more
tokens. -/
inductive EndsAfter (limit : Int) :
    Nat → Stack → Lexer → Except Failure (Option Term) × Lexer → Prop
  | done {s : Stack} {l l' : Lexer} {term : Option Term} : step limit s l = .done term l' →
      EndsAfter limit 0 s l (.ok term, l')
  | fail {s : Stack} {l l' : Lexer} {e : Failure} : step limit s l = .fail e l' →
      EndsAfter limit 0 s l (.error e, l')
  | more {n : Nat} {s s' : Stack} {l l' : Lexer} {result : Except Failure (Option Term) × Lexer} :
      step limit s l = .more s' l' → EndsAfter limit n s' l' result →
      EndsAfter limit (n + 1) s l result

/-- Each such step takes characters, so there are no more steps than characters. -/
theorem exists_endsAfter (limit : Int) (s : Stack) (l : Lexer) :
    ∃ n ≤ l.remaining, EndsAfter limit n s l (run limit s l) := by
  fun_induction run limit s l with
  | case1 s l s' l' hstep ih =>
      obtain ⟨n, hn, hends⟩ := ih
      exact ⟨n + 1, Nat.lt_of_le_of_lt hn (remaining_lt_of_step_eq_more hstep), .more hstep hends⟩
  | case2 s l term l' hstep => exact ⟨0, Nat.zero_le _, .done hstep⟩
  | case3 s l e l' hstep => exact ⟨0, Nat.zero_le _, .fail hstep⟩

/-- Whether a term is read up to the end of its last token, with one token at least. -/
structure TakesTerm (r : Reader) (t : Term) (r' : Reader) : Prop where
  source_eq : r'.lexer.cursor.source = r.lexer.cursor.source
  exists_tokens : ∃ (d : Derivation) (before : List (Lexeme × Nat)) (last : Lexeme × Nat),
    d.value = t ∧ (before ++ [last]).map Prod.fst = d.lexemes ∧
    r.lexer.cursor.ahead = before ++ last :: r'.lexer.cursor.ahead ∧
    r'.lexer.cursor.pos = last.2 + last.1.text.length

theorem takesTerm_of_readTerm {t : Term} (h : r.readTerm = (.ok (some t), r')) :
    TakesTerm r t r' := by
  obtain ⟨d, hd, hreads⟩ := exists_reads_of_readTerm h
  have hne : d.lexemes ≠ [] := List.length_pos_iff.1 d.length_lexemes_pos
  obtain ⟨before, last, hlast, hahead, hpos⟩ := hreads.exists_places hne
  exact ⟨hreads.source_eq, d, before, last, hd, hlast, hahead, hpos⟩

/-- Whether one place is reached from another over layout only, and is the end or the start of a
token that begins no term. -/
inductive StaysAt (c c' : Cursor) : Prop
  | atEnd {layout : List Char} : IsLastLayout layout → c.after = layout → c'.after = [] →
      c'.consumed = c.consumed ++ layout → StaysAt c c'
  | token {layout : List Char} {x : Lexeme} {behind : List (Lexeme × Nat)} : IsLayout layout →
      c.after = layout ++ c'.after → c'.consumed = c.consumed ++ layout →
      c'.ahead = (x, c'.pos) :: behind → x.kind = .closing ∨ x.kind = .dot → StaysAt c c'

theorem staysAt_skipLayout {c : Cursor} (h : EndsItems (Parens.lexemes c.after)) :
    StaysAt c c.skipLayout := by
  obtain ⟨layout, hskips, hconsumed⟩ := c.skipsTo_skipLayout
  rcases Lexeme.first?_cases c.skipLayout.after with ⟨hcode, -⟩ | ⟨x, behind, -, hfirst⟩
  · have hnil : c.skipLayout.after = [] := by rw [← hcode, code_of_isCode hskips.isCode]
    have hlayout : IsLastLayout layout := hskips.isLayout.elim .closed And.right
    have hafter : c.after = layout := by rw [hskips.eq_append, hnil, List.append_nil]
    exact .atEnd hlayout hafter hnil hconsumed
  · have hne : c.skipLayout.after ≠ [] := fun hnil => by
      rw [hnil] at hfirst
      cases hfirst
    have hlayout : IsLayout layout := hskips.isLayout.resolve_right fun hnil => hne hnil.1
    have hzero : layoutLength false 0 c.skipLayout.after = 0 :=
      (skipsTo_of_isCode hskips.isCode).length_eq
    have hlex : Parens.lexemes c.after = x :: Parens.lexemes behind := by
      rw [← lexemes_code, ← Cursor.after_skipLayout, lexemes_of_first? hfirst]
    rw [hlex, EndsItems] at h
    have hahead : c.skipLayout.ahead =
        (x, c.skipLayout.pos) :: places (c.skipLayout.pos + x.text.length) behind := by
      rw [Cursor.ahead, places_of_first? hfirst, hzero, Nat.add_zero]
    refine .token hlayout hskips.eq_append hconsumed hahead ?_
    cases hk : x.kind with
    | closing => exact .inl rfl
    | dot => exact .inr rfl
    | opening | quote | number | symbol =>
        rw [hk] at h
        cases h

theorem endsItems_of_readTerm (h : r.readTerm = (.ok none, r')) : EndsItems r.lexemes := by
  have houtcome := outcome_of_readTerm h
  generalize r'.lexer = l at houtcome
  cases houtcome with
  | none _ hends => exact hends

theorem exists_readTerm_of_endsItems (h : EndsItems r.lexemes) :
    ∃ r', r.readTerm = (.ok none, r') := by
  cases hlex : r.lexemes with
  | nil =>
      obtain ⟨r', hread, -⟩ := exists_readTerm_none hlex
      exact ⟨r', hread⟩
  | cons x rest =>
      rw [hlex] at h
      obtain ⟨token, l₁, l', hrun, -⟩ := run_of_endsItems r.limit hlex h .empty
      refine ⟨{ r with lexer := l₁ }, ?_⟩
      rw [readTerm, hrun]
      rfl

/-- Where no term begins, none begins later. -/
theorem readTerm_again (h : r.readTerm = (.ok none, r')) :
    ∃ r'', r'.readTerm = (.ok none, r'') ∧ r''.lexer.cursor = r'.lexer.cursor := by
  have hcursor := cursor_of_readTerm_eq_none h
  have hlex : r'.lexemes = r.lexemes := by
    rw [lexemes, lexemes, Lexer.lexemes, hcursor]
    exact lexemes_code r.lexer.cursor.after
  obtain ⟨r'', hread⟩ := exists_readTerm_of_endsItems (hlex ▸ endsItems_of_readTerm h)
  refine ⟨r'', hread, ?_⟩
  rw [cursor_of_readTerm_eq_none hread, hcursor, Cursor.skipLayout_skipLayout]

theorem transcript_readTerm_again (h : r.readTerm = (.ok none, r')) (n : Nat) :
    ∀ answer q, (answer, q) ∈ r'.transcript (List.replicate n .readTerm) →
      answer = .term (.ok none) ∧ q.lexer.cursor = r'.lexer.cursor := by
  induction n generalizing r r' with
  | zero => exact nofun
  | succ n ih =>
      obtain ⟨r'', hread, hcursor⟩ := readTerm_again h
      have hperform : r'.perform .readTerm = (.term (.ok none), r'') := by
        rw [perform, hread]
      intro answer q hmem
      rw [List.replicate_succ, transcript, hperform] at hmem
      rcases List.mem_cons.1 hmem with hfirst | hrest
      · cases hfirst
        exact ⟨rfl, hcursor⟩
      · rw [← hcursor]
        exact ih hread answer q hrest

/-- Whether these terms are read one after the other, up to the second reader. -/
inductive Yields : Reader → List Term → Reader → Prop
  | nil (r : Reader) : Yields r [] r
  | cons {r r₁ r' : Reader} {t : Term} {ts : List Term} : r.readTerm = (.ok (some t), r₁) →
      Yields r₁ ts r' → Yields r (t :: ts) r'

/-- How reading all terms ends that has come to `r`: where a term cannot be read, or where none
begins, which is well at the end only. -/
inductive Finishes (r : Reader) : Except Failure Unit → Prop
  | fail {r' : Reader} {e : Failure} : r.readTerm = (.error e, r') → Finishes r (.error e)
  | stop {r' : Reader} {ending : Except Failure Unit} : r.readTerm = (.ok none, r') →
      (ending = .ok () ↔ r'.lexer.atEnd) → Finishes r ending

theorem ensureEmpty_eq_ok_iff (h : r.readTerm = (.ok none, r')) :
    r'.ensureEmpty.1 = .ok () ↔ r'.lexer.atEnd := by
  have hskip : r'.lexer.skipLayout.cursor = r'.lexer.cursor := by
    rw [Lexer.cursor_skipLayout, cursor_of_readTerm_eq_none h, Cursor.skipLayout_skipLayout]
  have hatEnd : r'.lexer.skipLayout.atEnd = r'.lexer.atEnd := by
    rw [Lexer.atEnd, Lexer.atEnd, hskip]
  simp only [ensureEmpty, isEmpty, hatEnd]
  split <;> simp_all

/-- Reading all terms reads one after the other, each with a token of its own, up to where it
ends. -/
theorem exists_yields (r : Reader) :
    ∃ r', r.Yields r.readAll.terms r' ∧ r'.Finishes r.readAll.ending ∧
      r.readAll.terms.length ≤ r.lexemes.length := by
  induction r using readAll.induct with
  | case1 r e r' hread =>
      rw [readAll_of_readTerm_error hread]
      exact ⟨r, .nil r, .fail hread, Nat.zero_le _⟩
  | case2 r r' hread =>
      rw [readAll_of_readTerm_none hread]
      exact ⟨r, .nil r, .stop hread (ensureEmpty_eq_ok_iff hread), Nat.zero_le _⟩
  | case3 r t r' hread ih =>
      rw [readAll_of_readTerm hread]
      obtain ⟨r'', hyields, hfinishes, hlength⟩ := ih
      refine ⟨r'', .cons hread hyields, hfinishes, ?_⟩
      obtain ⟨d, -, hreads⟩ := exists_reads_of_readTerm hread
      have hlex : r.lexemes = d.lexemes ++ r'.lexemes := hreads.lexemes_eq
      have hpos := d.length_lexemes_pos
      rw [hlex, List.length_append, List.length_cons]
      omega

/-- Reading a term comes to an end. If there is one, it is read up to the end of its last token.
There is none exactly at the end of the text and in front of a token that begins none; the reader
then skips layout only, and stays there when it is asked again. So reading all terms comes to an end
as well, with a token for each term at least, and where no term begins it ends well if and only if
nothing is left. -/
theorem readTerm_progress (r : Reader) :
    (∃ n ≤ r.lexer.remaining,
      EndsAfter r.limit n .empty r.lexer (r.readTerm.1, r.readTerm.2.lexer)) ∧
    (∀ t r', r.readTerm = (.ok (some t), r') → TakesTerm r t r') ∧
    ((∃ r', r.readTerm = (.ok none, r')) ↔ EndsItems r.lexemes) ∧
    (∀ r', r.readTerm = (.ok none, r') → StaysAt r.lexer.cursor r'.lexer.cursor ∧
      ∀ n answer q, (answer, q) ∈ r'.transcript (List.replicate n .readTerm) →
        answer = .term (.ok none) ∧ q.lexer.cursor = r'.lexer.cursor) ∧
    ∃ r', r.Yields r.readAll.terms r' ∧ r'.Finishes r.readAll.ending ∧
      r.readAll.terms.length ≤ r.lexemes.length := by
  refine ⟨exists_endsAfter r.limit .empty r.lexer, fun t r' => takesTerm_of_readTerm, ?_, ?_,
    exists_yields r⟩
  · exact ⟨fun ⟨_, hread⟩ => endsItems_of_readTerm hread, exists_readTerm_of_endsItems⟩
  · intro r' hread
    refine ⟨?_, transcript_readTerm_again hread⟩
    rw [cursor_of_readTerm_eq_none hread]
    exact staysAt_skipLayout (endsItems_of_readTerm hread)

end Reader
end Parens
