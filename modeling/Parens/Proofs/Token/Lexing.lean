import Parens.Proofs.Token.Run
import Parens.Token.Layout
import Parens.Token.Lexeme
import Parens.Token.Lexer

/-!
Lexing as the lexer does it against lexing as a function of the text. Reading a token takes the
first lexeme off what is left, pushing it back puts it there again, and the rules for tokens leave
no text over: there is always a token, or only layout.
-/

namespace Parens

theorem layoutLength_add (inComment : Bool) (n : Nat) (text : List Char) :
    layoutLength inComment n text = n + layoutLength inComment 0 text := by
  induction text generalizing inComment n with
  | nil => rfl
  | cons c text ih =>
      simp only [layoutLength]
      split
      · rw [ih _ (n + 1), ih _ (0 + 1)]
        omega
      · split
        · rw [ih _ (n + 1), ih _ (0 + 1)]
          omega
        · split
          · rw [ih _ (n + 1), ih _ (0 + 1)]
            omega
          · rfl

/-- Code begins with a character that is neither blank nor the beginning of a comment. -/
def IsCode : List Char → Prop
  | [] => True
  | c :: _ => Text.isBlank c = false ∧ c ≠ ';'

theorem isCode_drop (inComment : Bool) (text : List Char) :
    IsCode (text.drop (layoutLength inComment 0 text)) := by
  induction text generalizing inComment with
  | nil => trivial
  | cons c text ih =>
      simp only [layoutLength]
      split
      · rw [layoutLength_add, Nat.add_comm]
        exact ih _
      · split
        · rw [layoutLength_add, Nat.add_comm]
          exact ih _
        · split
          · rw [layoutLength_add, Nat.add_comm]
            exact ih _
          · rename_i hsemi hblank
            exact ⟨Bool.eq_false_iff.2 hblank, hsemi⟩

theorem isCode_code (text : List Char) : IsCode (code text) := isCode_drop false text

theorem code_of_isCode {text : List Char} (h : IsCode text) : code text = text := by
  cases text with
  | nil => rfl
  | cons c text => simp [code, layoutLength, h.1, h.2]

theorem code_code (text : List Char) : code (code text) = code text :=
  code_of_isCode (isCode_code text)

theorem code_append_of_isLayout {layout : List Char} (h : IsLayout layout) (text : List Char) :
    code (layout ++ text) = code text := by
  rw [code, layoutLength_append h, layoutLength_add, Nat.zero_add, ← List.drop_drop, List.drop_left]
  rfl

/-- The lexemes that a text can have. -/
inductive Lexeme.Proper : Lexeme → Prop
  | opening : Proper ⟨.opening, ['(']⟩
  | closing : Proper ⟨.closing, [')']⟩
  | quote : Proper ⟨.quote, ['\x27']⟩
  | run {text : List Char} : text ≠ [] → (∀ c ∈ text, isDelimiter c = false) →
      text.head? ≠ some '\x27' → Proper ⟨.ofRun text, text⟩

namespace Lexeme

theorem Proper.isCode {x : Lexeme} (h : x.Proper) (rest : List Char) : IsCode (x.text ++ rest) := by
  cases h with
  | opening | closing | quote => exact ⟨rfl, by decide⟩
  | @run run hne hrun _ =>
      obtain ⟨c, run, rfl⟩ := List.exists_cons_of_ne_nil hne
      have hc := hrun c List.mem_cons_self
      simp only [isDelimiter, Bool.or_eq_false_iff, decide_eq_false_iff_not] at hc
      exact ⟨hc.1.1.1, hc.2⟩

theorem Proper.text_ne_nil {x : Lexeme} (h : x.Proper) : x.text ≠ [] := by
  cases h with
  | opening | closing | quote => exact List.cons_ne_nil _ _
  | run hne _ _ => exact hne

end Lexeme

theorem isDelimiter_blank {c : Char} (h : isDelimiter c) (hblank : Text.isBlank c = false) :
    c = '(' ∨ c = ')' ∨ c = ';' := by
  simpa [isDelimiter, hblank, or_assoc] using h

theorem atBoundary_dropWhile (text : List Char) :
    atBoundary (text.dropWhile fun c => !isDelimiter c) := by
  induction text with
  | nil => rfl
  | cons c text ih => by_cases h : isDelimiter c <;> simp_all [atBoundary]

namespace Lexeme

theorem first?_opening (text : List Char) :
    first? ('(' :: text) = some (⟨.opening, ['(']⟩, text) := rfl

theorem first?_closing (text : List Char) :
    first? (')' :: text) = some (⟨.closing, [')']⟩, text) := rfl

theorem first?_quote (text : List Char) :
    first? ('\x27' :: text) = some (⟨.quote, ['\x27']⟩, text) := rfl

theorem first?_run {run rest : List Char} (hb : atBoundary rest)
    (hrun : ∀ c ∈ run, isDelimiter c = false) (hne : run ≠ [])
    (hquote : run.head? ≠ some '\x27') :
    first? (run ++ rest) = some (⟨.ofRun run, run⟩, rest) := by
  have hcode : code (run ++ rest) = run ++ rest := by
    obtain ⟨c, run, rfl⟩ := List.exists_cons_of_ne_nil hne
    have hc := hrun c List.mem_cons_self
    simp only [isDelimiter, Bool.or_eq_false_iff, decide_eq_false_iff_not] at hc
    exact code_of_isCode ⟨hc.1.1.1, hc.2⟩
  simp only [first?, hcode, Token.first?_run hb hrun hne hquote, List.take_left, List.drop_left]

/-- Any other character in front of code begins a run. -/
theorem exists_first?_run {c : Char} (rest : List Char) (hc : isDelimiter c = false)
    (hquote : c ≠ '\x27') :
    ∃ run behind, run = (c :: rest).takeWhile (fun d => !isDelimiter d) ∧
      c :: rest = run ++ behind ∧
      Proper ⟨.ofRun run, run⟩ ∧ first? (c :: rest) = some (⟨.ofRun run, run⟩, behind) := by
  have hsplit := (c :: rest).takeWhile_append_dropWhile (p := fun d => !isDelimiter d)
  have hrun : ∀ d ∈ (c :: rest).takeWhile (fun d => !isDelimiter d), isDelimiter d = false :=
    fun d hd => by simpa using List.mem_takeWhile_imp hd
  have hne : (c :: rest).takeWhile (fun d => !isDelimiter d) ≠ [] := by simp [hc]
  have hhead : ((c :: rest).takeWhile fun d => !isDelimiter d).head? ≠ some '\x27' := by
    simp [hc, hquote]
  have hfirst := first?_run (atBoundary_dropWhile (c :: rest)) hrun hne hhead
  rw [hsplit] at hfirst
  exact ⟨_, _, rfl, hsplit.symm, .run hne hrun hhead, hfirst⟩

theorem first?_code (text : List Char) : first? (code text) = first? text := by
  rw [first?, code_code, first?]

/-- A text is layout as a whole, or it has a first lexeme. -/
theorem first?_cases (text : List Char) :
    (code text = [] ∧ first? text = none) ∨
      ∃ x rest, x.Proper ∧ first? text = some (x, rest) := by
  rw [← first?_code]
  have hcode := isCode_code text
  cases hc : code text with
  | nil => exact .inl ⟨rfl, rfl⟩
  | cons c rest =>
      right
      rw [hc] at hcode
      by_cases hd : isDelimiter c
      · rcases isDelimiter_blank hd hcode.1 with rfl | rfl | rfl
        · exact ⟨_, rest, .opening, first?_opening rest⟩
        · exact ⟨_, rest, .closing, first?_closing rest⟩
        · exact absurd rfl hcode.2
      · by_cases hq : c = '\x27'
        · rw [hq]
          exact ⟨_, rest, .quote, first?_quote rest⟩
        · obtain ⟨run, behind, -, -, hproper, hfirst⟩ :=
            exists_first?_run rest (Bool.eq_false_iff.2 hd) hq
          exact ⟨_, _, hproper, hfirst⟩

end Lexeme

theorem lexemes_of_first? {text rest : List Char} {x : Lexeme}
    (h : Lexeme.first? text = some (x, rest)) : lexemes text = x :: lexemes rest := by
  rw [lexemes]
  split <;> simp_all

theorem lexemes_of_first?_eq_none {text : List Char} (h : Lexeme.first? text = none) :
    lexemes text = [] := by
  rw [lexemes]
  split <;> simp_all

theorem lexemes_eq_nil_iff {text : List Char} : lexemes text = [] ↔ code text = [] := by
  rw [lexemes]
  rcases Lexeme.first?_cases text with ⟨hcode, h⟩ | ⟨x, rest, -, h⟩
  · split <;> simp_all
  · have hcode : code text ≠ [] := by
      intro hnil
      rw [← Lexeme.first?_code, hnil] at h
      cases h
    split <;> simp_all

theorem lexemes_code (text : List Char) : lexemes (code text) = lexemes text := by
  rcases Lexeme.first?_cases text with ⟨hcode, -⟩ | ⟨x, rest, -, h⟩
  · rw [lexemes_eq_nil_iff.2 hcode, lexemes_eq_nil_iff, code_code, hcode]
  · rw [lexemes_of_first? h, lexemes_of_first? ((Lexeme.first?_code text).trans h)]

theorem lexemes_append_of_isLayout {layout : List Char} (h : IsLayout layout) (text : List Char) :
    lexemes (layout ++ text) = lexemes text := by
  rw [← lexemes_code, code_append_of_isLayout h, lexemes_code]

theorem proper_of_mem_lexemes {text : List Char} {x : Lexeme} (h : x ∈ lexemes text) :
    x.Proper := by
  fun_induction lexemes text with
  | case1 text y rest hfirst ih =>
      rcases Lexeme.first?_cases text with ⟨-, hnone⟩ | ⟨z, rest', hz, hfirst'⟩
      · rw [hfirst] at hnone
        cases hnone
      · rw [hfirst] at hfirst'
        cases hfirst'
        rcases List.mem_cons.1 h with rfl | h
        · exact hz
        · exact ih h
  | case2 text _ => cases h

theorem length_lexemes_le (text : List Char) : (lexemes text).length ≤ text.length := by
  fun_induction lexemes text with
  | case1 text x rest h ih => exact Nat.lt_of_le_of_lt ih (Lexeme.length_lt_of_first? h)
  | case2 text _ => exact Nat.zero_le _

namespace Lexer

/-- The lexemes that are still to be read. -/
def lexemes (l : Lexer) : List Lexeme := Parens.lexemes l.cursor.after

theorem after_skipLayout (l : Lexer) : l.skipLayout.cursor.after = code l.cursor.after := rfl

theorem atEnd_skipLayout_iff (l : Lexer) : l.skipLayout.atEnd ↔ l.lexemes = [] := by
  rw [atEnd, List.isEmpty_iff, after_skipLayout]
  exact lexemes_eq_nil_iff.symm

/-- Reading a token takes the first lexeme off, unless there is none. -/
theorem next_cases (l : Lexer) :
    (l.lexemes = [] ∧ ∃ l', l.next = (.ok none, l') ∧ l'.lexemes = []) ∨
      ∃ token l', l.next = (.ok (some token), l') ∧ token.lexeme.Proper ∧
        l.lexemes = token.lexeme :: l'.lexemes := by
  unfold next
  rcases Lexeme.first?_cases l.cursor.after with ⟨hcode, -⟩ | ⟨x, rest, hx, hfirst⟩
  · left
    have hnil : l.lexemes = [] := lexemes_eq_nil_iff.2 hcode
    have hend : l.skipLayout.atEnd := l.atEnd_skipLayout_iff.2 hnil
    exact ⟨hnil, _, if_pos hend, (lexemes_code l.cursor.after).trans hnil⟩
  · right
    have hlex := lexemes_of_first? hfirst
    unfold Lexeme.first? at hfirst
    split at hfirst
    · rename_i kind n hkind
      cases hfirst
      have hend : ¬ l.skipLayout.atEnd := by
        rw [atEnd_skipLayout_iff, lexemes, hlex]
        exact List.cons_ne_nil _ _
      refine ⟨(l.skipLayout.issue kind n).1, (l.skipLayout.issue kind n).2, ?_, hx, hlex⟩
      simp only [hend, Bool.false_eq_true, if_false, after_skipLayout, hkind]
    · cases hfirst

/-- A token that was just read can be pushed back, and is then still to be read. -/
theorem unread?_cases {l l' : Lexer} {token : Token} (h : l.next = (.ok (some token), l')) :
    ∃ l'', l'.unread? token = some l'' ∧ l''.lexemes = l.lexemes :=
  ⟨_, unread?_next h, lexemes_code l.cursor.after⟩

theorem exists_drain (l : Lexer) :
    ∃ ts, l.drain.1 = .ok ts ∧ ts.map Token.lexeme = l.lexemes := by
  induction hn : l.lexemes generalizing l with
  | nil =>
      rcases l.next_cases with ⟨-, l', h, -⟩ | ⟨token, l', -, -, hcons⟩
      · refine ⟨[], ?_, rfl⟩
        rw [drain]
        split <;> simp_all
      · rw [hn] at hcons
        cases hcons
  | cons x rest ih =>
      rcases l.next_cases with ⟨hnil, -⟩ | ⟨token, l', h, -, hcons⟩
      · rw [hn] at hnil
        cases hnil
      · rw [hn] at hcons
        cases hcons
        obtain ⟨ts, hts, hmap⟩ := ih l' rfl
        refine ⟨token :: ts, ?_, by rw [List.map_cons, hmap]⟩
        rw [drain]
        split
        · simp_all
        · simp_all
        · simp_all
          split <;> simp_all

end Lexer

/-- Every text can be cut into tokens, and these are its lexemes. -/
theorem exists_tokens (text : List Char) :
    ∃ ts, tokens text = .ok ts ∧ ts.map Token.lexeme = lexemes text :=
  Lexer.exists_drain (Lexer.ofText text)

end Parens
