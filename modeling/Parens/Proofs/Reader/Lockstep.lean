import Mathlib.Data.List.Forall2
import Parens.Proofs.Reader.Grammar
import Parens.Proofs.Token.Spacing

/-!
Two readers that go through different texts in step. The reader looks at a text only through the
lexer, and at a token only for its kind and for what it stands for. So two readers that are handed
lexemes that are alike come to the same terms and fail for the same reasons; where their cursors
stand is carried along as a relation that reading a token keeps.
-/

namespace Parens

/-- Whether two lexemes are the same to the reader. -/
structure Lexeme.Alike (x y : Lexeme) : Prop where
  kind_eq : y.kind = x.kind
  numeral_eq : Number.Numeral.ofText? y.text = Number.Numeral.ofText? x.text
  word_eq : Term.ofWord y.text = Term.ofWord x.text

theorem alike_of_eq {xs ys : List Lexeme} (h : xs = ys) : List.Forall₂ Lexeme.Alike xs ys := by
  subst h
  exact List.forall₂_same.2 fun _ _ => ⟨rfl, rfl, rfl⟩

namespace Lexer

/-- A relation between the places of two lexers whose lexemes in front of them are alike, which is
kept by what lexers do. -/
structure InStep (R : Cursor → Cursor → Prop) : Prop where
  lexemes_alike {l m : Lexer} : R l.cursor m.cursor → List.Forall₂ Lexeme.Alike l.lexemes m.lexemes
  skipLayout {l m : Lexer} : R l.cursor m.cursor → R l.skipLayout.cursor m.skipLayout.cursor
  next {l m : Lexer} : R l.cursor m.cursor → R l.next.2.cursor m.next.2.cursor

/-- Two operations agree if they have the same result, or fail for the same reason, and stand at
related places then; or both lack fuel. -/
inductive Agree (R : Cursor → Cursor → Prop) {α : Type} :
    Except Failure α × Lexer → Except Failure α × Lexer → Prop
  | ok (a : α) {l m : Lexer} : R l.cursor m.cursor → Agree R (.ok a, l) (.ok a, m)
  | fault (reason : Reason) {l m : Lexer} : R l.cursor m.cursor →
      Agree R (.error (l.fault reason), l) (.error (m.fault reason), m)
  | exhausted (l m : Lexer) : Agree R (.error .exhausted, l) (.error .exhausted, m)

theorem inStep_lexemes :
    InStep fun c d =>
      List.Forall₂ Lexeme.Alike (Parens.lexemes c.after) (Parens.lexemes d.after) where
  lexemes_alike h := h
  skipLayout {l m} h := by
    change List.Forall₂ _ (Parens.lexemes (code l.cursor.after))
      (Parens.lexemes (code m.cursor.after))
    rw [lexemes_code, lexemes_code]
    exact h
  next {l m} h := by
    change List.Forall₂ _ l.lexemes m.lexemes at h
    change List.Forall₂ _ l.next.2.lexemes m.next.2.lexemes
    rcases l.next_cases with ⟨hl, l', hnext, hl'⟩ | ⟨token, l', hnext, -, hl⟩ <;>
      rcases m.next_cases with ⟨hm, m', hnext', hm'⟩ | ⟨token', m', hnext', -, hm⟩ <;>
      rw [hl, hm] at h <;> rw [hnext, hnext']
    · exact alike_of_eq (hl'.trans hm'.symm)
    · cases h
    · cases h
    · exact (List.forall₂_cons.1 h).2

namespace InStep

variable {R : Cursor → Cursor → Prop} (hR : InStep R) {l m : Lexer}
include hR

theorem next_cases (h : R l.cursor m.cursor) :
    (∃ l' m', l.next = (.ok none, l') ∧ m.next = (.ok none, m') ∧ R l'.cursor m'.cursor) ∨
      ∃ token token' l' m', l.next = (.ok (some token), l') ∧ m.next = (.ok (some token'), m') ∧
        token.lexeme.Proper ∧ token.lexeme.Alike token'.lexeme ∧ R l'.cursor m'.cursor := by
  have hnext := hR.next h
  have hlex := hR.lexemes_alike h
  rcases l.next_cases with ⟨hl, l', hl', -⟩ | ⟨token, l', hl', hproper, hl⟩ <;>
    rcases m.next_cases with ⟨hm, m', hm', -⟩ | ⟨token', m', hm', -, hm⟩ <;>
    rw [hl, hm] at hlex <;> rw [hl', hm'] at hnext
  · exact .inl ⟨l', m', hl', hm', hnext⟩
  · cases hlex
  · cases hlex
  · exact .inr ⟨token, token', l', m', hl', hm', hproper, (List.forall₂_cons.1 hlex).1, hnext⟩

theorem unread?_cases (h : R l.cursor m.cursor) {l' m' : Lexer} {token token' : Token}
    (hl : l.next = (.ok (some token), l')) (hm : m.next = (.ok (some token'), m')) :
    ∃ l'' m'', l'.unread? token = some l'' ∧ m'.unread? token' = some m'' ∧
      R l''.cursor m''.cursor :=
  ⟨_, _, unread?_next hl, unread?_next hm, hR.skipLayout h⟩

theorem agree_close (h : R l.cursor m.cursor) : Agree R (Reader.close l) (Reader.close m) := by
  unfold Reader.close
  rcases hR.next_cases h with
    ⟨l', m', hl, hm, h'⟩ | ⟨token, token', l', m', hl, hm, -, halike, h'⟩
  · rw [hl, hm]
    exact .fault _ h'
  · have hkind : token'.kind = token.kind := halike.kind_eq
    simp only [hl, hm, hkind]
    split
    · exact .ok () h'
    · exact .fault _ h'

end InStep
end Lexer

namespace Descent

open Lexer

section

variable {R : Cursor → Cursor → Prop} (hR : InStep R) {limit : Int} {fuel : Nat}
  (ihTerm : ∀ {l m} depth, R l.cursor m.cursor →
    Agree R (readTerm limit fuel depth l) (readTerm limit fuel depth m))
  (ihItems : ∀ {l m} depth items, R l.cursor m.cursor →
    Agree R (readItems limit fuel depth items l) (readItems limit fuel depth items m))

include hR ihTerm ihItems

theorem agree_readTerm_succ {l m : Lexer} (depth : Nat) (h : R l.cursor m.cursor) :
    Agree R (readTerm limit (fuel + 1) depth l) (readTerm limit (fuel + 1) depth m) := by
  rw [readTerm, readTerm]
  rcases hR.next_cases h with
    ⟨l', m', hl, hm, h'⟩ | ⟨token, token', l', m', hl, hm, hproper, halike, h'⟩
  · rw [hl, hm]
    exact .ok none h'
  · have hkind : token'.kind = token.kind := halike.kind_eq
    simp only [hl, hm, hkind]
    cases hk : token.kind with
    | opening =>
        simp only
        split
        · exact .fault _ h'
        · exact ihItems (depth + 1) [] h'
    | quote =>
        simp only
        split
        · exact .fault _ h'
        · have hquoted := ihTerm (depth + 1) h'
          generalize readTerm limit fuel (depth + 1) l' = r,
            readTerm limit fuel (depth + 1) m' = s at hquoted
          cases hquoted with
          | ok term h'' =>
              cases term with
              | none => exact .fault _ h''
              | some t => exact .ok _ h''
          | fault reason h'' => exact .fault reason h''
          | exhausted l'' m'' => exact .exhausted l'' m''
    | number =>
        obtain ⟨n, hn⟩ := hproper.exists_numeral hk
        have hl' : Number.Numeral.ofText? token.text = some n := hn
        have hm' : Number.Numeral.ofText? token'.text = some n := halike.numeral_eq.trans hn
        simp only [hl', hm']
        exact .ok _ h'
    | symbol =>
        obtain ⟨t, ht⟩ := hproper.exists_word hk
        have hl' : Term.ofWord token.text = .ok t := ht
        have hm' : Term.ofWord token'.text = .ok t := halike.word_eq.trans ht
        simp only [hl', hm']
        exact .ok _ h'
    | closing | dot =>
        obtain ⟨l'', m'', hl', hm', h''⟩ := hR.unread?_cases h hl hm
        simp only [hl', hm']
        exact .ok none h''

theorem agree_readItems_succ {l m : Lexer} (depth : Nat) (items : List Term)
    (h : R l.cursor m.cursor) :
    Agree R (readItems limit (fuel + 1) depth items l)
      (readItems limit (fuel + 1) depth items m) := by
  rw [readItems, readItems]
  have hterm := ihTerm depth h
  generalize readTerm limit fuel depth l = r, readTerm limit fuel depth m = s at hterm
  cases hterm with
  | fault reason h' => exact .fault reason h'
  | exhausted l' m' => exact .exhausted l' m'
  | @ok term l' m' h' =>
      cases term with
      | some t => exact ihItems depth (t :: items) h'
      | none =>
          simp only
          rcases hR.next_cases h' with
            ⟨l'', m'', hl, hm, h''⟩ | ⟨token, token', l'', m'', hl, hm, -, halike, h''⟩
          · rw [hl, hm]
            exact .fault _ h''
          · have hkind : token'.kind = token.kind := halike.kind_eq
            simp only [hl, hm, hkind]
            cases token.kind with
            | closing => exact .ok _ h''
            | dot =>
                simp only
                have htail := ihTerm depth h''
                generalize readTerm limit fuel depth l'' = r,
                  readTerm limit fuel depth m'' = s at htail
                cases htail with
                | fault reason h₃ => exact .fault reason h₃
                | exhausted l₃ m₃ => exact .exhausted l₃ m₃
                | @ok tail l₃ m₃ h₃ =>
                    cases tail with
                    | none => exact .fault _ h₃
                    | some t =>
                        simp only
                        have hclose := hR.agree_close h₃
                        generalize Reader.close l₃ = r, Reader.close m₃ = s at hclose
                        cases hclose with
                        | ok _ h₄ => exact .ok _ h₄
                        | fault reason h₄ => exact .fault reason h₄
                        | exhausted l₄ m₄ => exact .exhausted l₄ m₄
            | opening | quote | number | symbol => exact .fault _ h''

end

theorem agree_descent {R : Cursor → Cursor → Prop} (hR : InStep R) (limit : Int) (fuel : Nat) :
    (∀ {l m : Lexer} depth, R l.cursor m.cursor →
      Agree R (readTerm limit fuel depth l) (readTerm limit fuel depth m)) ∧
    ∀ {l m : Lexer} depth items, R l.cursor m.cursor →
      Agree R (readItems limit fuel depth items l) (readItems limit fuel depth items m) := by
  induction fuel with
  | zero => exact ⟨fun _ _ => .exhausted _ _, fun _ _ _ => .exhausted _ _⟩
  | succ fuel ih =>
      exact ⟨agree_readTerm_succ hR ih.1 ih.2, agree_readItems_succ hR ih.1 ih.2⟩

end Descent

namespace Reader

open Lexer

variable {R : Cursor → Cursor → Prop} (hR : InStep R)
include hR

theorem agree_readTerm {r s : Reader} (hlimit : s.limit = r.limit)
    (h : R r.lexer.cursor s.lexer.cursor) :
    Agree R (r.readTerm.1, r.readTerm.2.lexer) (s.readTerm.1, s.readTerm.2.lexer) := by
  change Agree R (run r.limit .empty r.lexer) (run s.limit .empty s.lexer)
  -- With as many lexemes in front of them, one fuel serves both.
  rw [hlimit, run_empty_eq_readTerm (l := r.lexer) (Nat.le_refl _),
    run_empty_eq_readTerm (l := s.lexer) (Nat.le_refl _), ← (hR.lexemes_alike h).length_eq]
  exact (Descent.agree_descent hR r.limit _).1 0 h

theorem agree_ensureEmpty {r s : Reader} (h : R r.lexer.cursor s.lexer.cursor) :
    Agree R (r.ensureEmpty.1, r.ensureEmpty.2.lexer) (s.ensureEmpty.1, s.ensureEmpty.2.lexer) := by
  have hskip := hR.skipLayout h
  have hatEnd : s.lexer.skipLayout.atEnd = r.lexer.skipLayout.atEnd := by
    rw [Bool.eq_iff_iff, atEnd_skipLayout_iff, atEnd_skipLayout_iff, ← List.length_eq_zero_iff,
      ← List.length_eq_zero_iff, (hR.lexemes_alike h).length_eq]
  cases hend : r.lexer.skipLayout.atEnd with
  | true =>
      simp only [ensureEmpty, isEmpty, hatEnd, hend, if_true]
      exact .ok () hskip
  | false =>
      simp only [ensureEmpty, isEmpty, hatEnd, hend, Bool.false_eq_true, if_false]
      exact .fault _ hskip

theorem agree_readAll {r s : Reader} (hlimit : s.limit = r.limit)
    (h : R r.lexer.cursor s.lexer.cursor) :
    s.readAll.terms = r.readAll.terms ∧
      Agree R (r.readAll.ending, r.readAll.reader.lexer)
        (s.readAll.ending, s.readAll.reader.lexer) := by
  let S (r s : Reader) : Prop := s.limit = r.limit ∧ R r.lexer.cursor s.lexer.cursor
  let P (a b : Except Failure Unit × Reader) : Prop := Agree R (a.1, a.2.lexer) (b.1, b.2.lexer)
  have hreads : ∀ {r s : Reader}, S r s → ReadsAlike S P r s := by
    rintro r s ⟨hlimit, h⟩
    have hread := agree_readTerm hR hlimit h
    have hlimit' : s.readTerm.2.limit = r.readTerm.2.limit := hlimit
    rcases hr : r.readTerm with ⟨outcome, r'⟩
    rcases hs : s.readTerm with ⟨outcome', s'⟩
    simp only [hr, hs] at hread hlimit'
    cases hread with
    | ok term h' =>
        cases term with
        | none => exact .none hr hs (agree_ensureEmpty hR h')
        | some t => exact .term hr hs ⟨hlimit', h'⟩
    | fault reason h' => exact .error hr hs (.fault reason h')
    | exhausted _ _ => exact .error hr hs (.exhausted _ _)
  exact readAll_related hreads ⟨hlimit, h⟩

end Reader

theorem Reading.endsAs_of_agree {R : Cursor → Cursor → Prop} {r s : Reading}
    (h : Lexer.Agree R (r.ending, r.reader.lexer) (s.ending, s.reader.lexer))
    (hfuel : r.ending ≠ .error .exhausted) : s.EndsAs r := by
  obtain ⟨_, ending, _⟩ := r
  obtain ⟨_, ending', _⟩ := s
  simp only at h hfuel
  cases h with
  | ok _ _ => exact .inl ⟨rfl, rfl⟩
  | fault reason _ => exact .inr ⟨_, _, rfl, rfl, rfl⟩
  | exhausted _ _ => exact absurd rfl hfuel

/-- Texts whose lexemes are alike hold the same terms, and reading them ends alike. -/
theorem readAll_of_alike {source text : List Char}
    (h : List.Forall₂ Lexeme.Alike (lexemes source) (lexemes text)) (limit : Int) :
    (readAll text limit).terms = (readAll source limit).terms ∧
      (readAll text limit).EndsAs (readAll source limit) := by
  obtain ⟨hterms, hending⟩ := Reader.agree_readAll Lexer.inStep_lexemes
    (r := Reader.ofText source limit) (s := Reader.ofText text limit) rfl h
  exact ⟨hterms, Reading.endsAs_of_agree hending (Reader.ofText source limit).ending_ne_exhausted⟩

theorem readAll_of_lexemes_eq {source text : List Char} (h : lexemes source = lexemes text)
    (limit : Int) :
    (readAll text limit).terms = (readAll source limit).terms ∧
      (readAll text limit).EndsAs (readAll source limit) :=
  readAll_of_alike (alike_of_eq h) limit

/-- Tokens may be written out again with other layout around them, as long as none that needs a
delimiter stands right before another. They are read as the same tokens then, so the text holds the
same terms and reading it ends alike, under any limit. -/
theorem readAll_spaced {source first : List Char} {ts : List Token}
    {items : List (Token × List Char)} (hts : tokens source = .ok ts)
    (hitems : items.map Prod.fst = ts) (h : IsSpacing first items) :
    (∃ us, tokens (spaced first items) = .ok us ∧ us.map Token.lexeme = ts.map Token.lexeme) ∧
    ∀ limit, (readAll (spaced first items) limit).terms = (readAll source limit).terms ∧
      (readAll (spaced first items) limit).EndsAs (readAll source limit) := by
  obtain ⟨ts', hts', hlex⟩ := exists_tokens source
  rw [hts] at hts'
  cases hts'
  have hspaced : lexemes (spaced first items) = lexemes source := by
    refine lexemes_spaced ?_ h
    rw [← hlex, ← hitems, List.map_map]
    rfl
  refine ⟨?_, readAll_of_lexemes_eq hspaced.symm⟩
  obtain ⟨us, hus, hlex'⟩ := exists_tokens (spaced first items)
  exact ⟨us, hus, by rw [hlex', hspaced, hlex]⟩

theorem readAll_spaced_quoted_pair :
    ∃ items, tokens "(\x27a . .5)".toList = .ok (items.map Prod.fst) ∧ IsSpacing [] items ∧
      spaced [] items = "(\x27;b\na;\n.\t.5\n)".toList ∧
      (∃ us, tokens "(\x27;b\na;\n.\t.5\n)".toList = .ok us ∧
        us.map Token.lexeme = (items.map Prod.fst).map Token.lexeme) ∧
      ∀ limit, (readAll "(\x27;b\na;\n.\t.5\n)".toList limit).terms =
          (readAll "(\x27a . .5)".toList limit).terms ∧
        (readAll "(\x27;b\na;\n.\t.5\n)".toList limit).EndsAs
          (readAll "(\x27a . .5)".toList limit) := by
  let items : List (Token × List Char) :=
    [(⟨.opening, ['('], 0, 0⟩, []), (⟨.quote, ['\x27'], 1, 1⟩, ";b\n".toList),
     (⟨.symbol, ['a'], 2, 2⟩, ";\n".toList), (⟨.dot, ['.'], 4, 3⟩, ['\t']),
     (⟨.number, ['.', '5'], 6, 4⟩, ['\n']), (⟨.closing, [')'], 8, 5⟩, [])]
  have hts : tokens "(\x27a . .5)".toList = .ok (items.map Prod.fst) := by
    have hsome : (tokens "(\x27a . .5)".toList).toOption = some (items.map Prod.fst) := by
      decide +kernel
    cases heq : tokens "(\x27a . .5)".toList with
    | error e =>
        rw [heq] at hsome
        cases hsome
    | ok ts =>
        rw [heq] at hsome
        cases hsome
        rfl
  have hspacing : IsSpacing [] items := by
    have hbody : '\n' ∉ ['b'] := by decide
    refine ⟨.nil, ?_, by decide⟩
    simp only [items, List.forall_mem_cons]
    exact ⟨.nil, .comment hbody .nil, .comment List.not_mem_nil .nil, .blank rfl .nil,
      .blank rfl .nil, .nil, List.forall_mem_nil _⟩
  exact ⟨items, hts, hspacing, rfl, readAll_spaced hts rfl hspacing⟩

end Parens
