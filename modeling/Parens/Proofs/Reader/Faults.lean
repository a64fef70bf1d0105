import Parens.Proofs.Reader.Viable
import Parens.Reader.History

/-!
How a reader fails. Tokens are such that the reader can always use them: every text has a next token
or an end, numerals and words stand for terms, and a token that begins no term can be pushed back
and is read again. So each step takes one of a few ways, and whatever is asked of a reader, it fails
by its text only, with an error that stands where the reader is left.
-/

namespace Parens

/-- A token that was pushed back is what is read next. -/
theorem Lexer.exists_next_of_unread? {l l' l'' : Lexer} {token : Token}
    (h : l.next = (.ok (some token), l')) (hunread : l'.unread? token = some l'') :
    ∃ again l₃, l''.next = (.ok (some again), l₃) ∧ again.lexeme = token.lexeme := by
  obtain ⟨l₁, hl₁, hlex⟩ := unread?_cases h
  obtain rfl := Option.some.inj (hl₁.symm.trans hunread)
  have hread : l.lexemes = token.lexeme :: l'.lexemes := lexemes_of_reads (reads_of_next h)
  cases l₁.next_cases with
  | inl hend => cases (hlex.trans hread).symm.trans hend.1
  | inr hnext =>
      obtain ⟨again, l₃, hnext, -, hagain⟩ := hnext
      exact ⟨again, l₃, hnext, (List.cons.inj (hagain.symm.trans (hlex.trans hread))).1⟩

namespace Reader

/-- The ways that a step can take. A token that begins no term is pushed back, and read again if the
innermost frame is a list, which then finds the parenthesis or point that it needs. -/
inductive Way (limit : Int) (s : Stack) (l : Lexer) : Step → Prop
  | list {token : Token} {l' : Lexer} : l.next = (.ok (some token), l') →
      token.kind = .opening → Way limit s l (openFrame limit (.list []) s l')
  | quote {token : Token} {l' : Lexer} : l.next = (.ok (some token), l') →
      token.kind = .quote → Way limit s l (openFrame limit .quote s l')
  | numeral {token : Token} {l' : Lexer} {n : Number.Numeral} : l.next = (.ok (some token), l') →
      token.kind = .number → Number.Numeral.ofText? token.text = some n →
      Way limit s l (settle (some (.number n.toFloat)) s l')
  | word {token : Token} {l' : Lexer} {t : Term} : l.next = (.ok (some token), l') →
      token.kind = .symbol → token.text ≠ [] → Term.ofWord token.text = .ok t →
      Way limit s l (settle (some t) s l')
  | atEnd {l' l'' : Lexer} : l.next = (.ok none, l') → l'.next = (.ok none, l'') →
      Way limit s l (settle none s l')
  | pushedBack {token again : Token} {l' l'' l₃ : Lexer} : l.next = (.ok (some token), l') →
      token.kind = .closing ∨ token.kind = .dot → l'.unread? token = some l'' →
      l''.next = (.ok (some again), l₃) → again.lexeme = token.lexeme →
      Way limit s l (settle none s l'')

theorem way_pushedBack (limit : Int) (s : Stack) {l l' : Lexer} {token : Token}
    (h : l.next = (.ok (some token), l')) (hk : token.kind = .closing ∨ token.kind = .dot) :
    Way limit s l (match l'.unread? token with
      | some l => settle none s l
      | none => .fail .staleToken l') := by
  have hunread := Lexer.unread?_next h
  obtain ⟨again, l₃, hnext, hagain⟩ := Lexer.exists_next_of_unread? h hunread
  rw [hunread]
  exact .pushedBack h hk hunread hnext hagain

theorem way_step (limit : Int) (s : Stack) (l : Lexer) : Way limit s l (step limit s l) := by
  cases l.next_cases with
  | inl hend =>
      obtain ⟨-, l', hnext, hnil⟩ := hend
      cases l'.next_cases with
      | inl hend' =>
          obtain ⟨-, l'', hnext', -⟩ := hend'
          simp only [step, hnext]
          exact .atEnd hnext hnext'
      | inr htoken =>
          obtain ⟨token, l'', -, -, hcons⟩ := htoken
          cases hnil.symm.trans hcons
  | inr htoken =>
      obtain ⟨token, l', hnext, hproper, -⟩ := htoken
      simp only [step, hnext, shift]
      cases hk : token.kind with
      | opening => exact .list hnext hk
      | quote => exact .quote hnext hk
      | number =>
          obtain ⟨n, hn⟩ := hproper.exists_numeral hk
          have hn' : Number.Numeral.ofText? token.text = some n := hn
          simp only [hn']
          exact .numeral hnext hk hn'
      | symbol =>
          obtain ⟨t, ht⟩ := hproper.exists_word hk
          have ht' : Term.ofWord token.text = .ok t := ht
          simp only [ht']
          exact .word hnext hk hproper.text_ne_nil ht'
      | closing => exact way_pushedBack limit s hnext (.inl hk)
      | dot => exact way_pushedBack limit s hnext (.inr hk)

/-- Whether a failure is an error of the text, told for the place where a lexer stands: something
was left where nothing should be, or a term that was begun in the same text could not be read. -/
def FaultAt (limit : Int) (source : List Char) (e : Failure) (l : Lexer) : Prop :=
  ∃ reason, e = l.fault reason ∧
    (reason = .trailing ∨ ∃ c : Cursor, c.source = source ∧ Stuck limit c reason l.cursor)

theorem source_of_readTerm {r r' : Reader} {result : Except Failure (Option Term)}
    (h : r.readTerm = (result, r')) : r'.lexer.cursor.source = r.lexer.cursor.source := by
  match result with
  | .error e =>
      obtain ⟨reason, -, hstuck⟩ := exists_stuck_of_readTerm_eq_error h
      exact hstuck.source_eq
  | .ok none =>
      rw [cursor_of_readTerm_eq_none h]
      exact Cursor.source_skipLayout _
  | .ok (some t) =>
      obtain ⟨d, -, hreads⟩ := exists_reads_of_readTerm h
      exact hreads.source_eq

theorem faultAt_of_readTerm {r r' : Reader} {e : Failure} (h : r.readTerm = (.error e, r')) :
    FaultAt r.limit r.lexer.cursor.source e r'.lexer := by
  obtain ⟨reason, he, hstuck⟩ := exists_stuck_of_readTerm_eq_error h
  exact ⟨reason, he, .inr ⟨_, rfl, hstuck⟩⟩

theorem source_of_ensureEmpty (r : Reader) :
    r.ensureEmpty.2.lexer.cursor.source = r.lexer.cursor.source := Cursor.source_skipLayout _

theorem faultAt_of_ensureEmpty {r : Reader} {source : List Char} {e : Failure}
    (h : r.ensureEmpty.1 = .error e) : FaultAt r.limit source e r.ensureEmpty.2.lexer := by
  cases r.ensureEmpty_cases with
  | inl hempty => cases hempty.2.symm.trans h
  | inr hfails => exact ⟨.trailing, Except.error.inj (h.symm.trans hfails.2), .inl rfl⟩

theorem source_of_readAll (r : Reader) :
    r.readAll.reader.lexer.cursor.source = r.lexer.cursor.source :=
  readAll_keeps (K := fun r r' => r'.lexer.cursor.source = r.lexer.cursor.source)
    (fun h h' => h'.trans h) source_of_readTerm source_of_ensureEmpty r

theorem limit_of_readAll (r : Reader) : r.readAll.reader.limit = r.limit :=
  readAll_keeps (K := fun r r' => r'.limit = r.limit) (fun h h' => h'.trans h)
    limit_eq_of_readTerm (fun _ => rfl) r

theorem faultAt_of_readAll {r : Reader} {e : Failure} (h : r.readAll.ending = .error e) :
    FaultAt r.limit r.lexer.cursor.source e r.readAll.reader.lexer := by
  induction r using readAll.induct with
  | case1 r e' r' hread =>
      rw [readAll_of_readTerm_error hread] at h ⊢
      cases h
      exact faultAt_of_readTerm hread
  | case2 r r' hread =>
      rw [readAll_of_readTerm_none hread] at h ⊢
      rw [← limit_eq_of_readTerm hread]
      exact faultAt_of_ensureEmpty h
  | case3 r t r' hread ih =>
      rw [readAll_of_readTerm hread] at h ⊢
      have hfault := ih h
      rwa [limit_eq_of_readTerm hread, source_of_readTerm hread] at hfault

section Requests

variable (r : Reader) (request : Request)

theorem source_of_perform :
    (r.perform request).2.lexer.cursor.source = r.lexer.cursor.source := by
  cases request with
  | readTerm => exact source_of_readTerm (r := r) rfl
  | readAll => exact source_of_readAll r
  | isEmpty | ensureEmpty => exact source_of_ensureEmpty r

theorem limit_of_perform : (r.perform request).2.limit = r.limit := by
  cases request with
  | readTerm | isEmpty | ensureEmpty => rfl
  | readAll => exact limit_of_readAll r

theorem faultAt_of_perform {e : Failure} (h : (r.perform request).1.failure? = some e) :
    FaultAt r.limit r.lexer.cursor.source e (r.perform request).2.lexer := by
  cases request with
  | readTerm =>
      rcases hread : r.readTerm with ⟨outcome, r'⟩
      simp only [perform, hread] at h ⊢
      cases outcome with
      | error e' =>
          cases h
          exact faultAt_of_readTerm hread
      | ok term => cases h
  | readAll =>
      simp only [perform] at h ⊢
      cases hending : r.readAll.ending with
      | error e' =>
          rw [hending] at h
          cases h
          exact faultAt_of_readAll hending
      | ok _ =>
          rw [hending] at h
          cases h
  | isEmpty => cases h
  | ensureEmpty =>
      simp only [perform] at h ⊢
      cases hempty : r.ensureEmpty.1 with
      | error e' =>
          rw [hempty] at h
          cases h
          exact faultAt_of_ensureEmpty hempty
      | ok _ =>
          rw [hempty] at h
          cases h

end Requests

theorem faultAt_of_mem_transcript {r r' : Reader} {requests : List Request} {answer : Answer}
    {e : Failure} (h : (answer, r') ∈ r.transcript requests) (he : answer.failure? = some e) :
    r'.lexer.cursor.source = r.lexer.cursor.source ∧
      FaultAt r.limit r.lexer.cursor.source e r'.lexer := by
  induction requests generalizing r with
  | nil => cases h
  | cons request requests ih =>
      cases List.mem_cons.1 h with
      | inl hfirst =>
          obtain rfl : answer = (r.perform request).1 := congrArg Prod.fst hfirst
          obtain rfl : r' = (r.perform request).2 := congrArg Prod.snd hfirst
          exact ⟨source_of_perform r request, faultAt_of_perform r request he⟩
      | inr hrest =>
          have hlater := ih hrest
          rwa [source_of_perform, limit_of_perform] at hlater

end Reader

/-- Whatever is asked of a reader, in any order and also after it has failed, it fails with an error
of the text only, which splits the text where the reader is left. That a parenthesis was expected is
said only behind the tail of a dotted list. For the lexer always comes to a token or to the end, and
a step only takes a way on which each token can be used. -/
theorem Reader.transcript_fails_by_text (source : List Char) (limit : Int)
    (requests : List Reader.Request) :
    (∀ answer r e, (answer, r) ∈ (Reader.ofText source limit).transcript requests →
      answer.failure? = some e → ∃ p : ParseError, e = .parse p ∧
        p.consumed ++ p.remaining = source ∧ p.consumed = r.lexer.cursor.consumed ∧
        p.consumed.length = r.lexer.cursor.pos ∧
        (p.reason = some .trailing ∨ ∃ (reason : Reason) (c : Cursor), p.reason = some reason ∧
          c.source = source ∧ Reader.Stuck limit c reason r.lexer.cursor)) ∧
    (∀ s l, Reader.Way limit s l (Reader.step limit s l)) ∧
    ∀ l : Lexer, ∃ outcome l', l.next = (.ok outcome, l') := by
  refine ⟨?_, Reader.way_step limit, ?_⟩
  · intro answer r e hmem he
    obtain ⟨hsource, reason, hfault, hplace⟩ := Reader.faultAt_of_mem_transcript hmem he
    rw [Reader.ofText, Lexer.ofText, Cursor.source_ofText] at hsource hplace
    refine ⟨_, hfault, hsource, rfl, ?_, ?_⟩
    · rw [r.lexer.cursor.pos_eq]
      exact List.length_reverse
    · cases hplace with
      | inl htrailing => exact .inl (congrArg some htrailing)
      | inr hstuck =>
          obtain ⟨c, hc, hstuck⟩ := hstuck
          exact .inr ⟨reason, c, rfl, hc, hstuck⟩
  · intro l
    cases l.next_cases with
    | inl hend =>
        obtain ⟨-, l', hnext, -⟩ := hend
        exact ⟨none, l', hnext⟩
    | inr htoken =>
        obtain ⟨token, l', hnext, -⟩ := htoken
        exact ⟨some token, l', hnext⟩

end Parens
