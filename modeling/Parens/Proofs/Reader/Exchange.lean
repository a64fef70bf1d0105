import Parens.Proofs.Reader.Grammar
import Parens.Proofs.Token.Spacing

/-!
One spelling of a term for another, in any context. Two derivations that stand for the same term and
nest equally deep hand that term to the same frames, or are cut off both. Around them the reader
finds the same lexemes, and where it looks for the end of a list, neither of them looks like one. So
it makes no difference which of them is there, however much of the text is well formed.
-/

namespace Parens

/-- Whether two derivations stand for the same term and nest equally deep. -/
structure Derivation.Interchangeable (d e : Derivation) : Prop where
  value_eq : d.value = e.value
  nesting_eq : d.nesting = e.nesting

/-- Whether lexemes are the same but for one derivation in place of another. -/
inductive Exchanged (d e : Derivation) : List Lexeme → List Lexeme → Prop
  | nil : Exchanged d e [] []
  | same (x : Lexeme) {xs ys : List Lexeme} : Exchanged d e xs ys →
      Exchanged d e (x :: xs) (x :: ys)
  | here {xs ys : List Lexeme} : Exchanged d e xs ys →
      Exchanged d e (d.lexemes ++ xs) (e.lexemes ++ ys)

variable {d e : Derivation}

namespace Exchanged

variable {xs ys : List Lexeme}

theorem refl (xs : List Lexeme) : Exchanged d e xs xs := by
  induction xs with
  | nil => exact .nil
  | cons x xs ih => exact .same x ih

theorem append_left (us : List Lexeme) (h : Exchanged d e xs ys) :
    Exchanged d e (us ++ xs) (us ++ ys) := by
  induction us with
  | nil => exact h
  | cons u us ih => exact .same u ih

theorem eq_nil_iff (h : Exchanged d e xs ys) : xs = [] ↔ ys = [] := by
  cases h with
  | nil => exact Iff.rfl
  | same x h => simp
  | here h =>
      have hd : d.lexemes ≠ [] := List.length_pos_iff.1 d.length_lexemes_pos
      have he : e.lexemes ≠ [] := List.length_pos_iff.1 e.length_lexemes_pos
      simp [hd, he]

end Exchanged

namespace Reader

/-- Two operations concur if they have the same result, with lexemes left that differ as before, or
fail for the same reason. -/
inductive Concur (d e : Derivation) {α : Type} :
    Except Failure α × Lexer → Except Failure α × Lexer → Prop
  | ok (a : α) {l m : Lexer} : Exchanged d e l.lexemes m.lexemes → Concur d e (.ok a, l) (.ok a, m)
  | fault (reason : Reason) (l m : Lexer) :
      Concur d e (.error (l.fault reason), l) (.error (m.fault reason), m)

variable {limit : Int} {s : Stack} {l m : Lexer}

/-- What two lexers have in front of them: nothing, the same token, or the term that has been
exchanged. -/
inductive NextAlike (d e : Derivation) (l m : Lexer) : Prop
  | atEnd {l' m' : Lexer} : l.next = (.ok none, l') → m.next = (.ok none, m') → l'.lexemes = [] →
      m'.lexemes = [] → NextAlike d e l m
  | token {token token' : Token} {l' m' : Lexer} : l.next = (.ok (some token), l') →
      m.next = (.ok (some token'), m') → token.lexeme.Proper → token'.lexeme = token.lexeme →
      l.lexemes = token.lexeme :: l'.lexemes → Exchanged d e l'.lexemes m'.lexemes →
      NextAlike d e l m
  | exchanged {xs ys : List Lexeme} : l.lexemes = d.lexemes ++ xs → m.lexemes = e.lexemes ++ ys →
      Exchanged d e xs ys → NextAlike d e l m

theorem nextAlike_of_exchanged (h : Exchanged d e l.lexemes m.lexemes) : NextAlike d e l m := by
  generalize hl : l.lexemes = xs, hm : m.lexemes = ys at h
  cases h with
  | nil =>
      rcases l.next_cases with ⟨-, l', hnext, hl'⟩ | ⟨_, _, -, -, hcons⟩
      · rcases m.next_cases with ⟨-, m', hnext', hm'⟩ | ⟨_, _, -, -, hcons⟩
        · exact .atEnd hnext hnext' hl' hm'
        · cases hm.symm.trans hcons
      · cases hl.symm.trans hcons
  | same x h =>
      obtain ⟨token, l', hnext, rfl, hreads, rfl⟩ := exists_next_path hl
      obtain ⟨token', m', hnext', htoken, -, rfl⟩ := exists_next_path hm
      have hmem : token.lexeme ∈ l.lexemes := hl ▸ List.mem_cons_self
      exact .token hnext hnext' (proper_of_mem_lexemes hmem) htoken hl h
  | here h => exact .exchanged hl hm h

theorem close_of_lexemes_eq (d : Derivation) {xs : List Lexeme} (h : l.lexemes = d.lexemes ++ xs) :
    ∃ l' : Lexer, close l = (.error (l'.fault .closeExpected), l') := by
  obtain ⟨x, rest, hx, hbegins⟩ := d.exists_lexemes_eq_cons
  rw [hx] at h
  obtain ⟨token, l', hnext, rfl, -, -⟩ := exists_next_path h
  refine ⟨l', ?_⟩
  have hkind : token.kind ≠ .closing := fun hk => by
    rw [Token.lexeme, hk] at hbegins
    cases hbegins
  simp only [close, hnext, hkind, if_false]

theorem concur_close (h : Exchanged d e l.lexemes m.lexemes) : Concur d e (close l) (close m) := by
  cases nextAlike_of_exchanged h with
  | @atEnd l' m' hl hm _ _ =>
      simp only [close, hl, hm]
      exact .fault _ l' m'
  | @token token token' l' m' hl hm _ htoken _ h' =>
      have hkind : token'.kind = token.kind := congrArg Lexeme.kind htoken
      simp only [close, hl, hm, hkind]
      split
      · exact .ok () h'
      · exact .fault _ l' m'
  | exchanged hl hm _ =>
      obtain ⟨l', hl'⟩ := close_of_lexemes_eq d hl
      obtain ⟨m', hm'⟩ := close_of_lexemes_eq e hm
      rw [hl', hm']
      exact .fault _ l' m'

section

variable {n : Nat}
  (ih : ∀ s (l m : Lexer), l.lexemes.length < n → Exchanged d e l.lexemes m.lexemes →
    Concur d e (run limit s l) (run limit s m))

include ih

theorem concur_settle (t : Term) (s : Stack) (hlength : l.lexemes.length < n)
    (h : Exchanged d e l.lexemes m.lexemes) :
    Concur d e (resume limit (settle (some t) s l)) (resume limit (settle (some t) s m)) := by
  generalize hframes : s.frames = frames
  induction frames generalizing t s l m with
  | nil =>
      rw [settle_of_frames_eq_nil hframes, settle_of_frames_eq_nil hframes]
      exact .ok (some t) h
  | cons frame frames ihFrames =>
      obtain ⟨s, rfl, hrest⟩ := Stack.exists_push hframes
      cases frame with
      | quote => exact ihFrames t.quoted s hlength h hrest
      | list items => exact ih (s.push (.list (t :: items))) l m hlength h
      | tail items =>
          rw [settle_push_tail, settle_push_tail]
          have hclose := concur_close h
          have hcases := Descent.close_cases l
          generalize close l = r, close m = q at hclose hcases
          cases hclose with
          | fault reason l' m' => exact .fault reason l' m'
          | @ok _ l' m' h' =>
              have hlength' : l'.lexemes.length < n := by
                rcases hcases with ⟨l'', heq, hshorter⟩ | ⟨_, _, heq⟩
                · cases heq
                  omega
                · cases heq
              exact ihFrames _ s hlength' h' hrest

/-- Where no term begins, no term has been exchanged. -/
theorem concur_settle_none (s : Stack) (hlength : l.lexemes.length ≤ n)
    (hends : EndsItems l.lexemes)
    (h : Exchanged d e l.lexemes m.lexemes) :
    Concur d e (resume limit (settle none s l)) (resume limit (settle none s m)) := by
  cases hframes : s.frames with
  | nil =>
      rw [settle_of_frames_eq_nil hframes, settle_of_frames_eq_nil hframes]
      exact .ok none h
  | cons frame frames =>
      obtain ⟨s, rfl, -⟩ := Stack.exists_push hframes
      cases frame with
      | quote | tail items => exact .fault _ l m
      | list items =>
          rw [settle_push_list_none, settle_push_list_none]
          cases nextAlike_of_exchanged h with
          | @atEnd l' m' hl hm _ _ =>
              simp only [hl, hm]
              exact .fault _ l' m'
          | @token token token' l' m' hl hm _ htoken hcons h' =>
              have hkind : token'.kind = token.kind := congrArg Lexeme.kind htoken
              have hlength' : l'.lexemes.length < n := by
                rw [hcons, List.length_cons] at hlength
                exact hlength
              simp only [hl, hm, hkind]
              cases token.kind with
              | dot => exact ih (s.push (.tail items)) l' m' hlength' h'
              | closing => exact concur_settle ih _ s hlength' h'
              | opening | quote | number | symbol => exact .fault _ l' m'
          | exchanged hl _ _ => exact absurd hl.symm (d.append_ne_of_endsItems hends)

theorem concur_openFrame (frame : Frame) (s : Stack) (hlength : l.lexemes.length < n)
    (h : Exchanged d e l.lexemes m.lexemes) :
    Concur d e (resume limit (openFrame limit frame s l))
      (resume limit (openFrame limit frame s m)) := by
  rw [resume_openFrame, resume_openFrame]
  split
  · exact .fault _ l m
  · exact ih (s.push frame) l m hlength h

theorem concur_shift {token token' : Token} {l' m' : Lexer} (s : Stack)
    (hl : l.next = (.ok (some token), l')) (hm : m.next = (.ok (some token'), m'))
    (hproper : token.lexeme.Proper) (htoken : token'.lexeme = token.lexeme)
    (hcons : l.lexemes = token.lexeme :: l'.lexemes) (hlength : l.lexemes.length ≤ n)
    (h : Exchanged d e l.lexemes m.lexemes) (h' : Exchanged d e l'.lexemes m'.lexemes) :
    Concur d e (resume limit (shift limit token s l'))
      (resume limit (shift limit token' s m')) := by
  have hkind : token'.kind = token.kind := congrArg Lexeme.kind htoken
  have htext : token'.text = token.text := congrArg Lexeme.text htoken
  have hlength' : l'.lexemes.length < n := by
    rw [hcons, List.length_cons] at hlength
    exact hlength
  simp only [shift, hkind, htext]
  cases hk : token.kind with
  | opening => exact concur_openFrame ih (.list []) s hlength' h'
  | quote => exact concur_openFrame ih .quote s hlength' h'
  | number =>
      obtain ⟨k, hk⟩ := hproper.exists_numeral hk
      have hk' : Number.Numeral.ofText? token.text = some k := hk
      simp only [hk']
      exact concur_settle ih _ s hlength' h'
  | symbol =>
      obtain ⟨t, ht⟩ := hproper.exists_word hk
      have ht' : Term.ofWord token.text = .ok t := ht
      simp only [ht']
      exact concur_settle ih t s hlength' h'
  | closing | dot =>
      obtain ⟨l'', hl'', hlex⟩ := Lexer.unread?_cases hl
      obtain ⟨m'', hm'', hlex'⟩ := Lexer.unread?_cases hm
      simp only [hl'', hm'']
      refine concur_settle_none ih s (hlex ▸ hlength) ?_ (hlex ▸ hlex' ▸ h)
      rw [hlex, hcons, EndsItems, Token.lexeme, hk]
      rfl

/-- Where the exchanged term is next, both readers hand it to the same frames, or both are cut
off. -/
theorem concur_of_interchangeable (hde : d.Interchangeable e) (s : Stack) {xs ys : List Lexeme}
    (hl : l.lexemes = d.lexemes ++ xs) (hm : m.lexemes = e.lexemes ++ ys)
    (hlength : l.lexemes.length ≤ n) (h : Exchanged d e xs ys) :
    Concur d e (run limit s l) (run limit s m) := by
  have hd := goesThroughIfFits limit d s l xs hl
  have he := goesThroughIfFits limit e s m ys hm
  rw [← hde.value_eq, ← hde.nesting_eq] at he
  rcases hd with ⟨hfits, l', hreads, hrun⟩ | ⟨hfits, -, l', -, -, hrun⟩ <;>
    rcases he with ⟨hfits', m', hreads', hrun'⟩ | ⟨hfits', -, m', -, -, hrun'⟩ <;>
    rw [hrun, hrun']
  · obtain rfl : l'.lexemes = xs := Lexer.lexemes_behind hreads hl
    obtain rfl : m'.lexemes = ys := Lexer.lexemes_behind hreads' hm
    have hpos := d.length_lexemes_pos
    rw [hl, List.length_append] at hlength
    exact concur_settle ih d.value s (by omega) h
  · exact absurd hfits hfits'
  · exact absurd hfits' hfits
  · exact .fault _ l' m'

end

/-- The reader does not tell from the state where one of two derivations leads which of them it
was. -/
theorem concur_run (hde : d.Interchangeable e) (limit : Int) (s : Stack) (l m : Lexer)
    (h : Exchanged d e l.lexemes m.lexemes) : Concur d e (run limit s l) (run limit s m) := by
  -- Every step leaves fewer lexemes in front of the first reader, and so does a whole term.
  induction hn : l.lexemes.length using Nat.strongRecOn generalizing s l m with
  | ind n ih =>
      have ih' : ∀ s (l m : Lexer), l.lexemes.length < n → Exchanged d e l.lexemes m.lexemes →
          Concur d e (run limit s l) (run limit s m) :=
        fun s l m hlt h => ih _ hlt s l m h rfl
      have hlength := Nat.le_of_eq hn
      cases nextAlike_of_exchanged h with
      | atEnd hl hm hnil hnil' =>
          rw [run_eq_resume, run_eq_resume, step, step, hl, hm]
          refine concur_settle_none ih' s ?_ ?_ ?_ <;> rw [hnil]
          · exact Nat.zero_le n
          · trivial
          · rw [hnil']
            exact .nil
      | token hl hm hproper htoken hcons h' =>
          rw [run_eq_resume, run_eq_resume, step, step, hl, hm]
          exact concur_shift ih' s hl hm hproper htoken hcons hlength h h'
      | exchanged hl hm h' => exact concur_of_interchangeable ih' hde s hl hm hlength h'

theorem concur_readTerm (hde : d.Interchangeable e) {r q : Reader} (hlimit : q.limit = r.limit)
    (h : Exchanged d e r.lexemes q.lexemes) :
    Concur d e (r.readTerm.1, r.readTerm.2.lexer) (q.readTerm.1, q.readTerm.2.lexer) := by
  change Concur d e (run r.limit .empty r.lexer) (run q.limit .empty q.lexer)
  rw [hlimit]
  exact concur_run hde r.limit .empty r.lexer q.lexer h

theorem endsAs_of_concur {r q : Reading}
    (h : Concur d e (r.ending, r.reader.lexer) (q.ending, q.reader.lexer)) : q.EndsAs r := by
  obtain ⟨_, ending, _⟩ := r
  obtain ⟨_, ending', _⟩ := q
  simp only at h
  cases h with
  | ok _ _ => exact .inl ⟨rfl, rfl⟩
  | fault reason _ _ => exact .inr ⟨_, _, rfl, rfl, rfl⟩

theorem concur_ensureEmpty {r q : Reader} (h : Exchanged d e r.lexemes q.lexemes) :
    Concur d e (r.ensureEmpty.1, r.ensureEmpty.2.lexer)
      (q.ensureEmpty.1, q.ensureEmpty.2.lexer) := by
  have hempty : Exchanged d e r.ensureEmpty.2.lexemes q.ensureEmpty.2.lexemes := by
    rw [lexemes_ensureEmpty, lexemes_ensureEmpty]
    exact h
  rcases r.ensureEmpty_cases with ⟨hnil, hr⟩ | ⟨hne, hr⟩ <;>
    rcases q.ensureEmpty_cases with ⟨hnil', hq⟩ | ⟨hne', hq⟩ <;> rw [hr, hq]
  · exact .ok () hempty
  · exact absurd (h.eq_nil_iff.1 hnil) hne'
  · exact absurd (h.eq_nil_iff.2 hnil') hne
  · exact .fault .trailing _ _

theorem readAll_of_exchanged (hde : d.Interchangeable e) {r q : Reader} (hlimit : q.limit = r.limit)
    (h : Exchanged d e r.lexemes q.lexemes) :
    q.readAll.terms = r.readAll.terms ∧ q.readAll.EndsAs r.readAll := by
  let S (r q : Reader) : Prop := q.limit = r.limit ∧ Exchanged d e r.lexemes q.lexemes
  let P (a b : Except Failure Unit × Reader) : Prop := Concur d e (a.1, a.2.lexer) (b.1, b.2.lexer)
  have hreads : ∀ {r q : Reader}, S r q → ReadsAlike S P r q := by
    rintro r q ⟨hlimit, h⟩
    have hread := concur_readTerm hde hlimit h
    have hlimit' : q.readTerm.2.limit = r.readTerm.2.limit := hlimit
    rcases hr : r.readTerm with ⟨outcome, r'⟩
    rcases hq : q.readTerm with ⟨outcome', q'⟩
    simp only [hr, hq] at hread hlimit'
    cases hread with
    | ok term h' =>
        cases term with
        | none => exact .none hr hq (concur_ensureEmpty h')
        | some t => exact .term hr hq ⟨hlimit', h'⟩
    | fault reason _ _ => exact .error hr hq (.fault reason _ _)
  obtain ⟨hterms, hending⟩ := readAll_related hreads ⟨hlimit, h⟩
  exact ⟨hterms, endsAs_of_concur hending⟩

end Reader

theorem readAll_of_exchanged (hde : d.Interchangeable e) {source text : List Char}
    (h : Exchanged d e (lexemes source) (lexemes text)) (limit : Int) :
    (readAll text limit).terms = (readAll source limit).terms ∧
      (readAll text limit).EndsAs (readAll source limit) :=
  Reader.readAll_of_exchanged hde (r := .ofText source limit) (q := .ofText text limit) rfl h

/-- The lexemes of a quoted term, with the mark in front of it. -/
def marked (xs : List Lexeme) : List Lexeme := ⟨.quote, ['\x27']⟩ :: xs

/-- The lexemes of the list that stands for a quoted term. -/
def spelledOut (xs : List Lexeme) : List Lexeme :=
  ⟨.opening, ['(']⟩ :: ⟨.symbol, ['q', 'u', 'o', 't', 'e']⟩ :: (xs ++ [⟨.closing, [')']⟩])

theorem proper_of_mem_marked {xs : List Lexeme} (h : ∀ x ∈ xs, x.Proper) :
    ∀ x ∈ marked xs, x.Proper :=
  List.forall_mem_cons.2 ⟨.quote, h⟩

theorem proper_of_mem_spelledOut {xs : List Lexeme} (h : ∀ x ∈ xs, x.Proper) :
    ∀ x ∈ spelledOut xs, x.Proper := by
  have hword : Lexeme.Proper ⟨.symbol, ['q', 'u', 'o', 't', 'e']⟩ :=
    @proper_of_mem_lexemes ['q', 'u', 'o', 't', 'e'] _ (by decide +kernel)
  have hrest : ∀ x ∈ xs ++ [⟨.closing, [')']⟩], x.Proper :=
    List.forall_mem_append.2 ⟨h, List.forall_mem_singleton.2 .closing⟩
  exact List.forall_mem_cons.2 ⟨.opening, List.forall_mem_cons.2 ⟨hword, hrest⟩⟩

/-- Both spellings of a quoted term nest one deeper than the term. -/
theorem exists_interchangeable_of_quoted (d : Derivation) :
    ∃ e f : Derivation, e.lexemes = marked d.lexemes ∧ f.lexemes = spelledOut d.lexemes ∧
      e.Interchangeable f := by
  let word : Derivation := .symbol ⟨⟨.symbol, ['q', 'u', 'o', 't', 'e']⟩, rfl⟩ (.symbol .quote)
    (.symbol (by decide) (by decide))
  refine ⟨.quote ⟨⟨.quote, ['\x27']⟩, rfl⟩ d, .list ⟨⟨.opening, ['(']⟩, rfl⟩
    (.cons word (.cons d .nil)) ⟨⟨.closing, [')']⟩, rfl⟩, rfl, ?_, rfl, ?_⟩
  · simp [Derivation.lexemes, Derivations.lexemes, word, spelledOut]
  · simp [Derivation.nesting, Derivations.nesting, word]

/-- A quoted term is read alike whether it is marked or spelt out, under any limit and whatever
stands before and behind it, also where reading fails. -/
theorem readAll_spelledOut {u x v : List Lexeme} (hu : ∀ y ∈ u, y.Proper) (hx : ∀ y ∈ x, y.Proper)
    (hv : ∀ y ∈ v, y.Proper) (hderives : ∃ d : Derivation, d.lexemes = x) (limit : Int) :
    (readAll (separated (u ++ (spelledOut x ++ v))) limit).terms =
        (readAll (separated (u ++ (marked x ++ v))) limit).terms ∧
      (readAll (separated (u ++ (spelledOut x ++ v))) limit).EndsAs
        (readAll (separated (u ++ (marked x ++ v))) limit) := by
  obtain ⟨d, rfl⟩ := hderives
  obtain ⟨e, f, he, hf, hinterchangeable⟩ := exists_interchangeable_of_quoted d
  have hproper : ∀ {w : List Lexeme}, (∀ y ∈ w, y.Proper) → ∀ y ∈ u ++ (w ++ v), y.Proper :=
    fun hw => List.forall_mem_append.2 ⟨hu, List.forall_mem_append.2 ⟨hw, hv⟩⟩
  have hmarked := lexemes_separated (hproper (proper_of_mem_marked hx))
  have hspelledOut := lexemes_separated (hproper (proper_of_mem_spelledOut hx))
  refine readAll_of_exchanged hinterchangeable ?_ limit
  rw [hmarked, hspelledOut, ← he, ← hf]
  exact (Exchanged.here (.refl v)).append_left u

theorem readAll_spelledOut_in_tail :
    (readAll "( a . ( quote ( b ) ) ) .".toList 3).terms =
        (readAll "( a . \x27 ( b ) ) .".toList 3).terms ∧
      (readAll "( a . ( quote ( b ) ) ) .".toList 3).EndsAs
        (readAll "( a . \x27 ( b ) ) .".toList 3) ∧
      (readAll "( a . ( quote ( b ) ) ) .".toList 2).EndsAs
        (readAll "( a . \x27 ( b ) ) .".toList 2) := by
  obtain ⟨d, hd, -⟩ := exists_derivation_iff_parse.2
    (show parse "( b )".toList 0 = .ok (some (.cons (.symbol ⟨['b'], by decide, rfl⟩) .nil)) by
      decide +kernel)
  have hmarked : separated (lexemes "( a .".toList ++ (marked (lexemes "( b )".toList) ++
      lexemes ") .".toList)) = "( a . \x27 ( b ) ) .".toList := by decide +kernel
  have hspelledOut : separated (lexemes "( a .".toList ++ (spelledOut (lexemes "( b )".toList) ++
      lexemes ") .".toList)) = "( a . ( quote ( b ) ) ) .".toList := by decide +kernel
  have hread := readAll_spelledOut (u := lexemes "( a .".toList) (x := lexemes "( b )".toList)
    (v := lexemes ") .".toList) (fun _ => proper_of_mem_lexemes) (fun _ => proper_of_mem_lexemes)
    (fun _ => proper_of_mem_lexemes) ⟨d, hd⟩
  rw [hmarked, hspelledOut] at hread
  exact ⟨(hread 3).1, (hread 3).2, (hread 2).2⟩

end Parens
