import Parens.Proofs.Reader.Forward

/-!
Reading a text as a whole against the grammar: one term that takes all of the text, or all of its
terms. Without a limit the reader returns what the lexemes derive, which is one thing at most, and
it rejects what derives nothing.
-/

namespace Parens
namespace Reader

/-- The lexemes that are still to be read. -/
def lexemes (r : Reader) : List Lexeme := r.lexer.lexemes

theorem readTerm_cases (r : Reader) :
    (∃ (d : Derivation) (r' : Reader), r.readTerm = (.ok (some d.value), r') ∧
      r.lexemes = d.lexemes ++ r'.lexemes) ∨
    (∃ r' : Reader, r.readTerm = (.ok none, r') ∧ r'.lexemes = r.lexemes) ∨
    ∃ p r', r.readTerm = (.error (.parse p), r') := by
  rcases hread : r.readTerm with ⟨e | _ | t, r'⟩
  · obtain ⟨reason, rfl, -⟩ := exists_stuck_of_readTerm_eq_error hread
    exact .inr (.inr ⟨_, r', rfl⟩)
  · refine .inr (.inl ⟨r', rfl, ?_⟩)
    rw [lexemes, lexemes, Lexer.lexemes, cursor_of_readTerm_eq_none hread]
    exact lexemes_code r.lexer.cursor.after
  · obtain ⟨d, rfl, hreads⟩ := exists_reads_of_readTerm hread
    exact .inl ⟨d, r', rfl, hreads.lexemes_eq⟩

theorem limit_eq_of_readTerm {r r' : Reader} {result : Except Failure (Option Term)}
    (h : r.readTerm = (result, r')) : r'.limit = r.limit := by
  rw [← (Prod.mk.inj h).2]

theorem exists_readTerm (d : Derivation) {r : Reader} {behind : List Lexeme} (hlimit : r.limit = 0)
    (h : r.lexemes = d.lexemes ++ behind) :
    ∃ r' : Reader, r.readTerm = (.ok (some d.value), r') ∧ r'.limit = 0 ∧ r'.lexemes = behind := by
  obtain ⟨l, hreads, hrun⟩ := run_zero_of_derivation d h
  exact ⟨{ r with lexer := l }, by rw [readTerm, hlimit, hrun], hlimit,
    Lexer.lexemes_behind hreads h⟩

theorem exists_readTerm_none {r : Reader} (h : r.lexemes = []) :
    ∃ r' : Reader, r.readTerm = (.ok none, r') ∧ r'.lexemes = [] := by
  rcases r.lexer.next_cases with ⟨-, l, hnext, hnil⟩ | ⟨token, l, -, -, hcons⟩
  · refine ⟨{ r with lexer := l }, ?_, hnil⟩
    rw [readTerm, run_eq_resume, step, hnext]
    rfl
  · cases h.symm.trans hcons

theorem lexemes_ensureEmpty (r : Reader) : r.ensureEmpty.2.lexemes = r.lexemes :=
  lexemes_code r.lexer.cursor.after

theorem ensureEmpty_cases (r : Reader) :
    (r.lexemes = [] ∧ r.ensureEmpty.1 = .ok ()) ∨
      r.lexemes ≠ [] ∧ r.ensureEmpty.1 = .error (r.lexer.skipLayout.fault .trailing) := by
  have hend : r.lexer.skipLayout.atEnd ↔ r.lexemes = [] := r.lexer.atEnd_skipLayout_iff
  by_cases h : r.lexemes = []
  · exact .inl ⟨h, by simp only [ensureEmpty, isEmpty, hend.2 h, if_true]⟩
  · have hend : r.lexer.skipLayout.atEnd = false := Bool.eq_false_iff.2 (mt hend.1 h)
    exact .inr ⟨h, by simp only [ensureEmpty, isEmpty, hend, Bool.false_eq_true, if_false]⟩

theorem readAll_of_readTerm {r r' : Reader} {t : Term} (h : r.readTerm = (.ok (some t), r')) :
    r.readAll = { r'.readAll with terms := t :: r'.readAll.terms } := by
  rw [readAll]
  split <;> simp_all

theorem readAll_of_readTerm_none {r r' : Reader} (h : r.readTerm = (.ok none, r')) :
    r.readAll = ⟨[], r'.ensureEmpty.1, r'.ensureEmpty.2⟩ := by
  rw [readAll]
  split <;> simp_all

theorem readAll_of_readTerm_error {r r' : Reader} {e : Failure} (h : r.readTerm = (.error e, r')) :
    r.readAll = ⟨[], .error e, r'⟩ := by
  rw [readAll]
  split <;> simp_all

/-- What reading one term and looking for the end keep is kept by reading all terms. -/
theorem readAll_keeps {K : Reader → Reader → Prop} (htrans : ∀ {r m r'}, K r m → K m r' → K r r')
    (hread : ∀ {r r' result}, r.readTerm = (result, r') → K r r')
    (hempty : ∀ r, K r r.ensureEmpty.2) (r : Reader) : K r r.readAll.reader := by
  induction r using readAll.induct with
  | case1 r e r' h =>
      rw [readAll_of_readTerm_error h]
      exact hread h
  | case2 r r' h =>
      rw [readAll_of_readTerm_none h]
      exact htrans (hread h) (hempty r')
  | case3 r t r' h ih =>
      rw [readAll_of_readTerm h]
      exact htrans (hread h) ih

/-- Whether two readers read alike: both fail or come to an end as `P` says, or they read the same
term and stand as `S` says. -/
inductive ReadsAlike (S : Reader → Reader → Prop)
    (P : Except Failure Unit × Reader → Except Failure Unit × Reader → Prop) (r q : Reader) : Prop
  | error {e f : Failure} {r' q' : Reader} : r.readTerm = (.error e, r') →
      q.readTerm = (.error f, q') → P (.error e, r') (.error f, q') → ReadsAlike S P r q
  | none {r' q' : Reader} : r.readTerm = (.ok none, r') → q.readTerm = (.ok none, q') →
      P r'.ensureEmpty q'.ensureEmpty → ReadsAlike S P r q
  | term {t : Term} {r' q' : Reader} : r.readTerm = (.ok (some t), r') →
      q.readTerm = (.ok (some t), q') → S r' q' → ReadsAlike S P r q

theorem readAll_related {S : Reader → Reader → Prop}
    {P : Except Failure Unit × Reader → Except Failure Unit × Reader → Prop}
    (hread : ∀ {r q}, S r q → ReadsAlike S P r q) {r q : Reader} (h : S r q) :
    q.readAll.terms = r.readAll.terms ∧
      P (r.readAll.ending, r.readAll.reader) (q.readAll.ending, q.readAll.reader) := by
  induction hn : r.lexer.remaining using Nat.strongRecOn generalizing r q with
  | ind n ih =>
      cases hread h with
      | error hr hq hP =>
          rw [readAll_of_readTerm_error hr, readAll_of_readTerm_error hq]
          exact ⟨rfl, hP⟩
      | none hr hq hP =>
          rw [readAll_of_readTerm_none hr, readAll_of_readTerm_none hq]
          exact ⟨rfl, hP⟩
      | term hr hq h' =>
          rw [readAll_of_readTerm hr, readAll_of_readTerm hq]
          obtain ⟨hterms, hending⟩ := ih _ (hn ▸ remaining_readTerm_lt hr) h' rfl
          exact ⟨by rw [hterms], hending⟩

/-- Reading all terms ends well if the lexemes derive them, and fails by the text otherwise. -/
theorem readAll_cases (r : Reader) :
    (r.readAll.ending = .ok () ∧
      ∃ d : Derivations, d.lexemes = r.lexemes ∧ d.values = r.readAll.terms) ∨
    ∃ p, r.readAll.ending = .error (.parse p) := by
  induction hn : r.lexemes.length using Nat.strongRecOn generalizing r with
  | ind n ih =>
      rcases r.readTerm_cases with ⟨d, r', hread, hlex⟩ | ⟨r', hread, hlex⟩ | ⟨p, r', hread⟩
      · have hlt : r'.lexemes.length < n := by
          have hpos := d.length_lexemes_pos
          rw [hlex, List.length_append] at hn
          omega
        rw [readAll_of_readTerm hread]
        rcases ih _ hlt r' rfl with ⟨hending, ds, hds, hvalues⟩ | hfails
        · refine .inl ⟨hending, .cons d ds, ?_, ?_⟩
          · rw [Derivations.lexemes, hds, hlex]
          · rw [Derivations.values, hvalues]
        · exact .inr hfails
      · rw [readAll_of_readTerm_none hread]
        rcases r'.ensureEmpty_cases with ⟨hnil, hempty⟩ | ⟨-, hfails⟩
        · exact .inl ⟨hempty, .nil, by rw [← hlex, hnil]; rfl, rfl⟩
        · exact .inr ⟨_, hfails⟩
      · rw [readAll_of_readTerm_error hread]
        exact .inr ⟨p, rfl⟩

theorem ending_ne_exhausted (r : Reader) : r.readAll.ending ≠ .error .exhausted := by
  rcases r.readAll_cases with ⟨hok, -⟩ | ⟨p, hfails⟩
  · rw [hok]
    exact nofun
  · rw [hfails]
    exact nofun

theorem readAll_of_derivations (d : Derivations) {r : Reader} (hlimit : r.limit = 0)
    (h : r.lexemes = d.lexemes) : r.readAll.ending = .ok () ∧ r.readAll.terms = d.values := by
  match d with
  | .nil =>
      obtain ⟨r', hread, hnil⟩ := exists_readTerm_none h
      rw [readAll_of_readTerm_none hread]
      rcases r'.ensureEmpty_cases with ⟨-, hempty⟩ | ⟨hne, -⟩
      · exact ⟨hempty, rfl⟩
      · exact absurd hnil hne
  | .cons first rest =>
      obtain ⟨r', hread, hlimit', hrest⟩ := exists_readTerm first hlimit h
      obtain ⟨hending, hterms⟩ := readAll_of_derivations rest hlimit' hrest
      rw [readAll_of_readTerm hread]
      exact ⟨hending, by rw [Derivations.values, hterms]⟩

end Reader

theorem parse_cases (source : List Char) (limit : Int) :
    (∃ d : Derivation, d.lexemes = lexemes source ∧ parse source limit = .ok (some d.value)) ∨
    (lexemes source = [] ∧ parse source limit = .ok none) ∨
    ∃ p, parse source limit = .error (.parse p) := by
  unfold parse
  rcases (Reader.ofText source limit).readTerm_cases with
    ⟨d, r, hread, hlex⟩ | ⟨r, hread, hlex⟩ | ⟨p, r, hread⟩
  · rw [hread]
    rcases r.ensureEmpty_cases with ⟨hnil, hempty⟩ | ⟨-, hfails⟩
    · rw [hnil, List.append_nil] at hlex
      exact .inl ⟨d, hlex.symm, by simp only [hempty]⟩
    · exact .inr (.inr ⟨_, by simp only [hfails]; rfl⟩)
  · rw [hread]
    rcases r.ensureEmpty_cases with ⟨hnil, hempty⟩ | ⟨-, hfails⟩
    · exact .inr (.inl ⟨hlex.symm.trans hnil, by simp only [hempty]⟩)
    · exact .inr (.inr ⟨_, by simp only [hfails]; rfl⟩)
  · exact .inr (.inr ⟨p, by rw [hread]⟩)

theorem parse_of_derivation (d : Derivation) {source : List Char} (h : d.lexemes = lexemes source) :
    parse source 0 = .ok (some d.value) := by
  have hlex : (Reader.ofText source 0).lexemes = d.lexemes ++ [] := by
    rw [List.append_nil]
    exact h.symm
  obtain ⟨r, hread, -, hnil⟩ := Reader.exists_readTerm d rfl hlex
  rcases r.ensureEmpty_cases with ⟨-, hempty⟩ | ⟨hne, -⟩
  · simp only [parse, hread, hempty]
  · exact absurd hnil hne

theorem parse_of_lexemes_eq_nil {source : List Char} (h : lexemes source = []) (limit : Int) :
    parse source limit = .ok none := by
  obtain ⟨r, hread, hnil⟩ := Reader.exists_readTerm_none (r := Reader.ofText source limit) h
  rcases r.ensureEmpty_cases with ⟨-, hempty⟩ | ⟨hne, -⟩
  · simp only [parse, hread, hempty]
  · exact absurd hnil hne

theorem exists_derivation_iff_parse {source : List Char} {t : Term} :
    (∃ d : Derivation, d.lexemes = lexemes source ∧ d.value = t) ↔
      parse source 0 = .ok (some t) := by
  constructor
  · rintro ⟨d, hd, rfl⟩
    exact parse_of_derivation d hd
  · intro h
    rcases parse_cases source 0 with ⟨d, hd, hparse⟩ | ⟨-, hparse⟩ | ⟨p, hparse⟩
    · rw [h] at hparse
      cases hparse
      exact ⟨d, hd, rfl⟩
    · rw [h] at hparse
      cases hparse
    · rw [h] at hparse
      cases hparse

theorem exists_derivations_iff_readAll {source : List Char} {ts : List Term} :
    (∃ d : Derivations, d.lexemes = lexemes source ∧ d.values = ts) ↔
      (readAll source 0).all = .ok ts := by
  constructor
  · rintro ⟨d, hd, rfl⟩
    obtain ⟨hending, hterms⟩ :=
      Reader.readAll_of_derivations d (r := Reader.ofText source 0) rfl hd.symm
    simp only [Reading.all, readAll, hending, hterms]
  · intro h
    rcases (Reader.ofText source 0).readAll_cases with ⟨hending, d, hd, hvalues⟩ | ⟨p, hending⟩
    · simp only [Reading.all, readAll, hending, Except.ok.injEq] at h
      exact ⟨d, hd, hvalues.trans h⟩
    · simp only [Reading.all, readAll, hending] at h
      cases h

/-- Lexemes have one derivation at most. Without a limit, a text is read as the term or the terms
that its tokens derive, and rejected if they derive none. -/
theorem reads_iff_derives (source : List Char) :
    (∀ d e : Derivation, d.lexemes = e.lexemes → d = e) ∧
    (∀ d e : Derivations, d.lexemes = e.lexemes → d = e) ∧
    ∃ ts, tokens source = .ok ts ∧
      (∀ t, parse source 0 = .ok (some t) ↔ Derives ts t) ∧
      (parse source 0 = .ok none ↔ ts = []) ∧
      (ts ≠ [] → (∀ t, ¬ Derives ts t) → ∃ p, parse source 0 = .error (.parse p)) ∧
      (∀ terms, (readAll source 0).all = .ok terms ↔ DerivesAll ts terms) ∧
      ((∀ terms, ¬ DerivesAll ts terms) →
        ∃ p, (readAll source 0).all = .error (.parse p)) := by
  refine ⟨fun _ _ => Derivation.eq_of_lexemes_eq, fun _ _ => Derivations.eq_of_lexemes_eq, ?_⟩
  obtain ⟨ts, hts, hlex⟩ := exists_tokens source
  have hnil : ts = [] ↔ lexemes source = [] := by rw [← hlex, List.map_eq_nil_iff]
  have hterm : ∀ t, parse source 0 = .ok (some t) ↔ Derives ts t := fun t => by
    rw [Derives, hlex, exists_derivation_iff_parse]
  have hterms : ∀ terms, (readAll source 0).all = .ok terms ↔ DerivesAll ts terms := fun terms => by
    rw [DerivesAll, hlex, exists_derivations_iff_readAll]
  refine ⟨ts, hts, hterm, ?_, ?_, hterms, ?_⟩
  · rw [hnil]
    refine ⟨fun h => ?_, fun h => parse_of_lexemes_eq_nil h 0⟩
    rcases parse_cases source 0 with ⟨d, -, hparse⟩ | ⟨hnil, -⟩ | ⟨p, hparse⟩
    · rw [h] at hparse
      cases hparse
    · exact hnil
    · rw [h] at hparse
      cases hparse
  · intro hne hnone
    rcases parse_cases source 0 with ⟨d, -, hparse⟩ | ⟨hempty, -⟩ | hfails
    · exact absurd ((hterm _).1 hparse) (hnone _)
    · exact absurd (hnil.2 hempty) hne
    · exact hfails
  · intro hnone
    rcases (Reader.ofText source 0).readAll_cases with ⟨hending, -⟩ | ⟨p, hending⟩
    · have hall : (readAll source 0).all = .ok (readAll source 0).terms := by
        simp only [Reading.all, readAll, hending]
      exact absurd ((hterms _).1 hall) (hnone _)
    · exact ⟨p, by simp only [Reading.all, readAll, hending]⟩

end Parens
