import Parens.Proofs.Reader.Lockstep
import Parens.Proofs.Reader.Nesting

/-!
Reading one text behind another, with a line end between them. A term is read alike whatever stands
behind it, as long as that is no part of its last token; and what has been read before shifts
nothing but the place. So the terms of the two texts come one after the other, and where reading the
second one stops, it stops at the same place of it.
-/

namespace Parens

/-- A place of one text that is the same place of a longer text, with something in front and behind.
-/
structure Cursor.Embeds (front behind : List Char) (c d : Cursor) : Prop where
  after_eq : d.after = c.after ++ behind
  consumed_eq : d.consumed = front ++ c.consumed

variable {front behind : List Char}

namespace Cursor.Embeds

theorem source_eq {c d : Cursor} (h : c.Embeds front behind d) :
    d.source = front ++ c.source ++ behind := by
  rw [source, source, h.after_eq, h.consumed_eq]
  simp only [List.append_assoc]

/-- Reading goes the same way within the longer text. -/
theorem exists_reads {c c' d : Cursor} {xs : List Lexeme} (h : c.Embeds front behind d)
    (hbehind : atBoundary behind) (hreads : c.Reads xs c') :
    ∃ d', d.Reads xs d' ∧ c'.Embeds front behind d' := by
  obtain ⟨text, hafter, hconsumed, hother⟩ := hreads.exists_front
  have hrest : atBoundary (c'.after ++ behind) ∨ (c'.after ++ behind).head? = c'.after.head? := by
    cases c'.after with
    | nil => exact .inl hbehind
    | cons a rest => exact .inr rfl
  obtain ⟨d', hreads', hafter', hconsumed'⟩ :=
    hother _ hrest d (by rw [h.after_eq, hafter, List.append_assoc])
  exact ⟨d', hreads', hafter', by rw [hconsumed', hconsumed, h.consumed_eq, List.append_assoc]⟩

end Cursor.Embeds

/-- What stands in front of a text does not matter to lexers. -/
theorem Lexer.inStep_embeds (front : List Char) : InStep (Cursor.Embeds front []) := by
  have hskip : ∀ {l m : Lexer}, l.cursor.Embeds front [] m.cursor →
      l.skipLayout.cursor.Embeds front [] m.skipLayout.cursor := by
    intro l m h
    have hafter : m.cursor.after = l.cursor.after := by rw [h.after_eq, List.append_nil]
    constructor
    · rw [Lexer.after_skipLayout, Lexer.after_skipLayout, hafter, List.append_nil]
    · simp only [skipLayout, Cursor.consumed_advance, hafter, h.consumed_eq, List.append_assoc]
  have hlex : ∀ {l m : Lexer}, l.cursor.Embeds front [] m.cursor → l.lexemes = m.lexemes := by
    intro l m h
    rw [lexemes, lexemes, h.after_eq, List.append_nil]
  refine ⟨fun h => alike_of_eq (hlex h), hskip, fun {l m} h => ?_⟩
  have hlexemes := hlex h
  rcases l.next_path_cases with ⟨hl, l', hnext, hl'⟩ | ⟨token, l', hnext, -, hreads⟩
  · rcases m.next_path_cases with ⟨-, m', hnext', hm'⟩ | ⟨token', m', -, -, hreads'⟩
    · rw [hnext, hnext', hl', hm']
      exact hskip h
    · rw [hl, lexemes_of_reads hreads'] at hlexemes
      cases hlexemes
  · obtain ⟨d, hd, hembeds⟩ := h.exists_reads rfl hreads
    rcases m.next_path_cases with ⟨hm, -⟩ | ⟨token', m', hnext', -, hreads'⟩
    · rw [hm, lexemes_of_reads hreads] at hlexemes
      cases hlexemes
    · rw [lexemes_of_reads hreads, lexemes_of_reads hreads'] at hlexemes
      obtain ⟨hx, -⟩ := List.cons.inj hlexemes
      rw [← hx] at hreads'
      rw [hnext, hnext', hreads'.unique hd]
      exact hembeds

/-- Whether one reading ends as another one does that comes behind some text. -/
def Reading.EndsBehind (front : List Char) (r s : Reading) : Prop :=
  r.ending = .ok () ∧ s.ending = .ok () ∨
    ∃ p : ParseError, s.ending = .error (.parse p) ∧
      r.ending = .error (.parse { p with consumed := front ++ p.consumed })

theorem Reading.endsBehind_of_agree {r s : Reading}
    (h : Lexer.Agree (Cursor.Embeds front []) (s.ending, s.reader.lexer) (r.ending, r.reader.lexer))
    (hfuel : s.ending ≠ .error .exhausted) : r.EndsBehind front s := by
  obtain ⟨_, ending, _⟩ := r
  obtain ⟨_, ending', _⟩ := s
  simp only at h hfuel
  cases h with
  | ok _ _ => exact .inl ⟨rfl, rfl⟩
  | exhausted _ _ => exact absurd rfl hfuel
  | fault reason h =>
      refine .inr ⟨_, rfl, ?_⟩
      simp only [Lexer.fault, Lexer.parseError, h.after_eq, h.consumed_eq, List.append_nil]

namespace Reader

variable {r r' m : Reader}

theorem readAll_congr (hlimit : m.limit = r.limit) (h : m.lexer.next = r.lexer.next) :
    m.readAll = r.readAll := by
  have hrun : run m.limit .empty m.lexer = run r.limit .empty r.lexer := by
    rw [hlimit, run_eq_resume, run_eq_resume, step, step, h]
  have hread : m.readTerm = r.readTerm := by
    rw [readTerm, readTerm, hrun, hlimit]
  rcases hr : r.readTerm with ⟨e | _ | t, r'⟩
  · rw [readAll_of_readTerm_error hr, readAll_of_readTerm_error (hread.trans hr)]
  · rw [readAll_of_readTerm_none hr, readAll_of_readTerm_none (hread.trans hr)]
  · rw [readAll_of_readTerm hr, readAll_of_readTerm (hread.trans hr)]

/-- A term is read alike within a longer text. A limit cuts off no more of it there, since that
depends on the lexemes of the term. -/
theorem exists_readTerm_of_embeds {t : Term} (hlimit : m.limit = r.limit)
    (h : r.lexer.cursor.Embeds front behind m.lexer.cursor) (hbehind : atBoundary behind)
    (hread : r.readTerm = (.ok (some t), r')) :
    ∃ m', m.readTerm = (.ok (some t), m') ∧ m'.limit = r'.limit ∧
      r'.lexer.cursor.Embeds front behind m'.lexer.cursor ∧
      r'.lexer.cursor.source = r.lexer.cursor.source := by
  obtain ⟨d, rfl, hreads⟩ := exists_reads_of_readTerm hread
  obtain ⟨c, hreads', hembeds⟩ := h.exists_reads hbehind hreads
  rcases goesThrough m.limit d .empty m.lexer _ hreads'.lexemes_eq with ⟨l', hl', hrun⟩ | hcut
  · obtain rfl := hreads'.unique hl'
    refine ⟨{ m with lexer := l' }, ?_, hlimit.trans (limit_eq_of_readTerm hread).symm, hembeds,
      hreads.source_eq⟩
    rw [readTerm, hrun]
    rfl
  · obtain ⟨n, hopens, hdeep⟩ := hcut.exists_opens
    rw [hlimit] at hdeep
    have hopens' := hopens.of_isPrefix (Lexer.isPrefix_of_reads hreads)
    obtain ⟨l', hrun⟩ := run_eq_tooDeep_iff.2 ⟨n, hopens', hdeep⟩
    rw [readTerm, hrun] at hread
    cases hread

theorem lexemes_eq_nil_of_readAll_eq_ok (hread : r.readTerm = (.ok none, r'))
    (hok : r.readAll.ending = .ok ()) : r.lexemes = [] := by
  rw [readAll_of_readTerm_none hread] at hok
  rcases r'.ensureEmpty_cases with ⟨hnil, -⟩ | ⟨-, hfails⟩
  · rw [lexemes, Lexer.lexemes, cursor_of_readTerm_eq_none hread, Cursor.after_skipLayout,
      lexemes_code] at hnil
    exact hnil
  · cases hok.symm.trans hfails

/-- Where a text has come to its end, the text behind a line end is read as if it stood alone. -/
theorem readAll_of_lexemes_eq_nil {text : List Char} (hlimit : m.limit = r.limit)
    (h : r.lexer.cursor.Embeds [] ('\n' :: text) m.lexer.cursor) (hnil : r.lexemes = []) :
    m.readAll.terms = (Parens.readAll text r.limit).terms ∧
      m.readAll.EndsBehind (r.lexer.cursor.source ++ ['\n']) (Parens.readAll text r.limit) := by
  let layout := r.lexer.cursor.after ++ ['\n']
  have hlayout : IsLayout layout := (isLastLayout_of_lexemes_eq_nil hnil).append_newline
  have hafter : m.lexer.cursor.after = layout ++ text := by
    rw [h.after_eq, List.append_assoc]
    rfl
  let cursor := m.lexer.cursor.advance layout.length
  have hcursor : (Cursor.ofText text).Embeds (r.lexer.cursor.source ++ ['\n']) [] cursor := by
    constructor
    · rw [Cursor.after_advance, hafter, List.drop_left]
      exact (List.append_nil text).symm
    · rw [Cursor.consumed_advance, hafter, List.take_left, h.consumed_eq, Cursor.source]
      simp [layout, Cursor.ofText, Cursor.consumed]
  have hskip : m.lexer.cursor.skipLayout = cursor.skipLayout := by
    refine Cursor.ext_source ?_ ?_
    · rw [Cursor.after_skipLayout, Cursor.after_skipLayout, hcursor.after_eq, hafter,
        code_append_of_isLayout hlayout, List.append_nil]
      rfl
    · rw [Cursor.source_skipLayout, Cursor.source_skipLayout, Cursor.source_advance]
  let m' : Reader := { m with lexer := { m.lexer with cursor } }
  have hcongr : m.readAll = m'.readAll := by
    refine readAll_congr rfl (Lexer.next_congr ?_)
    exact congrArg (fun c => { m.lexer with cursor := c }) hskip
  rw [hcongr]
  obtain ⟨hterms, hending⟩ := agree_readAll (Lexer.inStep_embeds (r.lexer.cursor.source ++ ['\n']))
    (r := ofText text r.limit) (s := m') hlimit hcursor
  exact ⟨hterms, Reading.endsBehind_of_agree hending (ofText text r.limit).ending_ne_exhausted⟩

theorem readAll_of_embeds {text : List Char} (hlimit : m.limit = r.limit)
    (h : r.lexer.cursor.Embeds [] ('\n' :: text) m.lexer.cursor) (hok : r.readAll.ending = .ok ()) :
    m.readAll.terms = r.readAll.terms ++ (Parens.readAll text r.limit).terms ∧
      m.readAll.EndsBehind (r.lexer.cursor.source ++ ['\n']) (Parens.readAll text r.limit) := by
  induction r using readAll.induct generalizing m with
  | case1 r e r' hr =>
      rw [readAll_of_readTerm_error hr] at hok
      cases hok
  | case2 r r' hr =>
      have hnil := lexemes_eq_nil_of_readAll_eq_ok hr hok
      rw [readAll_of_readTerm_none hr]
      exact readAll_of_lexemes_eq_nil hlimit h hnil
  | case3 r t r' hr ih =>
      obtain ⟨m', hm, hlimit', h', hsource⟩ := exists_readTerm_of_embeds hlimit h rfl hr
      rw [readAll_of_readTerm hr] at hok ⊢
      rw [readAll_of_readTerm hm]
      obtain ⟨hterms, hending⟩ := ih hlimit' h' hok
      rw [limit_eq_of_readTerm hr] at hterms hending
      rw [hsource] at hending
      exact ⟨by rw [hterms, List.cons_append], hending⟩

end Reader

/-- If reading a text comes to its end, then what stands behind it and a line end is read as it is
read alone, and reading ends as it does alone. -/
theorem readAll_append_newline {source : List Char} {limit : Int}
    (h : (readAll source limit).ending = .ok ()) (text : List Char) :
    (readAll (source ++ '\n' :: text) limit).terms =
        (readAll source limit).terms ++ (readAll text limit).terms ∧
      ((readAll text limit).ending = .ok () ∧
          (readAll (source ++ '\n' :: text) limit).ending = .ok () ∨
        ∃ p : ParseError, (readAll text limit).ending = .error (.parse p) ∧
          (readAll (source ++ '\n' :: text) limit).ending =
            .error (.parse { p with consumed := source ++ '\n' :: p.consumed })) := by
  have hembeds : (Cursor.ofText source).Embeds [] ('\n' :: text)
      (Cursor.ofText (source ++ '\n' :: text)) := ⟨rfl, rfl⟩
  obtain ⟨hterms, hending⟩ := Reader.readAll_of_embeds (r := Reader.ofText source limit)
    (m := Reader.ofText (source ++ '\n' :: text) limit) rfl hembeds h
  refine ⟨hterms, ?_⟩
  rcases hending with ⟨hok, hok'⟩ | ⟨p, hfails, hfails'⟩
  · exact .inl ⟨hok', hok⟩
  · refine .inr ⟨p, hfails, hfails'.trans ?_⟩
    rw [show (Reader.ofText source limit).lexer.cursor.source = source from
      Cursor.source_ofText source, List.append_assoc]
    rfl

theorem readAll_comment_then_stray :
    (readAll "\x27a;b".toList 1).ending = .ok () ∧
      (readAll "\x27a;b\n.5 )".toList 1).terms =
        (readAll "\x27a;b".toList 1).terms ++ (readAll ".5 )".toList 1).terms ∧
      (readAll "\x27a;b\n.5 )".toList 1).ending =
        .error (.parse ⟨"\x27a;b\n.5 ".toList, [')'], some .trailing⟩) := by
  have h : (readAll "\x27a;b".toList 1).ending = .ok () := by decide +kernel
  have hstray : (readAll ".5 )".toList 1).ending =
      .error (.parse ⟨".5 ".toList, [')'], some .trailing⟩) := by decide +kernel
  obtain ⟨hterms, hending⟩ := readAll_append_newline h ".5 )".toList
  refine ⟨h, hterms, ?_⟩
  rcases hending with ⟨hok, -⟩ | ⟨p, hfails, hending⟩
  · cases hstray.symm.trans hok
  · obtain rfl := Failure.parse.inj (Except.error.inj (hstray.symm.trans hfails))
    exact hending

end Parens
