import Parens.Proofs.Reader.Outcome

/-!
The reader on lexemes that are known. It goes through a term that lexemes derive, and through quotes
and lists that they open, with all that stands in them, unless the limit cuts it off on the way.
Whether it does is told by how many are open already and how deep the term nests. What lies behind
these lexemes does not matter.
-/

namespace Parens.Reader

/-- Reading is cut off by the limit within these lexemes. -/
def CutOff (limit : Int) (s : Stack) (l : Lexer) (xs : List Lexeme) : Prop :=
  ∃ (ys : List Lexeme) (l' : Lexer), ys <+: xs ∧ l.cursor.Reads ys l'.cursor ∧
    run limit s l = (.error (l'.fault (.tooDeep limit)), l')

/-- In front of these lexemes the reader comes to a term and hands it to its frames. -/
def GoesThrough (limit : Int) (xs : List Lexeme) (t : Term) : Prop :=
  ∀ (s : Stack) (l : Lexer) (behind : List Lexeme), l.lexemes = xs ++ behind →
    (∃ l' : Lexer, l.cursor.Reads xs l'.cursor ∧
      run limit s l = resume limit (settle (some t) s l')) ∨ CutOff limit s l xs

/-- Whether `k` quotes and lists more may be open at once where `n` are open. -/
def Fits (limit : Int) (n k : Nat) : Prop := ∀ j < k, Descent.isTooDeep limit (n + j + 1) = false

/-- The reader goes through these lexemes if `k` more fit where it stands, and is cut off else. -/
def GoesThroughIfFits (limit : Int) (k : Nat) (xs : List Lexeme) (t : Term) : Prop :=
  ∀ (s : Stack) (l : Lexer) (behind : List Lexeme), l.lexemes = xs ++ behind →
    (Fits limit s.depth k ∧ ∃ l' : Lexer, l.cursor.Reads xs l'.cursor ∧
      run limit s l = resume limit (settle (some t) s l')) ∨
      ¬ Fits limit s.depth k ∧ CutOff limit s l xs

/-- In front of these lexemes the reader adds some items to an open list. -/
def AddsItemsIfFits (limit : Int) (k : Nat) (xs : List Lexeme) (items : List Term) : Prop :=
  ∀ (s : Stack) (before : List Term) (l : Lexer) (behind : List Lexeme), l.lexemes = xs ++ behind →
    (Fits limit (s.depth + 1) k ∧ ∃ l' : Lexer, l.cursor.Reads xs l'.cursor ∧
      run limit (s.push (.list before)) l =
        run limit (s.push (.list (items.reverse ++ before))) l') ∨
      ¬ Fits limit (s.depth + 1) k ∧ CutOff limit (s.push (.list before)) l xs

variable {limit : Int} {s s' : Stack} {l l' : Lexer} {x : Lexeme} {xs ys : List Lexeme}

theorem fits_zero (limit : Int) (n : Nat) : Fits limit n 0 := nofun

theorem fits_succ_iff {n k : Nat} : Fits limit n (k + 1) ↔
    Descent.isTooDeep limit (n + 1) = false ∧ Fits limit (n + 1) k := by
  constructor
  · intro h
    refine ⟨h 0 (Nat.succ_pos k), fun j hj => ?_⟩
    rw [Nat.add_right_comm n 1 j]
    exact h (j + 1) (Nat.succ_lt_succ hj)
  · rintro ⟨hfirst, hrest⟩ j hj
    cases j with
    | zero => exact hfirst
    | succ j =>
        rw [← Nat.add_assoc, Nat.add_right_comm n j 1]
        exact hrest j (Nat.lt_of_succ_lt_succ hj)

theorem fits_max_iff {n k m : Nat} : Fits limit n (max k m) ↔ Fits limit n k ∧ Fits limit n m := by
  have hlt : ∀ j, j < max k m ↔ j < k ∨ j < m := fun j => by omega
  simp only [Fits, hlt, or_imp, forall_and]

theorem CutOff.append (h : CutOff limit s l xs) (zs : List Lexeme) :
    CutOff limit s l (xs ++ zs) := by
  obtain ⟨ys, l', hys, hreads, hrun⟩ := h
  exact ⟨ys, l', hys.trans (List.prefix_append _ _), hreads, hrun⟩

theorem CutOff.of_run_eq (h : CutOff limit s' l' xs) (hreads : l.cursor.Reads ys l'.cursor)
    (hrun : run limit s l = run limit s' l') : CutOff limit s l (ys ++ xs) := by
  obtain ⟨zs, l'', hzs, hreads', hrun'⟩ := h
  exact ⟨ys ++ zs, l'', (List.prefix_append_right_inj ys).2 hzs, hreads.append hreads',
    hrun.trans hrun'⟩

theorem exists_next_path {rest : List Lexeme} (h : l.lexemes = x :: rest) :
    ∃ token l', l.next = (.ok (some token), l') ∧ token.lexeme = x ∧ l.cursor.Reads [x] l'.cursor ∧
      l'.lexemes = rest := by
  rcases l.next_path_cases with ⟨hnil, -⟩ | ⟨token, l', hnext, -, hreads⟩
  · rw [hnil] at h
    cases h
  · have hlex : l.lexemes = token.lexeme :: l'.lexemes := Lexer.lexemes_of_reads hreads
    rw [hlex] at h
    obtain ⟨hx, hrest⟩ := List.cons.inj h
    exact ⟨token, l', hnext, hx, hx ▸ hreads, hrest⟩

theorem kind_eq_of_lexeme {k : Token.Kind} {token : Token} {x : Lexeme.Of k}
    (h : token.lexeme = x.1) : token.kind = k :=
  Lexeme.Of.kind_eq (x := ⟨token.lexeme, rfl⟩) h

/-- A quote or an opening parenthesis opens a frame, or reading is cut off right behind it. -/
theorem run_opens {frame : Frame} {rest : List Lexeme}
    (hx : x.kind = .quote ∧ frame = .quote ∨ x.kind = .opening ∧ frame = .list [])
    (h : l.lexemes = x :: rest) (s : Stack) :
    (Descent.isTooDeep limit (s.depth + 1) = false ∧ ∃ l' : Lexer, l'.lexemes = rest ∧
      l.cursor.Reads [x] l'.cursor ∧ run limit s l = run limit (s.push frame) l') ∨
      Descent.isTooDeep limit (s.depth + 1) ∧ CutOff limit s l [x] := by
  obtain ⟨token, l', hnext, htoken, hreads, hrest⟩ := exists_next_path h
  have hrun : run limit s l = resume limit (openFrame limit frame s l') := by
    rw [run_eq_resume, step]
    rw [← htoken] at hx
    rcases hx with ⟨hk, rfl⟩ | ⟨hk, rfl⟩
    · simp only [hnext, shift, show token.kind = .quote from hk]
    · simp only [hnext, shift, show token.kind = .opening from hk]
  rw [resume_openFrame] at hrun
  cases hdeep : Descent.isTooDeep limit (s.depth + 1) with
  | false =>
      rw [hdeep] at hrun
      exact .inl ⟨rfl, l', hrest, hreads, hrun⟩
  | true =>
      rw [hdeep] at hrun
      exact .inr ⟨rfl, [x], l', List.prefix_rfl, hreads, hrun⟩

/-- In front of a lexeme that begins no term, its absence is handed to the frames, and the lexeme is
still to be read. -/
theorem run_of_endsItems (limit : Int) {rest : List Lexeme} (h : l.lexemes = x :: rest)
    (hx : x.kind.beginsTerm = false) (s : Stack) :
    ∃ (token : Token) (l₁ l' : Lexer), run limit s l = resume limit (settle none s l₁) ∧
      l₁.next = (.ok (some token), l') ∧ token.lexeme = x ∧ l.cursor.Reads [x] l'.cursor ∧
      l'.lexemes = rest := by
  obtain ⟨token, l', hnext, htoken, -, -⟩ := exists_next_path h
  have hunread := Lexer.unread?_next hnext
  have hkind : token.kind = x.kind := by
    rw [← htoken]
    rfl
  have hagain :
      Lexer.lexemes { l' with cursor := l.skipLayout.cursor, last := none } = x :: rest := by
    rw [← h]
    exact lexemes_code l.cursor.after
  obtain ⟨token', l'', hnext', htoken', hreads, hrest⟩ := exists_next_path hagain
  refine ⟨token', _, l'', ?_, hnext', htoken', Cursor.Reads.of_skipLayout hreads, hrest⟩
  rw [run_eq_resume, step]
  rw [← hkind] at hx
  cases hk : token.kind with
  | closing | dot => simp only [hnext, shift, hk, hunread]
  | opening | quote | number | symbol =>
      rw [hk] at hx
      cases hx

theorem run_closing (limit : Int) (right : Lexeme.Of .closing) {rest : List Lexeme}
    (h : l.lexemes = right.1 :: rest) (s : Stack) (before : List Term) :
    ∃ l' : Lexer, l'.lexemes = rest ∧ l.cursor.Reads [right.1] l'.cursor ∧
      run limit (s.push (.list before)) l =
        resume limit (settle (some (.ofList before.reverse .nil)) s l') := by
  have hends : right.1.kind.beginsTerm = false := by
    rw [right.2]
    rfl
  obtain ⟨token, l₁, l', hrun, hnext, htoken, hreads, hrest⟩ :=
    run_of_endsItems limit h hends (s.push (.list before))
  refine ⟨l', hrest, hreads, ?_⟩
  rw [hrun, settle_push_list_none]
  simp only [hnext, kind_eq_of_lexeme htoken]

theorem run_dot (limit : Int) (point : Lexeme.Of .dot) {rest : List Lexeme}
    (h : l.lexemes = point.1 :: rest) (s : Stack) (before : List Term) :
    ∃ l' : Lexer, l'.lexemes = rest ∧ l.cursor.Reads [point.1] l'.cursor ∧
      run limit (s.push (.list before)) l = run limit (s.push (.tail before)) l' := by
  have hends : point.1.kind.beginsTerm = false := by
    rw [point.2]
    rfl
  obtain ⟨token, l₁, l', hrun, hnext, htoken, hreads, hrest⟩ :=
    run_of_endsItems limit h hends (s.push (.list before))
  refine ⟨l', hrest, hreads, ?_⟩
  rw [hrun, settle_push_list_none]
  simp only [hnext, kind_eq_of_lexeme htoken, resume]

theorem exists_close_path (right : Lexeme.Of .closing) {rest : List Lexeme}
    (h : l.lexemes = right.1 :: rest) :
    ∃ l' : Lexer, close l = (.ok (), l') ∧ l.cursor.Reads [right.1] l'.cursor := by
  obtain ⟨token, l', hnext, htoken, hreads, -⟩ := exists_next_path h
  exact ⟨l', by simp only [close, hnext, kind_eq_of_lexeme htoken, if_true], hreads⟩

theorem goesThrough_number (token : Lexeme.Of .number) {n : Number.Numeral}
    (reads : Number.Numeral.ofText? token.1.text = some n) :
    GoesThroughIfFits limit 0 [token.1] (.number n.toFloat) := by
  intro s l behind h
  obtain ⟨token', l', hnext, htoken, hreads, -⟩ := exists_next_path h
  have hn : Number.Numeral.ofText? token'.text = some n := by
    rw [← reads, ← htoken]
    rfl
  refine .inl ⟨fits_zero _ _, l', hreads, ?_⟩
  rw [run_eq_resume, step]
  simp only [hnext, shift, kind_eq_of_lexeme htoken, hn]

theorem run_symbol (limit : Int) (token : Lexeme.Of .symbol) {t : Term}
    (reads : Term.ofWord token.1.text = .ok t) (s : Stack) {rest : List Lexeme}
    (h : l.lexemes = token.1 :: rest) :
    ∃ l' : Lexer, l'.lexemes = rest ∧ l.cursor.Reads [token.1] l'.cursor ∧
      run limit s l = resume limit (settle (some t) s l') := by
  obtain ⟨token', l', hnext, htoken, hreads, hrest⟩ := exists_next_path h
  have ht : Term.ofWord token'.text = .ok t := by
    rw [← reads, ← htoken]
    rfl
  refine ⟨l', hrest, hreads, ?_⟩
  rw [run_eq_resume, step]
  simp only [hnext, shift, kind_eq_of_lexeme htoken, ht]

theorem goesThrough_symbol (token : Lexeme.Of .symbol) {t : Term}
    (reads : Term.ofWord token.1.text = .ok t) : GoesThroughIfFits limit 0 [token.1] t := by
  intro s l behind h
  obtain ⟨l', -, hreads, hrun⟩ := run_symbol limit token reads s h
  exact .inl ⟨fits_zero _ _, l', hreads, hrun⟩

theorem goesThrough_quote (mark : Lexeme.Of .quote) {k : Nat} {t : Term}
    (hquoted : GoesThroughIfFits limit k xs t) :
    GoesThroughIfFits limit (k + 1) (mark.1 :: xs) t.quoted := by
  intro s l behind h
  rw [fits_succ_iff]
  rcases run_opens (.inl ⟨mark.2, rfl⟩) h s with ⟨hdeep, l₁, hrest, hmark, hrun⟩ | ⟨hdeep, hcut⟩
  · rcases hquoted (s.push .quote) l₁ behind hrest with ⟨hfits, l', hreads, hrun'⟩ | ⟨hfits, hcut⟩
    · rw [settle_push_quote] at hrun'
      exact .inl ⟨⟨hdeep, hfits⟩, l', hmark.append hreads, hrun.trans hrun'⟩
    · exact .inr ⟨fun h => hfits h.2, hcut.of_run_eq hmark hrun⟩
  · exact .inr ⟨fun h => absurd hdeep (Bool.eq_false_iff.1 h.1), hcut.append xs⟩

theorem addsItems_nil : AddsItemsIfFits limit 0 [] [] :=
  fun _ _ l _ _ => .inl ⟨fits_zero _ _, l, .nil _, rfl⟩

theorem addsItems_cons {k m : Nat} {t : Term} {items : List Term}
    (hfirst : GoesThroughIfFits limit k xs t) (hrest : AddsItemsIfFits limit m ys items) :
    AddsItemsIfFits limit (max k m) (xs ++ ys) (t :: items) := by
  intro s before l behind h
  rw [fits_max_iff]
  rw [List.append_assoc] at h
  rcases hfirst (s.push (.list before)) l _ h with ⟨hfits, l₁, hreads, hrun⟩ | ⟨hfits, hcut⟩
  · rw [settle_push_list, resume] at hrun
    have hlex : l₁.lexemes = ys ++ behind := Lexer.lexemes_behind hreads h
    rcases hrest s (t :: before) l₁ behind hlex with ⟨hfits', l', hreads', hrun'⟩ | ⟨hfits', hcut⟩
    · refine .inl ⟨⟨hfits, hfits'⟩, l', hreads.append hreads', ?_⟩
      rw [hrun, hrun', List.reverse_cons, List.append_assoc]
      rfl
    · exact .inr ⟨fun h => hfits' h.2, hcut.of_run_eq hreads hrun⟩
  · exact .inr ⟨fun h => hfits h.1, hcut.append ys⟩

/-- What is read in an open list, up to its point or its end, is read into its frame. -/
theorem run_list (left : Lexeme.Of .opening) {k : Nat} {items : List Term} {rest : List Lexeme}
    (hitems : AddsItemsIfFits limit k xs items) (s : Stack)
    (h : l.lexemes = left.1 :: (xs ++ rest)) :
    (Fits limit s.depth (k + 1) ∧ ∃ l' : Lexer, l'.lexemes = rest ∧
      l.cursor.Reads (left.1 :: xs) l'.cursor ∧
      run limit s l = run limit (s.push (.list items.reverse)) l') ∨
      ¬ Fits limit s.depth (k + 1) ∧ CutOff limit s l (left.1 :: xs) := by
  rw [fits_succ_iff]
  rcases run_opens (.inr ⟨left.2, rfl⟩) h s with ⟨hdeep, l₁, hlex, hleft, hrun⟩ | ⟨hdeep, hcut⟩
  · rcases hitems s [] l₁ rest hlex with ⟨hfits, l', hreads, hrun'⟩ | ⟨hfits, hcut⟩
    · rw [List.append_nil] at hrun'
      have hrest : l'.lexemes = rest := Lexer.lexemes_behind hreads hlex
      exact .inl ⟨⟨hdeep, hfits⟩, l', hrest, hleft.append hreads, hrun.trans hrun'⟩
    · exact .inr ⟨fun h => hfits h.2, hcut.of_run_eq hleft hrun⟩
  · exact .inr ⟨fun h => absurd hdeep (Bool.eq_false_iff.1 h.1), hcut.append xs⟩

theorem goesThrough_list (left : Lexeme.Of .opening) {k : Nat} {items : List Term}
    (hitems : AddsItemsIfFits limit k xs items) (right : Lexeme.Of .closing) :
    GoesThroughIfFits limit (k + 1) (left.1 :: (xs ++ [right.1])) (.ofList items .nil) := by
  intro s l behind h
  simp only [List.cons_append, List.append_assoc, List.nil_append] at h
  rcases run_list left hitems s h with ⟨hfits, l₁, hlex, hreads, hrun⟩ | ⟨hfits, hcut⟩
  · obtain ⟨l', -, hright, hrun'⟩ := run_closing limit right hlex s items.reverse
    rw [List.reverse_reverse] at hrun'
    exact .inl ⟨hfits, l', hreads.append hright, hrun.trans hrun'⟩
  · exact .inr ⟨hfits, hcut.append [right.1]⟩

theorem goesThrough_dotted (left : Lexeme.Of .opening) {k m : Nat} {items : List Term} {t : Term}
    (hitems : AddsItemsIfFits limit k xs items) (point : Lexeme.Of .dot)
    (htail : GoesThroughIfFits limit m ys t) (right : Lexeme.Of .closing) :
    GoesThroughIfFits limit (max k m + 1) (left.1 :: (xs ++ point.1 :: (ys ++ [right.1])))
      (.ofList items t) := by
  intro s l behind h
  simp only [List.cons_append, List.append_assoc, List.nil_append] at h
  rw [fits_succ_iff, fits_max_iff]
  rcases run_list left hitems s h with ⟨hfits, l₁, hlex, hreads, hrun⟩ | ⟨hfits, hcut⟩
  · obtain ⟨hdeep, hfits⟩ := fits_succ_iff.1 hfits
    obtain ⟨l₂, hlex₂, hpoint, hrun₂⟩ := run_dot limit point hlex s items.reverse
    have hbefore := hreads.append hpoint
    rcases htail (s.push (.tail items.reverse)) l₂ _ hlex₂ with
      ⟨hfits', l₃, hreads₃, hrun₃⟩ | ⟨hfits', hcut⟩
    · have hlex₃ : l₃.lexemes = right.1 :: behind := Lexer.lexemes_behind hreads₃ hlex₂
      obtain ⟨l', hclose, hright⟩ := exists_close_path right hlex₃
      refine .inl ⟨⟨hdeep, hfits, hfits'⟩, l', ?_, ?_⟩
      · simpa using (hbefore.append hreads₃).append hright
      · rw [hrun, hrun₂, hrun₃, settle_push_tail, hclose, List.reverse_reverse]
    · have hall := (hcut.of_run_eq hbefore (hrun.trans hrun₂)).append [right.1]
      exact .inr ⟨fun h => hfits' h.2.2, by simpa using hall⟩
  · refine .inr ⟨fun h => hfits (fits_succ_iff.2 ⟨h.1, h.2.1⟩), ?_⟩
    exact hcut.append (point.1 :: (ys ++ [right.1]))

mutual

/-- Whether the reader is cut off within a term is told by how deep the term nests. -/
theorem goesThroughIfFits (limit : Int) (d : Derivation) :
    GoesThroughIfFits limit d.nesting d.lexemes d.value := by
  cases d with
  | number token n reads => exact goesThrough_number token reads
  | symbol token t reads => exact goesThrough_symbol token (standsFor_iff_ofWord.1 reads)
  | quote mark quoted =>
      rw [Derivation.value_quote]
      exact goesThrough_quote mark (goesThroughIfFits limit quoted)
  | list left items right =>
      rw [Derivation.value_list]
      exact goesThrough_list left (addsItemsIfFits limit items) right
  | dotted left items point tail right =>
      rw [Derivation.value_dotted]
      exact goesThrough_dotted left (addsItemsIfFits limit items) point
        (goesThroughIfFits limit tail) right

theorem addsItemsIfFits (limit : Int) (d : Derivations) :
    AddsItemsIfFits limit d.nesting d.lexemes d.values := by
  cases d with
  | nil => exact addsItems_nil
  | cons first rest =>
      exact addsItems_cons (goesThroughIfFits limit first) (addsItemsIfFits limit rest)

end

theorem goesThrough (limit : Int) (d : Derivation) : GoesThrough limit d.lexemes d.value :=
  fun s l behind h => (goesThroughIfFits limit d s l behind h).imp And.right And.right

/-- The reader comes to the quotes and lists that the lexemes open, unless it is cut off. -/
theorem exists_reached (limit : Int) {os : List Opened} {behind : List Lexeme}
    (h : l.lexemes = Opened.spelling os ++ behind) :
    (∃ s l', Reached limit l.cursor os s l' ∧ run limit .empty l = run limit s l') ∨
      CutOff limit .empty l (Opened.spelling os) := by
  induction os generalizing behind with
  | nil => exact .inl ⟨.empty, l, reached_empty limit l, rfl⟩
  | cons o outer ih =>
      rw [Opened.spelling, List.append_assoc] at h
      rcases ih h with ⟨s, l₁, hreached, hrun⟩ | hcut
      · have hlex : l₁.lexemes = o.lexemes ++ behind := Lexer.lexemes_behind hreached.reads h
        have hcutOff : CutOff limit s l₁ o.lexemes →
            CutOff limit .empty l (Opened.spelling (o :: outer)) :=
          fun hcut => hcut.of_run_eq hreached.reads hrun
        cases o with
        | quote mark =>
            rcases run_opens (.inl ⟨mark.2, rfl⟩) hlex s with
              ⟨hdeep, l', -, hreads, hrun'⟩ | ⟨-, hcut⟩
            · exact .inl ⟨_, l', hreached.push rfl hreads hdeep, hrun.trans hrun'⟩
            · exact .inr (hcutOff hcut)
        | list left items =>
            rcases run_list left (addsItemsIfFits limit items) s hlex with
              ⟨hfits, l', -, hreads, hrun'⟩ | ⟨-, hcut⟩
            · have hdeep := (fits_succ_iff.1 hfits).1
              exact .inl ⟨_, l', hreached.push rfl hreads hdeep, hrun.trans hrun'⟩
            · exact .inr (hcutOff hcut)
        | tail left items point =>
            simp only [Opened.lexemes, List.cons_append, List.append_assoc] at hlex
            rcases run_list left (addsItemsIfFits limit items) s hlex with
              ⟨hfits, l₂, hlex₂, hreads, hrun'⟩ | ⟨-, hcut⟩
            · have hdeep := (fits_succ_iff.1 hfits).1
              obtain ⟨l', -, hpoint, hrun₂⟩ :=
                run_dot limit point hlex₂ s items.values.reverse
              have hall := hreads.append hpoint
              exact .inl ⟨_, l', hreached.push rfl hall hdeep, hrun.trans (hrun'.trans hrun₂)⟩
            · exact .inr (hcutOff (hcut.append [point.1]))
      · exact .inr (hcut.append o.lexemes)

/-- Where the reader is cut off within some lexemes, they open too many. -/
theorem CutOff.exists_opens {xs : List Lexeme} (h : CutOff limit .empty l xs) :
    ∃ n, Opens xs (n + 1) ∧ Descent.isTooDeep limit (n + 1) := by
  obtain ⟨ys, l', hys, hreads, hrun⟩ := h
  obtain ⟨-, os, x, hreads', hkind, -, hdeep⟩ := exists_of_run_eq_tooDeep hrun
  obtain rfl := hreads.lexemes_unique hreads'
  exact ⟨os.length, (opens_succ hkind).of_isPrefix hys, hdeep⟩

/-- Without a limit, nothing is cut off. -/
theorem run_zero_of_derivation (d : Derivation) {behind : List Lexeme}
    (h : l.lexemes = d.lexemes ++ behind) :
    ∃ l' : Lexer, l.cursor.Reads d.lexemes l'.cursor ∧
      run 0 .empty l = (.ok (some d.value), l') := by
  rcases goesThrough 0 d .empty l behind h with hread | hcut
  · exact hread
  · obtain ⟨n, -, hdeep⟩ := hcut.exists_opens
    cases hdeep

end Parens.Reader
