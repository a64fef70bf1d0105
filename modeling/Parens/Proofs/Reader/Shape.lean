import Parens.Proofs.Number.Bits
import Parens.Proofs.Reader.Grammar
import Parens.Proofs.Term.Plain
import Parens.Term.Shape

/-!
The shape of the terms that are read from a text. Whatever a reader has been asked before, and also
after it has failed, the lexemes in front of it are the last ones of the text. So each term that it
returns has a derivation that spells lexemes of the text, one behind the other, and its shape
follows from the rules. Only the rule for a dotted list puts something else than the empty list at
the end of a list.
-/

namespace Parens

namespace Number

theorem decode_toFloat_ne (n : Numeral) : decode n.toFloat ≠ .notANumber := by
  have hle : nearestBits n.digits (Nat.pow 10 n.places) ≤ infinityBits := Nat.min_le_right _ _
  rw [Numeral.toFloat, ofQuotient]
  rcases Nat.lt_or_eq_of_le hle with hlt | heq
  · obtain ⟨negative, significand, exponent, hdecode⟩ := @isFinite_ofBits n.negative _ hlt
    rw [hdecode]
    exact Decoded.noConfusion
  · rw [heq, decode_infinity]
    exact Decoded.noConfusion

end Number

theorem Name.Readable.unmistakable {a : Name} (h : a.Readable) : a.Unmistakable := by
  obtain ⟨happart, hquote, hdot, hnil, hnumeral⟩ := h
  refine ⟨a.ne_nil, a.folded, hnil, hdot, hquote, hnumeral, fun c hc => ?_⟩
  simpa [isDelimiter, and_assoc] using happart c hc

namespace Term

variable {P : Term → Prop} {a d t : Term}

theorem everywhere_of_ne_cons (h : ∀ a d, t ≠ cons a d) (ht : P t) : t.Everywhere P := by
  intro u hu
  cases hu with
  | self => exact ht
  | car _ | cdr _ => exact absurd rfl (h _ _)

theorem Everywhere.cons (ha : a.Everywhere P) (hd : d.Everywhere P) (h : P (cons a d)) :
    (Term.cons a d).Everywhere P := by
  intro u hu
  cases hu with
  | self => exact h
  | car hu => exact ha u hu
  | cdr hu => exact hd u hu

theorem keptByReading_isSpellable : KeptByReading (Everywhere IsSpellable) where
  nil := everywhere_of_ne_cons nofun trivial
  number n := everywhere_of_ne_cons nofun (Number.decode_toFloat_ne n)
  symbol _ h := everywhere_of_ne_cons nofun h.unmistakable
  cons _ _ ha hd := ha.cons hd trivial

theorem tail_ofList (items : List Term) (tail : Term) : (ofList items tail).tail = tail.tail := by
  induction items with
  | nil => rfl
  | cons t rest ih => exact ih

theorem endsInNil_ofList {items : List Term} (h : ∀ t ∈ items, t.Everywhere EndsInNil) :
    (ofList items nil).Everywhere EndsInNil := by
  induction items with
  | nil => exact everywhere_of_ne_cons nofun trivial
  | cons t rest ih =>
      obtain ⟨hfirst, hrest⟩ := List.forall_mem_cons.1 h
      exact hfirst.cons (ih hrest) (tail_ofList rest nil)

theorem endsInNil_of_standsFor {word : List Char} (h : StandsFor word t) :
    t.Everywhere EndsInNil := by
  cases h with
  | nil _ | symbol _ _ => exact everywhere_of_ne_cons nofun trivial

end Term

mutual

/-- Without a point, every list ends in the empty list. -/
theorem Derivation.endsInNil (d : Derivation) (h : ∀ x ∈ d.lexemes, x.kind ≠ .dot) :
    d.value.Everywhere Term.EndsInNil := by
  cases d with
  | number token n reads => exact Term.everywhere_of_ne_cons nofun trivial
  | symbol token t reads => exact Term.endsInNil_of_standsFor reads
  | quote mark quoted =>
      have hquoted := quoted.endsInNil fun x hx => h x (List.mem_cons_of_mem _ hx)
      have hnil : Term.nil.Everywhere Term.EndsInNil := Term.everywhere_of_ne_cons nofun trivial
      have hquote : (Term.symbol .quote).Everywhere Term.EndsInNil :=
        Term.everywhere_of_ne_cons nofun trivial
      exact hquote.cons (hquoted.cons hnil rfl) rfl
  | list left items right =>
      rw [Derivation.value_list]
      refine Term.endsInNil_ofList (items.endsInNil fun x hx => h x ?_)
      simp [Derivation.lexemes, hx]
  | dotted left items point tail right =>
      refine absurd point.2 (h point.1 ?_)
      simp [Derivation.lexemes]

theorem Derivations.endsInNil (d : Derivations) (h : ∀ x ∈ d.lexemes, x.kind ≠ .dot) :
    ∀ t ∈ d.values, t.Everywhere Term.EndsInNil := by
  cases d with
  | nil => exact nofun
  | cons first rest =>
      obtain ⟨hfirst, hrest⟩ := List.forall_mem_append.1 h
      exact List.forall_mem_cons.2 ⟨first.endsInNil hfirst, rest.endsInNil hrest⟩

end

namespace Reader

variable {limit : Int}

theorem Stuck.isSuffix {reason : Reason} {c c' : Cursor} (h : Stuck limit c reason c') :
    Parens.lexemes c'.after <:+ Parens.lexemes c.after := by
  cases h with
  | termAfterQuote hreads | termAfterDot hreads | unclosed hreads | unclosedTail hreads =>
      rw [Cursor.after_skipLayout, lexemes_code, hreads.lexemes_eq]
      exact List.suffix_append _ _
  | closeExpected hreads hx _ =>
      rw [(hreads.append hx).lexemes_eq]
      exact List.suffix_append _ _
  | tooDeep hreads _ _ _ =>
      rw [hreads.lexemes_eq]
      exact List.suffix_append _ _

/-- What is in front of a reader stays the last part of what was. -/
theorem isSuffix_of_readTerm {r r' : Reader} {result : Except Failure (Option Term)}
    (h : r.readTerm = (result, r')) : r'.lexemes <:+ r.lexemes := by
  match result with
  | .error e =>
      obtain ⟨reason, -, hstuck⟩ := exists_stuck_of_readTerm_eq_error h
      exact hstuck.isSuffix
  | .ok none =>
      rw [lexemes, Lexer.lexemes, cursor_of_readTerm_eq_none h, Cursor.after_skipLayout,
        lexemes_code]
      exact List.suffix_rfl
  | .ok (some t) =>
      obtain ⟨d, -, hreads⟩ := exists_reads_of_readTerm h
      have hlex : r.lexemes = d.lexemes ++ r'.lexemes := hreads.lexemes_eq
      rw [hlex]
      exact List.suffix_append _ _

theorem isSuffix_of_ensureEmpty (r : Reader) : r.ensureEmpty.2.lexemes <:+ r.lexemes := by
  rw [lexemes_ensureEmpty]

theorem isSuffix_of_perform (r : Reader) (request : Request) :
    (r.perform request).2.lexemes <:+ r.lexemes := by
  cases request with
  | readTerm => exact isSuffix_of_readTerm (r := r) rfl
  | readAll =>
      exact readAll_keeps (K := fun r r' => r'.lexemes <:+ r.lexemes) (fun h h' => h'.trans h)
        isSuffix_of_readTerm isSuffix_of_ensureEmpty r
  | isEmpty | ensureEmpty => exact isSuffix_of_ensureEmpty r

/-- Whether a term is derived by some of the lexemes, one behind the other. -/
def DerivedWithin (xs : List Lexeme) (t : Term) : Prop :=
  ∃ d : Derivation, d.value = t ∧ d.lexemes <:+: xs

theorem DerivedWithin.mono {xs ys : List Lexeme} {t : Term} (h : DerivedWithin xs t)
    (hxs : xs <:+ ys) : DerivedWithin ys t := by
  obtain ⟨d, hd, hinfix⟩ := h
  exact ⟨d, hd, hinfix.trans hxs.isInfix⟩

theorem derivedWithin_of_readTerm {r r' : Reader} {t : Term} (h : r.readTerm = (.ok (some t), r')) :
    DerivedWithin r.lexemes t := by
  obtain ⟨d, hd, hreads⟩ := exists_reads_of_readTerm h
  have hlex : r.lexemes = d.lexemes ++ r'.lexemes := hreads.lexemes_eq
  exact ⟨d, hd, hlex ▸ (List.prefix_append _ _).isInfix⟩

theorem derivedWithin_of_readAll {r : Reader} {t : Term} (h : t ∈ r.readAll.terms) :
    DerivedWithin r.lexemes t := by
  induction r using readAll.induct with
  | case1 r e r' hread =>
      rw [readAll_of_readTerm_error hread] at h
      cases h
  | case2 r r' hread =>
      rw [readAll_of_readTerm_none hread] at h
      cases h
  | case3 r first r' hread ih =>
      rw [readAll_of_readTerm hread] at h
      rcases List.mem_cons.1 h with rfl | h
      · exact derivedWithin_of_readTerm hread
      · exact (ih h).mono (isSuffix_of_readTerm hread)

theorem derivedWithin_of_perform {r : Reader} {request : Request} {t : Term}
    (h : t ∈ (r.perform request).1.returned) : DerivedWithin r.lexemes t := by
  cases request with
  | readTerm =>
      rcases hread : r.readTerm with ⟨e | _ | u, r'⟩ <;> simp only [perform, hread] at h
      · cases h
      · cases h
      · obtain rfl := List.mem_singleton.1 h
        exact derivedWithin_of_readTerm hread
  | readAll => exact derivedWithin_of_readAll h
  | isEmpty | ensureEmpty => cases h

theorem derivedWithin_of_mem_transcript {r r' : Reader} {requests : List Request} {answer : Answer}
    {t : Term} (h : (answer, r') ∈ r.transcript requests) (ht : t ∈ answer.returned) :
    DerivedWithin r.lexemes t := by
  induction requests generalizing r with
  | nil => cases h
  | cons request requests ih =>
      rcases List.mem_cons.1 h with hfirst | hrest
      · obtain rfl : answer = (r.perform request).1 := congrArg Prod.fst hfirst
        exact derivedWithin_of_perform ht
      · exact (ih hrest).mono (isSuffix_of_perform r request)

end Reader

theorem Returned.derivedWithin {source : List Char} {limit : Int} {t : Term}
    (h : Returned source limit t) : Reader.DerivedWithin (lexemes source) t := by
  cases h with
  | reader hmem ht => exact Reader.derivedWithin_of_mem_transcript hmem ht
  | readAll ht => exact Reader.derivedWithin_of_readAll ht
  | parse hparse =>
      rcases parse_cases source limit with ⟨d, hd, heq⟩ | ⟨-, heq⟩ | ⟨p, heq⟩ <;>
        rw [hparse] at heq <;> cases heq
      exact ⟨d, rfl, hd ▸ List.infix_rfl⟩

/-- Everywhere in a term that is returned when a text is read, there are only numbers, symbols that
cannot be mistaken, the empty list and pairs. If the text has no point among its tokens, then all
lists in the term end in the empty list. -/
theorem returned_terms_shape (source : List Char) (limit : Int) :
    ∃ ts, tokens source = .ok ts ∧ ∀ t, Returned source limit t →
      t.Everywhere Term.IsSpellable ∧
        ((∀ token ∈ ts, token.kind ≠ .dot) → t.Everywhere Term.EndsInNil) := by
  obtain ⟨ts, hts, hlex⟩ := exists_tokens source
  refine ⟨ts, hts, fun t ht => ?_⟩
  obtain ⟨d, rfl, hinfix⟩ := ht.derivedWithin
  have hmem : ∀ x ∈ d.lexemes, x ∈ lexemes source := fun x hx => hinfix.subset hx
  refine ⟨?_, fun hdots => d.endsInNil fun x hx => ?_⟩
  · exact d.value_of_keptByReading Term.keptByReading_isSpellable fun x hx =>
      proper_of_mem_lexemes (hmem x hx)
  · obtain ⟨token, htoken, rfl⟩ := List.mem_map.1 (hlex ▸ hmem x hx)
    exact hdots token htoken

end Parens
