import Parens.Proofs.Reader.Grammar
import Parens.Proofs.Term.Plain
import Parens.Proofs.Term.Text

/-!
Terms through the printer and the reader. The lexemes of the text of a plain term derive what the
term is read as, whatever follows at a boundary. So readable terms come back as they were, down to
the bits of their numbers, and no other term comes back as one that equals it.
-/

namespace Parens

open Number

section Lexing

theorem lexemes_blank (text : List Char) : lexemes (' ' :: text) = lexemes text :=
  lexemes_append_of_isLayout (.blank (by decide) .nil) text

theorem lexemes_opening (text : List Char) :
    lexemes ('(' :: text) = ⟨.opening, ['(']⟩ :: lexemes text :=
  lexemes_of_first? (Lexeme.first?_opening text)

theorem lexemes_closing (text : List Char) :
    lexemes (')' :: text) = ⟨.closing, [')']⟩ :: lexemes text :=
  lexemes_of_first? (Lexeme.first?_closing text)

theorem lexemes_quote (text : List Char) :
    lexemes ('\x27' :: text) = ⟨.quote, ['\x27']⟩ :: lexemes text :=
  lexemes_of_first? (Lexeme.first?_quote text)

theorem lexemes_point (text : List Char) :
    lexemes ('.' :: ' ' :: text) = ⟨.dot, ['.']⟩ :: lexemes text := by
  have hfirst : Lexeme.first? (['.'] ++ ' ' :: text) = some (⟨.dot, ['.']⟩, ' ' :: text) :=
    Lexeme.first?_run rfl (forall_isDelimiter_eq_false (by decide)) (by decide) (by decide)
  rw [← lexemes_blank text]
  exact lexemes_of_first? hfirst

/-- Lexemes in front of others derive a term. -/
def Spells (text : List Char) (t : Term) : Prop :=
  ∀ rest, atBoundary rest →
    ∃ d : Derivation, d.value = t ∧ lexemes (text ++ rest) = d.lexemes ++ lexemes rest

theorem spells_word {run : List Char} {t : Term} (hrun : run.all fun c => !isDelimiter c)
    (hne : run ≠ []) (hquote : run.head? ≠ some '\x27') (hkind : Token.Kind.ofRun run = .symbol)
    (ht : StandsFor run t) : Spells run t := fun _ hb =>
  ⟨.symbol ⟨⟨.ofRun run, run⟩, hkind⟩ t ht, rfl,
    lexemes_of_first? (Lexeme.first?_run hb (forall_isDelimiter_eq_false hrun) hne hquote)⟩

theorem spells_nil : Spells ['n', 'i', 'l'] .nil :=
  spells_word (by decide) (by decide) (by decide) (by decide) (.nil (by decide))

theorem spells_symbol {a : Name} (h : a.Readable) : Spells a.text (.symbol a) := by
  obtain ⟨hrun, hquote, hdot, hnil, hnumeral⟩ := h
  refine spells_word (by simpa using hrun) a.ne_nil hquote ?_ ?_
  · rw [Token.Kind.ofRun, if_neg hdot, if_neg (mt Numeral.isSome_ofText?_iff.1 hnumeral)]
  · exact .symbol (a.folded.symm ▸ hnil) a.folded.symm

theorem first?_numeral {run rest : List Char} {n : Numeral} (hn : Numeral.ofText? run = some n)
    (hb : atBoundary rest) : Lexeme.first? (run ++ rest) = some (⟨.number, run⟩, rest) := by
  have hsome : (Numeral.ofText? run).isSome := Option.isSome_iff_exists.2 ⟨n, hn⟩
  have hnumeral := Numeral.isSome_ofText?_iff.1 hsome
  have hdot : run ≠ ['.'] := by
    rintro rfl
    cases hn
  have hne : run ≠ [] := by
    rintro rfl
    cases hn
  have hkind : Token.Kind.ofRun run = .number := by
    rw [Token.Kind.ofRun, if_neg hdot, if_pos hsome]
  rw [← hkind]
  exact Lexeme.first?_run hb hnumeral.isDelimiter_eq_false hne hnumeral.head?_ne_quote

theorem spells_numeral {run : List Char} {n : Numeral} (hn : Numeral.ofText? run = some n) :
    Spells run (.number n.toFloat) := fun _ hb =>
  ⟨.number ⟨⟨.number, run⟩, rfl⟩ n hn, rfl, lexemes_of_first? (first?_numeral hn hb)⟩

theorem spells_nan : Spells ['n', 'a', 'n'] (.symbol .nan) :=
  spells_symbol (by decide)

theorem spells_infinity (negative : Bool) :
    Spells (signText negative ++ ['i', 'n', 'f']) (.symbol (.infinity negative)) := by
  cases negative
  · exact spells_symbol (by decide)
  · exact spells_symbol (by decide)

theorem spells_number (x : Float) : Spells (Number.text x) (Term.number x).reread := by
  cases hdecode : decode x with
  | notANumber =>
      rw [Number.text, Term.reread, hdecode]
      exact spells_nan
  | infinite negative =>
      rw [Number.text, Term.reread, hdecode]
      exact spells_infinity negative
  | finite negative m k =>
      have hfinite : Number.IsFinite x := ⟨negative, m, k, hdecode⟩
      obtain ⟨n, hn, hx⟩ := exists_numeral_of_isFinite hfinite
      rw [Term.reread_number hfinite, ← hx]
      rw [← hx] at hn
      exact spells_numeral hn

theorem spells_atom {t : Term} (ht : t.Plain) (hatom : ∀ a d, t ≠ .cons a d) :
    Spells t.atomText t.reread := by
  cases t with
  | nil => exact spells_nil
  | number x => exact spells_number x
  | symbol a => exact spells_symbol ht
  | cons a d => exact absurd rfl (hatom a d)
  | procedure _ => exact ht.elim

end Lexing

theorem atBoundary_restText (d : Term) (rest : List Char) : atBoundary (d.restText ++ rest) := by
  cases d <;> rfl

theorem spells_quoted {text : List Char} {t : Term} (h : Spells text t) :
    Spells ('\x27' :: text) t.quoted := by
  intro rest hb
  obtain ⟨d, rfl, hlex⟩ := h rest hb
  refine ⟨.quote ⟨⟨.quote, ['\x27']⟩, rfl⟩ d, rfl, ?_⟩
  rw [List.cons_append, lexemes_quote, hlex]
  rfl

/-- What is left of a list behind some items, with the lexemes behind the list and the term that the
list as a whole stands for. -/
inductive RestOfList (items : List Term) (behind : List Lexeme) : List Lexeme → Term → Prop
  | proper (more : Derivations) (right : Lexeme.Of .closing) :
      RestOfList items behind (more.lexemes ++ right.1 :: behind)
        (.ofList (items ++ more.values) .nil)
  | dotted (more : Derivations) (point : Lexeme.Of .dot) (tail : Derivation)
      (right : Lexeme.Of .closing) :
      RestOfList items behind (more.lexemes ++ point.1 :: (tail.lexemes ++ right.1 :: behind))
        (.ofList (items ++ more.values) tail.value)

namespace RestOfList

variable {items : List Term} {behind lexemes : List Lexeme} {t : Term}

theorem nil_closing (right : Lexeme.Of .closing) :
    RestOfList items behind (right.1 :: behind) (.ofList items .nil) := by
  have h : RestOfList items behind _ _ := proper .nil right
  simpa [Derivations.lexemes, Derivations.values] using h

theorem nil_dot (point : Lexeme.Of .dot) (tail : Derivation) (right : Lexeme.Of .closing) :
    RestOfList items behind (point.1 :: (tail.lexemes ++ right.1 :: behind))
      (.ofList items tail.value) := by
  have h : RestOfList items behind _ _ := dotted .nil point tail right
  simpa [Derivations.lexemes, Derivations.values] using h

theorem cons (d : Derivation) (h : RestOfList (items ++ [d.value]) behind lexemes t) :
    RestOfList items behind (d.lexemes ++ lexemes) t := by
  cases h with
  | proper more right =>
      have h : RestOfList items behind _ _ := proper (.cons d more) right
      simpa [Derivations.lexemes, Derivations.values] using h
  | dotted more point tail right =>
      have h : RestOfList items behind _ _ := dotted (.cons d more) point tail right
      simpa [Derivations.lexemes, Derivations.values] using h

theorem exists_derivation (left : Lexeme.Of .opening) (h : RestOfList [] behind lexemes t) :
    ∃ d : Derivation, d.value = t ∧ left.1 :: lexemes = d.lexemes ++ behind := by
  cases h with
  | proper more right =>
      exact ⟨.list left more right, Derivation.value_list left more right,
        by simp [Derivation.lexemes]⟩
  | dotted more point tail right =>
      exact ⟨.dotted left more point tail right, Derivation.value_dotted left more right point tail,
        by simp [Derivation.lexemes]⟩

end RestOfList

/-- The text behind some items of a list derives the rest of the list. -/
def SpellsRest (text : List Char) (t : Term) : Prop :=
  ∀ items rest, RestOfList items (lexemes rest) (lexemes (text ++ rest)) (.ofList items t)

theorem spellsRest_nil : SpellsRest [')'] .nil := by
  intro items rest
  rw [List.singleton_append, lexemes_closing]
  exact .nil_closing ⟨⟨.closing, [')']⟩, rfl⟩

theorem spellsRest_atom {text : List Char} {t : Term} (h : Spells text t) :
    SpellsRest (' ' :: '.' :: ' ' :: (text ++ [')'])) t := by
  intro items rest
  obtain ⟨d, rfl, hlex⟩ := h (')' :: rest) rfl
  rw [lexemes_closing] at hlex
  simp only [List.cons_append, List.append_assoc, List.nil_append, lexemes_blank, lexemes_point,
    hlex]
  exact .nil_dot ⟨⟨.dot, ['.']⟩, rfl⟩ d ⟨⟨.closing, [')']⟩, rfl⟩

theorem spellsRest_cons {text : List Char} {a : Term} {d t : Term} (h : Spells text a)
    (hrest : SpellsRest d.restText t) : SpellsRest (' ' :: (text ++ d.restText)) (.cons a t) := by
  intro items rest
  obtain ⟨e, rfl, hlex⟩ := h (d.restText ++ rest) (atBoundary_restText d rest)
  have hmore := RestOfList.cons e (hrest (items ++ [e.value]) rest)
  rw [Term.ofList, List.foldr_append] at hmore
  rw [List.cons_append, lexemes_blank, List.append_assoc, hlex]
  exact hmore

theorem spells_list {text : List Char} {a : Term} {d t : Term} (h : Spells text a)
    (hrest : SpellsRest d.restText t) : Spells ('(' :: (text ++ d.restText)) (.cons a t) := by
  intro rest _
  obtain ⟨e, he, hlex⟩ := (spellsRest_cons h hrest [] rest).exists_derivation
    ⟨⟨.opening, ['(']⟩, rfl⟩
  refine ⟨e, he, ?_⟩
  rw [List.cons_append, lexemes_opening, ← hlex, List.cons_append, lexemes_blank]

mutual

theorem spells_text (t : Term) (h : t.Plain) : Spells t.text t.reread := by
  cases t with
  | nil | number _ | symbol _ | procedure _ => exact spells_atom h nofun
  | cons a d =>
      cases hquotation : (Term.cons a d).quotation? with
      | some x =>
          have hlt := Term.size_lt_of_quotation? hquotation
          rw [Term.text_of_quotation? hquotation]
          rw [Term.quotation?_eq_some_iff] at hquotation
          rw [hquotation] at h ⊢
          exact spells_quoted (spells_text x h.2.1)
      | none =>
          rw [Term.text_cons hquotation]
          exact spells_list (spells_text a h.1) (spellsRest_restText d h.2)
termination_by t.size

theorem spellsRest_restText (d : Term) (h : d.Plain) : SpellsRest d.restText d.reread := by
  cases d with
  | nil => exact spellsRest_nil
  | number _ | symbol _ | procedure _ => exact spellsRest_atom (spells_atom h nofun)
  | cons a d => exact spellsRest_cons (spells_text a h.1) (spellsRest_restText d h.2)
termination_by d.size

end

theorem parse_of_spells {text : List Char} {t : Term} (h : Spells text t) :
    parse text 0 = .ok (some t) := by
  obtain ⟨d, rfl, hlex⟩ := h [] rfl
  have hnil : lexemes [] = [] := by
    rw [lexemes_eq_nil_iff]
    rfl
  rw [List.append_nil, hnil, List.append_nil] at hlex
  exact parse_of_derivation d hlex.symm

/-- A plain term is read back from its text as itself but for the numbers that are not finite. -/
theorem parse_render_of_plain {t : Term} (h : t.Plain) :
    parse t.render 0 = .ok (some t.reread) := by
  rw [Term.render_eq_text]
  exact parse_of_spells (spells_text t h)

theorem plain_of_parse {source : List Char} {t : Term} (h : parse source 0 = .ok (some t)) :
    t.Plain := by
  obtain ⟨d, hd, rfl⟩ := exists_derivation_iff_parse.2 h
  exact d.plain_value fun x hx => proper_of_mem_lexemes (hd ▸ hx)

/-- What equals a plain term once it has been written and read is a finite term. -/
theorem exists_parse_render_iff_of_plain {t : Term} (h : t.Plain) :
    (∃ u, parse t.render 0 = .ok (some u) ∧ u.equal t) ↔ t.IsFinite := by
  simp only [parse_render_of_plain h, Except.ok.injEq, Option.some.injEq, exists_eq_left',
    Term.equal_eq_same]
  refine ⟨Term.isFinite_of_same_reread, fun hfinite => ?_⟩
  rw [Term.reread_eq_self hfinite]
  exact Term.same_self hfinite

/-- The terms that come back from their text are the readable ones, and they come back bit by bit.
-/
theorem round_trip_iff_readable (t : Term) :
    ((∃ u, parse t.render 0 = .ok (some u) ∧ u.equal t) ↔ t.Readable) ∧
      (t.Readable → parse t.render 0 = .ok (some t)) := by
  rw [Term.readable_iff]
  refine ⟨⟨?_, fun h => (exists_parse_render_iff_of_plain h.1).2 h.2⟩, fun h => ?_⟩
  · rintro ⟨u, hparse, hequal⟩
    have hplain : t.Plain :=
      Term.plain_of_same (plain_of_parse hparse) (Term.equal_eq_same u t ▸ hequal)
    exact ⟨hplain, (exists_parse_render_iff_of_plain hplain).1 ⟨u, hparse, hequal⟩⟩
  · rw [parse_render_of_plain h.1, Term.reread_eq_self h.2]

end Parens
