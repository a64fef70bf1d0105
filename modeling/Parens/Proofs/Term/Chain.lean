import Parens.Proofs.Reader.Grammar
import Parens.Proofs.Reader.Shape
import Parens.Proofs.Term.Size
import Parens.Term.Chain

/-!
Chains of pairs and lists of items. Building a chain, taking it apart and going through it agree
with one another for every number of items and every tail. A list that is written as the tail of
another is read as the rest of it.
-/

namespace Parens

namespace Term

theorem kind_tail_ne (t : Term) : t.tail.kind ≠ .cons := by
  induction t with
  | nil | number _ | symbol _ | procedure _ => exact nofun
  | cons a d _ ih => exact ih

theorem ofList_items_tail (t : Term) : ofList t.items t.tail = t := by
  induction t with
  | nil | number _ | symbol _ | procedure _ => rfl
  | cons a d _ ih => rw [items, tail, ofList_cons, ih]

theorem ofList_append (xs ys : List Term) (t : Term) :
    ofList (xs ++ ys) t = ofList xs (ofList ys t) := List.foldr_append

theorem build_eq_ofList (items : List Term) (tail : Term) : build items tail = ofList items tail :=
  List.foldl_reverse

theorem splitAfter_eq (taken : List Term) (t : Term) :
    splitAfter taken t = (taken ++ t.items, t.tail) := by
  induction t generalizing taken with
  | nil | number _ | symbol _ | procedure _ => simp [splitAfter, items, tail]
  | cons a d _ ih => rw [splitAfter, ih, items, tail, List.append_assoc, List.singleton_append]

theorem split_eq (t : Term) : t.split = (t.items, t.tail) := splitAfter_eq [] t

theorem iterates_items (t : Term) : t.Iterates t.items := by
  induction t with
  | nil | number _ | symbol _ | procedure _ => exact .stop rfl
  | cons a d _ ih => exact .item rfl ih

theorem Iterates.eq_items {t : Term} {xs : List Term} (h : t.Iterates xs) : xs = t.items := by
  induction h with
  | @stop t hnext =>
      cases t with
      | nil | number _ | symbol _ | procedure _ => rfl
      | cons a d => cases hnext
  | @item t a d items hnext _ ih =>
      cases t with
      | nil | number _ | symbol _ | procedure _ => cases hnext
      | cons b e =>
          cases hnext
          rw [ih, Parens.Term.items]

end Term

section

variable {source : List Char} {ts : List Token} {xs : List Lexeme}

theorem parse_of_tokens (d : Derivation) (hts : tokens source = .ok ts)
    (h : ts.map Token.lexeme = d.lexemes) : parse source 0 = .ok (some d.value) := by
  obtain ⟨ts', hts', hlex⟩ := exists_tokens source
  rw [hts] at hts'
  cases hts'
  exact parse_of_derivation d (h.symm.trans hlex)

theorem Derivations.exists_append (d e : Derivations) :
    ∃ f : Derivations, f.lexemes = d.lexemes ++ e.lexemes ∧ f.values = d.values ++ e.values := by
  match d with
  | .nil => exact ⟨e, rfl, rfl⟩
  | .cons first rest =>
      obtain ⟨f, hlexemes, hvalues⟩ := rest.exists_append e
      refine ⟨.cons first f, ?_, ?_⟩
      · rw [lexemes, lexemes, hlexemes, List.append_assoc]
      · rw [values, values, hvalues, List.cons_append]

theorem WritesList.exists_derivation {items : Derivations} {tail : Option Derivation}
    (h : WritesList items.lexemes (tail.map Derivation.lexemes) xs) :
    ∃ d : Derivation, xs = d.lexemes ∧ d.value = .ofList items.values (.ending tail) := by
  cases tail with
  | none =>
      cases h with
      | proper left right =>
          exact ⟨.list left items right, rfl, Derivation.value_list left items right⟩
  | some tail =>
      cases h with
      | dotted left point _ right =>
          exact ⟨.dotted left items point tail right, rfl,
            Derivation.value_dotted left items right point tail⟩

end

/-- Chains are taken apart into lists and built from them without loss. A list in the place of a
tail is read as the rest of the list, so that all its items are items of one list. -/
theorem Term.chains_are_lists :
    (∀ t : Term, t.split = (t.items, t.tail) ∧ t.tail.kind ≠ .cons ∧ build t.items t.tail = t ∧
      ∀ xs, t.Iterates xs ↔ xs = t.items) ∧
    (∀ (xs : List Term) (y : Term), build xs y = ofList xs y ∧
      (build xs y).split = (xs ++ y.split.1, y.split.2)) ∧
    (∀ (source : List Char) (ts : List Token) (items : Derivations) (tail : Option Derivation),
      tokens source = .ok ts →
      WritesList items.lexemes (tail.map Derivation.lexemes) (ts.map Token.lexeme) →
        parse source 0 =
          .ok (some (ofList (items.values ++ (ending tail).items) (ending tail).tail))) ∧
    ∀ (nested flat : List Char) (ts us : List Token) (inner : List Lexeme)
      (items more : Derivations) (tail : Option Derivation),
      tokens nested = .ok ts → WritesList items.lexemes (some inner) (ts.map Token.lexeme) →
      WritesList more.lexemes (tail.map Derivation.lexemes) inner →
      tokens flat = .ok us →
      WritesList (items.lexemes ++ more.lexemes) (tail.map Derivation.lexemes)
        (us.map Token.lexeme) →
        parse nested 0 = .ok (some (ofList (items.values ++ more.values) (ending tail))) ∧
          parse flat 0 = parse nested 0 := by
  refine ⟨fun t => ⟨t.split_eq, t.kind_tail_ne, ?_, fun xs => ⟨Iterates.eq_items, ?_⟩⟩,
    fun xs y => ⟨build_eq_ofList xs y, ?_⟩, fun source ts items tail hts h => ?_,
    fun nested flat ts us inner items more tail hts h hinner hus hflat => ?_⟩
  · rw [build_eq_ofList, ofList_items_tail]
  · rintro rfl
    exact t.iterates_items
  · rw [build_eq_ofList, split_eq, split_eq, items_ofList_append, tail_ofList]
  · obtain ⟨d, hd, hvalue⟩ := h.exists_derivation
    rw [parse_of_tokens d hts hd, hvalue, ofList_append, ofList_items_tail]
  · obtain ⟨rest, rfl, hrest⟩ := hinner.exists_derivation
    have hnested : WritesList items.lexemes ((some rest).map Derivation.lexemes)
      (ts.map Token.lexeme) := h
    obtain ⟨d, hd, hvalue⟩ := hnested.exists_derivation
    obtain ⟨all, hlexemes, hvalues⟩ := items.exists_append more
    rw [← hlexemes] at hflat
    obtain ⟨e, he, hsame⟩ := hflat.exists_derivation
    have hall : d.value = ofList (items.values ++ more.values) (ending tail) := by
      rw [hvalue, ofList_append, ← hrest]
      rfl
    rw [parse_of_tokens d hts hd, parse_of_tokens e hus he, hall, hsame, hvalues]
    exact ⟨rfl, rfl⟩

theorem Term.chains_are_lists_two_tails :
    parse "(t . (nil . quote))".toList 0 =
        .ok (some (ofList [symbol .t, nil] (symbol .quote))) ∧
      parse "(t nil . quote)".toList 0 = parse "(t . (nil . quote))".toList 0 := by
  let word (text : List Char) : Lexeme.Of .symbol := ⟨⟨.symbol, text⟩, rfl⟩
  let left : Lexeme.Of .opening := ⟨⟨.opening, ['(']⟩, rfl⟩
  let point : Lexeme.Of .dot := ⟨⟨.dot, ['.']⟩, rfl⟩
  let right : Lexeme.Of .closing := ⟨⟨.closing, [')']⟩, rfl⟩
  let first : Derivation := .symbol (word ['t']) (symbol .t)
    (.symbol (by decide) (by decide))
  let second : Derivation := .symbol (word "nil".toList) nil (.nil (by decide))
  let last : Derivation := .symbol (word "quote".toList) (symbol .quote)
    (.symbol (by decide) (by decide))
  exact chains_are_lists.2.2.2 "(t . (nil . quote))".toList "(t nil . quote)".toList _ _ _
    (.cons first .nil) (.cons second .nil) (some last) (by cbv) (.dotted left point _ right)
    (.dotted left point _ right) (by cbv) (.dotted left point _ right)

end Parens
