import Mathlib.Data.List.Nodup
import Parens.Proofs.Token.Coverage
import Parens.Token.History

/-!
A lexer that is asked for tokens, told to skip layout and told to push tokens back, in any order. It
takes back only the token that it handed out last, and only from right behind it. Then no token is
lost and none is handed out twice: the tokens that were kept and those still to be read are the
tokens of the text.
-/

namespace Parens

theorem places_of_first? {pos : Nat} {text rest : List Char} {x : Lexeme}
    (h : Lexeme.first? text = some (x, rest)) :
    places pos text = (x, pos + layoutLength false 0 text) ::
      places (pos + layoutLength false 0 text + x.text.length) rest := by
  rw [places]
  split <;> simp_all

theorem places_of_first?_eq_none {pos : Nat} {text : List Char} (h : Lexeme.first? text = none) :
    places pos text = [] := by
  rw [places]
  split <;> simp_all

/-- Layout that is skipped does not change what is to be read, nor where. -/
theorem places_of_skipsTo {pos : Nat} {text layout rest : List Char}
    (h : SkipsTo text layout rest) :
    places (pos + layout.length) rest = places pos text := by
  have hcode : code text = rest := by rw [code, h.length_eq, h.eq_append, List.drop_left]
  have hfirst : Lexeme.first? rest = Lexeme.first? text := by rw [← hcode, Lexeme.first?_code]
  have hrest : layoutLength false 0 rest = 0 := (skipsTo_of_isCode h.isCode).length_eq
  cases hx : Lexeme.first? text with
  | none => rw [places_of_first?_eq_none hx, places_of_first?_eq_none (hfirst.trans hx)]
  | some x =>
      rw [places_of_first? hx, places_of_first? (hfirst.trans hx), h.length_eq, hrest, Nat.add_zero]

namespace Lexer

theorem places_of_takes {l l' : Lexer} {layout : List Char} {token : Token}
    (h : l.Takes layout token l') :
    places l.cursor.pos l.cursor.after = token.place :: places l'.cursor.pos l'.cursor.after := by
  rw [places_of_first? h.first?_eq, h.skipsTo.length_eq, ← h.start_eq, h.pos_eq]
  rfl

theorem places_of_ends {l l' : Lexer} {layout : List Char} (h : l.Ends layout l') :
    places l.cursor.pos l.cursor.after = [] := by
  rw [← places_of_skipsTo h.skipsTo, places_of_first?_eq_none rfl]

theorem place_of_drain {l : Lexer} {ts : List Token} (h : l.drain.1 = .ok ts) :
    ts.map Token.place = places l.cursor.pos l.cursor.after := by
  fun_induction drain l generalizing ts with
  | case1 l e l' hnext => cases h
  | case2 l l' hnext =>
      cases h
      obtain ⟨layout, hends⟩ := ends_of_next hnext
      rw [places_of_ends hends, List.map_nil]
  | case3 l token l' hnext tokens l'' hdrain ih =>
      cases h
      obtain ⟨layout, htakes⟩ := takes_of_next hnext
      rw [places_of_takes htakes, List.map_cons, ih (by rw [hdrain])]
  | case4 l token l' hnext e l'' hdrain ih => cases h

/-- A token would be read again at the place where it was read. -/
def Recurs (source : List Char) (token : Token) : Prop :=
  places token.start (source.drop token.start) =
    token.place :: places token.stop (source.drop token.stop)

theorem recurs_of_takes {l l' : Lexer} {layout : List Char} {token : Token}
    (h : l.Takes layout token l') : Recurs l.cursor.source token := by
  have hstart : l.cursor.source.drop token.start = token.text ++ l'.cursor.after := by
    rw [h.start_eq, ← List.drop_drop, Cursor.drop_pos_source, h.skipsTo.eq_append, List.drop_left]
  have hstop : l.cursor.source.drop token.stop = l'.cursor.after := by
    rw [← h.pos_eq, ← source_of_takes h, Cursor.drop_pos_source]
  rw [Recurs, hstart, hstop, ← h.pos_eq, h.start_eq, places_of_skipsTo h.skipsTo,
    places_of_takes h]

end Lexer

namespace History

open Lexer (Request Event Recurs)

/-- What holds of a lexer whatever has happened to it. -/
structure Sound (source : List Char) (h : History) : Prop where
  source_eq : h.lexer.cursor.source = source
  serials_eq : (handedOut h.events).map Token.serial = List.range h.lexer.issued
  last_eq : h.lexer.last = if isTakenBack h.events then none else latest h.events
  kept_sublist : (kept h.events).Sublist (handedOut h.events)
  kept_last : ∀ token, h.lexer.last = some token →
    (∃ before, kept h.events = before ++ [token]) ∧ Recurs source token
  places_eq : (kept h.events).map Token.place ++ places h.lexer.cursor.pos h.lexer.cursor.after =
    places 0 source

variable {source : List Char} {h : History}

theorem sound_start (source : List Char) : Sound source (start source) where
  source_eq := Cursor.source_ofText source
  serials_eq := rfl
  last_eq := rfl
  kept_sublist := .slnil
  kept_last := nofun
  places_eq := rfl

theorem Sound.takes (hs : Sound source h) {layout : List Char} {token : Token} {l : Lexer}
    (ht : h.lexer.Takes layout token l) :
    Sound source ⟨l, .next (.ok (some token)) :: h.events⟩ where
  source_eq := (Lexer.source_of_takes ht).trans hs.source_eq
  serials_eq := by
    rw [handedOut, List.map_append, hs.serials_eq, ht.issued_eq, List.range_succ, ← ht.serial_eq]
    rfl
  last_eq := ht.last_eq
  kept_sublist := hs.kept_sublist.append (.refl _)
  kept_last := by
    intro token' hlast
    rw [ht.last_eq] at hlast
    cases hlast
    exact ⟨⟨_, rfl⟩, hs.source_eq ▸ Lexer.recurs_of_takes ht⟩
  places_eq := by
    rw [kept, List.map_append, List.append_assoc, ← hs.places_eq, Lexer.places_of_takes ht]
    rfl

theorem Sound.ends (hs : Sound source h) {layout : List Char} {l : Lexer}
    (he : h.lexer.Ends layout l) : Sound source ⟨l, .next (.ok none) :: h.events⟩ where
  source_eq := (Lexer.source_of_ends he).trans hs.source_eq
  serials_eq := by
    rw [he.issued_eq]
    exact hs.serials_eq
  last_eq := he.last_eq
  kept_sublist := hs.kept_sublist
  kept_last := by simp [he.last_eq]
  places_eq := by
    rw [he.after_eq, places_of_first?_eq_none rfl, ← hs.places_eq, Lexer.places_of_ends he]
    rfl

theorem Sound.nodup_kept (hs : Sound source h) : (kept h.events).Nodup := by
  have hserials : ((handedOut h.events).map Token.serial).Nodup := by
    rw [hs.serials_eq]
    exact List.nodup_range
  exact hs.kept_sublist.nodup (List.Nodup.of_map _ hserials)

theorem unread_of_pushable {l : Lexer} {token : Token} (hlast : l.last = some token)
    (hpos : token.stop = l.cursor.pos) :
    l.unread token =
      (.ok (), { l with cursor := l.cursor.retreat token.text.length, last := none }) := by
  simp only [Lexer.unread, Lexer.unread?, hlast, hpos, and_self, if_true]

theorem unread_of_not_pushable {l : Lexer} {token : Token}
    (h : ¬ (l.last = some token ∧ token.stop = l.cursor.pos)) :
    l.unread token = (.error .staleToken, l) := by
  simp only [Lexer.unread, Lexer.unread?, h, if_false]

/-- A token that is taken back is no longer kept, and is to be read again. -/
theorem Sound.takesBack (hs : Sound source h) {token : Token} (hlast : h.lexer.last = some token)
    (hpos : token.stop = h.lexer.cursor.pos) :
    Sound source ⟨{ h.lexer with
      cursor := h.lexer.cursor.retreat token.text.length, last := none },
      .unread token (.ok ()) :: h.events⟩ where
  source_eq := by rw [Cursor.source_retreat, hs.source_eq]
  serials_eq := hs.serials_eq
  last_eq := rfl
  kept_sublist := List.erase_sublist.trans hs.kept_sublist
  kept_last := nofun
  places_eq := by
    obtain ⟨⟨before, hkept⟩, hrecurs⟩ := hs.kept_last token hlast
    have hnew : token ∉ before := by
      have hnodup := hs.nodup_kept
      rw [hkept, List.nodup_append] at hnodup
      exact fun hmem => hnodup.2.2 token hmem token (List.mem_singleton_self _) rfl
    have herase : (kept h.events).erase token = before := by
      rw [hkept, List.erase_append_right _ hnew, List.erase_cons_head, List.append_nil]
    have hstart : (h.lexer.cursor.retreat token.text.length).pos = token.start := by
      rw [Token.stop] at hpos
      rw [Cursor.pos_retreat (by omega)]
      omega
    have hrest : (h.lexer.cursor.retreat token.text.length).after = source.drop token.start := by
      rw [← Cursor.drop_pos_source, Cursor.source_retreat, hs.source_eq, hstart]
    have hafter : source.drop token.stop = h.lexer.cursor.after := by
      rw [hpos, ← hs.source_eq, Cursor.drop_pos_source]
    rw [kept, herase, hstart, hrest, hrecurs, hafter, hpos, ← hs.places_eq, hkept]
    simp only [List.map_append, List.map_cons, List.map_nil, List.append_assoc, List.cons_append,
      List.nil_append]

theorem Sound.refuses (hs : Sound source h) (token : Token) :
    Sound source ⟨h.lexer, .unread token (.error .staleToken) :: h.events⟩ :=
  ⟨hs.source_eq, hs.serials_eq, hs.last_eq, hs.kept_sublist, hs.kept_last, hs.places_eq⟩

theorem Sound.unread (hs : Sound source h) (token : Token) :
    Sound source
      ⟨(h.lexer.unread token).2, .unread token (h.lexer.unread token).1 :: h.events⟩ := by
  by_cases hpushable : h.lexer.last = some token ∧ token.stop = h.lexer.cursor.pos
  · rw [unread_of_pushable hpushable.1 hpushable.2]
    exact hs.takesBack hpushable.1 hpushable.2
  · rw [unread_of_not_pushable hpushable]
    exact hs.refuses token

theorem Sound.atEnd (hs : Sound source h) (answer : Bool) :
    Sound source ⟨h.lexer, .atEnd answer :: h.events⟩ :=
  ⟨hs.source_eq, hs.serials_eq, hs.last_eq, hs.kept_sublist, hs.kept_last, hs.places_eq⟩

theorem Sound.skip (hs : Sound source h) :
    Sound source ⟨h.lexer.skipLayout, .skip :: h.events⟩ where
  source_eq := (Cursor.source_advance _ _).trans hs.source_eq
  serials_eq := hs.serials_eq
  last_eq := hs.last_eq
  kept_sublist := hs.kept_sublist
  kept_last := hs.kept_last
  places_eq := by
    obtain ⟨layout, rest, hskips⟩ := exists_skipsTo h.lexer.cursor.after
    obtain ⟨hafter, -, hpos⟩ := Lexer.skipLayout_of_skipsTo hskips
    rw [hafter, hpos, places_of_skipsTo hskips]
    exact hs.places_eq

/-- Whatever is asked next, the lexer stays sound. -/
theorem Sound.perform (hs : Sound source h) (request : Request) :
    Sound source (h.perform request) := by
  cases request with
  | next =>
      rcases h.lexer.takes_or_ends with ⟨layout, token, l, ht⟩ | ⟨layout, l, he⟩
      · simp only [History.perform, ht.next_eq]
        exact hs.takes ht
      · simp only [History.perform, he.next_eq]
        exact hs.ends he
  | unread index =>
      simp only [History.perform]
      split
      · exact hs.unread _
      · exact hs
  | skip => exact hs.skip
  | atEnd => exact hs.atEnd _

theorem sound_run (source : List Char) (requests : List Request) :
    Sound source (run source requests) := by
  have hfold : ∀ h, Sound source h → Sound source (requests.foldl perform h) := by
    induction requests with
    | nil => exact fun h hs => hs
    | cons request requests ih => exact fun h hs => ih _ (hs.perform request)
  exact hfold _ (sound_start source)

/-- A lexer stays in its text, and numbers the tokens that it hands out, so that each is told from
all others. It takes a token back exactly if this is the one that was handed out when one was last
asked for, was not taken back since and ends where the cursor stands; otherwise it refuses and stays
as it is. The tokens that were kept are in order the first ones of the text, and the others are
still to be read. -/
theorem run_loses_nothing (source : List Char) (requests : List Request) :
    let h := run source requests
    h.lexer.cursor.source = source ∧ h.lexer.cursor.pos ≤ source.length ∧
      (handedOut h.events).map Token.serial = List.range h.lexer.issued ∧
      (∀ token,
        ((h.lexer.unread token).1 = .ok () ↔ latest h.events = some token ∧
          isTakenBack h.events = false ∧ h.lexer.cursor.pos = token.stop) ∧
        ((h.lexer.unread token).1 ≠ .ok () →
          h.lexer.unread token = (.error .staleToken, h.lexer))) ∧
      ∃ ts rest, tokens source = .ok ts ∧ h.lexer.drain.1 = .ok rest ∧
        ts.map Token.place = (kept h.events).map Token.place ++ rest.map Token.place := by
  intro h
  have hs : Sound source h := sound_run source requests
  have hle : h.lexer.cursor.pos ≤ source.length := hs.source_eq ▸ h.lexer.cursor.pos_le
  refine ⟨hs.source_eq, hle, hs.serials_eq, fun token => ?_, ?_⟩
  · have hlast : h.lexer.last = some token ↔
        latest h.events = some token ∧ isTakenBack h.events = false := by
      rw [hs.last_eq]
      cases isTakenBack h.events <;> simp
    by_cases hpushable : h.lexer.last = some token ∧ token.stop = h.lexer.cursor.pos
    · have hlatest := hlast.1 hpushable.1
      rw [unread_of_pushable hpushable.1 hpushable.2]
      exact ⟨iff_of_true rfl ⟨hlatest.1, hlatest.2, hpushable.2.symm⟩, fun hne => absurd rfl hne⟩
    · rw [unread_of_not_pushable hpushable]
      refine ⟨iff_of_false nofun fun hall => ?_, fun _ => rfl⟩
      exact hpushable ⟨hlast.2 ⟨hall.1, hall.2.1⟩, hall.2.2.symm⟩
  · obtain ⟨ts, hts, -⟩ := exists_tokens source
    obtain ⟨rest, hrest, -⟩ := h.lexer.exists_drain
    have hplaces : ts.map Token.place = places 0 source :=
      Lexer.place_of_drain (l := .ofText source) hts
    exact ⟨ts, rest, hts, hrest, by rw [hplaces, ← hs.places_eq, Lexer.place_of_drain hrest]⟩

end History
end Parens
