import Mathlib.Data.List.TakeWhile
import Parens.Number.Grammar
import Parens.Token.Basic

/-!
The rules for tokens against runs of characters. The rules are tried in order, each takes as many
characters as it can, and only then its match is held against the boundary. All of this comes to one
look at the run of characters up to the next delimiter: the run as a whole is the token, and what it
spells decides the kind. A parenthesis or a quote in front is a token of one character.
-/

namespace Parens

open Number

theorem isDelimiter_of_isDigit {c : Char} (h : isDigit c) : isDelimiter c = false := by
  have h' : '0' ≤ c ∧ c ≤ '9' := by simpa [isDigit] using h
  have h₁ : 48 ≤ c.toNat := h'.1
  have h₂ : c.toNat ≤ 57 := h'.2
  have hne : ∀ d : Char, d.toNat < 48 ∨ 57 < d.toNat → c ≠ d := by
    rintro d hd rfl
    omega
  have hblank : Text.isBlank c = false := by
    rw [Bool.eq_false_iff]
    intro hb
    simp only [Text.isBlank, Text.inRanges, Text.blankRanges, Text.CodeRange.contains,
      List.any_cons, List.any_nil, Bool.or_eq_true, Bool.and_eq_true, Nat.ble_eq,
      Bool.false_eq_true, or_false] at hb
    omega
  simp [isDelimiter, hblank, hne '(' (by decide), hne ')' (by decide), hne ';' (by decide)]

theorem forall_isDelimiter_eq_false {run : List Char} (h : run.all fun c => !isDelimiter c) :
    ∀ c ∈ run, isDelimiter c = false := by
  simpa using h

theorem isDelimiter_point : isDelimiter '.' = false := by decide

theorem isDelimiter_minus : isDelimiter '-' = false := by decide

theorem drop_takeWhile_length {α : Type} (p : α → Bool) (l : List α) :
    l.drop (l.takeWhile p).length = l.dropWhile p := by
  induction l with
  | nil => rfl
  | cons a l ih => by_cases h : p a <;> simp [h, ih]

namespace Number

/-- A numeral consists of digits, the point and the minus sign. -/
theorem IsNumeral.forall_mem {text : List Char} {p : Char → Prop} (h : IsNumeral text)
    (hdigit : ∀ c, isDigit c → p c) (hpoint : p '.') (hminus : p '-') : ∀ c ∈ text, p c := by
  have hunsigned : ∀ {text : List Char}, IsUnsigned text → ∀ c ∈ text, p c := by
    intro text h c hc
    cases h with
    | whole h => exact hdigit c (h.2 c hc)
    | pointed h hp =>
        rcases List.mem_append.1 hc with hc | hc
        · exact hdigit c (h.2 c hc)
        · rcases List.mem_cons.1 hc with rfl | hc
          · exact hpoint
          · exact hdigit c (hp c hc)
    | fraction h =>
        rcases List.mem_cons.1 hc with rfl | hc
        · exact hpoint
        · exact hdigit c (h.2 c hc)
  cases h with
  | plain h => exact hunsigned h
  | minus h =>
      intro c hc
      rcases List.mem_cons.1 hc with rfl | hc
      · exact hminus
      · exact hunsigned h c hc

theorem IsNumeral.isDelimiter_eq_false {text : List Char} (h : IsNumeral text) :
    ∀ c ∈ text, isDelimiter c = false :=
  h.forall_mem (fun _ => isDelimiter_of_isDigit) isDelimiter_point isDelimiter_minus

theorem IsNumeral.head?_ne_quote {text : List Char} (h : IsNumeral text) :
    text.head? ≠ some '\x27' := by
  intro hhead
  have hmem := List.mem_of_mem_head? hhead
  refine h.forall_mem (p := (· ≠ '\x27')) ?_ (by decide) (by decide) _ hmem rfl
  rintro c hc rfl
  cases hc

theorem IsUnsigned.ne_nil {text : List Char} (h : IsUnsigned text) : text ≠ [] := by
  cases h with
  | whole h => exact h.1
  | pointed _ _ => exact List.append_ne_nil_of_right_ne_nil _ (List.cons_ne_nil _ _)
  | fraction _ => exact List.cons_ne_nil _ _

theorem exists_unsigned_front {text : List Char} {n : Nat} (h : unsignedLength? text = some n) :
    ∃ front rest, text = front ++ rest ∧ front.length = n ∧ IsUnsigned front := by
  have hwhole : ∀ c ∈ text.takeWhile isDigit, isDigit c := fun c => List.mem_takeWhile_imp
  have hsplit := text.takeWhile_append_dropWhile (p := isDigit)
  simp only [unsignedLength?, drop_takeWhile_length, List.length_eq_zero_iff] at h
  split at h
  · rename_i rest heq
    have hplaces : ∀ c ∈ rest.takeWhile isDigit, isDigit c := fun c => List.mem_takeWhile_imp
    split at h
    · cases h
    · rename_i hne
      cases h
      refine ⟨text.takeWhile isDigit ++ '.' :: rest.takeWhile isDigit, rest.dropWhile isDigit,
        ?_, ?_, ?_⟩
      · rw [List.append_assoc, List.cons_append, List.takeWhile_append_dropWhile, ← heq, hsplit]
      · rw [List.length_append, List.length_cons, Nat.add_assoc, Nat.add_comm 1]
      · by_cases hnil : text.takeWhile isDigit = []
        · rw [hnil]
          exact .fraction ⟨fun hp => hne ⟨hnil, hp⟩, hplaces⟩
        · exact .pointed ⟨hnil, hwhole⟩ hplaces
  · split at h
    · cases h
    · rename_i hne
      cases h
      exact ⟨_, _, hsplit.symm, rfl, .whole ⟨hne, hwhole⟩⟩

theorem exists_numeral_front {text : List Char} {n : Nat} (h : numeralLength? text = some n) :
    ∃ front rest, text = front ++ rest ∧ front.length = n ∧ IsNumeral front := by
  unfold numeralLength? at h
  split at h
  · obtain ⟨m, hm, rfl⟩ := Option.map_eq_some_iff.1 h
    obtain ⟨front, rest, rfl, rfl, hf⟩ := exists_unsigned_front hm
    exact ⟨'-' :: front, rest, rfl, rfl, .minus hf⟩
  · obtain ⟨front, rest, rfl, rfl, hf⟩ := exists_unsigned_front h
    exact ⟨front, rest, rfl, rfl, .plain hf⟩

theorem takeWhile_isDigit_of_atBoundary {rest : List Char} (h : atBoundary rest) :
    rest.takeWhile isDigit = [] := by
  cases rest with
  | nil => rfl
  | cons c rest =>
      have hc : ¬ isDigit c := fun hd => by
        simp [atBoundary, isDelimiter_of_isDigit hd] at h
      exact List.takeWhile_cons_of_neg hc

theorem takeWhile_append_point {digits : List Char} (h : ∀ c ∈ digits, isDigit c)
    (text : List Char) : (digits ++ '.' :: text).takeWhile isDigit = digits := by
  rw [List.takeWhile_append_of_pos h, List.takeWhile_cons_of_neg (by simp [isDigit_point]),
    List.append_nil]

theorem unsignedLength?_point {digits places rest : List Char} (hd : ∀ c ∈ digits, isDigit c)
    (hp : ∀ c ∈ places, isDigit c) (hne : digits ≠ [] ∨ places ≠ []) (hb : atBoundary rest) :
    unsignedLength? (digits ++ '.' :: (places ++ rest)) =
      some (digits.length + 1 + places.length) := by
  have hplaces : (places ++ rest).takeWhile isDigit = places := by
    rw [List.takeWhile_append_of_pos hp, takeWhile_isDigit_of_atBoundary hb, List.append_nil]
  have hsome : ¬ (digits.length = 0 ∧ places.length = 0) := by
    rw [List.length_eq_zero_iff, List.length_eq_zero_iff, not_and_or]
    exact hne
  simp only [unsignedLength?, takeWhile_append_point hd, List.drop_left, hplaces, hsome, if_false]

theorem unsignedLength?_append {front rest : List Char} (h : IsUnsigned front)
    (hb : atBoundary rest) : unsignedLength? (front ++ rest) = some front.length := by
  cases h with
  | whole h =>
      simp only [unsignedLength?, List.takeWhile_append_of_pos h.2,
        takeWhile_isDigit_of_atBoundary hb, List.append_nil, List.drop_left,
        List.length_eq_zero_iff, h.1]
      split
      · cases hb
      · rfl
  | @pointed digits places h hp =>
      rw [List.append_assoc, List.cons_append, unsignedLength?_point h.2 hp (.inl h.1) hb,
        List.length_append, List.length_cons, Nat.add_assoc, Nat.add_comm 1]
  | @fraction places h =>
      have hpoint := @unsignedLength?_point [] places rest (List.forall_mem_nil _) h.2 (.inr h.1) hb
      rwa [List.length_nil, Nat.zero_add, Nat.add_comm] at hpoint

theorem numeralLength?_append {front rest : List Char} (h : IsNumeral front)
    (hb : atBoundary rest) : numeralLength? (front ++ rest) = some front.length := by
  cases h with
  | plain h =>
      obtain ⟨c, front, rfl⟩ := List.exists_cons_of_ne_nil h.ne_nil
      have hc : c ≠ '-' := by
        rintro rfl
        exact Numeral.not_isUnsigned_minus h
      have hu := unsignedLength?_append h hb
      unfold numeralLength?
      split
      · rename_i heq
        cases heq
        exact absurd rfl hc
      · exact hu
  | minus h => simp [numeralLength?, unsignedLength?_append h hb]

end Number

namespace Token

/-- The kind of the token that is spelt by a run of characters without a delimiter. -/
def Kind.ofRun (run : List Char) : Kind :=
  if run = ['.'] then .dot else if (Numeral.ofText? run).isSome then .number else .symbol

variable {run rest : List Char}

/-- A gated rule does not match on a part of a run. -/
theorem atBoundary_drop_append {n : Nat} (hrun : ∀ c ∈ run, isDelimiter c = false)
    (hn : n < run.length) : atBoundary ((run ++ rest).drop n) = false := by
  rw [List.drop_append_of_le_length (Nat.le_of_lt hn), List.drop_eq_getElem_cons hn]
  exact hrun _ (List.getElem_mem hn)

theorem match?_gated {kind : Kind} {length? : List Char → Option Nat} {text : List Char} :
    (⟨kind, length?, true⟩ : Rule).match? text =
      (length? text).bind fun n => if atBoundary (text.drop n) then some (kind, n) else none := by
  simp only [Rule.match?]
  cases length? text with
  | none => rfl
  | some n => cases h : atBoundary (text.drop n) <;> simp [h]

theorem match?_dot (hb : atBoundary rest) (hrun : ∀ c ∈ run, isDelimiter c = false)
    (hne : run ≠ []) :
    (⟨.dot, charLength? '.', true⟩ : Rule).match? (run ++ rest) =
      if run = ['.'] then some (.dot, 1) else none := by
  obtain ⟨c, run, rfl⟩ := List.exists_cons_of_ne_nil hne
  by_cases hc : c = '.'
  · cases run with
    | nil => simp [match?_gated, charLength?, hc, hb]
    | cons d run =>
        have hgate : atBoundary ((c :: d :: run ++ rest).drop 1) = false :=
          atBoundary_drop_append hrun (by simp)
        simpa [match?_gated, charLength?, hc, List.cons_append] using hgate
  · simp [match?_gated, charLength?, hc]

theorem match?_number (hb : atBoundary rest) (hrun : ∀ c ∈ run, isDelimiter c = false) :
    (⟨.number, numeralLength?, true⟩ : Rule).match? (run ++ rest) =
      if (Numeral.ofText? run).isSome then some (.number, run.length) else none := by
  rw [match?_gated]
  split_ifs with h
  · have hl := numeralLength?_append (Numeral.isSome_ofText?_iff.1 h) hb
    simp [hl, hb]
  · cases hl : numeralLength? (run ++ rest) with
    | none => rfl
    | some n =>
        -- The numeral in front is not the run: it leaves a part of it, or takes a delimiter.
        obtain ⟨front, back, hsplit, rfl, hf⟩ := exists_numeral_front hl
        have hne : front ≠ run := by
          rintro rfl
          exact h (Numeral.isSome_ofText?_iff.2 hf)
        rcases List.append_eq_append_iff.1 hsplit with ⟨more, rfl, rfl⟩ | ⟨part, rfl, rfl⟩
        · cases more with
          | nil => exact absurd (List.append_nil run) hne
          | cons d more =>
              have hd := hf.isDelimiter_eq_false d (by simp)
              simp [atBoundary, hd] at hb
        · have hpart : part ≠ [] := fun hnil => hne (by rw [hnil, List.append_nil])
          have hgate : atBoundary ((front ++ part ++ rest).drop front.length) = false :=
            atBoundary_drop_append hrun (by simpa [List.length_pos_iff] using hpart)
          simp only [Option.bind_some, hgate, Bool.false_eq_true, if_false]

theorem match?_symbol (hb : atBoundary rest) (hrun : ∀ c ∈ run, isDelimiter c = false)
    (hne : run ≠ []) :
    (⟨.symbol, runLength?, true⟩ : Rule).match? (run ++ rest) = some (.symbol, run.length) := by
  have htake : (run ++ rest).takeWhile (fun c => !isDelimiter c) = run := by
    rw [List.takeWhile_append_of_pos (by simpa using hrun)]
    cases rest with
    | nil => simp
    | cons c rest => simpa [atBoundary] using hb
  simp [match?_gated, runLength?, htake, hne, hb]

theorem first?_run (hb : atBoundary rest) (hrun : ∀ c ∈ run, isDelimiter c = false)
    (hne : run ≠ []) (hquote : run.head? ≠ some '\x27') :
    first? (run ++ rest) = some (.ofRun run, run.length) := by
  have hdot := match?_dot hb hrun hne
  have hnumber := match?_number hb hrun
  have hsymbol := match?_symbol hb hrun hne
  obtain ⟨c, run, rfl⟩ := List.exists_cons_of_ne_nil hne
  have hc := hrun c List.mem_cons_self
  have hopen : c ≠ '(' := by
    rintro rfl
    cases hc
  have hclose : c ≠ ')' := by
    rintro rfl
    cases hc
  have hquote : c ≠ '\x27' := by simpa using hquote
  simp only [first?, rules, List.findSome?, hdot, hnumber, hsymbol, Kind.ofRun]
  by_cases hrun : c :: run = ['.']
  · cases hrun
    simp [Rule.match?, charLength?]
  · simp [Rule.match?, charLength?, hopen, hclose, hquote, hrun]
    split_ifs <;> rfl

end Token
end Parens
