import Parens.Number.Numeral

/-!
The grammar of numerals as a predicate. The main statement is that a text can be read as a numeral
exactly when it is one.
-/

namespace Parens.Number

/-- One digit or more. -/
def Digits (text : List Char) : Prop := text ≠ [] ∧ ∀ c ∈ text, isDigit c

inductive IsUnsigned : List Char → Prop
  | whole {digits : List Char} : Digits digits → IsUnsigned digits
  | pointed {digits places : List Char} : Digits digits → (∀ c ∈ places, isDigit c) →
      IsUnsigned (digits ++ '.' :: places)
  | fraction {places : List Char} : Digits places → IsUnsigned ('.' :: places)

inductive IsNumeral : List Char → Prop
  | plain {text : List Char} : IsUnsigned text → IsNumeral text
  | minus {text : List Char} : IsUnsigned text → IsNumeral ('-' :: text)

theorem isDigit_point : isDigit '.' = false := by decide

theorem isDigit_minus : isDigit '-' = false := by decide

namespace Numeral

theorem isSome_ofUnsigned?_iff {negative : Bool} {text : List Char} :
    (ofUnsigned? negative text).isSome ↔ IsUnsigned text := by
  constructor
  · intro h
    have hwhole : ∀ c ∈ text.takeWhile isDigit, isDigit c :=
      List.all_eq_true.1 (List.all_takeWhile ..)
    have hsplit := text.takeWhile_append_dropWhile (p := isDigit)
    unfold ofUnsigned? at h
    dsimp only at h
    split at h
    · rename_i heq
      split at h
      · cases h
      · rename_i hne
        rw [heq, List.append_nil] at hsplit
        rw [← hsplit]
        exact .whole ⟨fun hn => hne (by rw [hn]; rfl), hwhole⟩
    · rename_i rest heq
      split at h
      · cases h
      · rename_i hne
        simp only [Bool.or_eq_true, not_or, Bool.not_eq_true, Bool.not_eq_false',
          List.all_eq_true] at hne
        rw [heq] at hsplit
        rw [← hsplit]
        by_cases hn : text.takeWhile isDigit = []
        · rw [hn] at hne ⊢
          exact .fraction ⟨fun hr => by simp [hr] at hne, hne.2⟩
        · exact .pointed ⟨hn, hwhole⟩ hne.2
    · cases h
  · intro h
    cases h with
    | whole h =>
      have ht : text.takeWhile isDigit = text := by
        simpa using @List.takeWhile_append_of_pos _ isDigit text [] h.2
      have hd : text.dropWhile isDigit = [] := by
        simpa using @List.dropWhile_append_of_pos _ isDigit text [] h.2
      simp [ofUnsigned?, ht, hd, h.1]
    | @pointed digits places h hp =>
      have ht := @List.takeWhile_append_of_pos _ isDigit digits ('.' :: places) h.2
      have hd := @List.dropWhile_append_of_pos _ isDigit digits ('.' :: places) h.2
      simp [ofUnsigned?, ht, hd, isDigit_point, h.1, List.all_eq_true.2 hp]
    | fraction h =>
      simp [ofUnsigned?, isDigit_point, h.1, List.all_eq_true.2 h.2]

theorem not_isUnsigned_minus {text : List Char} : ¬ IsUnsigned ('-' :: text) := by
  intro h
  generalize hs : '-' :: text = s at h
  cases h with
  | whole h =>
    subst hs
    have := h.2 '-' (List.mem_cons_self ..)
    rw [isDigit_minus] at this
    cases this
  | @pointed digits places h _ =>
    cases digits with
    | nil => exact h.1 rfl
    | cons c digits =>
      cases hs
      have := h.2 '-' (List.mem_cons_self ..)
      rw [isDigit_minus] at this
      cases this
  | fraction _ => cases hs

/-- A text can be read as a numeral exactly when it is one. -/
theorem isSome_ofText?_iff {text : List Char} : (ofText? text).isSome ↔ IsNumeral text := by
  constructor
  · intro h
    unfold ofText? at h
    split at h
    · exact .minus (isSome_ofUnsigned?_iff.1 h)
    · exact .plain (isSome_ofUnsigned?_iff.1 h)
  · intro h
    cases h with
    | plain h =>
      unfold ofText?
      split
      · exact absurd h not_isUnsigned_minus
      · exact isSome_ofUnsigned?_iff.2 h
    | minus h => exact isSome_ofUnsigned?_iff.2 h

end Numeral
end Parens.Number
