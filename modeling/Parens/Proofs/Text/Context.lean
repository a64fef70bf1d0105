import Parens.Text.Lower

/-!
What of a text decides how a capital sigma in it is lowercased. The characters around it are looked
at up to the nearest one on either side that is not ignored, so a character that is neither ignored
nor cased hides all that lies beyond it. Parts of a text with such characters between them are
lowercased as if they stood alone.
-/

namespace Parens.Text

/-- Whether two ranges have no character in common. -/
def CodeRange.apart (r s : CodeRange) : Bool := Nat.blt r.last s.first || Nat.blt s.last r.first

theorem inRanges_eq_false_of_apart {rs ss : List CodeRange} (h : rs.all fun r => ss.all r.apart)
    {c : Char} (hc : inRanges rs c) : inRanges ss c = false := by
  obtain ⟨r, hr, hc⟩ := List.any_eq_true.1 hc
  rw [inRanges, List.any_eq_false]
  intro s hs
  have hapart := List.all_eq_true.1 (List.all_eq_true.1 h r hr) s hs
  simp only [CodeRange.apart, Bool.or_eq_true, Nat.blt_eq] at hapart
  simp only [CodeRange.contains, Bool.and_eq_true, Nat.ble_eq] at hc ⊢
  omega

/-- Whether a character ends the words beside it. -/
def separatesWords (c : Char) : Bool := !isCaseIgnorable c && !isCased c

variable {before text rest : List Char}

theorem meetsCased_cons_of_separatesWords {c : Char} (h : separatesWords c) :
    meetsCased (c :: text) = false := by
  simp only [separatesWords, Bool.and_eq_true, Bool.not_eq_true'] at h
  rw [meetsCased, List.dropWhile_cons_of_neg (by simp [h.1])]
  exact h.2

theorem meetsCased_cons_of_isCaseIgnorable {c : Char} (h : isCaseIgnorable c) :
    meetsCased (c :: text) = meetsCased text := by
  rw [meetsCased, List.dropWhile_cons_of_pos h, meetsCased]

/-- Nothing that is met behind a text is met in it. -/
theorem meetsCased_append (h : meetsCased rest = false) :
    meetsCased (text ++ rest) = meetsCased text := by
  induction text with
  | nil => exact h
  | cons c text ih =>
      by_cases hc : isCaseIgnorable c
      · rw [List.cons_append, meetsCased_cons_of_isCaseIgnorable hc,
          meetsCased_cons_of_isCaseIgnorable hc, ih]
      · simp only [List.cons_append, meetsCased, List.dropWhile_cons_of_neg hc]

/-- Where no letter is met in front, a text is lowercased as if it stood alone. -/
theorem lowerAfter_append_before (h : meetsCased rest = false) :
    lowerAfter (before ++ rest) text = lowerAfter before text := by
  induction text generalizing before with
  | nil => rfl
  | cons c text ih =>
      have hrest : lowerAfter (c :: before ++ rest) text = lowerAfter (c :: before) text := ih
      rw [List.cons_append] at hrest
      rw [lowerAfter, lowerAfter, hrest, meetsCased_append h]

theorem lowerAfter_eq_lower (h : meetsCased before = false) :
    lowerAfter before text = lower text := by
  change lowerAfter ([] ++ before) text = lowerAfter [] text
  exact lowerAfter_append_before h

/-- Where no letter is met behind, a text is lowercased as if nothing came there. -/
theorem lowerAfter_append (h : meetsCased rest = false) :
    lowerAfter before (text ++ rest) =
      lowerAfter before text ++ lowerAfter (text.reverse ++ before) rest := by
  induction text generalizing before with
  | nil => rfl
  | cons c text ih =>
      have hreverse : (c :: text).reverse ++ before = text.reverse ++ c :: before := by
        rw [List.reverse_cons, List.append_assoc]
        rfl
      rw [List.cons_append, lowerAfter, lowerAfter, ih, meetsCased_append h, hreverse]
      split
      · rfl
      · rw [List.append_assoc]

end Parens.Text
