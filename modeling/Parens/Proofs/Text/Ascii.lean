import Parens.Text.Lower

/-!
Lowercase of text in the first 128 characters, where each letter is mapped by itself.
-/

namespace Parens.Text

theorem lowerChar_eq_toLower {c : Char} (h : c.toNat < 0x80) : lowerChar c = [c.toLower] := by
  have hall : ∀ n < 0x80, lowerChar (Char.ofNat n) = [(Char.ofNat n).toLower] := by decide +kernel
  rw [← Char.ofNat_toNat c]
  exact hall c.toNat h

theorem lowerAfter_eq_map_toLower {text : List Char} (h : ∀ c ∈ text, c.toNat < 0x80)
    (before : List Char) : lowerAfter before text = text.map Char.toLower := by
  induction text generalizing before with
  | nil => rfl
  | cons c text ih =>
      have hc := h c List.mem_cons_self
      have hsigma : c ≠ capitalSigma := fun heq => absurd (heq ▸ hc) (by decide)
      rw [lowerAfter, if_neg hsigma, lowerChar_eq_toLower hc,
        ih fun d hd => h d (List.mem_cons_of_mem c hd)]
      rfl

theorem toNat_lt_of_toNat_toLower_lt {c : Char} (h : c.toLower.toNat < 0x80) : c.toNat < 0x80 := by
  by_cases hcapital : c.val ≥ 'A'.val ∧ c.val ≤ 'Z'.val
  · have hle : c.val ≤ 90 := hcapital.2
    exact Nat.lt_of_le_of_lt hle (by decide)
  · have hsame : c.toLower = c := dif_neg hcapital
    rwa [hsame] at h

end Parens.Text
