import Parens.Number.Spelling
import Parens.Proofs.Number.Nearest

/-!
What spellings say. Every numeral is spelled in one of the ways, and read with the exact value of
the spelling. Zeros in front and at the end do not change this value, and with as many digits as are
left between them it is a multiple of a power of ten.
-/

namespace Parens.Number

theorem digitsValue_append (digits more : List Char) :
    digitsValue (digits ++ more) = digitsValue digits * 10 ^ more.length + digitsValue more := by
  rw [digitsValue_eq, Nat.ofDigitChars_append, Nat.ofDigitChars_eq_ofDigitChars_zero,
    ← digitsValue_eq, ← digitsValue_eq, Nat.mul_comm]

namespace Spelling

/-- The exact value of the digits before and behind the point, with the sign. -/
def toRat (s : Spelling) : ℚ :=
  withSign s.negative (digitsValue s.whole + digitsValue s.fraction / 10 ^ s.fraction.length)

theorem toRat_numeral (s : Spelling) : s.numeral.toRat = s.toRat := by
  have hpos : (10 : ℚ) ^ s.fraction.length ≠ 0 := by positivity
  simp only [Numeral.toRat, toRat, numeral, digitsValue_append]
  push_cast
  rw [add_div, mul_div_cancel_right₀ _ hpos]

theorem ofText?_text (s : Spelling) : Numeral.ofText? s.text = some s.numeral := by
  refine Numeral.ofText?_signText ?_
  obtain ⟨negative, whole, places, hdigits, hne⟩ := s
  cases places with
  | none =>
      rw [Option.getD_none, List.append_nil] at hdigits hne
      change Numeral.ofUnsigned? negative (whole ++ []) =
        some ⟨negative, digitsValue (whole ++ []), 0⟩
      rw [List.append_nil]
      exact Numeral.ofUnsigned?_digits ⟨hne, hdigits⟩
  | some places =>
      have hplaces : ∀ c ∈ places, isDigit c := fun c hc => hdigits c (List.mem_append_right _ hc)
      exact Numeral.ofUnsigned?_point (fun c hc => hdigits c (List.mem_append_left _ hc)) hplaces
        hne

theorem exists_of_isNumeral {text : List Char} (h : IsNumeral text) :
    ∃ s : Spelling, s.text = text := by
  have hunsigned : ∀ {negative : Bool} {text : List Char}, IsUnsigned text →
      ∃ s : Spelling, s.text = signText negative ++ text := by
    intro negative text h
    cases h with
    | whole h =>
        exact ⟨⟨negative, text, none, by simpa using h.2, by simpa using h.1⟩,
          by simp [Spelling.text]⟩
    | @pointed digits places h hplaces =>
        exact ⟨⟨negative, digits, some places, by
          intro c hc
          exact (List.mem_append.1 hc).elim (h.2 c) (hplaces c), by simp [h.1]⟩,
          by simp [Spelling.text]⟩
    | @fraction places h =>
        exact ⟨⟨negative, [], some places, h.2, h.1⟩, rfl⟩
  cases h with
  | plain h => exact @hunsigned false _ h
  | minus h => exact @hunsigned true _ h

theorem isNumeral_text (s : Spelling) : IsNumeral s.text :=
  Numeral.isSome_ofText?_iff.1 (Option.isSome_iff_exists.2 ⟨_, s.ofText?_text⟩)

theorem toRat_eq_withSign (s : Spelling) :
    s.toRat = withSign s.negative (digitsValue (s.whole ++ s.fraction) / 10 ^ s.fraction.length) :=
  s.toRat_numeral.symm

theorem abs_toRat (s : Spelling) :
    |s.toRat| = digitsValue (s.whole ++ s.fraction) / 10 ^ s.fraction.length := by
  rw [toRat_eq_withSign, abs_withSign]
  exact abs_of_nonneg (by positivity)

theorem toRat_eq_withSign_abs (s : Spelling) : s.toRat = withSign s.negative |s.toRat| := by
  rw [abs_toRat, ← toRat_eq_withSign]

/-- Zeros in front and at the end, and a point, do not count. -/
theorem toRat_padded (s : Spelling) (before behind : Nat) :
    (s.padded before behind).toRat = s.toRat := by
  have hwhole : digitsValue (s.padded before behind).whole = digitsValue s.whole :=
    digitsValue_zeros_append before s.whole
  have hfraction : digitsValue (s.padded before behind).fraction =
      digitsValue s.fraction * 10 ^ behind := digitsValue_append_zeros s.fraction behind
  have hlength : (s.padded before behind).fraction.length = s.fraction.length + behind := by
    rw [padded, fraction, Option.getD_some, List.length_append, List.length_replicate]
  have hpos : (10 : ℚ) ^ behind ≠ 0 := by positivity
  rw [toRat, toRat, hwhole, hfraction, hlength, Nat.cast_mul, Nat.cast_pow, Nat.cast_ofNat, pow_add,
    mul_div_mul_right _ _ hpos]
  rfl

end Spelling

namespace Decimal

def toRat (d : Decimal) : ℚ := d.digits * 10 ^ d.exponent

end Decimal
end Parens.Number
