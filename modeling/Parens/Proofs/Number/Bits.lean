import Mathlib
import Parens.Term.Readable

/-!
Doubles against their bits. Bits that are not those of something that is no number are kept as they
are, and they are read as a sign, a field for the exponent and a fraction, for the decoding here as
for the arithmetic of doubles.
-/

namespace Parens.Number

open Float.Model Float.Model.UnpackedFloat

/-- Bits that say that something is not a number. -/
def IsNaNBits (bits : Nat) : Prop := bits / leadingBit % 2048 = 2047 ∧ bits % leadingBit ≠ 0

section

variable (v : BitVec Format.binary64.numBits)

theorem toNat_unpackExponent :
    (unpackExponent v : BitVec 11).toNat = v.toNat / leadingBit % 2048 := by
  rw [unpackExponent_def, BitVec.extractLsb'_toNat, Nat.shiftRight_eq_div_pow]
  rfl

theorem toNat_unpackMantissa : (unpackMantissa v : BitVec 52).toNat = v.toNat % leadingBit := by
  rw [unpackMantissa_def, BitVec.extractLsb'_toNat, Nat.shiftRight_zero]
  rfl

theorem isNaNBits_iff : isNaNBits v ↔ IsNaNBits v.toNat := by
  rw [isNaNBits, decide_eq_true_eq, ← BitVec.toNat_inj, ne_eq, ← BitVec.toNat_inj, IsNaNBits,
    ← toNat_unpackExponent, ← toNat_unpackMantissa]
  rfl

end

theorem toBits_ofBits {b : UInt64} (h : ¬ IsNaNBits b.toNat) : (Float.ofBits b).toBits = b := by
  apply UInt64.toBitVec_inj.1
  refine (@pack_unpack Format.binary64 b.toBitVec (by decide)).trans (if_neg ?_)
  exact mt (isNaNBits_iff b.toBitVec).1 h

theorem decode_nan : decode Float.nan = .notANumber := by decide +kernel

/-- A finite double is equal to itself. -/
theorem beq_self_of_isFinite {x : Float} (h : IsFinite x) : x == x := by
  obtain ⟨negative, significand, exponent, h⟩ := h
  rw [Float.beq_self_iff]
  rintro rfl
  rw [decode_nan] at h
  cases h

theorem leadingBit_eq : leadingBit = 2 ^ 52 := rfl

theorem signBits_cases (negative : Bool) :
    (negative = false ∧ signBits negative = 0) ∨ negative = true ∧ signBits negative = 2 ^ 63 := by
  cases negative
  · exact .inl ⟨rfl, rfl⟩
  · exact .inr ⟨rfl, rfl⟩

/-- The significand of a finite double has its leading bit unless the exponent is zero. -/
structure Canonical (significand exponent : Nat) : Prop where
  significand_lt : significand < 2 * leadingBit
  leadingBit_le : 0 < exponent → leadingBit ≤ significand
  exponent_le : exponent ≤ 2045

theorem Canonical.lt_infinityBits {significand exponent : Nat}
    (h : Canonical significand exponent) :
    exponent * leadingBit + significand < infinityBits := by
  obtain ⟨hlt, -, hle⟩ := h
  rw [infinityBits]
  rw [leadingBit_eq] at hlt ⊢
  omega

theorem bits_of_decode {x : Float} {negative : Bool} {significand exponent : Nat}
    (h : decode x = .finite negative significand exponent) :
    Canonical significand exponent ∧
      x.toBits.toNat = signBits negative + (exponent * leadingBit + significand) := by
  have hlt := x.toBits.toNat_lt
  unfold decode at h
  generalize x.toBits.toNat = bits at h hlt
  have hsign : signBits (decide (1 <<< 63 ≤ bits)) = if 2 ^ 63 ≤ bits then 2 ^ 63 else 0 := by
    simp only [signBits, decide_eq_true_eq]
    rfl
  dsimp only at h
  split_ifs at h with hfield hfraction hzero
  · cases h
    rw [hsign]
    rw [leadingBit_eq] at hzero ⊢
    refine ⟨⟨?_, nofun, by omega⟩, ?_⟩
    · rw [leadingBit_eq]
      omega
    · split <;> omega
  · cases h
    rw [hsign]
    rw [leadingBit_eq] at hzero hfield ⊢
    refine ⟨⟨?_, fun _ => Nat.le_add_right _ _, by omega⟩, ?_⟩
    · rw [leadingBit_eq]
      omega
    · split <;> omega

theorem not_isNaNBits_of_le {negative : Bool} {bits : Nat} (h : bits ≤ infinityBits) :
    ¬ IsNaNBits (signBits negative + bits) := by
  rw [infinityBits] at h
  rw [IsNaNBits]
  rw [leadingBit_eq] at h ⊢
  rcases signBits_cases negative with ⟨-, hs⟩ | ⟨-, hs⟩ <;> omega

theorem toNat_ofNat_signBits {negative : Bool} {bits : Nat} (h : bits ≤ infinityBits) :
    (UInt64.ofNat (signBits negative + bits)).toNat = signBits negative + bits := by
  rw [infinityBits, leadingBit_eq] at h
  apply UInt64.toNat_ofNat_of_lt'
  change _ < 2 ^ 64
  rcases signBits_cases negative with ⟨-, hs⟩ | ⟨-, hs⟩ <;> omega

theorem toNat_toBits_ofBits {negative : Bool} {bits : Nat} (h : bits ≤ infinityBits) :
    (Float.ofBits (UInt64.ofNat (signBits negative + bits))).toBits.toNat =
      signBits negative + bits := by
  rw [toBits_ofBits, toNat_ofNat_signBits h]
  rw [toNat_ofNat_signBits h]
  exact not_isNaNBits_of_le h

/-- A finite double has the bits of its sign and of its magnitude. -/
theorem eq_ofBits_of_decode {x : Float} {negative : Bool} {significand exponent : Nat}
    (h : decode x = .finite negative significand exponent) :
    x = Float.ofBits
      (UInt64.ofNat (signBits negative + (exponent * leadingBit + significand))) := by
  rw [← (bits_of_decode h).2, UInt64.ofNat_toNat, Float.ofBits_toBits]

theorem decode_infinity : ∀ negative,
    decode (Float.ofBits (UInt64.ofNat (signBits negative + infinityBits))) =
      .infinite negative := by
  decide +kernel

theorem isFinite_of_field {x : Float} (h : x.toBits.toNat / leadingBit % 2048 ≠ 2047) :
    IsFinite x := by
  unfold IsFinite decode
  simp only [h, if_false]
  split <;> exact ⟨_, _, _, rfl⟩

theorem isFinite_ofBits {negative : Bool} {bits : Nat} (h : bits < infinityBits) :
    IsFinite (Float.ofBits (UInt64.ofNat (signBits negative + bits))) := by
  apply isFinite_of_field
  rw [toNat_toBits_ofBits (Nat.le_of_lt h)]
  rw [infinityBits] at h
  rw [leadingBit_eq] at h ⊢
  rcases signBits_cases negative with ⟨-, hs⟩ | ⟨-, hs⟩ <;> omega

end Parens.Number
