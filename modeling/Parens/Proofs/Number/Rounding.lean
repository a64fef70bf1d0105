import Parens.Number.Shortest
import Parens.Proofs.Number.Magnitude

/-!
Rounding. The bits that a quotient is given are the place in the row of magnitudes that it is
rounded to, or those of infinity, also below a power of two, where the quotient is first given the
smaller exponent and then carries. The rounding interval of a double holds just the quotients that
are rounded to it.
-/

namespace Parens.Number

/-- Whether `n` is a natural number nearest to `num / den`, and the even one of two. -/
def RoundsTo (num den n : Nat) : Prop :=
  2 * (n * den) ≤ 2 * num + den ∧ 2 * num ≤ 2 * (n * den) + den ∧
    (n % 2 = 1 → 2 * (n * den) < 2 * num + den ∧ 2 * num < 2 * (n * den) + den)

section

variable {num den n : Nat}

theorem roundsTo_roundQuotient (hden : 0 < den) : RoundsTo num den (roundQuotient num den) := by
  have hsplit := Nat.div_add_mod num den
  have hmod := Nat.mod_lt num hden
  unfold roundQuotient RoundsTo
  dsimp only
  rw [Nat.mul_comm] at hsplit
  split_ifs <;> simp only [Nat.succ_mul] <;> omega

theorem le_roundQuotient (hden : 0 < den) (h : n * den ≤ num) : n ≤ roundQuotient num den := by
  obtain ⟨-, hhigh, -⟩ : RoundsTo num den _ := roundsTo_roundQuotient hden
  by_contra hlt
  have hmul := Nat.mul_le_mul_right den (Nat.lt_of_not_le hlt)
  rw [Nat.succ_mul] at hmul
  omega

theorem roundQuotient_le (hden : 0 < den) (h : 2 * num < 2 * (n * den) + den) :
    roundQuotient num den ≤ n := by
  obtain ⟨hlow, -, -⟩ : RoundsTo num den _ := roundsTo_roundQuotient hden
  by_contra hlt
  have hmul := Nat.mul_le_mul_right den (Nat.lt_of_not_le hlt)
  rw [Nat.succ_mul] at hmul
  omega

end

/-- The exponent that a number of whole units is given before it is rounded. -/
def exponentFor (units : Nat) : Nat := units.log2 + 1 - 53

theorem lt_two_pow_exponentFor (units : Nat) : units < 2 ^ (53 + exponentFor units) := by
  have hlt := Nat.lt_log2_self (n := units)
  refine Nat.lt_of_lt_of_le hlt (Nat.pow_le_pow_right Nat.two_pos ?_)
  unfold exponentFor
  omega

theorem two_pow_exponentFor_le {units : Nat} (h : 0 < exponentFor units) :
    2 ^ (52 + exponentFor units) ≤ units := by
  unfold exponentFor at h ⊢
  have hne : units ≠ 0 := by
    rintro rfl
    simp at h
  refine Nat.le_trans (Nat.pow_le_pow_right Nat.two_pos ?_) (Nat.log2_self_le hne)
  omega

section

variable {num den k : Nat}

theorem div_lt_two_pow_iff (hden : 0 < den) (c : Nat) :
    num / den < 2 ^ (c + k) ↔ num < 2 ^ c * (den <<< k) := by
  rw [Nat.div_lt_iff_lt_mul hden, Nat.pow_add, Nat.mul_assoc, Nat.mul_comm (2 ^ k),
    ← Nat.shiftLeft_eq]

theorem two_pow_le_div_iff (hden : 0 < den) (c : Nat) :
    2 ^ (c + k) ≤ num / den ↔ 2 ^ c * (den <<< k) ≤ num := by
  rw [Nat.le_div_iff_mul_le hden, Nat.pow_add, Nat.mul_assoc, Nat.mul_comm (2 ^ k),
    ← Nat.shiftLeft_eq]

end

theorem nearestBits_eq_min (num den : Nat) :
    nearestBits num den =
      min (exponentFor (num * unitsPerOne / den) * leadingBit +
        roundQuotient (num * unitsPerOne) (den <<< exponentFor (num * unitsPerOne / den)))
        infinityBits := rfl

theorem shiftLeft_mul (a k b : Nat) : (a <<< k) * b = a * (b <<< k) := by
  rw [Nat.shiftLeft_eq, Nat.shiftLeft_eq, Nat.mul_assoc, Nat.mul_comm b]

theorem shiftLeft_pos {den : Nat} (hden : 0 < den) (k : Nat) : 0 < den <<< k := by
  rw [Nat.shiftLeft_eq]
  exact Nat.mul_pos hden (Nat.two_pow_pos k)

section

variable {units den m k place : Nat}

/-- Rounding to a significand, with an exponent that leaves the leading bit in front. -/
theorem isRounded_of_roundsTo (hden : 0 < den) (h : RoundsTo units (den <<< k) m)
    (hm : m ≤ 2 * leadingBit) (hk : 0 < k → leadingBit ≤ m)
    (hunits : 0 < k → leadingBit * (den <<< k) ≤ units) :
    IsRounded (units / den) (k * leadingBit + m) := by
  obtain ⟨hlow, hhigh, hodd⟩ := h
  have hpos := shiftLeft_pos hden k
  have hscale : ∀ n, n * 2 ^ k * den = n * (den <<< k) := fun n => by
    rw [← Nat.shiftLeft_eq, shiftLeft_mul]
  have hhalf := Nat.mul_le_mul_right den (le_halfwayAt hm hk)
  have hparity : (k * leadingBit + m) % 2 = m % 2 := by
    rw [leadingBit_eq]
    omega
  rw [hscale, Nat.add_mul, Nat.one_mul, Nat.mul_assoc] at hhalf
  refine isRounded_iff.2 ⟨fun a ha => ?_, fun hpast => ?_⟩
  · rw [roundsPast_div_iff hden]
    by_cases hpower : 0 < k ∧ m = leadingBit
    · -- The place below is nearer than a unit of this significand.
      obtain ⟨hk', rfl⟩ := hpower
      have hlt := Nat.mul_lt_mul_of_pos_right (unitsAt_strictMono (Nat.lt_add_one a)) hden
      have hle := hunits hk'
      rw [← hscale, ← unitsAt_eq hm hk, ha] at hle
      rw [halfwayAt, Nat.add_mul]
      omega
    · obtain ⟨n, rfl, heq⟩ := exists_halfwayAt_eq ha hm fun hk' => by
        have hle := hk hk'
        omega
      rw [heq, hscale, Nat.add_mul, Nat.one_mul, Nat.mul_assoc]
      rw [Nat.add_mul, Nat.one_mul] at hlow hodd
      omega
  · rw [roundsPast_div_iff hden, hparity] at hpast
    omega

/-- The bits that a quotient is given are the place that it is rounded to, or infinity before that.
-/
theorem exists_isRounded (num : Nat) (hden : 0 < den) :
    ∃ place, IsRounded ((num * unitsPerOne : Nat) / den) place ∧
      nearestBits num den = min place infinityBits := by
  rw [nearestBits_eq_min]
  generalize num * unitsPerOne = units
  refine ⟨_, isRounded_of_roundsTo hden (roundsTo_roundQuotient (shiftLeft_pos hden _)) ?_ ?_ ?_,
    rfl⟩
  · refine roundQuotient_le (shiftLeft_pos hden _) ?_
    have hlt := (div_lt_two_pow_iff hden 53).1 (lt_two_pow_exponentFor (units / den))
    have hpos := shiftLeft_pos hden (exponentFor (units / den))
    rw [leadingBit_eq]
    omega
  · intro hk
    exact le_roundQuotient (shiftLeft_pos hden _)
      ((two_pow_le_div_iff hden 52).1 (two_pow_exponentFor_le hk))
  · intro hk
    exact (two_pow_le_div_iff hden 52).1 (two_pow_exponentFor_le hk)

theorem lower_eq_halfwayAt (hc : Canonical m k) (hplace : k * leadingBit + m = place + 1) :
    (RoundingInterval.of m k).lower = 2 * halfwayAt place := by
  simp only [RoundingInterval.of, Nat.shiftLeft_eq]
  split_ifs with hpower
  · obtain ⟨rfl, hk⟩ := hpower
    obtain ⟨j, rfl⟩ : ∃ j, k = j + 1 := ⟨k - 1, by omega⟩
    obtain rfl : place = j * leadingBit + (2 * leadingBit - 1) := by
      rw [leadingBit_eq] at hplace ⊢
      omega
    rw [halfwayAt_eq (by decide) fun _ => by decide, Nat.pow_succ, leadingBit_eq]
    omega
  · obtain ⟨n, rfl, heq⟩ := exists_halfwayAt_eq hplace (Nat.le_of_lt hc.significand_lt) fun hk => by
      have hle := hc.leadingBit_le hk
      omega
    rw [heq, ← Nat.mul_assoc]
    congr 1
    omega

theorem upper_eq_halfwayAt (hc : Canonical m k) :
    (RoundingInterval.of m k).upper = 2 * halfwayAt (k * leadingBit + m) := by
  simp only [RoundingInterval.of, Nat.shiftLeft_eq,
    halfwayAt_eq hc.significand_lt hc.leadingBit_le]
  rw [← Nat.mul_assoc]
  congr 1
  omega

/-- The rounding interval of a double holds just what is rounded to it. -/
theorem contains_iff_isRounded (hden : 0 < den) (hc : Canonical m k) :
    (RoundingInterval.of m k).contains den (4 * units) ↔
      IsRounded (units / den) (k * leadingBit + m) := by
  have hparity : (k * leadingBit + m) % 2 = m % 2 := by
    rw [leadingBit_eq]
    omega
  have hclosed : (RoundingInterval.of m k).closed = decide (m % 2 = 0) := rfl
  have hscale : ∀ n, 2 * n * den = 2 * (n * den) := fun n => Nat.mul_assoc 2 n den
  simp only [isRounded_iff, roundsPast_div_iff hden, RoundingInterval.contains, hclosed,
    decide_eq_true_eq, upper_eq_halfwayAt hc, hscale]
  rcases Nat.eq_zero_or_pos (k * leadingBit + m) with hzero | hpos
  · obtain rfl : m = 0 := by omega
    have hlower : (RoundingInterval.of 0 k).lower = 0 := by
      simp only [RoundingInterval.of, Nat.shiftLeft_eq, Nat.mul_zero, Nat.zero_sub, Nat.zero_mul]
    rw [hlower, hzero, Nat.zero_mul, if_pos (Nat.zero_mod 2)]
    simp only [Bool.decide_and, Bool.and_eq_true, decide_eq_true_eq]
    generalize halfwayAt 0 * den = high
    constructor
    · intro h
      exact ⟨fun a ha => by omega, by omega⟩
    · intro h
      have hhigh := h.2
      omega
  · obtain ⟨place, hplace⟩ : ∃ place, k * leadingBit + m = place + 1 :=
      ⟨k * leadingBit + m - 1, by omega⟩
    have hlow : (∀ a, place + 1 = a + 1 → halfwayAt a * den < 2 * units ∨
        halfwayAt a * den = 2 * units ∧ a % 2 = 1) ↔
        halfwayAt place * den < 2 * units ∨ halfwayAt place * den = 2 * units ∧ place % 2 = 1 :=
      ⟨fun h => h place rfl, fun h a ha => Nat.succ.inj ha ▸ h⟩
    rw [lower_eq_halfwayAt hc hplace, hplace, hlow, hscale]
    rw [hplace] at hparity
    generalize halfwayAt place * den = low, halfwayAt (place + 1) * den = high
    split_ifs <;> simp only [Bool.decide_and, Bool.and_eq_true, decide_eq_true_eq] <;> omega

/-- A quotient in the rounding interval of a double is rounded to this double. -/
theorem nearestBits_eq {num : Nat} (hden : 0 < den) (hc : Canonical m k)
    (h : (RoundingInterval.of m k).contains den (4 * (num * unitsPerOne))) :
    nearestBits num den = k * leadingBit + m := by
  obtain ⟨place, hrounded, hbits⟩ := exists_isRounded num hden
  rw [hbits, hrounded.unique ((contains_iff_isRounded hden hc).1 h),
    Nat.min_eq_left (Nat.le_of_lt hc.lt_infinityBits)]

/-- What is rounded to infinity lies halfway from the last finite double to the next power of two,
or above. -/
theorem nearestBits_lt_infinityBits_iff {num : Nat} (hden : 0 < den) :
    nearestBits num den < infinityBits ↔ num < (2 ^ 1024 - 2 ^ 970) * den := by
  obtain ⟨place, hrounded, hbits⟩ := exists_isRounded num hden
  have hpow : ((2 ^ 1024 - 2 ^ 970 : Nat) : ℚ) = 2 ^ 1024 - 2 ^ 970 := by
    have hle : 2 ^ 970 ≤ 2 ^ 1024 := pow_le_pow_right₀ one_le_two (by decide)
    rw [Nat.cast_sub hle, Nat.cast_pow, Nat.cast_pow, Nat.cast_ofNat]
  have hunits : (0 : ℚ) < unitsPerOne := Nat.cast_pos.2 (by decide)
  have hden' : (0 : ℚ) < den := Nat.cast_pos.2 hden
  rw [hbits, min_lt_iff, or_iff_left (Nat.lt_irrefl infinityBits), ← not_le,
    hrounded.infinityBits_le_iff, ← hpow, ← not_le, le_div_iff₀ hden', Nat.cast_mul, mul_right_comm,
    mul_le_mul_iff_left₀ hunits, ← Nat.cast_mul, Nat.cast_le]

end

end Parens.Number
