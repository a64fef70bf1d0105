import Parens.Proofs.Number.Spelling

/-!
The search for the shortest decimal finds the best one. On a grid it finds a point that is nearest
to the double among those in the rounding interval, and there is none on a coarser grid. So a
decimal with fewer digits is not in the interval, and one with as many is not nearer.
-/

namespace Parens.Number

namespace RoundingInterval

variable {i : RoundingInterval} {scale p q r : Nat}

variable {e : Int} {n a : Nat}

section

variable {m k : Nat}

end
end RoundingInterval

/-- What the search is for at a place: a decimal that is rounded to it, none of whose kind is on a
coarser grid and none nearer on the same. -/
structure IsShortest (place : Nat) (d : Decimal) : Prop where
  rounded : IsRounded (d.toRat * unitsPerOne) place
  coarser : ∀ (a : Nat) (f : Int), d.exponent < f →
    ¬ IsRounded ((a : ℚ) * 10 ^ f * unitsPerOne) place
  nearest : ∀ a : Nat, IsRounded ((a : ℚ) * 10 ^ d.exponent * unitsPerOne) place →
    |d.toRat - unitsAt place / unitsPerOne| ≤
      |(a : ℚ) * 10 ^ d.exponent - unitsAt place / unitsPerOne|

section

variable {m k : Nat}

theorem not_isRounded_zero (hm : 0 < m) : ¬ IsRounded 0 (k * leadingBit + m) := fun h => by
  have hzero := h.eq_zero
  omega

/-- A point of a coarser grid is one of each grid between. -/
theorem mul_zpow_eq (a n : Nat) (e : Int) :
    (a : ℚ) * 10 ^ (e + n) = (a * 10 ^ n : Nat) * 10 ^ e := by
  rw [zpow_add₀ (by norm_num), zpow_natCast]
  push_cast
  ring

/-- From a place to the one below it is a unit of the significand at most. -/
theorem unitsAt_le_add {place : Nat} (hc : Canonical m k)
    (hplace : k * leadingBit + m = place + 1) :
    m * 2 ^ k ≤ unitsAt place + 2 ^ k := by
  have hexponent : place / leadingBit - 1 ≤ k := by
    have hlt := hc.significand_lt
    rw [leadingBit_eq] at *
    omega
  rw [← unitsAt_eq (Nat.le_of_lt hc.significand_lt) hc.leadingBit_le, hplace, unitsAt_succ]
  exact Nat.add_le_add_left (Nat.pow_le_pow_right Nat.two_pos hexponent) _

theorem zpow_neg_mul_le_iff (n units bound : Nat) :
    (10 : ℚ) ^ (-(n : Int)) * units ≤ bound ↔ units ≤ bound * 10 ^ n := by
  rw [zpow_neg, zpow_natCast, inv_mul_eq_div, div_le_iff₀ (by positivity),
    ← Nat.cast_ofNat (n := 10), ← Nat.cast_pow, ← Nat.cast_mul, Nat.cast_le]

/-- Only one power of ten is so close to the least doubles. -/
theorem exponent_eq_of_units {e : Int} (hle : (10 : ℚ) ^ e * unitsPerOne ≤ 1)
    (hlt : (1 : ℚ) < 10 ^ (e + 1) * unitsPerOne) : e = -(324 : Nat) := by
  have hunits := unitsPerOne_pos
  have hlow : ¬ unitsPerOne ≤ 1 * 10 ^ 323 := by decide +kernel
  have hhigh : unitsPerOne ≤ 1 * 10 ^ 324 := by decide +kernel
  rw [← zpow_neg_mul_le_iff, Nat.cast_one] at hlow hhigh
  rcases Int.lt_trichotomy e (-(324 : Nat)) with hsmall | heq | hlarge
  · have hpow : (10 : ℚ) ^ (e + 1) ≤ 10 ^ (-((324 : Nat) : Int)) :=
      zpow_le_zpow_right₀ (by norm_num) (by omega)
    exact absurd (hlt.trans_le (mul_le_mul_of_nonneg_right hpow hunits.le)) (not_lt.2 hhigh)
  · exact heq
  · have hpow : (10 : ℚ) ^ (-((323 : Nat) : Int)) ≤ 10 ^ e :=
      zpow_le_zpow_right₀ (by norm_num) (by omega)
    exact absurd ((mul_le_mul_of_nonneg_right hpow hunits.le).trans hle) hlow

/-- Both between nine tenths of a power of ten and the power itself, a double has a tenth of the
power for a unit of its significand at least. -/
theorem le_two_pow_of_power {e : Int} {q : ℚ} (hc : Canonical m k) (hm : 0 < m)
    (hq : q ≤ 9 * 10 ^ e) (hlow : IsRounded (q * unitsPerOne) (k * leadingBit + m))
    (hhigh : IsRounded (10 ^ (e + 1) * unitsPerOne) (k * leadingBit + m)) :
    (10 : ℚ) ^ e * unitsPerOne ≤ 2 ^ k := by
  have hupper := hhigh.two_mul_le
  obtain ⟨place, hplace⟩ : ∃ place, k * leadingBit + m = place + 1 :=
    ⟨k * leadingBit + m - 1, by omega⟩
  have hlower := (hplace ▸ hlow).le_two_mul
  have hbelow : (2 * (m * 2 ^ k : Nat) : ℚ) ≤ halfwayAt place + (2 ^ k : Nat) := by
    have hnat := unitsAt_le_add hc hplace
    have hat := unitsAt_eq (Nat.le_of_lt hc.significand_lt) hc.leadingBit_le
    rw [hplace] at hat
    rw [halfwayAt, hat]
    exact_mod_cast (by omega : 2 * (m * 2 ^ k) ≤ unitsAt place + m * 2 ^ k + 2 ^ k)
  have hq' := mul_le_mul_of_nonneg_right hq unitsPerOne_pos.le
  rw [mul_assoc] at hq'
  rw [halfwayAt_eq hc.significand_lt hc.leadingBit_le, zpow_add_one₀ (by norm_num)] at hupper
  push_cast at hupper hbelow
  linarith

/-- Between nine tenths of a power of ten and the power itself there is a double only if it is one
of the least, and then it is nearer to the power. -/
theorem units_ge_of_power {e : Int} {q : ℚ} (hc : Canonical m k) (hm : 0 < m)
    (hq : q ≤ 9 * 10 ^ e) (hlow : IsRounded (q * unitsPerOne) (k * leadingBit + m))
    (hhigh : IsRounded (10 ^ (e + 1) * unitsPerOne) (k * leadingBit + m))
    (hlt : (m * 2 ^ k : Nat) < (10 : ℚ) ^ (e + 1) * unitsPerOne) :
    19 * (10 ^ e * unitsPerOne) ≤ (2 * (m * 2 ^ k : Nat) : ℚ) := by
  have hten : (10 : ℚ) ^ (e + 1) * unitsPerOne = 10 * (10 ^ e * unitsPerOne) := by
    rw [zpow_add_one₀ (by norm_num)]
    ring
  have hle := le_two_pow_of_power hc hm hq hlow hhigh
  have hupper := hhigh.two_mul_le
  rw [halfwayAt_eq hc.significand_lt hc.leadingBit_le, hten] at hupper
  rw [hten] at hlt
  push_cast at hupper hlt ⊢
  have hm' : m < 10 := by
    have hunit : (0 : ℚ) < 2 ^ k := by positivity
    have hmul : (m : ℚ) * 2 ^ k < 10 * 2 ^ k := by linarith
    exact_mod_cast lt_of_mul_lt_mul_right hmul hunit.le
  obtain rfl : k = 0 := by
    by_contra hk
    have hge := hc.leadingBit_le (Nat.pos_of_ne_zero hk)
    rw [leadingBit_eq] at hge
    omega
  have hone : (1 : ℚ) ≤ m := Nat.one_le_cast.2 hm
  rw [pow_zero, mul_one] at *
  have hexponent := exponent_eq_of_units hle (by rw [hten]; linarith)
  have hthree : ¬ 20 * unitsPerOne ≤ 3 * 10 ^ 324 := by decide +kernel
  have hfour : 19 * unitsPerOne ≤ 4 * 10 ^ 324 := by decide +kernel
  rw [← zpow_neg_mul_le_iff, ← hexponent, not_le, Nat.cast_mul, Nat.cast_ofNat,
    Nat.cast_ofNat] at hthree
  rw [← zpow_neg_mul_le_iff, ← hexponent, Nat.cast_mul, Nat.cast_ofNat, Nat.cast_ofNat] at hfour
  have htwo : 2 ≤ m := by
    have hlt' : (3 : ℚ) < 2 * m + 1 := by linarith
    have hnat : 3 < 2 * m + 1 := by exact_mod_cast hlt'
    omega
  have htwo' : (2 : ℚ) ≤ m := by exact_mod_cast htwo
  linarith

namespace IsShortest

variable {d : Decimal} {c j : Nat} {f : Int}

theorem digits_pos (h : IsShortest (k * leadingBit + m) d) (hm : 0 < m) : 0 < d.digits := by
  refine Nat.pos_of_ne_zero fun hzero => not_isRounded_zero (k := k) hm ?_
  have hrounded := h.rounded
  rwa [Decimal.toRat, hzero, Nat.cast_zero, zero_mul, zero_mul] at hrounded

theorem exponent_le {place : Nat} (h : IsShortest place d)
    (hrounded : IsRounded ((c : ℚ) * 10 ^ f * unitsPerOne) place) : f ≤ d.exponent :=
  not_lt.1 fun hlt => h.coarser c f hlt hrounded

theorem pow_le_digits (hpos : 0 < d.digits) :
    10 ^ ((digitsText d.digits).length - 1) ≤ d.digits := by
  rcases Nat.eq_zero_or_pos ((digitsText d.digits).length - 1) with hzero | hlength
  · rw [hzero]
    exact hpos
  · by_contra hlt
    have hle := (Nat.length_toDigits_le_iff (by decide : 1 < 10) hlength).2 (Nat.lt_of_not_le hlt)
    change (digitsText d.digits).length ≤ _ at hle
    omega

/-- Below a decimal with several digits, the next power of ten is on a coarser grid. -/
theorem single_digit {place : Nat} (h : IsShortest place d) (hpos : 0 < d.digits)
    (hrounded : IsRounded ((c : ℚ) * 10 ^ f * unitsPerOne) place) (hc : c < 10 ^ j)
    (hj : j + f ≤ (digitsText d.digits).length - 1 + d.exponent) :
    (digitsText d.digits).length = 1 ∧
      IsRounded ((1 : Nat) * 10 ^ d.exponent * unitsPerOne) place := by
  have hunits := unitsPerOne_pos
  have hlength : 1 ≤ (digitsText d.digits).length := Nat.length_toDigits_pos
  obtain ⟨n, hn⟩ : ∃ n, (digitsText d.digits).length = n + 1 :=
    ⟨_, (Nat.sub_add_cancel hlength).symm⟩
  have hdigits := pow_le_digits hpos
  rw [hn] at hj hdigits ⊢
  rw [Nat.add_sub_cancel] at hdigits
  have hlow : (c : ℚ) * 10 ^ f ≤ (1 : Nat) * 10 ^ (d.exponent + n) :=
    calc (c : ℚ) * 10 ^ f
        ≤ (10 ^ j : Nat) * 10 ^ f := by gcongr
      _ = 10 ^ (j + f) := by
        rw [Nat.cast_pow, Nat.cast_ofNat, zpow_add₀ (by norm_num), zpow_natCast]
      _ ≤ 10 ^ (d.exponent + n) := zpow_le_zpow_right₀ (by norm_num) (by omega)
      _ = (1 : Nat) * 10 ^ (d.exponent + n) := by rw [Nat.cast_one, one_mul]
  have hhigh : ((1 : Nat) : ℚ) * 10 ^ (d.exponent + n) ≤ d.toRat := by
    rw [mul_zpow_eq, Nat.one_mul, Decimal.toRat]
    gcongr
  have hbetween := hrounded.between h.rounded (mul_le_mul_of_nonneg_right hlow hunits.le)
    (mul_le_mul_of_nonneg_right hhigh hunits.le)
  obtain rfl : n = 0 := by
    by_contra hne
    exact h.coarser 1 _ (by omega) hbetween
  rw [Int.natCast_zero, Int.add_zero] at hbetween
  exact ⟨rfl, hbetween⟩

/-- One that has as many is not nearer. -/
theorem abs_sub_le (h : IsShortest (k * leadingBit + m) d) (hc : Canonical m k) (hm : 0 < m)
    (hrounded : IsRounded ((c : ℚ) * 10 ^ f * unitsPerOne) (k * leadingBit + m))
    (hlt : c < 10 ^ (digitsText d.digits).length) :
    |d.toRat - unitsAt (k * leadingBit + m) / unitsPerOne| ≤
      |(c : ℚ) * 10 ^ f - unitsAt (k * leadingBit + m) / unitsPerOne| := by
  have hunits := unitsPerOne_pos
  rcases (h.exponent_le hrounded).lt_or_eq with hexponent | rfl
  · -- A finer grid has room for a single digit, below the power of ten that is on this grid.
    obtain ⟨hone, hten⟩ := h.single_digit (h.digits_pos hm) hrounded hlt (by omega)
    refine (h.nearest 1 hten).trans ?_
    rw [hone, Nat.pow_one] at hlt
    obtain ⟨e, he⟩ : ∃ e, d.exponent = e + 1 := ⟨d.exponent - 1, by omega⟩
    rw [he, Nat.cast_one, one_mul] at hten ⊢
    have hle : (c : ℚ) * 10 ^ f ≤ 9 * 10 ^ e := by
      have hpow : (10 : ℚ) ^ f ≤ 10 ^ e := zpow_le_zpow_right₀ (by norm_num) (by omega)
      have hnine : (c : ℚ) ≤ 9 := by exact_mod_cast Nat.le_of_lt_succ hlt
      gcongr
    have htens : (10 : ℚ) ^ (e + 1) = 10 * 10 ^ e := by
      rw [zpow_add_one₀ (by norm_num), mul_comm]
    have hpos : (0 : ℚ) < 10 ^ e := by positivity
    rw [abs_sub_comm, abs_sub_comm ((c : ℚ) * 10 ^ f), abs_sub_le_upper_iff (by linarith)]
    rcases le_or_gt ((10 : ℚ) ^ (e + 1)) (unitsAt (k * leadingBit + m) / unitsPerOne) with
      hge | hlow
    · linarith
    · rw [unitsAt_eq (Nat.le_of_lt hc.significand_lt) hc.leadingBit_le] at hlow ⊢
      have hnine := units_ge_of_power hc hm hle hrounded hten ((div_lt_iff₀ hunits).1 hlow)
      rw [← mul_assoc, ← le_div_iff₀ hunits, mul_div_assoc] at hnine
      linarith
  · exact h.nearest c hrounded

end IsShortest

end

end Parens.Number
