import Parens.Number.Format
import Parens.Proofs.Number.Rounding

/-!
The search for the shortest decimal finds one: the last grid that is looked at has a point between a
double and the upper end of its rounding interval. So the decimal that is written lies in the
interval, and is rounded to the double when it is read.
-/

namespace Parens.Number

namespace Decimal

/-- What a decimal is the quotient of. -/
def num (d : Decimal) : Nat := d.digits * 10 ^ d.exponent.toNat

def den (d : Decimal) : Nat := 10 ^ (-d.exponent).toNat

end Decimal

section

variable {a b n : Nat}

/-- Three digits take ten bits at most. -/
theorem mul_ten_pow_lt (h : a * 3 + 10 * n < b * 3) : 2 ^ a * 10 ^ n < 2 ^ b := by
  have hten : (10 ^ n) ^ 3 ≤ 2 ^ (10 * n) := by
    rw [← Nat.pow_mul, Nat.mul_comm n, Nat.pow_mul, Nat.pow_mul]
    exact Nat.pow_le_pow_left (by decide) n
  refine (Nat.pow_lt_pow_iff_left (by decide : 3 ≠ 0)).1 ?_
  calc (2 ^ a * 10 ^ n) ^ 3
      = 2 ^ (a * 3) * (10 ^ n) ^ 3 := by rw [Nat.mul_pow, ← Nat.pow_mul 2]
    _ ≤ 2 ^ (a * 3) * 2 ^ (10 * n) := Nat.mul_le_mul_left _ hten
    _ = 2 ^ (a * 3 + 10 * n) := (Nat.pow_add ..).symm
    _ < 2 ^ (b * 3) := Nat.pow_lt_pow_right (by decide) h
    _ = (2 ^ b) ^ 3 := Nat.pow_mul ..

/-- Sixteen digits take more than fifty-three bits. -/
theorem lt_mul_ten_pow (h : a * 16 < b * 16 + 53 * n) : 2 ^ a < 2 ^ b * 10 ^ n := by
  have hten : 2 ^ (53 * n) ≤ (10 ^ n) ^ 16 := by
    rw [← Nat.pow_mul, Nat.mul_comm n, Nat.pow_mul, Nat.pow_mul]
    exact Nat.pow_le_pow_left (by decide) n
  refine (Nat.pow_lt_pow_iff_left (by decide : 16 ≠ 0)).1 ?_
  calc (2 ^ a) ^ 16
      = 2 ^ (a * 16) := (Nat.pow_mul ..).symm
    _ < 2 ^ (b * 16 + 53 * n) := Nat.pow_lt_pow_right (by decide) h
    _ = 2 ^ (b * 16) * 2 ^ (53 * n) := Nat.pow_add ..
    _ ≤ 2 ^ (b * 16) * (10 ^ n) ^ 16 := Nat.mul_le_mul_left _ hten
    _ = (2 ^ b * 10 ^ n) ^ 16 := by rw [Nat.mul_pow, ← Nat.pow_mul 2]

end

/-- A grid of four times whose points a unit is a part, in quarters of a unit, against half the
distance of a double to the next. -/
theorem grid_lt {k : Nat} {e : Int} (hk : k ≤ 2045)
    (he : e ≤ ((k : Int) - 1021) * 30103 / 100000 - 22) :
    4 * unitsPerOne * 10 ^ e.toNat < (2 <<< k) * 10 ^ (-e).toNat := by
  have hstep : 4 * unitsPerOne = 2 ^ 1076 := by decide +kernel
  have hhalf : 2 <<< k = 2 ^ (k + 1) := by rw [Nat.shiftLeft_eq, Nat.pow_succ, Nat.mul_comm]
  rw [hstep, hhalf]
  by_cases hsign : 0 ≤ e
  · obtain ⟨n, rfl⟩ := Int.eq_ofNat_of_zero_le hsign
    have hneg : (-(n : Int)).toNat = 0 := by omega
    rw [hneg, Int.toNat_natCast, Nat.pow_zero, Nat.mul_one]
    exact mul_ten_pow_lt (by omega)
  · obtain ⟨n, rfl⟩ : ∃ n : Nat, e = -(n : Int) := ⟨(-e).toNat, by omega⟩
    have hneg : (-(n : Int)).toNat = 0 := by omega
    rw [hneg, Int.neg_neg, Int.toNat_natCast, Nat.pow_zero, Nat.mul_one]
    exact lt_mul_ten_pow (by omega)

theorem log2_shiftLeft_le {m k : Nat} (hm : m < 2 * leadingBit) : (m <<< k).log2 ≤ 52 + k := by
  by_cases hz : m = 0
  · rw [hz, Nat.zero_shiftLeft, Nat.log2_zero]
    exact Nat.zero_le _
  · refine Nat.le_of_lt_succ ((Nat.log2_lt ?_).2 ?_)
    · rw [Nat.shiftLeft_eq]
      exact Nat.mul_ne_zero hz (Nat.ne_of_gt (Nat.two_pow_pos k))
    · rw [Nat.shiftLeft_eq, show (52 + k).succ = 53 + k by omega, Nat.pow_add]
      exact Nat.mul_lt_mul_of_pos_right hm (Nat.two_pow_pos k)

theorem coarseExponent_le {m k : Nat} (hm : m < 2 * leadingBit) :
    coarseExponent (m <<< k) - 24 ≤ ((k : Int) - 1021) * 30103 / 100000 - 22 := by
  have hlog := log2_shiftLeft_le (k := k) hm
  unfold coarseExponent
  omega

namespace RoundingInterval

/-- Whether a decimal lies in the interval. -/
def has (i : RoundingInterval) (d : Decimal) : Prop :=
  i.contains d.den (4 * (d.num * unitsPerOne))

variable {i : RoundingInterval} {e : Int}

/-- A point of a grid, in quarters of a unit. -/
theorem point_eq (a : Nat) (e : Int) :
    a * (4 * unitsPerOne * 10 ^ e.toNat) = 4 * ((⟨a, e⟩ : Decimal).num * unitsPerOne) := by
  simp only [Decimal.num]
  ring

theorem has_of_pointOn? {digits : Nat} (h : i.pointOn? e = some digits) : i.has ⟨digits, e⟩ := by
  simp only [pointOn?, Nat.pow_eq, point_eq] at h
  split_ifs at h with hboth hnear hlow hhigh
  · cases h
    exact (Bool.and_eq_true _ _ ▸ hboth).1
  · cases h
    exact (Bool.and_eq_true _ _ ▸ hboth).2
  · cases h
    exact hlow
  · cases h
    exact hhigh

/-- What is found is the point of its grid, and the next coarser grid has none, if it was looked at.
-/
theorem search_eq {grids : Nat} (h : (i.pointOn? (e - grids)).isSome) :
    i.pointOn? (i.search grids e).exponent = some (i.search grids e).digits ∧
      ((i.search grids e).exponent = e ∨ i.pointOn? ((i.search grids e).exponent + 1) = none) := by
  induction grids generalizing e with
  | zero =>
      obtain ⟨digits, hdigits⟩ := Option.isSome_iff_exists.1 h
      rw [Int.natCast_zero, Int.sub_zero] at hdigits
      rw [search, hdigits]
      exact ⟨rfl, .inl rfl⟩
  | succ grids ih =>
      rw [search]
      split
      · rename_i digits hdigits
        exact ⟨hdigits, .inl rfl⟩
      · rename_i hnone
        rw [Int.natCast_succ] at h
        obtain ⟨hfound, hcoarser⟩ := ih (by rwa [Int.sub_sub, Int.add_comm 1])
        refine ⟨hfound, .inr ?_⟩
        rcases hcoarser with heq | hcoarser
        · rw [heq, Int.sub_add_cancel, hnone]
        · exact hcoarser

/-- On a fine grid, the first point above a double is in its interval. -/
theorem isSome_pointOn? {m k : Nat}
    (h : 4 * unitsPerOne * 10 ^ e.toNat < (2 <<< k) * 10 ^ (-e).toNat) :
    ((RoundingInterval.of m k).pointOn? e).isSome := by
  have hstep : 0 < 4 * unitsPerOne * 10 ^ e.toNat :=
    Nat.mul_pos (by decide) (Nat.pow_pos (by decide))
  have hlower : (RoundingInterval.of m k).lower ≤ (RoundingInterval.of m k).center := by
    simp only [RoundingInterval.of, Nat.shiftLeft_eq]
    exact Nat.mul_le_mul_right _ (Nat.sub_le ..)
  have hupper : (RoundingInterval.of m k).upper = (RoundingInterval.of m k).center + 2 <<< k := by
    simp only [RoundingInterval.of, Nat.shiftLeft_eq, Nat.add_mul]
  have hhigh : (RoundingInterval.of m k).contains (10 ^ (-e).toNat)
      (((RoundingInterval.of m k).center * 10 ^ (-e).toNat / (4 * unitsPerOne * 10 ^ e.toNat) + 1) *
        (4 * unitsPerOne * 10 ^ e.toNat)) := by
    generalize 4 * unitsPerOne * 10 ^ e.toNat = step at h hstep ⊢
    generalize 10 ^ (-e).toNat = scale at h ⊢
    generalize RoundingInterval.of m k = i at hlower hupper ⊢
    have hbelow := Nat.div_mul_le_self (i.center * scale) step
    have habove := Nat.lt_div_mul_add hstep (a := i.center * scale)
    have hlow := Nat.mul_le_mul_right scale hlower
    rw [contains, hupper, Nat.add_mul _ _ scale, Nat.succ_mul]
    split_ifs
    · simp only [Bool.decide_and, Bool.and_eq_true, decide_eq_true_eq]
      omega
    · simp only [Bool.decide_and, Bool.and_eq_true, decide_eq_true_eq]
      omega
  unfold pointOn?
  simp only [Nat.pow_eq, hhigh, Bool.and_true, if_true]
  split_ifs <;> rfl

theorem search_has_of {m k : Nat} (hm : m < 2 * leadingBit) (hk : k ≤ 2045) :
    (RoundingInterval.of m k).has
      ((RoundingInterval.of m k).search 24 (coarseExponent (m <<< k))) :=
  has_of_pointOn? (search_eq (isSome_pointOn? (grid_lt hk (coarseExponent_le hm)))).1

/-- A double is in its own interval. -/
theorem contains_center (m k : Nat) {scale : Nat} (hscale : 0 < scale) :
    (RoundingInterval.of m k).contains scale (4 * (m * (scale <<< k))) := by
  have hunit := shiftLeft_pos hscale k
  simp only [contains, RoundingInterval.of, shiftLeft_mul, ← Nat.mul_assoc]
  generalize scale <<< k = unit at hunit ⊢
  by_cases hodd : m % 2 = 0
  · simp only [hodd, decide_true, if_true, Bool.decide_and, Bool.and_eq_true, decide_eq_true_eq]
    exact ⟨Nat.mul_le_mul_right _ (Nat.sub_le ..), Nat.mul_le_mul_right _ (Nat.le_add_right ..)⟩
  · simp only [hodd, decide_false, Bool.false_eq_true, if_false, Bool.decide_and, Bool.and_eq_true,
      decide_eq_true_eq]
    refine ⟨Nat.mul_lt_mul_of_pos_right ?_ hunit, Nat.mul_lt_mul_of_pos_right (by omega) hunit⟩
    split_ifs <;> omega

end RoundingInterval

/-- The shortest decimal of a double lies in its rounding interval. -/
theorem has_shortest {m k : Nat} (h : Canonical m k) :
    (RoundingInterval.of m k).has (shortest m k) := by
  unfold shortest
  split
  · rename_i hz
    have hcenter := RoundingInterval.contains_center m k Nat.one_pos
    rw [hz, Nat.zero_mul] at hcenter
    rw [hz]
    exact hcenter
  · exact RoundingInterval.search_has_of h.significand_lt h.exponent_le

end Parens.Number
