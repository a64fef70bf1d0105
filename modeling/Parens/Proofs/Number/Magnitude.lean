import Parens.Proofs.Number.Bits

/-!
The magnitudes of doubles in a row, from zero on. The place of a magnitude in the row is what the
bits of a double say below the sign; at the place of infinity stands what the next double would be.
A count of units is rounded to a place if it lies between the points halfway to the places around,
and on one of these points only if the place is even.
-/

namespace Parens.Number

/-- The magnitude at a place, in units. -/
def unitsAt (place : Nat) : Nat :=
  (place - (place / leadingBit - 1) * leadingBit) * 2 ^ (place / leadingBit - 1)

theorem unitsAt_eq {m k : Nat} (hm : m ≤ 2 * leadingBit) (hk : 0 < k → leadingBit ≤ m) :
    unitsAt (k * leadingBit + m) = m * 2 ^ k := by
  have hpos : 0 < leadingBit := by decide
  rcases Nat.eq_or_lt_of_le hm with rfl | hlt
  · -- A significand of `2^53` is one of `2^52` with the next exponent.
    have hdiv : (k * leadingBit + 2 * leadingBit) / leadingBit - 1 = k + 1 := by
      rw [← Nat.add_mul, Nat.mul_div_cancel _ hpos]
      rfl
    have hsub : k * leadingBit + 2 * leadingBit - (k + 1) * leadingBit = leadingBit := by
      rw [Nat.add_mul]
      omega
    rw [unitsAt, hdiv, hsub, Nat.pow_succ, Nat.mul_comm 2, Nat.mul_assoc, Nat.mul_comm 2]
  · have hdiv : (k * leadingBit + m) / leadingBit - 1 = k := by
      rw [Nat.add_comm, Nat.add_mul_div_right _ _ hpos]
      have hle : m / leadingBit ≤ 1 := Nat.le_of_lt_succ ((Nat.div_lt_iff_lt_mul hpos).2 hlt)
      rcases Nat.eq_zero_or_pos k with rfl | hk'
      · omega
      · have hone := Nat.div_pos (hk hk') hpos
        omega
    rw [unitsAt, hdiv, Nat.add_sub_cancel_left]

theorem unitsAt_succ (place : Nat) :
    unitsAt (place + 1) = unitsAt place + 2 ^ (place / leadingBit - 1) := by
  obtain ⟨k, hk⟩ : ∃ k, place / leadingBit - 1 = k := ⟨_, rfl⟩
  obtain ⟨m, rfl, hm, hlow⟩ : ∃ m, place = k * leadingBit + m ∧ m < 2 * leadingBit ∧
      (0 < k → leadingBit ≤ m) := by
    refine ⟨place - k * leadingBit, ?_⟩
    rw [leadingBit_eq] at hk ⊢
    omega
  rw [hk, Nat.add_assoc, unitsAt_eq hm fun h => Nat.le_succ_of_le (hlow h),
    unitsAt_eq (Nat.le_of_lt hm) hlow, Nat.succ_mul]

theorem unitsAt_strictMono : StrictMono unitsAt :=
  strictMono_nat_of_lt_succ fun place => by
    rw [unitsAt_succ]
    exact Nat.lt_add_of_pos_right (Nat.two_pow_pos _)

/-- Twice the point halfway from a place to the next. -/
def halfwayAt (place : Nat) : Nat := unitsAt place + unitsAt (place + 1)

theorem halfwayAt_strictMono : StrictMono halfwayAt := fun _ _ h =>
  Nat.add_lt_add (unitsAt_strictMono h) (unitsAt_strictMono (Nat.succ_lt_succ h))

theorem halfwayAt_eq {m k : Nat} (hm : m < 2 * leadingBit) (hk : 0 < k → leadingBit ≤ m) :
    halfwayAt (k * leadingBit + m) = (2 * m + 1) * 2 ^ k := by
  rw [halfwayAt, Nat.add_assoc, unitsAt_eq (Nat.le_of_lt hm) hk,
    unitsAt_eq (show m + 1 ≤ _ from hm) fun h => Nat.le_succ_of_le (hk h)]
  ring

theorem le_halfwayAt {m k : Nat} (hm : m ≤ 2 * leadingBit) (hk : 0 < k → leadingBit ≤ m) :
    (2 * m + 1) * 2 ^ k ≤ halfwayAt (k * leadingBit + m) := by
  rcases Nat.eq_or_lt_of_le hm with rfl | hlt
  · rw [Nat.two_mul leadingBit, ← Nat.add_assoc, ← Nat.succ_mul,
      halfwayAt_eq (by decide) fun _ => le_rfl, Nat.pow_succ, Nat.mul_comm (2 ^ k), ← Nat.mul_assoc]
    exact Nat.mul_le_mul_right _ (by omega)
  · rw [halfwayAt_eq hlt hk]

/-- The place below has the same exponent, except below a power of two. -/
theorem exists_halfwayAt_eq {m k place : Nat} (hplace : k * leadingBit + m = place + 1)
    (hm : m ≤ 2 * leadingBit) (hk : 0 < k → leadingBit < m) :
    ∃ n, m = n + 1 ∧ halfwayAt place = (2 * n + 1) * 2 ^ k := by
  have hpos : 0 < m := by
    rcases Nat.eq_zero_or_pos k with rfl | hk'
    · omega
    · exact Nat.zero_lt_of_lt (hk hk')
  obtain ⟨n, rfl⟩ : ∃ n, m = n + 1 := ⟨m - 1, by omega⟩
  obtain rfl : place = k * leadingBit + n := by omega
  exact ⟨n, rfl, halfwayAt_eq hm fun hk' => Nat.le_of_lt_succ (hk hk')⟩

theorem halfwayAt_infinityBits :
    (halfwayAt (infinityBits - 1) : ℚ) = 2 * ((2 ^ 1024 - 2 ^ 970) * unitsPerOne) := by
  have h : halfwayAt (infinityBits - 1) + 2 * (2 ^ 970 * unitsPerOne) =
      2 * (2 ^ 1024 * unitsPerOne) := by decide +kernel
  have hcast := congrArg (Nat.cast (R := ℚ)) h
  simp only [Nat.cast_add, Nat.cast_mul, Nat.cast_pow, Nat.cast_ofNat] at hcast
  rw [sub_mul, mul_sub, ← hcast, add_sub_cancel_right]

/-- Whether a count of units is rounded past a place: it lies beyond the point halfway to the next,
or on this point, and the place is odd. -/
def RoundsPast (q : ℚ) (place : Nat) : Prop :=
  halfwayAt place < 2 * q ∨ halfwayAt place = 2 * q ∧ place % 2 = 1

def IsRounded (q : ℚ) (place : Nat) : Prop := ∀ a, a < place ↔ RoundsPast q a

section

variable {q a b : ℚ}

/-- Of two points, the upper is as near as the lower from halfway between them on. -/
theorem abs_sub_le_upper_iff (h : a < b) : |q - b| ≤ |q - a| ↔ a + b ≤ 2 * q := by
  rw [← sq_le_sq]
  constructor
  · intro hsq
    nlinarith
  · intro hle
    nlinarith

theorem abs_sub_le_lower_iff (h : a < b) : |q - a| ≤ |q - b| ↔ 2 * q ≤ a + b := by
  rw [← sq_le_sq]
  constructor
  · intro hsq
    nlinarith
  · intro hle
    nlinarith

end

variable {q q' q'' : ℚ} {place place' a : Nat}

/-- A count is rounded past a place if the next is nearer, or as near and the even one. -/
theorem roundsPast_iff :
    RoundsPast q place ↔ |q - unitsAt (place + 1)| < |q - unitsAt place| ∨
      |q - unitsAt (place + 1)| = |q - unitsAt place| ∧ place % 2 = 1 := by
  have hunits : (unitsAt place : ℚ) < unitsAt (place + 1) :=
    Nat.cast_lt.2 (unitsAt_strictMono (Nat.lt_add_one place))
  have hhalf : (halfwayAt place : ℚ) = unitsAt place + unitsAt (place + 1) := Nat.cast_add ..
  rw [← not_le, abs_sub_le_lower_iff hunits, not_le, le_antisymm_iff, abs_sub_le_upper_iff hunits,
    abs_sub_le_lower_iff hunits, ← le_antisymm_iff, RoundsPast, hhalf]

theorem RoundsPast.mono (h : RoundsPast q place) (hq : q ≤ q') (ha : a ≤ place) :
    RoundsPast q' a := by
  rcases Nat.eq_or_lt_of_le ha with rfl | hlt
  · rcases hq.eq_or_lt with rfl | hq
    · exact h
    · left
      rcases h with h | ⟨h, -⟩ <;> linarith
  · have hhalf : (halfwayAt a : ℚ) < halfwayAt place := Nat.cast_lt.2 (halfwayAt_strictMono hlt)
    left
    rcases h with h | ⟨h, -⟩ <;> linarith

/-- What counts for rounding are the points halfway to the two places around. -/
theorem isRounded_iff :
    IsRounded q place ↔ (∀ a, place = a + 1 → RoundsPast q a) ∧ ¬ RoundsPast q place := by
  constructor
  · intro h
    exact ⟨fun a ha => (h a).1 (by omega), mt (h place).2 (Nat.lt_irrefl place)⟩
  · rintro ⟨hlow, hhigh⟩ a
    constructor
    · intro ha
      exact (hlow (place - 1) (by omega)).mono le_rfl (by omega)
    · intro ha
      by_contra hge
      exact hhigh (ha.mono le_rfl (Nat.le_of_not_lt hge))

namespace IsRounded

theorem mono (h : IsRounded q place) (h' : IsRounded q' place') (hq : q ≤ q') : place ≤ place' := by
  by_contra hlt
  have hpast := (h place').1 (Nat.lt_of_not_le hlt)
  exact Nat.lt_irrefl place' ((h' place').2 (hpast.mono hq le_rfl))

theorem unique (h : IsRounded q place) (h' : IsRounded q place') : place = place' :=
  Nat.le_antisymm (h.mono h' le_rfl) (h'.mono h le_rfl)

/-- What is rounded to a place is an interval. -/
theorem between (h : IsRounded q place) (h' : IsRounded q' place) (hq : q ≤ q'')
    (hq' : q'' ≤ q') : IsRounded q'' place := fun a =>
  ⟨fun ha => ((h a).1 ha).mono hq le_rfl, fun ha => (h' a).2 (ha.mono hq' le_rfl)⟩

theorem two_mul_le (h : IsRounded q place) : 2 * q ≤ halfwayAt place :=
  not_lt.1 fun hlt => (isRounded_iff.1 h).2 (.inl hlt)

theorem le_two_mul (h : IsRounded q (place + 1)) : halfwayAt place ≤ 2 * q := by
  rcases (isRounded_iff.1 h).1 place rfl with hlt | ⟨heq, -⟩
  · exact hlt.le
  · exact heq.le

theorem eq_zero (h : IsRounded 0 place) : place = 0 := by
  by_contra hne
  obtain ⟨a, rfl⟩ : ∃ a, place = a + 1 := ⟨place - 1, by omega⟩
  have hpos : 0 < halfwayAt a :=
    Nat.lt_of_lt_of_le (by decide) (halfwayAt_strictMono.monotone (Nat.zero_le a))
  have hle := h.le_two_mul
  rw [mul_zero, ← Nat.cast_zero, Nat.cast_le] at hle
  omega

/-- No place is nearer, and another is as near only if the place is even. -/
theorem abs_sub_le (h : IsRounded q place) (a : Nat) :
    |q - unitsAt place| ≤ |q - unitsAt a| ∧
      (|q - unitsAt place| = |q - unitsAt a| → a = place ∨ place % 2 = 0) := by
  obtain ⟨hlow, hhigh⟩ := isRounded_iff.1 h
  rcases Nat.lt_trichotomy a place with hlt | rfl | hlt
  · obtain ⟨b, rfl⟩ : ∃ b, place = b + 1 := ⟨place - 1, by omega⟩
    have hunits : (unitsAt a : ℚ) < unitsAt (b + 1) := Nat.cast_lt.2 (unitsAt_strictMono hlt)
    have hle : (unitsAt a + unitsAt (b + 1) : ℚ) ≤ halfwayAt b := by
      rw [halfwayAt, Nat.cast_add]
      gcongr
      exact unitsAt_strictMono.monotone (Nat.le_of_lt_succ hlt)
    refine ⟨(abs_sub_le_upper_iff hunits).2 (hle.trans h.le_two_mul), fun htie => .inr ?_⟩
    have hge := (abs_sub_le_lower_iff hunits).1 htie.ge
    rcases hlow b rfl with hpast | ⟨-, hodd⟩
    · linarith
    · omega
  · exact ⟨le_rfl, fun _ => .inl rfl⟩
  · have hunits : (unitsAt place : ℚ) < unitsAt a := Nat.cast_lt.2 (unitsAt_strictMono hlt)
    have hle : (halfwayAt place : ℚ) ≤ unitsAt place + unitsAt a := by
      rw [halfwayAt, Nat.cast_add]
      gcongr
      exact unitsAt_strictMono.monotone hlt
    refine ⟨(abs_sub_le_lower_iff hunits).2 (h.two_mul_le.trans hle), fun htie => .inr ?_⟩
    have hge := (abs_sub_le_upper_iff hunits).1 htie.ge
    by_contra hodd
    exact hhigh (.inr ⟨le_antisymm (hle.trans hge) h.two_mul_le, by omega⟩)

/-- What is rounded to infinity, or beyond. -/
theorem infinityBits_le_iff (h : IsRounded q place) :
    infinityBits ≤ place ↔ (2 ^ 1024 - 2 ^ 970) * (unitsPerOne : ℚ) ≤ q := by
  have hpos : infinityBits = infinityBits - 1 + 1 := by decide
  have hodd : (infinityBits - 1) % 2 = 1 := by decide
  rw [hpos, Nat.succ_le_iff, h, RoundsPast, and_iff_left hodd, ← le_iff_lt_or_eq,
    halfwayAt_infinityBits, mul_le_mul_iff_right₀ two_pos]

end IsRounded

theorem roundsPast_div_iff {units den : Nat} (hden : 0 < den) :
    RoundsPast (units / den) place ↔
      halfwayAt place * den < 2 * units ∨ halfwayAt place * den = 2 * units ∧ place % 2 = 1 := by
  have hden' : (0 : ℚ) < den := Nat.cast_pos.2 hden
  rw [RoundsPast, ← mul_div_assoc, lt_div_iff₀ hden', eq_div_iff hden'.ne']
  norm_cast

end Parens.Number
