import Parens.Proofs.Number.Nearest

/-!
Doubles in order. Among doubles that are numbers, to be less or equal means to stand no later in the
row that leads from minus infinity to infinity, in which both zeros have the same place. So correct
rounding is monotone.
-/

namespace Parens.Number

open Float.Model Float.Model.UnpackedFloat

def signOf (negative : Bool) : Sign := if negative then .negative else .positive

/-- What a double is to the arithmetic of doubles. -/
def Decoded.unpacked : Decoded → UnpackedFloat
  | .notANumber => .notANumber
  | .infinite negative => .infinity (signOf negative)
  | .finite negative significand exponent =>
    if h : 0 < significand then .finite (signOf negative) significand (exponent - 1074) h
    else .zero (signOf negative)

theorem ofBitVec_unpackSign (v : BitVec Format.binary64.numBits) :
    Sign.ofBitVec (unpackSign v) = signOf (decide (1 <<< 63 ≤ v.toNat)) := by
  have hsign : (unpackSign v : BitVec 1).toNat = v.toNat / 2 ^ 63 % 2 := by
    rw [unpackSign, BitVec.toNat_cast, BitVec.extractLsb_toNat, Nat.shiftRight_eq_div_pow]
    rfl
  have hlt : v.toNat < 2 ^ 64 := v.isLt
  have hzero : (unpackSign v : BitVec 1) = 0#1 ↔ ¬ 1 <<< 63 ≤ v.toNat := by
    rw [← BitVec.toNat_inj, hsign, BitVec.toNat_ofNat]
    omega
  rw [Sign.ofBitVec, signOf]
  simp only [hzero, decide_eq_true_eq, ite_not]

/-- Unpacking sees in a double what decoding sees. -/
theorem unpack_eq (x : Float) : x.toModel.unpack = (decode x).unpacked := by
  let v : BitVec Format.binary64.numBits := x.toBits.toBitVec
  let exponent : BitVec 11 := unpackExponent v
  let mantissa : BitVec 52 := unpackMantissa v
  have hexponent : exponent.toNat = x.toBits.toNat / leadingBit % 2048 := toNat_unpackExponent v
  have hmantissa : mantissa.toNat = x.toBits.toNat % leadingBit := toNat_unpackMantissa v
  have hlt : mantissa.toNat < leadingBit := mantissa.isLt
  have hones : exponent = -1#11 ↔ exponent.toNat = 2047 := by
    rw [← BitVec.toNat_inj]
    rfl
  have hzeros : exponent = 0#11 ↔ exponent.toNat = 0 := by
    rw [← BitVec.toNat_inj]
    rfl
  have hnone : mantissa = 0#52 ↔ mantissa.toNat = 0 := by
    rw [← BitVec.toNat_inj]
    rfl
  change UnpackedFloat.unpack Format.binary64 v = _
  unfold decode UnpackedFloat.unpack
  dsimp only
  rw [ofBitVec_unpackSign v, ← hexponent, ← hmantissa]
  change (if exponent = -1#11 then _ else if exponent = 0#11 then _ else _) = _
  by_cases hfield : exponent.toNat = 2047
  · rw [if_pos (hones.2 hfield), if_pos hfield]
    by_cases hfraction : mantissa.toNat = 0
    · rw [if_pos hfraction]
      exact if_pos (hnone.2 hfraction)
    · rw [if_neg hfraction]
      exact if_neg (mt hnone.1 hfraction)
  · rw [if_neg (mt hones.1 hfield), if_neg hfield]
    by_cases hzero : exponent.toNat = 0
    · rw [if_pos (hzeros.2 hzero), if_pos hzero]
      by_cases hfraction : mantissa.toNat = 0
      · refine (dif_pos (hnone.2 hfraction)).trans ?_
        rw [Decoded.unpacked, dif_neg (by omega)]
        rfl
      · refine (dif_neg (mt hnone.1 hfraction)).trans ?_
        rw [Decoded.unpacked, dif_pos (by omega)]
        change UnpackedFloat.finite _ mantissa.toNat ((exponent.toNat : Int) - 1075 + 1) _ = _
        congr 1
        omega
    · rw [if_neg (mt hzeros.1 hzero), if_neg hzero]
      have hleading : (1#1 ++ mantissa).toNat = leadingBit + mantissa.toNat := by
        change 2 ^ 52 ||| mantissa.toNat = _
        rw [Nat.or_comm, Nat.or_two_pow_eq_add_of_lt hlt, Nat.add_comm]
        rfl
      rw [Decoded.unpacked, dif_pos (by omega)]
      change UnpackedFloat.finite _ (1#1 ++ mantissa).toNat ((exponent.toNat : Int) - 1075) _ = _
      congr 1
      omega

/-- The place in the row that leads from minus infinity to infinity. -/
def signedPlace (negative : Bool) (place : Nat) : Int := if negative then -place else place

/-- What the arithmetic of doubles sees at a place. -/
inductive UnpacksTo (negative : Bool) : Nat → UnpackedFloat → Prop
  | infinity : UnpacksTo negative infinityBits (.infinity (signOf negative))
  | zero : UnpacksTo negative 0 (.zero (signOf negative))
  | finite {m k : Nat} (hc : Canonical m k) (hm : 0 < m) :
      UnpacksTo negative (k * leadingBit + m) (.finite (signOf negative) m (k - 1074) hm)

theorem unpacksTo_ofPlace {place : Nat} (negative : Bool) (h : place ≤ infinityBits) :
    UnpacksTo negative place (ofPlace negative place).toModel.unpack := by
  rw [unpack_eq]
  rcases Nat.eq_or_lt_of_le h with rfl | hlt
  · rw [decode_ofPlace_of_le negative le_rfl]
    exact .infinity
  · obtain ⟨m, k, hdecode, rfl⟩ := decode_ofPlace_of_lt negative hlt
    have hc := (bits_of_decode hdecode).1
    rw [hdecode, Decoded.unpacked]
    by_cases hm : 0 < m
    · rw [dif_pos hm]
      exact .finite hc hm
    · obtain rfl : m = 0 := by omega
      have hk : k = 0 := by
        by_contra hne
        exact absurd (hc.leadingBit_le (Nat.pos_of_ne_zero hne)) (by decide)
      rw [dif_neg hm, hk]
      exact .zero

/-- Exponents and then significands are compared as the places are. -/
theorem compare_finite {m k m' k' : Nat} (hc : Canonical m k) (hc' : Canonical m' k') :
    (compare (k - 1074 : Int) (k' - 1074)).then (compare m m') =
      compare ((k * leadingBit + m : Nat) : Int) (k' * leadingBit + m' : Nat) := by
  obtain ⟨hm, hk, -⟩ := hc
  obtain ⟨hm', hk', -⟩ := hc'
  rw [leadingBit_eq] at hm hk hm' hk' ⊢
  rcases Nat.lt_trichotomy k k' with hlt | rfl | hlt
  · rw [compare_lt_iff_lt.2 (show (k - 1074 : Int) < k' - 1074 by omega),
      compare_lt_iff_lt.2 (show ((k * 2 ^ 52 + m : Nat) : Int) < (k' * 2 ^ 52 + m' : Nat) by omega)]
    rfl
  · rw [compare_eq_iff_eq.2 rfl, Ordering.eq_then]
    rcases Nat.lt_trichotomy m m' with hlt | rfl | hlt
    · rw [compare_lt_iff_lt.2 hlt, compare_lt_iff_lt.2 (by omega)]
    · rw [compare_eq_iff_eq.2 rfl, compare_eq_iff_eq.2 rfl]
    · rw [compare_gt_iff_gt.2 hlt, compare_gt_iff_gt.2 (by omega)]
  · rw [compare_gt_iff_gt.2 (show (k' - 1074 : Int) < k - 1074 by omega),
      compare_gt_iff_gt.2 (show ((k' * 2 ^ 52 + m' : Nat) : Int) < (k * 2 ^ 52 + m : Nat) by omega)]
    rfl

theorem swap_compare_eq (a b : Int) : (compare a b).swap = compare (-a) (-b) := by
  rcases Int.lt_trichotomy a b with hlt | rfl | hlt
  · rw [compare_lt_iff_lt.2 hlt, compare_gt_iff_gt.2 (by omega)]
    rfl
  · rw [compare_eq_iff_eq.2 rfl, compare_eq_iff_eq.2 rfl]
    rfl
  · rw [compare_gt_iff_gt.2 hlt, compare_lt_iff_lt.2 (by omega)]
    rfl

theorem some_lt_eq {a b : Int} (h : a < b) : some .lt = some (compare a b) :=
  congrArg some (compare_lt_iff_lt.2 h).symm

theorem some_gt_eq {a b : Int} (h : b < a) : some .gt = some (compare a b) :=
  congrArg some (compare_gt_iff_gt.2 h).symm

theorem some_eq_eq {a b : Int} (h : a = b) : some .eq = some (compare a b) :=
  congrArg some (compare_eq_iff_eq.2 h).symm

/-- Doubles are compared as their places are. -/
theorem UnpacksTo.compare_eq {negative negative' : Bool} {place place' : Nat} {u u' : UnpackedFloat}
    (h : UnpacksTo negative place u) (h' : UnpacksTo negative' place' u') :
    u.compare u' = some (compare (signedPlace negative place) (signedPlace negative' place')) := by
  have hpos : 0 < infinityBits := by decide
  have hlt : ∀ {m k : Nat}, Canonical m k → k * leadingBit + m < infinityBits :=
    Canonical.lt_infinityBits
  have hneg : ∀ place, signedPlace true place = -place := fun _ => rfl
  have hnonneg : ∀ place, signedPlace false place = place := fun _ => rfl
  -- Only two finite doubles of one sign are compared by more than their kinds and signs.
  cases h with
  | infinity | zero =>
      cases h' with
      | infinity | zero =>
          cases negative <;> cases negative' <;> simp only [hneg, hnonneg] <;>
            generalize infinityBits = top at hpos ⊢ <;>
            first
              | exact some_eq_eq (by omega)
              | exact some_lt_eq (by omega)
              | exact some_gt_eq (by omega)
      | finite hc hm =>
          have hlast := hlt hc
          cases negative <;> cases negative' <;> simp only [hneg, hnonneg] <;>
            generalize infinityBits = top at hlast ⊢ <;>
            first
              | exact some_lt_eq (by omega)
              | exact some_gt_eq (by omega)
  | finite hc hm =>
      have hlast := hlt hc
      cases h' with
      | infinity | zero =>
          cases negative <;> cases negative' <;> simp only [hneg, hnonneg] <;>
            generalize infinityBits = top at hlast ⊢ <;>
            first
              | exact some_lt_eq (by omega)
              | exact some_gt_eq (by omega)
      | finite hc' hm' =>
          cases negative <;> cases negative' <;> simp only [hneg, hnonneg]
          · exact congrArg some (compare_finite hc hc')
          · exact some_gt_eq (by omega)
          · exact some_lt_eq (by omega)
          · rw [← swap_compare_eq, ← compare_finite hc hc']
            rfl

/-- One double is less than or equal to another if its place is. -/
theorem ofPlace_le_ofPlace_iff {negative negative' : Bool} {place place' : Nat}
    (h : place ≤ infinityBits) (h' : place' ≤ infinityBits) :
    ofPlace negative place ≤ ofPlace negative' place' ↔
      signedPlace negative place ≤ signedPlace negative' place' := by
  have hle : ofPlace negative place ≤ ofPlace negative' place' ↔
      ((ofPlace negative place).toModel.unpack.compare
        (ofPlace negative' place').toModel.unpack).any (·.isLE) :=
    decide_eq_true_iff
  rw [hle, (unpacksTo_ofPlace negative h).compare_eq (unpacksTo_ofPlace negative' h'),
    Option.any_some]
  exact Ordering.isLE_iff_ne_gt.trans compare_le_iff_le

theorem ofPlace_min (negative : Bool) (place : Nat) :
    ofPlace negative (min place infinityBits) = ofPlace negative place := by
  rw [ofPlace, Nat.min_assoc, Nat.min_self, ofPlace]

/-- The greater numeral reads as the greater double, or as the same. -/
theorem Numeral.toFloat_mono {n n' : Numeral} (h : n.toRat ≤ n'.toRat) :
    n.toFloat ≤ n'.toFloat := by
  obtain ⟨place, hrounded, hfloat⟩ := n.exists_place
  obtain ⟨place', hrounded', hfloat'⟩ := n'.exists_place
  rw [hfloat, hfloat', ← ofPlace_min _ place, ← ofPlace_min _ place',
    ofPlace_le_ofPlace_iff (Nat.min_le_right ..) (Nat.min_le_right ..)]
  clear hfloat hfloat'
  have hq : (0 : ℚ) ≤ n.digits / 10 ^ n.places := by positivity
  have hq' : (0 : ℚ) ≤ n'.digits / 10 ^ n'.places := by positivity
  have hpos := unitsPerOne_pos
  unfold toRat at h
  generalize (n.digits / 10 ^ n.places : ℚ) = q at *
  generalize (n'.digits / 10 ^ n'.places : ℚ) = q' at *
  generalize n.negative = negative at *
  generalize n'.negative = negative' at *
  cases negative <;> cases negative' <;>
    simp only [withSign, signedPlace, if_true, if_false, Bool.false_eq_true] at h ⊢
  · have hle := hrounded.mono hrounded' (mul_le_mul_of_nonneg_right h hpos.le)
    omega
  · -- Only zeros are left.
    obtain rfl : q = 0 := by linarith
    obtain rfl : q' = 0 := by linarith
    rw [zero_mul] at hrounded hrounded'
    rw [hrounded.eq_zero, hrounded'.eq_zero]
    omega
  · omega
  · have hle := hrounded'.mono hrounded (mul_le_mul_of_nonneg_right (neg_le_neg_iff.1 h) hpos.le)
    omega

end Parens.Number
