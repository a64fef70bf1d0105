import Parens.Proofs.Number.Rounding
import Parens.Proofs.Number.Text

/-!
Numerals against the doubles that they read as. The double of a numeral is the nearest to the exact
value of the numeral, and of two that are equally near the one with an even significand; from
halfway above the last finite double on it is infinite. No other double is all of this.
-/

namespace Parens.Number

def withSign (negative : Bool) (q : ℚ) : ℚ := if negative then -q else q

/-- The exact value of a finite double. -/
def toRat (x : Float) : ℚ :=
  match decode x with
  | .finite negative significand exponent =>
    withSign negative ((significand * 2 ^ exponent : Nat) / unitsPerOne)
  | _ => 0

/-- The exact value of a numeral. -/
def Numeral.toRat (n : Numeral) : ℚ := withSign n.negative (n.digits / 10 ^ n.places)

/-- Whether a double is what a number with this sign is correctly rounded to. -/
structure IsNearest (negative : Bool) (q : ℚ) (x : Float) : Prop where
  infinite : 2 ^ 1024 - 2 ^ 970 ≤ |q| → decode x = .infinite negative
  finite : |q| < 2 ^ 1024 - 2 ^ 970 → ∃ significand exponent,
    decode x = .finite negative significand exponent ∧ ∀ y, IsFinite y →
      |q - toRat x| ≤ |q - toRat y| ∧
        (|q - toRat x| = |q - toRat y| → toRat y = toRat x ∨ significand % 2 = 0)

/-- The double at a place, with a sign; beyond the finite ones it is infinite. -/
def ofPlace (negative : Bool) (place : Nat) : Float :=
  Float.ofBits (UInt64.ofNat (signBits negative + min place infinityBits))

theorem abs_withSign (negative : Bool) (q : ℚ) : |withSign negative q| = |q| := by
  cases negative
  · rfl
  · exact abs_neg q

theorem abs_withSign_sub (negative : Bool) (q r : ℚ) :
    |withSign negative q - withSign negative r| = |q - r| := by
  cases negative
  · rfl
  · rw [withSign, withSign, if_pos rfl, if_pos rfl, neg_sub_neg, abs_sub_comm]

theorem unitsPerOne_pos : (0 : ℚ) < unitsPerOne := Nat.cast_pos.2 (by decide)

theorem withSign_zero (negative : Bool) : withSign negative 0 = 0 := by
  cases negative
  · rfl
  · exact neg_zero

theorem decode_ofPlace_of_le {place : Nat} (negative : Bool) (h : infinityBits ≤ place) :
    decode (ofPlace negative place) = .infinite negative := by
  rw [ofPlace, Nat.min_eq_right h, decode_infinity]

theorem decode_ofPlace_of_lt {place : Nat} (negative : Bool) (h : place < infinityBits) :
    ∃ m k, decode (ofPlace negative place) = .finite negative m k ∧ k * leadingBit + m = place := by
  obtain ⟨negative', m, k, hdecode⟩ := @isFinite_ofBits negative place h
  obtain ⟨hc, hbits⟩ := bits_of_decode hdecode
  have hlt := hc.lt_infinityBits
  rw [toNat_toBits_ofBits (Nat.le_of_lt h)] at hbits
  rw [ofPlace, Nat.min_eq_left (Nat.le_of_lt h), hdecode]
  have hinfinity : infinityBits < 2 ^ 63 := by decide
  obtain rfl : negative' = negative := by
    rcases signBits_cases negative with ⟨rfl, hs⟩ | ⟨rfl, hs⟩ <;>
      rcases signBits_cases negative' with ⟨rfl, hs'⟩ | ⟨rfl, hs'⟩ <;> first | rfl | omega
  exact ⟨m, k, rfl, by omega⟩

theorem eq_ofPlace_of_decode {x : Float} {negative : Bool} {m k : Nat}
    (h : decode x = .finite negative m k) : x = ofPlace negative (k * leadingBit + m) := by
  rw [ofPlace, Nat.min_eq_left (Nat.le_of_lt (bits_of_decode h).1.lt_infinityBits)]
  exact eq_ofBits_of_decode h

theorem eq_ofPlace_of_infinite {x : Float} {negative : Bool} (h : decode x = .infinite negative) :
    x = ofPlace negative infinityBits := by
  have hbits : x.toBits.toNat = signBits negative + infinityBits := by
    have hlt := x.toBits.toNat_lt
    unfold decode at h
    generalize x.toBits.toNat = bits at h hlt ⊢
    have hsign : signBits (decide (1 <<< 63 ≤ bits)) = if 2 ^ 63 ≤ bits then 2 ^ 63 else 0 := by
      simp only [signBits, decide_eq_true_eq]
      rfl
    dsimp only at h
    split_ifs at h with hfield hfraction hzero
    cases h
    rw [hsign, infinityBits]
    rw [leadingBit_eq] at hfield hfraction ⊢
    split <;> omega
  rw [ofPlace, Nat.min_self, ← hbits, UInt64.ofNat_toNat, Float.ofBits_toBits]

theorem isFinite_ofPlace {place : Nat} (negative : Bool) (h : place < infinityBits) :
    IsFinite (ofPlace negative place) := by
  obtain ⟨m, k, hdecode, -⟩ := decode_ofPlace_of_lt negative h
  exact ⟨negative, m, k, hdecode⟩

theorem exists_place_of_isFinite {x : Float} (h : IsFinite x) :
    ∃ negative place, place < infinityBits ∧ x = ofPlace negative place := by
  obtain ⟨negative, m, k, h⟩ := h
  exact ⟨negative, _, (bits_of_decode h).1.lt_infinityBits, eq_ofPlace_of_decode h⟩

theorem toRat_ofPlace {place : Nat} (negative : Bool) (h : place < infinityBits) :
    toRat (ofPlace negative place) = withSign negative (unitsAt place / unitsPerOne) := by
  obtain ⟨m, k, hdecode, rfl⟩ := decode_ofPlace_of_lt negative h
  have hc := (bits_of_decode hdecode).1
  rw [unitsAt_eq (Nat.le_of_lt hc.significand_lt) hc.leadingBit_le, toRat, hdecode]

theorem eq_of_toRat_ofPlace_eq {negative : Bool} {place place' : Nat} (h : place < infinityBits)
    (h' : place' < infinityBits)
    (heq : toRat (ofPlace negative place) = toRat (ofPlace negative place')) : place = place' := by
  rw [toRat_ofPlace _ h, toRat_ofPlace _ h', ← sub_eq_zero, ← abs_eq_zero, abs_withSign_sub,
    abs_eq_zero, sub_eq_zero, div_left_inj' unitsPerOne_pos.ne', Nat.cast_inj] at heq
  exact unitsAt_strictMono.injective heq

theorem unitsAt_zero : unitsAt 0 = 0 := by decide

section

variable {q : ℚ} {place a : Nat} {negative : Bool}

/-- The distance to a double of the same sign. -/
theorem abs_sub_toRat_ofPlace (negative : Bool) (q : ℚ) (h : a < infinityBits) :
    |withSign negative q - toRat (ofPlace negative a)| =
      |q * unitsPerOne - unitsAt a| / unitsPerOne := by
  have hpos := unitsPerOne_pos
  have hdiff : q - unitsAt a / unitsPerOne = (q * unitsPerOne - unitsAt a) / unitsPerOne := by
    rw [sub_div, mul_div_cancel_right₀ _ hpos.ne']
  rw [toRat_ofPlace negative h, abs_withSign_sub, hdiff, abs_div, abs_of_pos hpos]

/-- A double of the other sign is farther away than zero by its own magnitude. -/
theorem abs_sub_toRat_ofPlace_not (negative : Bool) (hq : 0 ≤ q) (h : a < infinityBits) :
    |withSign negative q - toRat (ofPlace (!negative) a)| = q + unitsAt a / unitsPerOne := by
  have hunits : (0 : ℚ) ≤ unitsAt a / unitsPerOne :=
    div_nonneg (Nat.cast_nonneg _) unitsPerOne_pos.le
  have hother : ∀ r, withSign (!negative) r = withSign negative (-r) := fun r => by
    cases negative
    · rfl
    · exact (neg_neg r).symm
  rw [toRat_ofPlace _ h, hother, abs_withSign_sub, sub_neg_eq_add,
    abs_of_nonneg (add_nonneg hq hunits)]

/-- No finite double of the same sign is nearer than the one at the place that a number is rounded
to. -/
theorem abs_sub_le_ofPlace (negative : Bool) (h : IsRounded (q * unitsPerOne) place)
    (hplace : place < infinityBits) (ha : a < infinityBits) :
    |withSign negative q - toRat (ofPlace negative place)| ≤
        |withSign negative q - toRat (ofPlace negative a)| ∧
      (|withSign negative q - toRat (ofPlace negative place)| =
        |withSign negative q - toRat (ofPlace negative a)| → a = place ∨ place % 2 = 0) := by
  have hpos := unitsPerOne_pos
  rw [abs_sub_toRat_ofPlace negative q hplace, abs_sub_toRat_ofPlace negative q ha,
    div_le_div_iff_of_pos_right hpos, div_left_inj' hpos.ne']
  exact h.abs_sub_le a

/-- Nor is one of the other sign: zero is nearer. -/
theorem abs_sub_le_ofPlace_not (hq : 0 ≤ q) (h : IsRounded (q * unitsPerOne) place)
    (hplace : place < infinityBits) (ha : a < infinityBits) :
    |withSign negative q - toRat (ofPlace negative place)| ≤
        |withSign negative q - toRat (ofPlace (!negative) a)| ∧
      (|withSign negative q - toRat (ofPlace negative place)| =
        |withSign negative q - toRat (ofPlace (!negative) a)| →
          toRat (ofPlace (!negative) a) = 0 ∧ place = 0 ∨ place % 2 = 0) := by
  have hpos := unitsPerOne_pos
  have hzero : |withSign negative q - toRat (ofPlace negative 0)| = q := by
    rw [toRat_ofPlace _ (by decide), unitsAt_zero, abs_withSign_sub, Nat.cast_zero, zero_div,
      sub_zero, abs_of_nonneg hq]
  obtain ⟨hle, htie⟩ := abs_sub_le_ofPlace negative h hplace (show 0 < infinityBits by decide)
  have hunits : (0 : ℚ) ≤ unitsAt a / unitsPerOne := div_nonneg (Nat.cast_nonneg _) hpos.le
  rw [hzero] at hle htie
  rw [abs_sub_toRat_ofPlace_not negative hq ha]
  refine ⟨by linarith, fun heq => ?_⟩
  have hnone : (unitsAt a / unitsPerOne : ℚ) = 0 := by linarith
  refine (htie (by linarith)).imp_left fun hplace => ⟨?_, hplace.symm⟩
  rw [toRat_ofPlace _ ha, hnone, withSign_zero]

/-- What a number is rounded to is the double at this place, with its sign. -/
theorem isNearest_ofPlace (hq : 0 ≤ q) (h : IsRounded (q * unitsPerOne) place) :
    IsNearest negative (withSign negative q) (ofPlace negative place) := by
  have hinfinity := h.infinityBits_le_iff
  rw [mul_le_mul_iff_left₀ unitsPerOne_pos] at hinfinity
  constructor
  · intro hle
    rw [abs_withSign, abs_of_nonneg hq, ← hinfinity] at hle
    exact decode_ofPlace_of_le negative hle
  · intro hlt
    rw [abs_withSign, abs_of_nonneg hq, ← not_le, ← hinfinity, not_le] at hlt
    obtain ⟨m, k, hdecode, hplace⟩ := decode_ofPlace_of_lt negative hlt
    have heven : place % 2 = 0 → m % 2 = 0 := by
      rw [← hplace, leadingBit_eq]
      omega
    refine ⟨m, k, hdecode, fun y hy => ?_⟩
    obtain ⟨negative', a, ha, rfl⟩ := exists_place_of_isFinite hy
    by_cases hsign : negative' = negative
    · rw [hsign]
      exact (abs_sub_le_ofPlace negative h hlt ha).imp_right
        fun htie heq => (htie heq).imp (fun hsame => by rw [hsame]) heven
    · obtain rfl : negative' = !negative := by
        cases negative <;> cases negative' <;> first | rfl | exact absurd rfl hsign
      refine (abs_sub_le_ofPlace_not hq h hlt ha).imp_right fun htie heq => (htie heq).imp ?_ heven
      rintro ⟨hvalue, rfl⟩
      rw [hvalue, toRat_ofPlace _ hlt, unitsAt_zero, Nat.cast_zero, zero_div, withSign_zero]

namespace IsNearest

variable {x y : Float}

/-- What is nearest is at the place that the number is rounded to. -/
theorem isRounded (hq : 0 ≤ q) (hplace : place < infinityBits)
    (h : IsNearest negative (withSign negative q) (ofPlace negative place)) :
    IsRounded (q * unitsPerOne) place := by
  have hpos := unitsPerOne_pos
  obtain ⟨m, k, hdecode, rfl⟩ := decode_ofPlace_of_lt negative hplace
  have hlt : q < 2 ^ 1024 - 2 ^ 970 := by
    rw [← abs_of_nonneg hq, ← abs_withSign negative]
    by_contra hge
    have hinfinite := h.infinite (not_lt.1 hge)
    rw [hdecode] at hinfinite
    cases hinfinite
  obtain ⟨m', k', hdecode', hnear⟩ :=
    h.finite (by rwa [abs_withSign, abs_of_nonneg hq])
  rw [hdecode] at hdecode'
  cases hdecode'
  have hat : ∀ a, a < infinityBits → |q * unitsPerOne - unitsAt (k * leadingBit + m)| ≤
      |q * unitsPerOne - unitsAt a| ∧ (|q * unitsPerOne - unitsAt (k * leadingBit + m)| =
        |q * unitsPerOne - unitsAt a| → a ≠ k * leadingBit + m → m % 2 = 0) := by
    intro a ha
    obtain ⟨hle, htie⟩ := hnear _ (isFinite_ofPlace negative ha)
    rw [abs_sub_toRat_ofPlace negative q hplace, abs_sub_toRat_ofPlace negative q ha] at hle htie
    rw [div_le_div_iff_of_pos_right hpos] at hle
    rw [div_left_inj' hpos.ne'] at htie
    exact ⟨hle, fun heq hne => (htie heq).resolve_left
      fun hvalue => hne (eq_of_toRat_ofPlace_eq ha hplace hvalue)⟩
  have hparity : (k * leadingBit + m) % 2 = m % 2 := by
    rw [leadingBit_eq]
    omega
  refine isRounded_iff.2 ⟨fun a ha => ?_, fun hpast => ?_⟩
  · obtain ⟨hle, htie⟩ := hat a (by omega)
    rw [roundsPast_iff, ← ha]
    refine hle.lt_or_eq.imp_right fun heq => ⟨heq, ?_⟩
    have heven := htie heq (by omega)
    omega
  · by_cases hlast : k * leadingBit + m + 1 = infinityBits
    · have hbound := halfwayAt_infinityBits
      rw [← hlast, Nat.add_sub_cancel] at hbound
      have hmul := mul_lt_mul_of_pos_right hlt hpos
      generalize (2 ^ 1024 - 2 ^ 970 : ℚ) = bound at hbound hmul
      rcases hpast with hpast | ⟨hpast, -⟩ <;> linarith
    · obtain ⟨hle, htie⟩ := hat (k * leadingBit + m + 1) (by omega)
      rcases roundsPast_iff.1 hpast with hnearer | ⟨heq, hodd⟩
      · exact absurd hnearer hle.not_gt
      · have heven := htie heq.symm (by omega)
        omega

/-- No other double is nearest. -/
theorem unique (h : IsNearest negative q x) (h' : IsNearest negative q y)
    (hsign : q = withSign negative |q|) : x = y := by
  rcases le_or_gt (2 ^ 1024 - 2 ^ 970) |q| with hle | hlt
  · rw [eq_ofPlace_of_infinite (h.infinite hle), eq_ofPlace_of_infinite (h'.infinite hle)]
  · obtain ⟨m, k, hdecode, -⟩ := h.finite hlt
    obtain ⟨m', k', hdecode', -⟩ := h'.finite hlt
    rw [eq_ofPlace_of_decode hdecode, hsign] at h
    rw [eq_ofPlace_of_decode hdecode', hsign] at h'
    have hrounded := h.isRounded (abs_nonneg q) (bits_of_decode hdecode).1.lt_infinityBits
    have hrounded' := h'.isRounded (abs_nonneg q) (bits_of_decode hdecode').1.lt_infinityBits
    rw [eq_ofPlace_of_decode hdecode, eq_ofPlace_of_decode hdecode', hrounded.unique hrounded']

end IsNearest

end

namespace Numeral

/-- A numeral reads as the double at the place that its exact value is rounded to. -/
theorem exists_place (n : Numeral) :
    ∃ place, IsRounded (n.digits / 10 ^ n.places * unitsPerOne) place ∧
      n.toFloat = ofPlace n.negative place := by
  have hden : 0 < 10 ^ n.places := Nat.pow_pos (by decide)
  obtain ⟨place, hrounded, hbits⟩ := exists_isRounded n.digits hden
  refine ⟨place, ?_, ?_⟩
  · rw [div_mul_eq_mul_div]
    exact_mod_cast hrounded
  · rw [ofPlace, ← hbits]
    rfl

/-- Reading a numeral rounds its exact value correctly. -/
theorem isNearest_toFloat (n : Numeral) : IsNearest n.negative n.toRat n.toFloat := by
  obtain ⟨place, hrounded, hfloat⟩ := n.exists_place
  rw [hfloat]
  exact isNearest_ofPlace (div_nonneg (Nat.cast_nonneg _) (by positivity)) hrounded

end Numeral
end Parens.Number
