import Parens.Proofs.Number.Order

/-!
Doubles compared by value. A double that is a number has a value, which is rational or infinite, and
doubles are compared as their values are. Both zeros have value zero. What is no number has no
value, so it equals nothing and precedes nothing.
-/

namespace Parens.Number

open Float.Model Float.Model.UnpackedFloat

/-- What a double stands for, unless it is no number. -/
def value? (x : Float) : Option (WithBot (WithTop ℚ)) :=
  match decode x with
  | .notANumber => none
  | .infinite negative => some (if negative then ⊥ else ⊤)
  | .finite _ _ _ => some ((toRat x : WithTop ℚ) : WithBot (WithTop ℚ))

/-- Whether two doubles have values that are related. -/
def ByValue (S : WithBot (WithTop ℚ) → WithBot (WithTop ℚ) → Prop) (x y : Float) : Prop :=
  ∃ v w, value? x = some v ∧ value? y = some w ∧ S v w

theorem value?_eq_none_iff {x : Float} : value? x = none ↔ decode x = .notANumber := by
  unfold value?
  split <;> simp_all

/-- The rational number at a place of the row, which goes on on both sides of zero. -/
def rationalAt (place : Int) : ℚ :=
  withSign (decide (place < 0)) (unitsAt place.natAbs / unitsPerOne)

theorem rationalAt_natCast (place : Nat) : rationalAt place = unitsAt place / unitsPerOne := by
  rw [rationalAt, decide_eq_false (by omega), Int.natAbs_natCast]
  rfl

theorem rationalAt_neg (place : Int) : rationalAt (-place) = -rationalAt place := by
  rcases Int.lt_trichotomy place 0 with hneg | rfl | hpos
  · rw [rationalAt, rationalAt, decide_eq_false (by omega), decide_eq_true hneg, Int.natAbs_neg]
    exact (neg_neg _).symm
  · simp [rationalAt, unitsAt_zero, withSign]
  · rw [rationalAt, rationalAt, decide_eq_true (by omega), decide_eq_false (by omega),
      Int.natAbs_neg]
    rfl

theorem rationalAt_strictMono : StrictMono rationalAt := by
  refine strictMono_of_odd_strictMonoOn_nonneg rationalAt_neg ?_
  intro i hi j hj hlt
  lift i to Nat using hi
  lift j to Nat using hj
  rw [rationalAt_natCast, rationalAt_natCast]
  refine div_lt_div_of_pos_right ?_ unitsPerOne_pos
  exact Nat.cast_lt.2 (unitsAt_strictMono (Int.ofNat_lt.1 hlt))

theorem rationalAt_signedPlace (negative : Bool) (place : Nat) :
    rationalAt (signedPlace negative place) =
      withSign negative (unitsAt place / unitsPerOne) := by
  cases negative with
  | false => exact rationalAt_natCast place
  | true =>
      rw [signedPlace, if_pos rfl, rationalAt_neg, rationalAt_natCast]
      rfl

/-- The value at a place of the row from minus infinity to infinity. -/
def valueAt (place : Int) : WithBot (WithTop ℚ) :=
  if place ≤ -(infinityBits : Int) then ⊥
  else if (infinityBits : Int) ≤ place then ⊤
  else ((rationalAt place : WithTop ℚ) : WithBot (WithTop ℚ))

/-- The places of doubles that are numbers. -/
def places : Set Int := Set.Icc (-(infinityBits : Int)) infinityBits

theorem valueAt_strictMonoOn : StrictMonoOn valueAt places := by
  intro i hi j hj hlt
  have hbot : ¬ j ≤ -(infinityBits : Int) := not_le.2 (lt_of_le_of_lt hi.1 hlt)
  have htop : ¬ (infinityBits : Int) ≤ i := not_le.2 (lt_of_lt_of_le hlt hj.2)
  rw [valueAt, valueAt, if_neg hbot, if_neg htop]
  split_ifs with hfirst hlast hlast
  · exact WithBot.bot_lt_coe _
  · exact WithBot.bot_lt_coe _
  · exact WithBot.coe_lt_coe.2 (WithTop.coe_lt_top _)
  · exact WithBot.coe_lt_coe.2 (WithTop.coe_lt_coe.2 (rationalAt_strictMono hlt))

theorem signedPlace_mem_places {negative : Bool} {place : Nat} (h : place ≤ infinityBits) :
    signedPlace negative place ∈ places := by
  have hnonneg : (0 : Int) ≤ place := Int.natCast_nonneg place
  have hle : (place : Int) ≤ infinityBits := Int.ofNat_le.2 h
  cases negative with
  | false => exact ⟨by simp only [signedPlace]; omega, hle⟩
  | true =>
      rw [signedPlace, if_pos rfl]
      exact ⟨neg_le_neg hle, by omega⟩

theorem value?_ofPlace {negative : Bool} {place : Nat} (h : place ≤ infinityBits) :
    value? (ofPlace negative place) = some (valueAt (signedPlace negative place)) := by
  have hpos : 0 < infinityBits := by decide
  rcases Nat.eq_or_lt_of_le h with rfl | hlt
  · rw [value?, decode_ofPlace_of_le negative le_rfl, valueAt]
    cases negative with
    | false =>
        have hplace : signedPlace false infinityBits = infinityBits := rfl
        rw [hplace, if_neg (by omega), if_pos le_rfl]
        rfl
    | true =>
        have hplace : signedPlace true infinityBits = -infinityBits := rfl
        rw [hplace, if_pos le_rfl]
        rfl
  · obtain ⟨m, k, hdecode, -⟩ := decode_ofPlace_of_lt negative hlt
    have hbot : ¬ signedPlace negative place ≤ -infinityBits := by
      cases negative <;> simp only [signedPlace] <;> omega
    have htop : ¬ (infinityBits : Int) ≤ signedPlace negative place := by
      cases negative <;> simp only [signedPlace] <;> omega
    rw [value?, hdecode, valueAt, if_neg hbot, if_neg htop, rationalAt_signedPlace,
      toRat_ofPlace negative hlt]

/-- A double that is a number has a place. -/
theorem exists_place_of_value? {x : Float} {v : WithBot (WithTop ℚ)} (h : value? x = some v) :
    ∃ negative place, place ≤ infinityBits ∧ x = ofPlace negative place := by
  cases hdecode : decode x with
  | notANumber =>
      rw [value?_eq_none_iff.2 hdecode] at h
      cases h
  | infinite negative => exact ⟨negative, infinityBits, le_rfl, eq_ofPlace_of_infinite hdecode⟩
  | finite negative m k =>
      obtain ⟨negative, place, hlt, hx⟩ := exists_place_of_isFinite ⟨negative, m, k, hdecode⟩
      exact ⟨negative, place, hlt.le, hx⟩

/-- The arithmetic of doubles compares no value with what is no number. -/
theorem compare_eq_none {x y : Float} (h : value? x = none ∨ value? y = none) :
    x.toModel.unpack.compare y.toModel.unpack = none := by
  rw [unpack_eq x, unpack_eq y]
  cases h with
  | inl hx =>
      rw [value?_eq_none_iff.1 hx]
      rfl
  | inr hy =>
      rw [value?_eq_none_iff.1 hy, Decoded.unpacked]
      cases (decode x).unpacked <;> rfl

/-- What the arithmetic of doubles makes of two numbers: their places are in `places`, have their
values, and are compared. -/
theorem exists_compare_eq {x y : Float} {v w : WithBot (WithTop ℚ)} (hx : value? x = some v)
    (hy : value? y = some w) :
    ∃ i ∈ places, ∃ j ∈ places, valueAt i = v ∧ valueAt j = w ∧
      x.toModel.unpack.compare y.toModel.unpack = some (compare i j) := by
  obtain ⟨negative, place, hle, rfl⟩ := exists_place_of_value? hx
  obtain ⟨negative', place', hle', rfl⟩ := exists_place_of_value? hy
  rw [value?_ofPlace hle] at hx
  rw [value?_ofPlace hle'] at hy
  exact ⟨_, signedPlace_mem_places hle, _, signedPlace_mem_places hle', Option.some.inj hx,
    Option.some.inj hy,
    (unpacksTo_ofPlace negative hle).compare_eq (unpacksTo_ofPlace negative' hle')⟩

/-- A relation on doubles that is read off their comparison is a relation on values. -/
theorem iff_byValue {R : Float → Float → Prop}
    {S : WithBot (WithTop ℚ) → WithBot (WithTop ℚ) → Prop} (accepts : Option Ordering → Prop)
    (hR : ∀ x y, R x y ↔ accepts (x.toModel.unpack.compare y.toModel.unpack))
    (hnone : ¬ accepts none)
    (hS : ∀ i ∈ places, ∀ j ∈ places, accepts (some (compare i j)) ↔ S (valueAt i) (valueAt j))
    (x y : Float) : R x y ↔ ByValue S x y := by
  rw [hR]
  constructor
  · intro h
    cases hx : value? x with
    | none => exact absurd (compare_eq_none (.inl hx) ▸ h) hnone
    | some v =>
        cases hy : value? y with
        | none => exact absurd (compare_eq_none (.inr hy) ▸ h) hnone
        | some w =>
            obtain ⟨i, hi, j, hj, rfl, rfl, hcompare⟩ := exists_compare_eq hx hy
            exact ⟨_, _, hx, hy, (hS i hi j hj).1 (hcompare ▸ h)⟩
  · rintro ⟨v, w, hx, hy, h⟩
    obtain ⟨i, hi, j, hj, rfl, rfl, hcompare⟩ := exists_compare_eq hx hy
    rw [hcompare]
    exact (hS i hi j hj).2 h

theorem beq_iff_byValue {x y : Float} : x == y ↔ ByValue (· = ·) x y := by
  refine iff_byValue (fun o => o == some .eq) (fun _ _ => Iff.rfl) nofun ?_ x y
  intro i hi j hj
  rw [valueAt_strictMonoOn.eq_iff_eq hi hj, beq_iff_eq, Option.some.injEq, compare_eq_iff_eq]

theorem lt_iff_byValue {x y : Float} : x < y ↔ ByValue (· < ·) x y := by
  refine iff_byValue (fun o => o == some .lt) (fun _ _ => decide_eq_true_iff) nofun ?_ x y
  intro i hi j hj
  rw [valueAt_strictMonoOn.lt_iff_lt hi hj, beq_iff_eq, Option.some.injEq, compare_lt_iff_lt]

theorem le_iff_byValue {x y : Float} : x ≤ y ↔ ByValue (· ≤ ·) x y := by
  refine iff_byValue (fun o => o.any (·.isLE)) (fun _ _ => decide_eq_true_iff) nofun ?_ x y
  intro i hi j hj
  rw [valueAt_strictMonoOn.le_iff_le hi hj, Option.any_some]
  exact Ordering.isLE_iff_ne_gt.trans compare_le_iff_le

theorem byValue_flip {S : WithBot (WithTop ℚ) → WithBot (WithTop ℚ) → Prop} {x y : Float} :
    ByValue (flip S) x y ↔ ByValue S y x :=
  ⟨fun ⟨v, w, hx, hy, h⟩ => ⟨w, v, hy, hx, h⟩, fun ⟨v, w, hy, hx, h⟩ => ⟨w, v, hx, hy, h⟩⟩

theorem beq_self_iff {x : Float} : x == x ↔ decode x ≠ .notANumber := by
  rw [beq_iff_byValue, ne_eq, ← value?_eq_none_iff, ← ne_eq, Option.ne_none_iff_exists']
  exact ⟨fun ⟨v, _, hv, _⟩ => ⟨v, hv⟩, fun ⟨v, hv⟩ => ⟨v, v, hv, hv, rfl⟩⟩

/-- Whether a double is a zero, of either sign. -/
def IsZero (x : Float) : Prop := ∃ negative exponent, decode x = .finite negative 0 exponent

theorem value?_eq_zero_iff {x : Float} : value? x = some 0 ↔ IsZero x := by
  cases hdecode : decode x with
  | notANumber => simp [value?, IsZero, hdecode]
  | infinite negative =>
      cases negative with
      | false =>
          simp only [value?, IsZero, hdecode]
          exact iff_of_false nofun nofun
      | true => simp [value?, IsZero, hdecode]
  | finite negative m k =>
      have hzero : toRat x = 0 ↔ m = 0 := by
        rw [toRat, hdecode]
        cases negative <;> simp [withSign, unitsPerOne_pos.ne']
      simp [value?, IsZero, hdecode, hzero]

theorem isZero_zero : IsZero 0.0 := ⟨false, 0, by decide +kernel⟩

theorem beq_zero_iff {x : Float} : x == 0.0 ↔ IsZero x := by
  have hzero : value? 0.0 = some 0 := value?_eq_zero_iff.2 isZero_zero
  rw [beq_iff_byValue, ← value?_eq_zero_iff]
  constructor
  · rintro ⟨v, _, hx, hv, rfl⟩
    exact hx.trans (hv.symm.trans hzero)
  · exact fun hx => ⟨0, 0, hx, hzero, rfl⟩

theorem isZero_ofPlace (negative : Bool) : IsZero (ofPlace negative 0) :=
  ⟨negative, 0, by cases negative <;> decide +kernel⟩

theorem signedPlace_eq_iff {negative negative' : Bool} {place place' : Nat} :
    signedPlace negative place = signedPlace negative' place' ↔
      negative = negative' ∧ place = place' ∨ place = 0 ∧ place' = 0 := by
  cases negative <;> cases negative' <;> simp [signedPlace] <;> omega

/-- Of equal doubles that are not the same, both are zeros. -/
theorem eq_or_isZero_of_beq {x y : Float} (h : x == y) : x = y ∨ IsZero x ∧ IsZero y := by
  obtain ⟨v, _, hx, hy, rfl⟩ := beq_iff_byValue.1 h
  obtain ⟨negative, place, hle, rfl⟩ := exists_place_of_value? hx
  obtain ⟨negative', place', hle', rfl⟩ := exists_place_of_value? hy
  rw [value?_ofPlace hle] at hx
  rw [value?_ofPlace hle', ← hx, Option.some.injEq,
    valueAt_strictMonoOn.eq_iff_eq (signedPlace_mem_places hle') (signedPlace_mem_places hle),
    signedPlace_eq_iff] at hy
  rcases hy with ⟨rfl, rfl⟩ | ⟨rfl, rfl⟩
  · exact .inl rfl
  · exact .inr ⟨isZero_ofPlace negative, isZero_ofPlace negative'⟩

end Parens.Number
