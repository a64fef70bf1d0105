import Parens.Proofs.Number.Shortest

/-!
Numbers through their surface syntax: the text of a finite double is a numeral that reads as the
same double, down to the bits. The text of any other double is a word and no numeral.
-/

namespace Parens.Number

theorem digitsValue_eq (digits : List Char) : digitsValue digits = Nat.ofDigitChars 10 digits 0 :=
  Nat.ofDigitChars_eq_foldl.symm

theorem digitsValue_digitsText (n : Nat) : digitsValue (digitsText n) = n := by
  rw [digitsValue_eq, digitsText, Nat.ofDigitChars_ten_toDigits]

theorem digitsValue_append_zeros (digits : List Char) (n : Nat) :
    digitsValue (digits ++ List.replicate n '0') = digitsValue digits * 10 ^ n := by
  rw [digitsValue_eq, Nat.ofDigitChars_append, Nat.ofDigitChars_replicate_zero, digitsValue_eq,
    Nat.mul_comm]

theorem digitsValue_zeros_append (n : Nat) (digits : List Char) :
    digitsValue (List.replicate n '0' ++ digits) = digitsValue digits := by
  rw [digitsValue_eq, Nat.ofDigitChars_append, Nat.ofDigitChars_replicate_zero, Nat.mul_zero,
    digitsValue_eq]

theorem digits_digitsText (n : Nat) : Digits (digitsText n) := by
  refine ⟨Nat.toDigits_ne_nil, fun c hc => ?_⟩
  have hdigit := Nat.isDigit_of_mem_toDigits (by decide) (by decide) hc
  simpa [isDigit, Char.isDigit, Char.le_def] using hdigit

theorem isDigit_of_mem_zeros {n : Nat} {c : Char} (h : c ∈ List.replicate n '0') : isDigit c := by
  rw [List.eq_of_mem_replicate h]
  decide

namespace Numeral

variable {negative : Bool} {digits places : List Char}

theorem ofUnsigned?_digits (h : Digits digits) :
    ofUnsigned? negative digits = some ⟨negative, digitsValue digits, 0⟩ := by
  have ht : digits.takeWhile isDigit = digits := by
    simpa using @List.takeWhile_append_of_pos _ isDigit digits [] h.2
  have hd : digits.dropWhile isDigit = [] := by
    simpa using @List.dropWhile_append_of_pos _ isDigit digits [] h.2
  simp [ofUnsigned?, ht, hd, h.1]

theorem ofUnsigned?_point (h : ∀ c ∈ digits, isDigit c) (hp : ∀ c ∈ places, isDigit c)
    (hne : digits ++ places ≠ []) :
    ofUnsigned? negative (digits ++ '.' :: places) =
      some ⟨negative, digitsValue (digits ++ places), places.length⟩ := by
  have ht := @List.takeWhile_append_of_pos _ isDigit digits ('.' :: places) h
  have hd := @List.dropWhile_append_of_pos _ isDigit digits ('.' :: places) h
  rw [ne_eq, List.append_eq_nil_iff] at hne
  simp [ofUnsigned?, ht, hd, isDigit_point, hne, List.all_eq_true.2 hp]

/-- A sign does not change what follows it. -/
theorem ofText?_signText {text : List Char} {n : Numeral}
    (h : ofUnsigned? negative text = some n) : ofText? (signText negative ++ text) = some n := by
  have hunsigned : IsUnsigned text := isSome_ofUnsigned?_iff.1 (Option.isSome_iff_exists.2 ⟨n, h⟩)
  cases negative with
  | true => exact h
  | false =>
      change ofText? text = some n
      unfold ofText?
      split
      · exact absurd hunsigned not_isUnsigned_minus
      · exact h

end Numeral

/-- The point stands where it should, whether digits are missing before it or not. -/
theorem ofUnsigned?_pointed {negative : Bool} {digits : List Char} {places : Nat}
    (h : Digits digits) :
    Numeral.ofUnsigned? negative (pointed digits places) =
      some ⟨negative, digitsValue digits, places⟩ := by
  unfold pointed
  split
  · rename_i hlt
    have hfront : Digits (digits.take (digits.length - places)) := by
      refine ⟨fun hnil => ?_, fun c hc => h.2 c (List.mem_of_mem_take hc)⟩
      rw [List.take_eq_nil_iff] at hnil
      have hne := h.1
      rcases hnil with hzero | hnil
      · omega
      · exact hne hnil
    rw [Numeral.ofUnsigned?_point hfront.2 (fun c hc => h.2 c (List.mem_of_mem_drop hc))
        (List.append_ne_nil_of_left_ne_nil hfront.1 _),
      List.take_append_drop, List.length_drop, Nat.sub_sub_self (Nat.le_of_lt hlt)]
  · rename_i hle
    have hzeros : ∀ c ∈ List.replicate (places - digits.length) '0' ++ digits, isDigit c := by
      intro c hc
      rcases List.mem_append.1 hc with hc | hc
      · exact isDigit_of_mem_zeros hc
      · exact h.2 c hc
    have hvalue := digitsValue_zeros_append (places - digits.length + 1) digits
    have hlength : (List.replicate (places - digits.length) '0' ++ digits).length = places := by
      rw [List.length_append, List.length_replicate]
      omega
    refine (@Numeral.ofUnsigned?_point negative ['0'] _ (fun _ => @isDigit_of_mem_zeros 1 _) hzeros
      (List.cons_ne_nil _ _)).trans ?_
    rw [hlength, ← hvalue]
    rfl

theorem ofUnsigned?_positional (negative : Bool) (d : Decimal) :
    Numeral.ofUnsigned? negative d.positional =
      some ⟨negative, d.num, (-d.exponent).toNat⟩ := by
  have hdigits := digits_digitsText d.digits
  unfold Decimal.positional Decimal.num
  split
  · rename_i hexp
    have hall : Digits (digitsText d.digits ++ List.replicate d.exponent.toNat '0') := by
      refine ⟨List.append_ne_nil_of_left_ne_nil hdigits.1 _, fun c hc => ?_⟩
      rcases List.mem_append.1 hc with hc | hc
      · exact hdigits.2 c hc
      · exact isDigit_of_mem_zeros hc
    have hplaces : (-d.exponent).toNat = 0 := by omega
    rw [Numeral.ofUnsigned?_digits hall, digitsValue_append_zeros, digitsValue_digitsText, hplaces]
  · rename_i hexp
    have hwhole : d.exponent.toNat = 0 := by omega
    rw [ofUnsigned?_pointed hdigits, digitsValue_digitsText, hwhole, Nat.pow_zero,
      Nat.mul_one]

/-- A numeral in the rounding interval of a double reads as this double. -/
theorem Numeral.toFloat_eq {x : Float} {negative : Bool} {m k : Nat} {n : Numeral}
    (h : decode x = .finite negative m k) (hsign : n.negative = negative)
    (hn : (RoundingInterval.of m k).contains (10 ^ n.places) (4 * (n.digits * unitsPerOne))) :
    n.toFloat = x := by
  have hden : 0 < 10 ^ n.places := Nat.pow_pos (by decide)
  rw [eq_ofBits_of_decode h, ← nearestBits_eq hden (bits_of_decode h).1 hn, ← hsign]
  rfl

theorem contains_whole {m k : Nat} (h : m <<< k % unitsPerOne = 0) :
    (RoundingInterval.of m k).contains (10 ^ 0) (4 * (m <<< k / unitsPerOne * unitsPerOne)) := by
  have hcenter := RoundingInterval.contains_center m k (show 0 < 10 ^ 0 from Nat.one_pos)
  rw [Nat.div_mul_cancel (Nat.dvd_of_mod_eq_zero h), Nat.shiftLeft_eq]
  rwa [Nat.shiftLeft_eq, Nat.pow_zero, Nat.one_mul] at hcenter

/-- The text of a finite double is a numeral that reads as this double. -/
theorem exists_numeral_of_isFinite {x : Float} (h : IsFinite x) :
    ∃ n, Numeral.ofText? (text x) = some n ∧ n.toFloat = x := by
  obtain ⟨negative, m, k, h⟩ := h
  simp only [text, h]
  split
  · rename_i hwhole
    refine ⟨⟨negative, m <<< k / unitsPerOne, 0⟩, Numeral.ofText?_signText ?_,
      Numeral.toFloat_eq h rfl (contains_whole hwhole)⟩
    rw [Numeral.ofUnsigned?_digits (digits_digitsText _), digitsValue_digitsText]
  · exact ⟨_, Numeral.ofText?_signText (ofUnsigned?_positional negative (shortest m k)),
      Numeral.toFloat_eq h rfl (has_shortest (bits_of_decode h).1)⟩

/-- A numeral reads as a finite double if what it writes does not lie beyond all of them. -/
theorem Numeral.isFinite_toFloat_iff (n : Numeral) :
    IsFinite n.toFloat ↔ n.digits < (2 ^ 1024 - 2 ^ 970) * 10 ^ n.places := by
  have hden : 0 < Nat.pow 10 n.places := Nat.pow_pos (by decide)
  have hle : nearestBits n.digits (Nat.pow 10 n.places) ≤ infinityBits := Nat.min_le_right ..
  change _ ↔ n.digits < (2 ^ 1024 - 2 ^ 970) * Nat.pow 10 n.places
  rw [← nearestBits_lt_infinityBits_iff hden]
  refine ⟨fun h => Nat.lt_of_le_of_ne hle fun hinfinity => ?_, isFinite_ofBits⟩
  obtain ⟨negative, m, k, h⟩ := h
  rw [toFloat, ofQuotient, hinfinity, decode_infinity] at h
  cases h

end Parens.Number
