import Parens.Text.Lower

/-!
Lowercase text is settled: `lower` writes only characters that no case mapping moves, so
`lower_lower` holds and folding a text once is enough. The table is checked run against run, by
ranges and parity, and never character by character.
-/

namespace Parens.Text

/-- The code point of the capital dotted I, as a run of its own. -/
def dottedRun : CaseRun := ⟨0x0130, 0x0130, 2, 0x0130⟩

/-- No image of a run is moved again, every image is the code point of a character, and the runs
within the first 128 code points are the one of the plain capitals. -/
def imagesSettled (runs : List CaseRun) : Bool :=
  runs.all fun r =>
    (dottedRun :: runs).all r.misses &&
      (Nat.blt (r.apply r.last) 0xD800 ||
        Nat.blt 0xDFFF r.image && Nat.blt (r.apply r.last) 0x110000) &&
      (Nat.ble 0x80 r.first || Nat.beq r.first 0x41 && Nat.beq r.last 0x5A)

theorem imagesSettled_lowerRuns : imagesSettled lowerRuns = true := by decide +kernel

/-- A character that no case mapping moves. -/
def Settled (c : Char) : Prop :=
  ∀ r ∈ dottedRun :: lowerRuns, r.contains c.toNat = false

theorem lowerChar_of_settled {c : Char} (h : Settled c) : lowerChar c = [c] := by
  have hd : c ≠ 'İ' := by
    rintro rfl
    exact absurd (h dottedRun List.mem_cons_self) (by decide)
  have hr : ∀ r ∈ lowerRuns, r.contains c.toNat = false := fun r hr =>
    h r (List.mem_cons_of_mem _ hr)
  have hA : ¬(0x41 ≤ c.toNat ∧ c.toNat ≤ 0x5A) := by
    intro hA
    have := hr ⟨0x0041, 0x005A, 1, 0x0061⟩ (by unfold lowerRuns; exact List.mem_cons_self)
    exact Bool.eq_false_iff.1 this (CaseRun.contains_iff.2 ⟨hA.1, hA.2, Nat.mod_one _⟩)
  simp [lowerChar, hA, hd, mapCode_eq_self hr]

theorem ne_capitalSigma_of_settled {c : Char} (h : Settled c) : c ≠ capitalSigma := by
  rintro rfl
  have : (⟨0x03A3, 0x03AB, 1, 0x03C3⟩ : CaseRun) ∈ lowerRuns := by decide +kernel
  exact absurd (h _ (List.mem_cons_of_mem _ this)) (by decide)

theorem toNat_ofNat {n : Nat} (h : n < 0xD800 ∨ 0xDFFF < n ∧ n < 0x110000) :
    (Char.ofNat n).toNat = n := by
  rw [Char.ofNat, dif_pos h]
  rfl

/-- The image of a run is the code point of a settled character. -/
theorem settled_apply {r : CaseRun} (hr : r ∈ lowerRuns) {n : Nat} (hn : r.contains n) :
    Settled (Char.ofNat (r.apply n)) := by
  have h := List.all_eq_true.1 imagesSettled_lowerRuns r hr
  simp only [Bool.and_eq_true, Bool.or_eq_true, Nat.blt_eq] at h
  obtain ⟨⟨hm, hv⟩, -⟩ := h
  have hn' := CaseRun.contains_iff.1 hn
  have hc : (Char.ofNat (r.apply n)).toNat = r.apply n := by
    apply toNat_ofNat
    simp only [CaseRun.apply] at hv ⊢
    omega
  intro s hs
  rw [hc]
  exact CaseRun.contains_apply_of_misses (List.all_eq_true.1 hm s hs) hn

/-- A code point among the first 128 that is no plain capital is moved by no run. -/
theorem contains_eq_false_of_lt {n : Nat} (h : n < 0x80) (hA : ¬(0x41 ≤ n ∧ n ≤ 0x5A)) :
    ∀ r ∈ dottedRun :: lowerRuns, r.contains n = false := by
  intro r hr
  rw [Bool.eq_false_iff]
  intro hc
  obtain ⟨h₁, h₂, -⟩ := CaseRun.contains_iff.1 hc
  rcases List.mem_cons.1 hr with rfl | hr
  · simp only [dottedRun] at h₁
    omega
  · have := List.all_eq_true.1 imagesSettled_lowerRuns r hr
    simp only [Bool.and_eq_true, Bool.or_eq_true, Nat.ble_eq, Nat.beq_eq] at this
    omega

/-- What lowercasing writes, it leaves alone the next time. -/
theorem settled_of_mem_lowerChar {c d : Char} (h : d ∈ lowerChar c) : Settled d := by
  unfold lowerChar at h
  split at h
  · rename_i hlt
    split at h
    · rename_i hA
      rw [List.mem_singleton] at h
      subst h
      unfold Settled
      rw [toNat_ofNat (by omega)]
      exact contains_eq_false_of_lt (by omega) (by omega)
    · rename_i hA
      rw [List.mem_singleton] at h
      subst h
      exact contains_eq_false_of_lt hlt hA
  · split at h
    · have hi : Settled 'i' := contains_eq_false_of_lt (by decide) (by decide)
      have hdot : Settled '\u0307' := by
        unfold Settled
        decide +kernel
      simp only [List.mem_cons, List.not_mem_nil, or_false] at h
      rcases h with rfl | rfl
      · exact hi
      · exact hdot
    · rename_i hd
      rw [List.mem_singleton] at h
      subst h
      rcases mapCode_cases lowerRuns c.toNat with ⟨r, hr, hc, he⟩ | ⟨hno, he⟩
      · rw [he]
        exact settled_apply hr hc
      · rw [he, Char.ofNat_toNat]
        intro s hs
        rcases List.mem_cons.1 hs with rfl | hs
        · rw [Bool.eq_false_iff]
          intro hc
          obtain ⟨h₁, h₂, -⟩ := CaseRun.contains_iff.1 hc
          simp only [dottedRun] at h₁ h₂
          apply hd
          apply Char.ext
          apply UInt32.toNat_inj.1
          exact Nat.le_antisymm h₂ h₁
        · exact hno s hs

theorem settled_smallSigma : Settled smallSigma := by
  unfold Settled
  decide +kernel

theorem settled_finalSigma : Settled finalSigma := by
  unfold Settled
  decide +kernel

theorem settled_of_mem_lowerAfter {before text : List Char} {d : Char}
    (h : d ∈ lowerAfter before text) : Settled d := by
  induction text generalizing before with
  | nil => simp [lowerAfter] at h
  | cons c rest ih =>
    simp only [lowerAfter] at h
    split at h
    · rcases List.mem_cons.1 h with rfl | h
      · split
        · exact settled_finalSigma
        · exact settled_smallSigma
      · exact ih h
    · rcases List.mem_append.1 h with h | h
      · exact settled_of_mem_lowerChar h
      · exact ih h

theorem lowerAfter_of_settled {before text : List Char} (h : ∀ c ∈ text, Settled c) :
    lowerAfter before text = text := by
  induction text generalizing before with
  | nil => rfl
  | cons c rest ih =>
    have hc := h c List.mem_cons_self
    have hrest := @ih (c :: before) fun d hd => h d (List.mem_cons_of_mem _ hd)
    simp [lowerAfter, ne_capitalSigma_of_settled hc, lowerChar_of_settled hc, hrest]

theorem lower_lower (text : List Char) : lower (lower text) = lower text :=
  lowerAfter_of_settled fun _ h => settled_of_mem_lowerAfter h

/-- Lowercasing never makes a text empty. -/
theorem lower_eq_nil_iff {text : List Char} : lower text = [] ↔ text = [] := by
  cases text with
  | nil => simp [lower, lowerAfter]
  | cons c rest =>
    simp only [lower, lowerAfter, reduceCtorEq, iff_false]
    split
    · simp
    · have : lowerChar c ≠ [] := by
        unfold lowerChar
        split <;> (try split) <;> simp
      simp [this]

example : lower "ΑΣ ΣΑ".toList = "ας σα".toList := by decide +kernel

end Parens.Text
