import Parens.Text.Blank
import Parens.Text.Lower.Settled
import Mathlib.Tactic.SplitIfs

/-!
The characters of the syntax have no case. Lowercasing leaves them alone, and writes one of them
only where it stood before. So what a text looks like to the rules for tokens does not depend on its
case.
-/

namespace Parens.Text

/-- Blanks, the apostrophe with the parentheses, the minus sign with the point, the digits, and the
semicolon. -/
def reservedRanges : List CodeRange :=
  blankRanges ++ [⟨0x27, 0x29⟩, ⟨0x2D, 0x2E⟩, ⟨0x30, 0x39⟩, ⟨0x3B, 0x3B⟩]

def isReserved (c : Char) : Bool := inRanges reservedRanges c

/-- Whether no image of a run is a reserved character. -/
def avoidsReserved (r : CaseRun) : Bool :=
  reservedRanges.all fun s => Nat.blt (r.apply r.last) s.first || Nat.blt s.last r.image

theorem avoidsReserved_lowerRuns : lowerRuns.all avoidsReserved = true := by decide +kernel

theorem isReserved_ofNat_apply {r : CaseRun} (hr : r ∈ lowerRuns) {n : Nat} (hn : r.contains n) :
    isReserved (Char.ofNat (r.apply n)) = false := by
  have hruns := List.all_eq_true.1 avoidsReserved_lowerRuns r hr
  obtain ⟨hfirst, hlast, -⟩ := CaseRun.contains_iff.1 hn
  have hcode : (Char.ofNat (r.apply n)).toNat = r.apply n := by
    have hsettled := List.all_eq_true.1 imagesSettled_lowerRuns r hr
    simp only [Bool.and_eq_true, Bool.or_eq_true, Nat.blt_eq, CaseRun.apply] at hsettled
    apply toNat_ofNat
    simp only [CaseRun.apply]
    omega
  rw [isReserved, inRanges, hcode, List.any_eq_false]
  intro s hs
  have hmiss := List.all_eq_true.1 hruns s hs
  simp only [Bool.or_eq_true, Nat.blt_eq, CaseRun.apply] at hmiss
  simp only [CodeRange.contains, CaseRun.apply, Bool.and_eq_true, Nat.ble_eq]
  omega

/-- A character that is lowercased to a reserved one is that character. -/
theorem lowerChar_of_isReserved {c d : Char} (h : d ∈ lowerChar c) (hd : isReserved d) :
    lowerChar c = [c] ∧ d = c := by
  unfold lowerChar at h ⊢
  split_ifs at h ⊢ with hascii hcapital hdotted
  · rw [List.mem_singleton] at h
    have hcode : d.toNat = c.toNat + 32 := by rw [h, toNat_ofNat (by omega)]
    simp only [isReserved, inRanges, reservedRanges, blankRanges, List.cons_append, List.nil_append,
      List.any_cons, List.any_nil, CodeRange.contains, Bool.or_eq_true, Bool.and_eq_true,
      Nat.ble_eq, Bool.false_eq_true, or_false] at hd
    omega
  · exact ⟨rfl, List.mem_singleton.1 h⟩
  · simp only [List.mem_cons, List.not_mem_nil, or_false] at h
    rcases h with rfl | rfl
    · cases hd
    · cases hd
  · rw [List.mem_singleton] at h
    rcases mapCode_cases lowerRuns c.toNat with ⟨r, hr, hn, hmap⟩ | ⟨-, hmap⟩
    · rw [h, hmap, isReserved_ofNat_apply hr hn] at hd
      cases hd
    · rw [hmap, Char.ofNat_toNat] at h ⊢
      exact ⟨rfl, h⟩

/-- Whether a run moves no reserved character. -/
def sparesReserved (r : CaseRun) : Bool :=
  reservedRanges.all fun s => Nat.blt r.last s.first || Nat.blt s.last r.first

theorem sparesReserved_lowerRuns : (dottedRun :: lowerRuns).all sparesReserved = true := by
  decide +kernel

theorem settled_of_isReserved {c : Char} (h : isReserved c) : Settled c := by
  intro r hr
  obtain ⟨s, hs, hc⟩ := List.any_eq_true.1 h
  have hspares := List.all_eq_true.1 (List.all_eq_true.1 sparesReserved_lowerRuns r hr) s hs
  simp only [Bool.or_eq_true, Nat.blt_eq] at hspares
  simp only [CodeRange.contains, Bool.and_eq_true, Nat.ble_eq] at hc
  rw [Bool.eq_false_iff, ne_eq, CaseRun.contains_iff]
  omega

theorem isReserved_sigma : ∀ final : Bool,
    isReserved (if final then finalSigma else smallSigma) = false := by decide

theorem lowerChar_ne_nil (c : Char) : lowerChar c ≠ [] := by
  unfold lowerChar
  split_ifs <;> exact List.cons_ne_nil _ _

section

variable {before text : List Char}

/-- A reserved character in lowercase text stood there before. -/
theorem mem_of_mem_lowerAfter {d : Char} (h : d ∈ lowerAfter before text) (hd : isReserved d) :
    d ∈ text := by
  induction text generalizing before with
  | nil => cases h
  | cons c rest ih =>
      rw [lowerAfter] at h
      split at h
      · rcases List.mem_cons.1 h with hsigma | h
        · rw [hsigma, isReserved_sigma] at hd
          cases hd
        · exact List.mem_cons_of_mem _ (ih h)
      · rcases List.mem_append.1 h with h | h
        · rw [(lowerChar_of_isReserved h hd).2]
          exact List.mem_cons_self
        · exact List.mem_cons_of_mem _ (ih h)

theorem lowerAfter_cons_of_isReserved {c : Char} (hc : isReserved c) :
    lowerAfter before (c :: text) = c :: lowerAfter (c :: before) text := by
  have hsettled := settled_of_isReserved hc
  rw [lowerAfter, if_neg (ne_capitalSigma_of_settled hsettled), lowerChar_of_settled hsettled,
    List.singleton_append]

theorem mem_lowerAfter_of_isReserved {c : Char} {text : List Char} (hc : isReserved c)
    (h : c ∈ text) (before : List Char) : c ∈ lowerAfter before text := by
  induction text generalizing before with
  | nil => cases h
  | cons d text ih =>
      by_cases heq : d = c
      · rw [heq, lowerAfter_cons_of_isReserved hc]
        exact List.mem_cons_self
      · have hrest := ih ((List.mem_cons.1 h).resolve_left (Ne.symm heq)) (d :: before)
        rw [lowerAfter]
        split
        · exact List.mem_cons_of_mem _ hrest
        · exact List.mem_append_right _ hrest

/-- Text in reserved characters only is spelt in one way. -/
theorem lowerAfter_eq_self (h : ∀ d ∈ lowerAfter before text, isReserved d) :
    lowerAfter before text = text := by
  induction text generalizing before with
  | nil => rfl
  | cons c rest ih =>
      rw [lowerAfter] at h ⊢
      split at h
      · have hsigma := h _ List.mem_cons_self
        rw [isReserved_sigma] at hsigma
        cases hsigma
      · obtain ⟨d, ds, hlower⟩ := List.exists_cons_of_ne_nil (lowerChar_ne_nil c)
        have hmem : d ∈ lowerChar c := by
          rw [hlower]
          exact List.mem_cons_self
        rw [if_neg ‹_›, (lowerChar_of_isReserved hmem (h d (List.mem_append_left _ hmem))).1,
          ih fun e he => h e (List.mem_append_right _ he)]
        rfl

end

theorem lower_eq_self {text : List Char} (h : ∀ d ∈ lower text, isReserved d) : lower text = text :=
  lowerAfter_eq_self h

/-- A reserved character in front of lowercase text stood there before. -/
theorem head?_eq_of_head?_lower {text : List Char} {d : Char} (h : (lower text).head? = some d)
    (hd : isReserved d) : text.head? = some d := by
  cases text with
  | nil => cases h
  | cons c rest =>
      rw [lower, lowerAfter] at h
      split at h
      · rw [List.head?_cons, Option.some.injEq] at h
        rw [← h, isReserved_sigma] at hd
        cases hd
      · obtain ⟨e, es, hlower⟩ := List.exists_cons_of_ne_nil (lowerChar_ne_nil c)
        have hmem : e ∈ lowerChar c := by
          rw [hlower]
          exact List.mem_cons_self
        rw [hlower, List.cons_append, List.head?_cons, Option.some.injEq] at h
        rw [h] at hmem
        rw [List.head?_cons, (lowerChar_of_isReserved hmem hd).2]

end Parens.Text
