/-!
Sets of characters given by ranges of code points, and mappings of code points given by runs.
-/

namespace Parens.Text

/-- An inclusive range of code points. -/
structure CodeRange where
  first : Nat
  last : Nat
deriving DecidableEq, Repr

def CodeRange.contains (r : CodeRange) (n : Nat) : Bool :=
  Nat.ble r.first n && Nat.ble n r.last

def inRanges (ranges : List CodeRange) (c : Char) : Bool :=
  ranges.any (·.contains c.toNat)

/-- A run of code points that a case mapping moves by the same distance: every `step`-th one from
`first` to `last`, where `image` is what `first` is mapped to. -/
structure CaseRun where
  first : Nat
  last : Nat
  step : Nat
  image : Nat
deriving DecidableEq, Repr

def CaseRun.contains (r : CaseRun) (n : Nat) : Bool :=
  Nat.ble r.first n && Nat.ble n r.last && Nat.beq ((n - r.first) % r.step) 0

def CaseRun.apply (r : CaseRun) (n : Nat) : Nat := r.image + (n - r.first)

theorem CaseRun.contains_iff {r : CaseRun} {n : Nat} :
    r.contains n ↔ r.first ≤ n ∧ n ≤ r.last ∧ (n - r.first) % r.step = 0 := by
  simp only [contains, Bool.and_eq_true, Nat.ble_eq, Nat.beq_eq, and_assoc]

/-- Whether no image under `r` is moved by `s`: the two lie apart, or go by twos and never meet. -/
def CaseRun.misses (r s : CaseRun) : Bool :=
  Nat.blt (r.apply r.last) s.first || Nat.blt s.last r.image ||
    (Nat.beq r.step 2 && Nat.beq s.step 2 && Nat.beq ((r.image + s.first) % 2) 1)

theorem CaseRun.contains_apply_of_misses {r s : CaseRun} (h : r.misses s) {n : Nat}
    (hn : r.contains n) : s.contains (r.apply n) = false := by
  rw [Bool.eq_false_iff]
  intro hs
  simp only [misses, apply, Bool.and_eq_true, Bool.or_eq_true, Nat.blt_eq, Nat.beq_eq] at h
  obtain ⟨h₁, h₂, h₃⟩ := contains_iff.1 hn
  obtain ⟨h₄, h₅, h₆⟩ := contains_iff.1 hs
  simp only [apply] at h₄ h₅ h₆
  rcases h with (h | h) | ⟨⟨hr, hs⟩, h⟩
  · omega
  · omega
  · rw [hr] at h₃
    rw [hs] at h₆
    omega

/-- The image of a code point under the first run that has it, or the code point itself. -/
def mapCode (runs : List CaseRun) (n : Nat) : Nat :=
  match runs.find? (·.contains n) with
  | some r => r.apply n
  | none => n

theorem mapCode_eq_self {runs : List CaseRun} {n : Nat} (h : ∀ r ∈ runs, r.contains n = false) :
    mapCode runs n = n := by
  have : runs.find? (·.contains n) = none := List.find?_eq_none.2 fun r hr => by simp [h r hr]
  rw [mapCode, this]

/-- A code point is moved by a run that has it, or stays. -/
theorem mapCode_cases (runs : List CaseRun) (n : Nat) :
    (∃ r ∈ runs, r.contains n ∧ mapCode runs n = r.apply n) ∨
      (∀ r ∈ runs, r.contains n = false) ∧ mapCode runs n = n := by
  unfold mapCode
  cases h : runs.find? (·.contains n) with
  | some r => exact .inl ⟨r, List.mem_of_find?_eq_some h, by simpa using List.find?_some h, rfl⟩
  | none => exact .inr ⟨fun r hr => by simpa using List.find?_eq_none.1 h r hr, rfl⟩

end Parens.Text
