import Parens.Number.Format
import Parens.Number.Numeral

/-!
The ways to write a numeral, with all that a text shows and its value does not: zeros in front and
at the end, and a point without digits on one of its sides.
-/

namespace Parens.Number

structure Spelling where
  negative : Bool
  whole : List Char
  /-- The digits behind the point, if there is a point. -/
  places : Option (List Char)
  isDigit_of_mem : ∀ c ∈ whole ++ places.getD [], isDigit c
  ne_nil : whole ++ places.getD [] ≠ []

namespace Spelling

def fraction (s : Spelling) : List Char := s.places.getD []

def text (s : Spelling) : List Char :=
  signText s.negative ++ (s.whole ++ (s.places.elim [] fun places => '.' :: places))

def numeral (s : Spelling) : Numeral where
  negative := s.negative
  digits := digitsValue (s.whole ++ s.fraction)
  places := s.fraction.length

/-- The same with so many more zeros in front and at the end, and with a point. -/
def padded (s : Spelling) (before behind : Nat) : Spelling where
  negative := s.negative
  whole := List.replicate before '0' ++ s.whole
  places := some (s.fraction ++ List.replicate behind '0')
  isDigit_of_mem := by
    have hzero : isDigit '0' := by decide
    intro c hc
    simp only [Option.getD_some, List.mem_append, List.mem_replicate] at hc
    rcases hc with (⟨-, rfl⟩ | hc) | hc | ⟨-, rfl⟩
    · exact hzero
    · exact s.isDigit_of_mem c (List.mem_append_left _ hc)
    · exact s.isDigit_of_mem c (List.mem_append_right _ hc)
    · exact hzero
  ne_nil := by
    have hne := s.ne_nil
    intro hnil
    simp only [Option.getD_some, List.append_eq_nil_iff] at hnil
    exact hne (List.append_eq_nil_iff.2 ⟨hnil.1.2, hnil.2.1⟩)

end Spelling
end Parens.Number
