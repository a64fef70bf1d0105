import Parens.Failure
import Parens.Text.Lower.Settled

/-!
Names of symbols. A name has at least one character and is in lowercase, so two spellings of a
symbol that differ in case only are one name. Any characters may occur in it, also such as the
reader would not take for a symbol.
-/

namespace Parens

open Text

structure Name where
  text : List Char
  ne_nil : text ≠ []
  folded : lower text = text
deriving DecidableEq, Repr

namespace Name

/-- The name that a text spells in any case, unless the text is empty. -/
def ofText? (text : List Char) : Option Name :=
  if h : text = [] then none
  else some ⟨lower text, fun h' => h (lower_eq_nil_iff.1 h'), lower_lower text⟩

/-- The name that a text spells, or the failure of an empty one. -/
def ofText (text : List Char) : Except Failure Name :=
  match ofText? text with
  | some name => .ok name
  | none => .error .emptyName

theorem ofText?_text (a : Name) : ofText? a.text = some a := by
  simp [ofText?, a.ne_nil, a.folded]

theorem text_of_ofText? {text : List Char} {a : Name} (h : ofText? text = some a) :
    a.text = lower text := by
  unfold ofText? at h
  split at h
  · simp at h
  · cases h
    rfl

def t : Name := ⟨['t'], by decide, by decide⟩

def quote : Name := ⟨['q', 'u', 'o', 't', 'e'], by decide, by decide⟩

end Name
end Parens
