import Parens.Text.Lower.Table
import Parens.Text.Cased

/-!
Lowercase text. `lower` maps each character by `lowerChar`, except that a capital sigma at the end
of a word becomes the final small sigma. That lowercase text stays as it is is shown in
`Parens.Text.Lower.Settled`.
-/

namespace Parens.Text

def capitalSigma : Char := 'Σ'
def smallSigma : Char := 'σ'
def finalSigma : Char := 'ς'

/-- The lowercase form of a character on its own. The capital dotted I keeps its dot as a combining
mark. -/
def lowerChar (c : Char) : List Char :=
  if c.toNat < 0x80 then [if 0x41 ≤ c.toNat ∧ c.toNat ≤ 0x5A then Char.ofNat (c.toNat + 32) else c]
  else if c = 'İ' then ['i', '\u0307']
  else [Char.ofNat (mapCode lowerRuns c.toNat)]

/-- Whether the nearest character that is not ignored is cased. -/
def meetsCased (text : List Char) : Bool :=
  match text.dropWhile isCaseIgnorable with
  | c :: _ => isCased c
  | [] => false

/-- The lowercase form of a text that follows `before`, which is given backwards: a capital sigma
looks at both sides to tell whether it ends a word. -/
def lowerAfter : (before : List Char) → List Char → List Char
  | _, [] => []
  | before, c :: rest =>
    if c = capitalSigma then
      (if meetsCased before && !meetsCased rest then finalSigma else smallSigma)
        :: lowerAfter (c :: before) rest
    else lowerChar c ++ lowerAfter (c :: before) rest

def lower (text : List Char) : List Char := lowerAfter [] text

end Parens.Text
