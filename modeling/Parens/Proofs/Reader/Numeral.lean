import Parens.Proofs.Number.Order
import Parens.Proofs.Number.Spelling
import Parens.Proofs.Reader.Forward
import Parens.Proofs.Term.RoundTrip

/-!
Numerals through the reader. However long a numeral is and wherever it stands, it is read as the
double nearest to its exact value. So a number that is read depends on this value and on the sign
only, and does not decrease when the value grows.
-/

namespace Parens

open Number

/-- Whether a text is read as a number wherever it stands: behind layout, and in front of a
boundary. -/
def ReadsAs (text : List Char) (x : Float) : Prop :=
  ∀ (r : Reader) (layout behind : List Char), IsLayout layout → atBoundary behind →
    r.lexer.cursor.after = layout ++ (text ++ behind) →
    ∃ r' : Reader, r.readTerm = (.ok (some (.number x)), r') ∧ r'.lexer.cursor.after = behind

theorem ReadsAs.unique {text : List Char} {x y : Float} (h : ReadsAs text x) (h' : ReadsAs text y) :
    x = y := by
  have hafter : (Reader.ofText text 0).lexer.cursor.after = [] ++ (text ++ []) :=
    (List.append_nil text).symm
  obtain ⟨r, hr, -⟩ := h _ [] [] .nil rfl hafter
  obtain ⟨r', hr', -⟩ := h' _ [] [] .nil rfl hafter
  rw [hr] at hr'
  cases hr'
  rfl

theorem readsAs_numeral {text : List Char} {n : Numeral} (h : Numeral.ofText? text = some n) :
    ReadsAs text n.toFloat := by
  intro r layout behind hlayout hbehind hafter
  have hfirst : Lexeme.first? r.lexer.cursor.after = some (⟨.number, text⟩, behind) := by
    rw [hafter, ← Lexeme.first?_code, code_append_of_isLayout hlayout, Lexeme.first?_code,
      first?_numeral h hbehind]
  obtain ⟨token, l, hnext, htoken, hreads, -⟩ := Reader.exists_next_path (lexemes_of_first? hfirst)
  have hkind : token.kind = .number := congrArg Lexeme.kind htoken
  have htext : token.text = text := congrArg Lexeme.text htoken
  have hrun : Reader.run r.limit .empty r.lexer = (.ok (some (.number n.toFloat)), l) := by
    rw [Reader.run_eq_resume, Reader.step]
    simp only [hnext, Reader.shift, hkind, htext, h]
    rfl
  refine ⟨{ r with lexer := l }, by rw [Reader.readTerm, hrun], ?_⟩
  cases hreads with
  | cons hfirst' hsource hreads =>
      cases hreads
      rw [hfirst] at hfirst'
      exact (Prod.mk.inj (Option.some.inj hfirst')).2.symm

theorem readsAs_iff {text : List Char} {n : Numeral} (h : Numeral.ofText? text = some n)
    {x : Float} :
    ReadsAs text x ↔ n.toFloat = x :=
  ⟨(readsAs_numeral h).unique, fun hx => hx ▸ readsAs_numeral h⟩

namespace Number.Spelling

/-- The texts that the rule for numerals takes as a whole are the spellings. -/
theorem numeralLength?_eq_length_iff {text : List Char} :
    numeralLength? text = some text.length ↔ ∃ s : Spelling, s.text = text := by
  constructor
  · intro h
    obtain ⟨front, rest, rfl, hlength, hfront⟩ := exists_numeral_front h
    obtain rfl : rest = [] := by
      rw [List.length_append] at hlength
      exact List.length_eq_zero_iff.1 (by omega)
    rw [List.append_nil]
    exact exists_of_isNumeral hfront
  · rintro ⟨s, rfl⟩
    have hlength := numeralLength?_append s.isNumeral_text (show atBoundary [] from rfl)
    rwa [List.append_nil] at hlength

theorem readsAs_text_iff (s : Spelling) {x : Float} : ReadsAs s.text x ↔ s.numeral.toFloat = x :=
  readsAs_iff s.ofText?_text

theorem isNearest_iff (s : Spelling) {x : Float} :
    IsNearest s.negative s.toRat x ↔ s.numeral.toFloat = x := by
  have hnearest := s.numeral.isNearest_toFloat
  rw [s.toRat_numeral] at hnearest
  exact ⟨fun h => hnearest.unique h s.toRat_eq_withSign_abs, fun hx => hx ▸ hnearest⟩

end Number.Spelling

/-- A numeral is read as the double nearest to its exact value, with its sign, and there is only one
such double. Zeros in front and at the end, and a point, do not matter, nor does any other way to
write the same value with the same sign, and a greater value is not read as a smaller number. -/
theorem numeral_reads_nearest :
    (∀ text, numeralLength? text = some text.length ↔ ∃ s : Spelling, s.text = text) ∧
    ∀ s : Spelling, ∃ x, ReadsAs s.text x ∧ (∀ y, IsNearest s.negative s.toRat y ↔ y = x) ∧
      (∀ before behind, ReadsAs (s.padded before behind).text x) ∧
      ∀ (s' : Spelling) (x' : Float), ReadsAs s'.text x' →
        (s'.negative = s.negative → s'.toRat = s.toRat → x' = x) ∧
          (s.toRat ≤ s'.toRat → x ≤ x') := by
  refine ⟨fun text => Spelling.numeralLength?_eq_length_iff, fun s => ?_⟩
  have hsame : ∀ s' : Spelling, s'.negative = s.negative → s'.toRat = s.toRat →
      s'.numeral.toFloat = s.numeral.toFloat := by
    intro s' hsign hvalue
    rw [← s'.isNearest_iff, hsign, hvalue, s.isNearest_iff]
  refine ⟨s.numeral.toFloat, s.readsAs_text_iff.2 rfl, fun y => s.isNearest_iff.trans eq_comm,
    ?_, ?_⟩
  · intro before behind
    exact (s.padded before behind).readsAs_text_iff.2 (hsame _ rfl (s.toRat_padded before behind))
  · intro s' x' hreads
    obtain rfl := s'.readsAs_text_iff.1 hreads
    refine ⟨hsame s', fun hle => Numeral.toFloat_mono ?_⟩
    rwa [s.toRat_numeral, s'.toRat_numeral]

end Parens
