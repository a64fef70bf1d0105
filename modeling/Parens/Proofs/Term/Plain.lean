import Parens.Proofs.Number.Text
import Parens.Proofs.Term.Equality
import Parens.Proofs.Token.Case
import Parens.Proofs.Token.MaximalRun
import Parens.Term.Grammar
import Parens.Term.Readable

/-!
The terms that a reader returns: plain ones, without procedures and with readable names only. Their
numbers may be infinite, and such numbers are read as symbols once they have been written.
-/

namespace Parens

/-- The name that is read where something that is no number was written. -/
def Name.nan : Name := ⟨['n', 'a', 'n'], by decide, by decide⟩

/-- The name that is read where an infinite number was written. -/
def Name.infinity (negative : Bool) : Name where
  text := Number.signText negative ++ ['i', 'n', 'f']
  ne_nil := by cases negative <;> decide
  folded := by cases negative <;> decide

instance : DecidablePred Name.Readable := fun a =>
  decidable_of_iff ((a.text.all fun c => !isDelimiter c) ∧ a.text.head? ≠ some '\x27' ∧
      a.text ≠ ['.'] ∧ a.text ≠ ['n', 'i', 'l'] ∧ ¬ (Number.Numeral.ofText? a.text).isSome) <| by
    simp only [Name.Readable, Number.Numeral.isSome_ofText?_iff, List.all_eq_true,
      Bool.not_eq_true']

namespace Term

/-- Whether a reader may return the term. -/
def Plain : Term → Prop
  | nil | number _ => True
  | symbol a => a.Readable
  | cons a d => a.Plain ∧ d.Plain
  | procedure _ => False

/-- Whether all numbers in the term are finite. -/
def IsFinite : Term → Prop
  | number x => Number.IsFinite x
  | cons a d => a.IsFinite ∧ d.IsFinite
  | nil | symbol _ | procedure _ => True

/-- The term that is read when a plain one has been written. -/
def reread : Term → Term
  | number x =>
    match Number.decode x with
    | .notANumber => symbol .nan
    | .infinite negative => symbol (.infinity negative)
    | .finite _ _ _ => number x
  | cons a d => cons a.reread d.reread
  | t => t

theorem readable_iff {t : Term} : t.Readable ↔ t.Plain ∧ t.IsFinite := by
  induction t with
  | nil | number _ | symbol _ | procedure _ => simp [Readable, Plain, IsFinite]
  | cons a d iha ihd =>
      simp only [Readable, Plain, IsFinite, iha, ihd]
      exact and_and_and_comm

theorem reread_number {x : Float} (h : Number.IsFinite x) : (number x).reread = number x := by
  obtain ⟨negative, m, k, h⟩ := h
  rw [reread, h]

theorem reread_eq_self {t : Term} (h : t.IsFinite) : t.reread = t := by
  induction t with
  | nil | symbol _ | procedure _ => rfl
  | number x => exact reread_number h
  | cons a d iha ihd => rw [reread, iha h.1, ihd h.2]

theorem same_self {t : Term} (h : t.IsFinite) : t.same t := by
  induction t with
  | nil => rfl
  | number x => exact Number.beq_self_of_isFinite h
  | symbol _ | procedure _ => simp [same, atomEqual]
  | cons a d iha ihd => simp [same, iha h.1, ihd h.2]

theorem isFinite_of_same_reread {t : Term} (h : t.reread.same t) : t.IsFinite := by
  induction t with
  | nil | symbol _ | procedure _ => trivial
  | number x =>
      unfold reread at h
      split at h
      · cases h
      · cases h
      · rename_i hdecode
        exact ⟨_, _, _, hdecode⟩
  | cons a d iha ihd =>
      rw [reread, same, Bool.and_eq_true] at h
      exact ⟨iha h.1, ihd h.2⟩

/-- A term that equals a plain one is plain. -/
theorem plain_of_same {s t : Term} (hs : s.Plain) (h : s.same t) : t.Plain := by
  induction s generalizing t with
  | nil | number _ =>
      cases t with
      | nil | number _ => trivial
      | symbol _ | cons _ _ | procedure _ => cases h
  | symbol a =>
      cases t with
      | symbol b =>
          have hname : a = b := by simpa [same, atomEqual] using h
          rw [← hname]
          exact hs
      | nil | number _ => trivial
      | cons _ _ | procedure _ => cases h
  | procedure _ => exact hs.elim
  | cons a d iha ihd =>
      cases t with
      | cons b e =>
          rw [same, Bool.and_eq_true] at h
          exact ⟨iha hs.1 h.1, ihd hs.2 h.2⟩
      | nil | number _ => trivial
      | symbol _ | procedure _ => cases h

/-- A property that all atoms have that are read, and every pair of terms that have it. -/
structure KeptByReading (P : Term → Prop) : Prop where
  nil : P nil
  number (n : Number.Numeral) : P (number n.toFloat)
  symbol (a : Name) : a.Readable → P (symbol a)
  cons (a d : Term) : P a → P d → P (cons a d)

namespace KeptByReading

variable {P : Term → Prop} (hP : KeptByReading P)
include hP

theorem quoted {t : Term} (h : P t) : P t.quoted :=
  hP.cons _ _ (hP.symbol .quote (by decide)) (hP.cons _ _ h hP.nil)

theorem ofList {items : List Term} {tail : Term} (h : ∀ t ∈ items, P t) (ht : P tail) :
    P (ofList items tail) := by
  induction items with
  | nil => exact ht
  | cons t rest ih =>
      obtain ⟨hfirst, hrest⟩ := List.forall_mem_cons.1 h
      exact hP.cons t _ hfirst (ih hrest)

end KeptByReading

theorem keptByReading_plain : KeptByReading Plain :=
  ⟨trivial, fun _ => trivial, fun _ h => h, fun _ _ => And.intro⟩

theorem plain_quoted {t : Term} (h : t.Plain) : t.quoted.Plain := keptByReading_plain.quoted h

end Term

section Names

open Text Number

/-- A name that is spelt as a symbol token is readable, unless it is the name of the empty list. -/
theorem Lexeme.Proper.readable {x : Lexeme} {a : Name} (h : x.Proper) (hk : x.kind = .symbol)
    (ha : a.text = x.text) (hnil : a.text ≠ ['n', 'i', 'l']) : a.Readable := by
  cases h with
  | opening | closing | quote => cases hk
  | run hne hrun hquote =>
      obtain ⟨hdot, hnumeral⟩ := Token.Kind.ofRun_eq_symbol_iff.1 hk
      rw [ha] at hnil
      rw [Name.Readable, ha]
      exact ⟨hrun, hquote, hdot, hnil, hnumeral⟩

theorem Lexeme.Proper.word_of_keptByReading {P : Term → Prop} (hP : Term.KeptByReading P)
    {x : Lexeme} {t : Term} (h : x.Proper) (hk : x.kind = .symbol) (ht : StandsFor x.text t) :
    P t := by
  cases ht with
  | nil _ => exact hP.nil
  | @symbol a hnil htext => exact hP.symbol a (h.lower.readable hk htext (htext ▸ hnil))

end Names

mutual

theorem Derivation.value_of_keptByReading {P : Term → Prop} (hP : Term.KeptByReading P)
    (d : Derivation) (h : ∀ x ∈ d.lexemes, x.Proper) : P d.value := by
  cases d with
  | number token n reads => exact hP.number n
  | symbol token t reads =>
      exact (h token.1 List.mem_cons_self).word_of_keptByReading hP token.2 reads
  | quote mark quoted =>
      refine hP.quoted (quoted.value_of_keptByReading hP fun x hx => h x ?_)
      exact List.mem_cons_of_mem _ hx
  | list left items right =>
      rw [Derivation.value_list]
      refine hP.ofList (items.values_of_keptByReading hP fun x hx => h x ?_) hP.nil
      simp [Derivation.lexemes, hx]
  | dotted left items point tail right =>
      rw [Derivation.value_dotted]
      refine hP.ofList (items.values_of_keptByReading hP fun x hx => h x ?_)
        (tail.value_of_keptByReading hP fun x hx => h x ?_)
      · simp [Derivation.lexemes, hx]
      · simp [Derivation.lexemes, hx]

theorem Derivations.values_of_keptByReading {P : Term → Prop} (hP : Term.KeptByReading P)
    (d : Derivations) (h : ∀ x ∈ d.lexemes, x.Proper) : ∀ t ∈ d.values, P t := by
  cases d with
  | nil => exact nofun
  | cons first rest =>
      obtain ⟨hfirst, hrest⟩ := List.forall_mem_append.1 h
      exact List.forall_mem_cons.2
        ⟨first.value_of_keptByReading hP hfirst, rest.values_of_keptByReading hP hrest⟩

end

theorem Derivation.plain_value (d : Derivation) (h : ∀ x ∈ d.lexemes, x.Proper) : d.value.Plain :=
  d.value_of_keptByReading Term.keptByReading_plain h

end Parens
