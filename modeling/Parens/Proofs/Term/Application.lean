import Parens.Proofs.Reader.Case
import Parens.Proofs.Term.RoundTrip
import Parens.Proofs.Term.Size
import Parens.Term.Application

/-!
How the application of a name is read. The name may be spelt in any case, since lowercasing neither
makes nor removes a delimiter, and the quoted terms come back as they were.
-/

namespace Parens

open Text

/-- A readable name is read from each of its spellings. -/
theorem spells_of_lower_eq {run : List Char} {a : Name} (h : lower run = a.text) (ha : a.Readable) :
    Spells run (.symbol a) := by
  obtain ⟨hdelimiters, hquote, hdot, hnil, hnumeral⟩ := ha
  have hne : run ≠ [] := fun hrun => a.ne_nil (h ▸ lower_eq_nil_iff.2 hrun)
  refine spells_word ?_ hne ?_ ?_ ?_
  · refine List.all_eq_true.2 fun c hc => ?_
    rw [Bool.not_eq_true', Bool.eq_false_iff]
    intro hdelimiter
    have hmem := mem_lowerAfter_of_isReserved (isReserved_of_isDelimiter hdelimiter) hc []
    exact Bool.eq_false_iff.1 (hdelimiters c (h ▸ hmem)) hdelimiter
  · intro hhead
    obtain ⟨rest, rfl⟩ := List.head?_eq_some_iff.1 hhead
    rw [← h, lower, lowerAfter_cons_of_isReserved rfl] at hquote
    exact hquote rfl
  · rw [← Token.Kind.ofRun_lower, h, Token.Kind.ofRun, if_neg hdot,
      if_neg (mt Number.Numeral.isSome_ofText?_iff.1 hnumeral)]
  · exact .symbol (h.symm ▸ hnil) h.symm

namespace Term

theorem restText_quotations (args : List Term) :
    (ofList (args.map quoted) nil).restText =
      args.flatMap (fun t => ' ' :: '\x27' :: t.render) ++ [')'] := by
  induction args with
  | nil => rfl
  | cons t args ih =>
      rw [List.map_cons, ofList_cons, restText, text_of_quotation? (quotation?_eq_some_iff.2 rfl),
        ih, ← render_eq_text]
      simp

theorem reread_of_readable {t : Term} (h : t.Readable) : t.reread = t :=
  reread_eq_self (readable_iff.1 h).2

theorem readable_quotations {args : List Term} (h : ∀ t ∈ args, t.Readable) :
    (ofList (args.map quoted) nil).Readable := by
  induction args with
  | nil => trivial
  | cons t args ih =>
      have hquoted : t.quoted.Readable :=
        readable_iff.2 ⟨plain_quoted (readable_iff.1 (h t List.mem_cons_self)).1,
          trivial, (readable_iff.1 (h t List.mem_cons_self)).2, trivial⟩
      exact ⟨hquoted, ih fun u hu => h u (List.mem_cons_of_mem t hu)⟩

theorem size_le_application {t : Term} {args : List Term} (h : t ∈ args) (a : Name) :
    t.size + 2 ≤ (application a args).size := by
  have hquoted := size_le_totalSize (List.mem_map_of_mem (f := quoted) h)
  rw [application, size_cons, size_ofList]
  simp only [quoted, size_cons] at hquoted ⊢
  omega

end Term

theorem spells_applicationText {name : List Char} {a : Name} {args : List Term}
    (hname : lower name = a.text) (ha : a.Readable) (hargs : ∀ t ∈ args, t.Readable) :
    Spells (applicationText name args) (.application a args) := by
  have hrest := Term.readable_quotations hargs
  have hspells := spellsRest_restText _ (Term.readable_iff.1 hrest).1
  rw [Term.reread_of_readable hrest] at hspells
  have htext : applicationText name args =
      '(' :: (name ++ (Term.ofList (args.map Term.quoted) .nil).restText) := by
    rw [applicationText, Term.restText_quotations, List.append_assoc]
  rw [htext]
  exact spells_list (spells_of_lower_eq hname ha) hspells

theorem readAll_of_spells {text : List Char} {t : Term} (h : Spells text t) :
    (readAll text 0).terms = [t] ∧ (readAll text 0).ending = .ok () := by
  obtain ⟨d, rfl, hlex⟩ := h [] rfl
  have hnil : lexemes [] = [] := lexemes_eq_nil_iff.2 rfl
  rw [List.append_nil, hnil] at hlex
  have hread := Reader.readAll_of_derivations (.cons d .nil) (r := Reader.ofText text 0) rfl hlex
  exact hread.symm

end Parens
