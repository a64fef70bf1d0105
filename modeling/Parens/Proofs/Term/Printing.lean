import Parens.Proofs.Term.Size
import Parens.Proofs.Term.Text
import Parens.Term.Printing

/-!
The printer against the rules of surface syntax. The rules leave no choice, and the printer keeps to
them. Pass by pass it pushes what comes last first, so what lies on its stack is in the order of the
text; each pass takes away more than it pushes, and a pass on a piece of a term never fails.
-/

namespace Parens

namespace Piece

theorem spaced_cons (t : Term) (rest : List Term) :
    spaced (t :: rest) = term t :: rest.flatMap fun u => [text [' '], term u] := by
  induction rest generalizing t with
  | nil => rfl
  | cons u rest ih =>
      rw [spaced, ih]
      · rfl
      · exact List.cons_ne_nil u rest

/-- Behind the first item of a list there is a space before every item. -/
theorem flatMap_zipIdx_succ (rest : List Term) (k : Nat) :
    ((rest.zipIdx (k + 1)).flatMap fun p =>
      (if p.2 = 0 then [term p.1] else [term p.1, text [' ']]).reverse) =
        rest.flatMap fun u => [text [' '], term u] := by
  induction rest generalizing k with
  | nil => rfl
  | cons u rest ih =>
      rw [List.zipIdx_cons, List.flatMap_cons, ih, if_neg (Nat.succ_ne_zero k)]
      rfl

theorem reverse_pushes (items : List Term) (tail : Term) :
    (pushes items tail).reverse = spaced items ++ closing tail := by
  have hitems : (items.zipIdx.reverse.flatMap fun p =>
      if p.2 = 0 then [term p.1] else [term p.1, text [' ']]).reverse = spaced items := by
    rw [List.reverse_flatMap, List.reverse_reverse]
    cases items with
    | nil => rfl
    | cons t rest =>
        rw [spaced_cons, ← flatMap_zipIdx_succ rest 0, List.zipIdx_cons, List.flatMap_cons]
        rfl
  have hclosing : (if tail = .nil then [] else [term tail, text [' ', '.', ' ']]).reverse ++
      [text [')']] = closing tail := by
    cases tail <;> simp [closing]
  rw [pushes, List.reverse_cons, List.reverse_append, hitems, List.append_assoc, hclosing]

theorem writePieces_quotation {a d x : Term} (h : (Term.cons a d).quotation? = some x)
    (rest : List Piece) (written : List Char) :
    writePieces (term (.cons a d) :: rest) written =
      writePieces (term x :: rest) ('\x27' :: written) := by
  rw [writePieces]
  split <;> simp_all

theorem writePieces_list {a d : Term} (h : (Term.cons a d).quotation? = none) (rest : List Piece)
    (written : List Char) :
    writePieces (term (.cons a d) :: rest) written =
      writePieces ((pushes (Term.cons a d).items (Term.cons a d).tail).reverse ++ rest)
        ('(' :: written) := by
  rw [writePieces, reverse_pushes, List.append_assoc]
  split <;> simp_all

/-- What a pass does: it never fails, takes away more than it pushes, and goes on as the printer
does. -/
theorem pass_cases (p : Piece) :
    ∃ s pushed, p.pass = .ok (s, pushed) ∧ total pushed.reverse < p.weight ∧
      ∀ rest written, writePieces (p :: rest) written =
        writePieces (pushed.reverse ++ rest) (s.reverse ++ written) := by
  have hatom : ∀ t : Term, total [].reverse < (term t).weight := fun t => by
    have hpos := t.size_pos
    simp only [List.reverse_nil, total, weight]
    omega
  cases p with
  | text s => exact ⟨s, [], rfl, Nat.one_pos, fun rest written => by rw [writePieces]; rfl⟩
  | term t =>
      cases t with
      | nil | number _ | symbol _ | procedure _ =>
          refine ⟨_, [], rfl, hatom _, fun rest written => ?_⟩
          rw [writePieces]
          · rfl
          · intro a d hcons
            cases hcons
      | cons a d =>
          cases hquotation : (Term.cons a d).quotation? with
          | some x =>
              have hsize := Term.size_lt_of_quotation? hquotation
              have hpass : (term (.cons a d)).pass = .ok (['\x27'], [term x]) := by
                simp only [pass, hquotation]
              refine ⟨_, _, hpass, ?_, writePieces_quotation hquotation⟩
              simp only [List.reverse_singleton, total, weight]
              omega
          | none =>
              have hpass : (term (.cons a d)).pass =
                  .ok (['('], pushes (Term.cons a d).items (Term.cons a d).tail) := by
                simp only [pass, hquotation, Term.kind, if_true]
              refine ⟨_, _, hpass, ?_, writePieces_list hquotation⟩
              rw [reverse_pushes, total_append]
              exact total_list_lt a d

end Piece

/-- The passes over what is pending come to an end, with what the printer writes. -/
theorem exists_prints (pending : List Piece) (written : List Char) :
    ∃ n ≤ Piece.total pending,
      Prints n pending written (.ok (writePieces pending written.reverse)) := by
  induction hn : Piece.total pending using Nat.strongRecOn generalizing pending written with
  | ind n ih =>
      cases pending with
      | nil =>
          refine ⟨0, Nat.zero_le _, ?_⟩
          rw [writePieces, List.reverse_reverse]
          exact .done written
      | cons p rest =>
          obtain ⟨s, pushed, hpass, htotal, hwrite⟩ := p.pass_cases
          have hlt : Piece.total (pushed.reverse ++ rest) < n := by
            rw [← hn, Piece.total_append, Piece.total]
            omega
          obtain ⟨k, hk, hprints⟩ := ih _ hlt (pushed.reverse ++ rest) (written ++ s) rfl
          rw [List.reverse_append, ← hwrite] at hprints
          exact ⟨k + 1, Nat.lt_of_le_of_lt hk hlt, .pass hpass hprints⟩

/-- Whatever the passes come to, it is what the printer writes. -/
theorem Prints.result_eq {n : Nat} {pending : List Piece} {written : List Char}
    {result : Except Failure (List Char)} (h : Prints n pending written result) :
    result = .ok (writePieces pending written.reverse) := by
  induction h with
  | done written => rw [writePieces, List.reverse_reverse]
  | @pass n p pushed rest s written result hpass _ ih =>
      obtain ⟨s', pushed', hpass', -, hwrite⟩ := p.pass_cases
      rw [hpass] at hpass'
      cases hpass'
      rw [ih, hwrite, List.reverse_append]
  | @fail p rest written e hpass =>
      obtain ⟨s', pushed', hpass', -, -⟩ := p.pass_cases
      rw [hpass] at hpass'
      cases hpass'

namespace Term

theorem written_spaced (items : List Term) :
    (Piece.spaced items).flatMap Piece.written = [' '].intercalate (items.map text) := by
  induction items with
  | nil => rfl
  | cons t rest ih =>
      cases rest with
      | nil => simp [Piece.spaced, Piece.written]
      | cons u rest =>
          rw [Piece.spaced, List.flatMap_cons, List.flatMap_cons, ih]
          · simp [Piece.written, List.intercalate_cons_cons]
          · exact List.cons_ne_nil u rest

theorem written_closing (tail : Term) :
    (Piece.closing tail).flatMap Piece.written =
      (if tail = nil then [] else [' ', '.', ' '] ++ tail.text) ++ [')'] := by
  cases tail <;> simp [Piece.closing, Piece.written]

theorem isSurfaceSyntax_text : IsSurfaceSyntax text where
  atom {t} h := text_atom fun a d hcons => h (by rw [hcons]; rfl)
  quoted x := text_of_quotation? (quotation?_eq_some_iff.2 rfl)
  list {t} hkind hquoted := by
    cases t with
    | cons a d =>
        have hnone : (cons a d).quotation? = none := Option.eq_none_iff_forall_ne_some.2 fun x hx =>
          hquoted x (quotation?_eq_some_iff.1 hx)
        rw [text_eq_written hnone, List.flatMap_append, written_spaced, written_closing]
    | nil | number _ | symbol _ | procedure _ => cases hkind

/-- The rules give one text to each term. -/
theorem text_unique {f g : Term → List Char} (hf : IsSurfaceSyntax f) (hg : IsSurfaceSyntax g)
    (t : Term) : f t = g t := by
  induction hn : t.size using Nat.strongRecOn generalizing t with
  | ind n ih =>
      by_cases hkind : t.kind = .cons
      · by_cases hquoted : ∃ x : Term, t = x.quoted
        · obtain ⟨x, rfl⟩ := hquoted
          have hlt : x.size < n := by
            rw [← hn]
            exact size_lt_of_quotation? (quotation?_eq_some_iff.2 rfl)
          rw [hf.quoted, hg.quoted, ih _ hlt x rfl]
        · have hne : ∀ x : Term, t ≠ x.quoted := fun x hx => hquoted ⟨x, hx⟩
          have hsize := t.size_eq_items
          have hitems : t.items ≠ [] := by
            cases t <;> simp_all [items, kind]
          have hpos := List.length_pos_iff.2 hitems
          have hmap : t.items.map f = t.items.map g := List.map_congr_left fun u hu => by
            have hle := size_le_totalSize hu
            exact ih _ (by omega) u rfl
          have htail : f t.tail = g t.tail := ih _ (by omega) t.tail rfl
          rw [hf.list hkind hne, hg.list hkind hne, hmap, htail]
      · rw [hf.atom hkind, hg.atom hkind]

/-- The printer is the one function that keeps to the rules of surface syntax. Printing pass by pass
comes to an end for every term, with the text of the printer, and no pass fails on the way. -/
theorem render_by_rules :
    IsSurfaceSyntax render ∧ (∀ f, IsSurfaceSyntax f → f = render) ∧
      (∀ p e, Piece.pass p ≠ .error e) ∧
      ∀ t : Term, (∃ n ≤ 4 * t.size, Prints n [.term t] [] (.ok t.render)) ∧
        ∀ n result, Prints n [.term t] [] result → result = .ok t.render := by
  have hrender : render = text := funext render_eq_text
  refine ⟨hrender ▸ isSurfaceSyntax_text, fun f hf => ?_, fun p e herror => ?_, fun t => ⟨?_, ?_⟩⟩
  · rw [hrender]
    exact funext (text_unique hf isSurfaceSyntax_text)
  · obtain ⟨s, pushed, hpass, -, -⟩ := p.pass_cases
    cases herror.symm.trans hpass
  · exact exists_prints [.term t] []
  · exact fun n result h => h.result_eq

example :
    render (.cons (quoted (.symbol .t)) (quoted (.symbol .t))) = "(\x27t quote t)".toList := by
  decide +kernel

end Term
end Parens
