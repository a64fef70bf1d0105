import Parens.Token.Basic

/-!
Layout as a predicate: white space and comments, each comment closed by the end of its line. The
last comment of a text needs no end of line. The main statement is that layout in front of a text is
skipped as a whole.
-/

namespace Parens

inductive IsLayout : List Char → Prop
  | nil : IsLayout []
  | blank {c : Char} {rest : List Char} : Text.isBlank c → IsLayout rest → IsLayout (c :: rest)
  | comment {body rest : List Char} : '\n' ∉ body → IsLayout rest →
      IsLayout (';' :: (body ++ '\n' :: rest))

/-- Layout at the end of a text, where the last comment may stay open. -/
inductive IsLastLayout : List Char → Prop
  | closed {layout : List Char} : IsLayout layout → IsLastLayout layout
  | unclosed {layout body : List Char} : IsLayout layout → '\n' ∉ body →
      IsLastLayout (layout ++ ';' :: body)

namespace IsLayout

theorem append {a b : List Char} (ha : IsLayout a) (hb : IsLayout b) : IsLayout (a ++ b) := by
  induction ha with
  | nil => exact hb
  | blank hc _ ih => exact .blank hc ih
  | comment hbody _ ih =>
    rw [List.cons_append, List.append_assoc]
    exact .comment hbody ih

end IsLayout

theorem IsLastLayout.append {a b : List Char} (ha : IsLayout a) (hb : IsLastLayout b) :
    IsLastLayout (a ++ b) := by
  cases hb with
  | closed h => exact .closed (ha.append h)
  | unclosed h hbody =>
    rw [← List.append_assoc]
    exact .unclosed (ha.append h) hbody

theorem layoutLength_inComment {body : List Char} (h : '\n' ∉ body) (n : Nat)
    (rest : List Char) :
    layoutLength true n (body ++ '\n' :: rest) = layoutLength false (n + body.length + 1) rest := by
  induction body generalizing n with
  | nil => simp [layoutLength]
  | cons c body ih =>
    obtain ⟨hc, hb⟩ := not_or.1 (mt List.mem_cons.2 h)
    have hn : (c != '\n') = true := bne_iff_ne.2 (Ne.symm hc)
    rw [List.cons_append, layoutLength, if_pos rfl, hn, ih hb, List.length_cons]
    congr 1
    omega

theorem layoutLength_unclosed {body : List Char} (h : '\n' ∉ body) (n : Nat) :
    layoutLength true n body = n + body.length := by
  induction body generalizing n with
  | nil => rfl
  | cons c body ih =>
    obtain ⟨hc, hb⟩ := not_or.1 (mt List.mem_cons.2 h)
    have hn : (c != '\n') = true := bne_iff_ne.2 (Ne.symm hc)
    rw [layoutLength, if_pos rfl, hn, ih hb, List.length_cons]
    omega

/-- Layout in front of a text is counted as a whole. -/
theorem layoutLength_append {a : List Char} (h : IsLayout a) (n : Nat) (text : List Char) :
    layoutLength false n (a ++ text) = layoutLength false (n + a.length) text := by
  induction h generalizing n with
  | nil => rfl
  | @blank c rest hc _ ih =>
    have hs : c ≠ ';' := by
      rintro rfl
      revert hc
      decide
    simp only [List.cons_append, layoutLength, hs, hc, Bool.false_eq_true, if_false, if_true, ih,
      List.length_cons]
    congr 1
    omega
  | @comment body rest hbody _ ih =>
    simp only [List.cons_append, List.append_assoc, layoutLength, Bool.false_eq_true, if_false,
      if_true, layoutLength_inComment hbody, ih, List.length_cons, List.length_append]
    congr 1
    omega

end Parens
