import Parens.Proofs.Token.MaximalRun
import Parens.Token.Place

/-!
The tokens of a text cover it. They are spelt by the text at their places, none reaches into the
next one, and what lies before, between and behind them is white space and comments. So every other
character is read once.
-/

namespace Parens

namespace Lexer

theorem covers_of_drain {l : Lexer} {ts : List Token} (h : l.drain.1 = .ok ts) :
    Covers l.cursor.pos l.cursor.after ts := by
  fun_induction drain l generalizing ts with
  | case1 l e l' hnext => cases h
  | case2 l l' hnext =>
      cases h
      obtain ⟨layout, hends⟩ := ends_of_next hnext
      rw [hends.skipsTo.eq_append, List.append_nil]
      exact .last hends.isLastLayout
  | case3 l token l' hnext tokens l'' hdrain ih =>
      cases h
      obtain ⟨layout, htakes⟩ := takes_of_next hnext
      rw [htakes.skipsTo.eq_append]
      refine .token htakes.isLayout htakes.text_ne_nil htakes.start_eq ?_
      rw [← htakes.pos_eq]
      exact ih (by rw [hdrain])
  | case4 l token l' hnext e l'' hdrain ih => cases h

end Lexer

namespace Covers

variable {pos : Nat} {text : List Char} {ts : List Token}

theorem text_ne_nil (h : Covers pos text ts) : ∀ t ∈ ts, t.text ≠ [] := by
  induction h with
  | last _ => exact nofun
  | token _ hne _ _ ih => exact List.forall_mem_cons.2 ⟨hne, ih⟩

theorem le_start (h : Covers pos text ts) : ∀ t ∈ ts, pos ≤ t.start := by
  induction h with
  | last _ => exact nofun
  | token _ _ hstart _ ih =>
      intro u hu
      rcases List.mem_cons.1 hu with rfl | hu
      · omega
      · have hle := ih u hu
        rw [Token.stop] at hle
        omega

/-- Every token ends before the next one starts. -/
theorem pairwise (h : Covers pos text ts) :
    ts.Pairwise fun t u => t.start < u.start ∧ t.stop ≤ u.start := by
  induction h with
  | last _ => exact .nil
  | token _ hne _ hrest ih =>
      refine .cons (fun u hu => ?_) ih
      have hle := hrest.le_start u hu
      have hpos := List.length_pos_iff.2 hne
      rw [Token.stop] at hle ⊢
      omega

/-- In a text that has the covered one at its end, every token is spelt at its place. -/
theorem slice_eq (h : Covers pos text ts) {before : List Char} (hbefore : before.length = pos) :
    ∀ t ∈ ts, t.stop ≤ (before ++ text).length ∧
      ((before ++ text).take t.stop).drop t.start = t.text := by
  induction h generalizing before with
  | last _ => exact nofun
  | @token pos layout behind t ts _ _ hstart _ ih =>
      have hfront : (before ++ layout).length = t.start := by
        rw [List.length_append, hbefore, hstart]
      have hstop : (before ++ layout ++ t.text).length = t.stop := by
        rw [List.length_append, hfront, Token.stop]
      intro u hu
      rcases List.mem_cons.1 hu with rfl | hu
      · rw [← List.append_assoc, ← List.append_assoc, List.length_append, hstop]
        refine ⟨Nat.le_add_right _ _, ?_⟩
        rw [← hstop, List.take_left, ← hfront, List.drop_left]
      · have hslice := ih hstop u hu
        simpa only [List.append_assoc] using hslice

end Covers

/-- Every text can be cut into tokens, and these cover it. Each stands in the text where it says,
and none overlaps another. -/
theorem tokens_cover (source : List Char) :
    ∃ ts, tokens source = .ok ts ∧ Covers 0 source ts ∧
      (∀ t ∈ ts, t.text ≠ [] ∧ t.stop ≤ source.length ∧
        (source.take t.stop).drop t.start = t.text) ∧
      ts.Pairwise fun t u => t.start < u.start ∧ t.stop ≤ u.start := by
  obtain ⟨ts, hts, -⟩ := exists_tokens source
  have hcovers : Covers 0 source ts := Lexer.covers_of_drain (l := .ofText source) hts
  have hslice := hcovers.slice_eq (show ([] : List Char).length = 0 from rfl)
  exact ⟨ts, hts, hcovers, fun t ht => ⟨hcovers.text_ne_nil t ht, hslice t ht⟩, hcovers.pairwise⟩

end Parens
