import Parens.Proofs.Reader.Recursion
import Parens.Reader

/-!
The reader with frames against the reader by recursion. A frame is the return point of a call: to
run on from some open frames is to read a term by recursion and to hand what comes of it to these
frames. Failures are part of it, with the frame that reports them and the place where the cursor is
left.
-/

namespace Parens

/-- Where a frame is open, it has been pushed. -/
theorem Stack.exists_push {s : Stack} {frame : Frame} {frames : List Frame}
    (h : s.frames = frame :: frames) :
    ∃ outer : Stack, s = outer.push frame ∧ outer.frames = frames := by
  obtain ⟨_, depth, hdepth⟩ := s
  subst h
  subst hdepth
  exact ⟨⟨frames, frames.length, rfl⟩, rfl, rfl⟩

namespace Reader

/-- What a step leads to: the reader runs on, or it ends as the step says. -/
def resume (limit : Int) : Step → Except Failure (Option Term) × Lexer
  | .more s l => run limit s l
  | .done term l => (.ok term, l)
  | .fail e l => (.error e, l)

theorem run_eq_resume (limit : Int) (s : Stack) (l : Lexer) :
    run limit s l = resume limit (step limit s l) := by
  rw [run]
  split <;> simp_all only [resume]

/-- Hands what a call has come to to the open frames. -/
def handOver (limit : Int) (s : Stack) :
    Except Failure (Option Term) × Lexer → Except Failure (Option Term) × Lexer
  | (.ok term, l) => resume limit (settle term s l)
  | (.error e, l) => (.error e, l)

theorem settle_of_frames_eq_nil {s : Stack} (h : s.frames = []) (term : Option Term) (l : Lexer) :
    settle term s l = .done term l := by
  obtain ⟨_, depth, hdepth⟩ := s
  subst h
  rfl

variable (limit : Int) (s : Stack) (l : Lexer)

theorem settle_push_quote (t : Term) :
    settle (some t) (s.push .quote) l = settle (some t.quoted) s l := rfl

theorem settle_push_quote_none :
    settle none (s.push .quote) l = .fail (l.fault .termAfterQuote) l := rfl

theorem settle_push_list (t : Term) (items : List Term) :
    settle (some t) (s.push (.list items)) l = .more (s.push (.list (t :: items))) l := rfl

theorem settle_push_list_none (items : List Term) :
    settle none (s.push (.list items)) l =
      match l.next with
      | (.error e, l) => .fail e l
      | (.ok none, l) => .fail (l.fault .unclosed) l
      | (.ok (some token), l) =>
        match token.kind with
        | .dot => .more (s.push (.tail items)) l
        | .closing => settle (some (.ofList items.reverse .nil)) s l
        | _ => .fail (l.fault .closeExpected) l := rfl

theorem settle_push_tail (t : Term) (items : List Term) :
    settle (some t) (s.push (.tail items)) l =
      match close l with
      | (.ok (), l) => settle (some (.ofList items.reverse t)) s l
      | (.error e, l) => .fail e l := rfl

theorem settle_push_tail_none (items : List Term) :
    settle none (s.push (.tail items)) l = .fail (l.fault .termAfterDot) l := rfl

theorem isTooDeep_succ_iff {limit : Int} {n : Nat} :
    Descent.isTooDeep limit (n + 1) ↔ limit ≠ 0 ∧ limit < n + 1 := by
  simp [Descent.isTooDeep]

theorem resume_openFrame (frame : Frame) :
    resume limit (openFrame limit frame s l) =
      if Descent.isTooDeep limit (s.depth + 1) then (.error (l.fault (.tooDeep limit)), l)
      else run limit (s.push frame) l := by
  simp only [openFrame, isTooDeep_succ_iff]
  split <;> rfl

section

variable {limit : Int} {fuel : Nat}
  (ihTerm : ∀ s l, 2 * l.lexemes.length + 1 ≤ fuel →
    run limit s l = handOver limit s (Descent.readTerm limit fuel s.depth l))
  (ihItems : ∀ s items l, 2 * l.lexemes.length + 2 ≤ fuel →
    run limit (s.push (.list items)) l =
      handOver limit s (Descent.readItems limit fuel (s.depth + 1) items l))

include ihTerm

/-- The depth of a stack with one more frame is that of the call. -/
theorem run_push (frame : Frame) (s : Stack) {l : Lexer} (hf : 2 * l.lexemes.length + 1 ≤ fuel) :
    run limit (s.push frame) l =
      handOver limit (s.push frame) (Descent.readTerm limit fuel (s.depth + 1) l) :=
  ihTerm (s.push frame) l hf

include ihItems

theorem run_eq_handOver_readTerm_succ (s : Stack) (l : Lexer)
    (hf : 2 * l.lexemes.length + 1 ≤ fuel + 1) :
    run limit s l = handOver limit s (Descent.readTerm limit (fuel + 1) s.depth l) := by
  rw [run_eq_resume, step, Descent.readTerm]
  rcases l.next_cases with ⟨-, l', hnext, -⟩ | ⟨token, l', hnext, -, hcons⟩
  · rw [hnext]
    rfl
  · have hf' : 2 * l'.lexemes.length + 2 ≤ fuel := by
      rw [hcons, List.length_cons] at hf
      omega
    simp only [hnext, shift]
    cases token.kind with
    | opening =>
        simp only [resume_openFrame]
        split
        · rfl
        · exact ihItems s [] l' hf'
    | quote =>
        simp only [resume_openFrame]
        split
        · rfl
        · rw [run_push ihTerm .quote s (Nat.le_of_succ_le hf')]
          rcases Descent.readTerm limit fuel (s.depth + 1) l' with ⟨e | _ | t, l''⟩ <;> rfl
    | number => cases Number.Numeral.ofText? token.text <;> rfl
    | symbol => cases Term.ofWord token.text <;> rfl
    | closing | dot => simp only; cases l'.unread? token <;> rfl

theorem run_eq_handOver_readItems_succ (s : Stack) (items : List Term) (l : Lexer)
    (hf : 2 * l.lexemes.length + 2 ≤ fuel + 1) :
    run limit (s.push (.list items)) l =
      handOver limit s (Descent.readItems limit (fuel + 1) (s.depth + 1) items l) := by
  rw [run_push ihTerm (.list items) s (Nat.le_of_succ_le_succ hf), Descent.readItems]
  have hspends := (Descent.spends_descent limit fuel).1 (s.depth + 1) l
  generalize Descent.readTerm limit fuel (s.depth + 1) l = r at hspends ⊢
  rcases r with ⟨e | _ | t, l'⟩
  · rfl
  · simp only [handOver, settle_push_list_none]
    rcases l'.next_cases with ⟨-, l'', hnext, -⟩ | ⟨token, l'', hnext, -, hcons⟩
    · rw [hnext]
      rfl
    · have hf' : 2 * l''.lexemes.length + 1 ≤ fuel := by
        rw [← show l'.lexemes = l.lexemes from hspends, hcons, List.length_cons] at hf
        omega
      simp only [hnext]
      cases token.kind with
      | closing => rfl
      | dot =>
          simp only [resume]
          rw [run_push ihTerm (.tail items) s hf']
          rcases Descent.readTerm limit fuel (s.depth + 1) l'' with ⟨e | _ | t, l₃⟩
          · rfl
          · rfl
          · simp only [handOver, settle_push_tail]
            rcases close l₃ with ⟨e | _, l₄⟩ <;> rfl
      | opening | quote | number | symbol => rfl
  · simp only [Descent.Spends] at hspends
    exact ihItems s (t :: items) l' (by omega)

end

theorem run_eq_handOver (limit : Int) (fuel : Nat) :
    (∀ s l, 2 * l.lexemes.length + 1 ≤ fuel →
      run limit s l = handOver limit s (Descent.readTerm limit fuel s.depth l)) ∧
    ∀ s items l, 2 * l.lexemes.length + 2 ≤ fuel →
      run limit (s.push (.list items)) l =
        handOver limit s (Descent.readItems limit fuel (s.depth + 1) items l) := by
  induction fuel with
  | zero => exact ⟨fun _ _ hf => by omega, fun _ _ _ hf => by omega⟩
  | succ fuel ih =>
      exact ⟨run_eq_handOver_readTerm_succ ih.1 ih.2, run_eq_handOver_readItems_succ ih.1 ih.2⟩

theorem run_empty_eq_readTerm {limit : Int} {fuel : Nat} {l : Lexer}
    (hf : 2 * l.lexemes.length + 1 ≤ fuel) :
    run limit .empty l = Descent.readTerm limit fuel 0 l := by
  rw [(run_eq_handOver limit fuel).1 .empty l hf]
  change handOver limit .empty (Descent.readTerm limit fuel 0 l) = _
  rcases Descent.readTerm limit fuel 0 l with ⟨e | t, l'⟩ <;> rfl

/-- Whatever is read from wherever, the two readers come to the same and leave the cursor at the
same place, and the one by recursion never lacks fuel. -/
theorem readTerm_eq_descent (r : Reader) :
    (r.readTerm.1, r.readTerm.2.lexer) = Descent.read r.limit r.lexer ∧
      (∀ fuel, 2 * r.lexer.remaining + 2 ≤ fuel →
        Descent.readTerm r.limit fuel 0 r.lexer = Descent.read r.limit r.lexer) ∧
      (Descent.read r.limit r.lexer).1 ≠ .error .exhausted := by
  have hlength : r.lexer.lexemes.length ≤ r.lexer.remaining :=
    length_lexemes_le r.lexer.cursor.after
  have hread : ∀ fuel, 2 * r.lexer.remaining + 2 ≤ fuel →
      Descent.readTerm r.limit fuel 0 r.lexer = run r.limit .empty r.lexer :=
    fun fuel hf => (run_empty_eq_readTerm (by omega)).symm
  refine ⟨(hread _ (Nat.le_refl _)).symm, fun fuel hf => ?_, ?_⟩
  · rw [hread fuel hf, Descent.read, hread _ (Nat.le_refl _)]
  · have hspends := (Descent.spends_descent r.limit (2 * r.lexer.remaining + 2)).1 0 r.lexer
    rw [Descent.read]
    generalize Descent.readTerm r.limit (2 * r.lexer.remaining + 2) 0 r.lexer = read at hspends ⊢
    rcases read with ⟨e | term, l⟩
    · obtain ⟨p, rfl⟩ := hspends (by omega)
      exact nofun
    · exact nofun

end Reader
end Parens
