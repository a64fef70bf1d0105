import Parens.Term.Basic
import Parens.Token.Lexer

/-!
Reading one term without recursion on its depth. Quotes and lists that are still open wait on a
stack of frames, the innermost first. Every token either opens a frame or settles the open ones with
a term or with the absence of one, so that every step uses up a token for good.
-/

namespace Parens

/-- An open quote or list. The items of a list are kept with the latest first. -/
inductive Frame where
  | quote
  | list (items : List Term)
  /-- A list after its point, which waits for its tail. -/
  | tail (items : List Term)

/-- Open frames, the innermost first, and how many there are. -/
structure Stack where
  frames : List Frame
  depth : Nat
  depth_eq : depth = frames.length

namespace Stack

def empty : Stack := ⟨[], 0, List.length_nil.symm⟩

def push (frame : Frame) (s : Stack) : Stack where
  frames := frame :: s.frames
  depth := s.depth + 1
  depth_eq := by rw [s.depth_eq, List.length_cons]

end Stack

/-- What comes of a token: more tokens are needed, a term or its absence is settled, or reading
fails. -/
inductive Step where
  | more (stack : Stack) (lexer : Lexer)
  | done (term : Option Term) (lexer : Lexer)
  | fail (failure : Failure) (lexer : Lexer)

namespace Step

def lexer : Step → Lexer
  | more _ l | done _ l | fail _ l => l

end Step

/-- The term that a word stands for: the empty list if it is called nil, else a symbol. -/
def Term.ofWord (text : List Char) : Except Failure Term :=
  match Name.ofText text with
  | .ok name => .ok (if name.text = ['n', 'i', 'l'] then .nil else .symbol name)
  | .error e => .error e

theorem Term.ofWord_of_ne_nil {word : List Char} (h : word ≠ []) :
    ofWord word = .ok (if Text.lower word = ['n', 'i', 'l'] then .nil
      else .symbol ⟨Text.lower word, mt Text.lower_eq_nil_iff.1 h, Text.lower_lower word⟩) := by
  simp only [ofWord, Name.ofText, Name.ofText?, dif_neg h]

namespace Reader

/-- Reads the parenthesis behind the tail of a dotted list. -/
def close (l : Lexer) : Except Failure Unit × Lexer :=
  match l.next with
  | (.error e, l) => (.error e, l)
  | (.ok none, l) => (.error (l.fault .unclosed), l)
  | (.ok (some token), l) =>
    (if token.kind = .closing then .ok () else .error (l.fault .closeExpected), l)

/-- Hands a term, or its absence, to the innermost of so many frames. A quote and the tail of a list
are complete with a term. A list takes one more item, and without one it has to end or to go on with
a point. -/
def settleFrames :
    Option Term → (frames : List Frame) → (depth : Nat) → depth = frames.length → Lexer → Step
  | term, [], _, _, l => .done term l
  | some t, .quote :: frames, depth, h, l =>
    settleFrames (some t.quoted) frames (depth - 1) (Nat.sub_eq_of_eq_add h) l
  | none, .quote :: _, _, _, l => .fail (l.fault .termAfterQuote) l
  | some t, .tail items :: frames, depth, h, l =>
    match close l with
    | (.ok (), l) =>
      settleFrames (some (.ofList items.reverse t)) frames (depth - 1) (Nat.sub_eq_of_eq_add h) l
    | (.error e, l) => .fail e l
  | none, .tail _ :: _, _, _, l => .fail (l.fault .termAfterDot) l
  | some t, .list items :: frames, depth, h, l => .more ⟨.list (t :: items) :: frames, depth, h⟩ l
  | none, .list items :: frames, depth, h, l =>
    match l.next with
    | (.error e, l) => .fail e l
    | (.ok none, l) => .fail (l.fault .unclosed) l
    | (.ok (some token), l) =>
      match token.kind with
      | .dot => .more ⟨.tail items :: frames, depth, h⟩ l
      | .closing =>
        settleFrames (some (.ofList items.reverse .nil)) frames (depth - 1)
          (Nat.sub_eq_of_eq_add h) l
      | _ => .fail (l.fault .closeExpected) l

def settle (term : Option Term) (s : Stack) (l : Lexer) : Step :=
  settleFrames term s.frames s.depth s.depth_eq l

/-- Opens a frame, unless that makes more of them than the limit allows. A limit of zero is none. -/
def openFrame (limit : Int) (frame : Frame) (s : Stack) (l : Lexer) : Step :=
  if limit ≠ 0 ∧ limit < s.depth + 1 then .fail (l.fault (.tooDeep limit)) l
  else .more (s.push frame) l

/-- Uses a token that was just read. One that cannot begin a term is pushed back, for the innermost
frame or for the caller to look at. -/
def shift (limit : Int) (token : Token) (s : Stack) (l : Lexer) : Step :=
  match token.kind with
  | .opening => openFrame limit (.list []) s l
  | .quote => openFrame limit .quote s l
  | .number =>
    match Number.Numeral.ofText? token.text with
    | some n => settle (some (.number n.toFloat)) s l
    | none => .fail (.malformedNumeral token.text) l
  | .symbol =>
    match Term.ofWord token.text with
    | .ok t => settle (some t) s l
    | .error e => .fail e l
  | .closing | .dot =>
    match l.unread? token with
    | some l => settle none s l
    | none => .fail .staleToken l

def step (limit : Int) (s : Stack) (l : Lexer) : Step :=
  match l.next with
  | (.error e, l) => .fail e l
  | (.ok none, l) => settle none s l
  | (.ok (some token), l) => shift limit token s l

theorem remaining_close_le (l : Lexer) : (close l).2.remaining ≤ l.remaining := by
  have h := l.remaining_next_le
  unfold close
  split <;> simp_all

theorem remaining_settleFrames_le (term : Option Term) (frames : List Frame) (depth : Nat)
    (h : depth = frames.length) (l : Lexer) :
    (settleFrames term frames depth h l).lexer.remaining ≤ l.remaining := by
  induction frames generalizing term depth l with
  | nil => cases term <;> exact Nat.le_refl _
  | cons frame frames ih =>
    cases term with
    | some t =>
      cases frame with
      | quote => exact ih (some t.quoted) _ _ l
      | list items => exact Nat.le_refl _
      | tail items =>
        have hl := remaining_close_le l
        simp only [settleFrames]
        split
        · rename_i l' heq
          rw [heq] at hl
          exact Nat.le_trans (ih _ _ _ l') hl
        · rename_i heq
          rw [heq] at hl
          exact hl
    | none =>
      cases frame with
      | quote => exact Nat.le_refl _
      | tail items => exact Nat.le_refl _
      | list items =>
        have hl := l.remaining_next_le
        simp only [settleFrames]
        split
        · simp_all [Step.lexer]
        · simp_all [Step.lexer]
        · rename_i token l' heq
          rw [heq] at hl
          split
          · exact hl
          · exact Nat.le_trans (ih _ _ _ l') hl
          · exact hl

theorem remaining_settle_le (term : Option Term) (s : Stack) (l : Lexer) :
    (settle term s l).lexer.remaining ≤ l.remaining :=
  remaining_settleFrames_le term s.frames s.depth s.depth_eq l

/-- Without a term, settling uses up a token, or it comes to an end with nothing settled. -/
theorem settle_none_cases (s : Stack) (l : Lexer) :
    settle none s l = .done none l ∨ (∃ e l', settle none s l = .fail e l') ∨
      (settle none s l).lexer.remaining < l.remaining := by
  obtain ⟨frames, depth, h⟩ := s
  cases frames with
  | nil => exact .inl rfl
  | cons frame frames =>
    cases frame with
    | quote => exact .inr (.inl ⟨_, _, rfl⟩)
    | tail items => exact .inr (.inl ⟨_, _, rfl⟩)
    | list items =>
      right
      simp only [settle, settleFrames]
      split
      · exact .inl ⟨_, _, rfl⟩
      · exact .inl ⟨_, _, rfl⟩
      · rename_i token l' heq
        have hl := Lexer.remaining_next_lt heq
        split
        · exact .inr hl
        · exact .inr (Nat.lt_of_le_of_lt (remaining_settleFrames_le _ frames _ _ l') hl)
        · exact .inl ⟨_, _, rfl⟩

/-- Every step that does not come to an end, or that settles a term, uses up a token. -/
theorem step_cases (limit : Int) (s : Stack) (l : Lexer) :
    (∃ l', step limit s l = .done none l' ∧ l'.remaining ≤ l.remaining) ∨
      (∃ e l', step limit s l = .fail e l' ∧ l'.remaining ≤ l.remaining) ∨
      (step limit s l).lexer.remaining < l.remaining := by
  have hle := l.remaining_next_le
  have key : ∀ l' : Lexer, l'.remaining ≤ l.remaining →
      (∃ l'', settle none s l' = .done none l'' ∧ l''.remaining ≤ l.remaining) ∨
        (∃ e l'', settle none s l' = .fail e l'' ∧ l''.remaining ≤ l.remaining) ∨
        (settle none s l').lexer.remaining < l.remaining := by
    intro l' h
    have hs := remaining_settle_le none s l'
    rcases settle_none_cases s l' with h' | ⟨e, l'', h'⟩ | h'
    · exact .inl ⟨l', h', h⟩
    · rw [h'] at hs
      exact .inr (.inl ⟨e, l'', h', Nat.le_trans hs h⟩)
    · exact .inr (.inr (Nat.lt_of_lt_of_le h' h))
  unfold step
  split
  · rename_i e l' heq
    rw [heq] at hle
    exact .inr (.inl ⟨e, l', rfl, hle⟩)
  · rename_i l' heq
    rw [heq] at hle
    exact key l' hle
  · rename_i token l' heq
    have hlt := Lexer.remaining_next_lt heq
    have hopen : ∀ frame, (openFrame limit frame s l').lexer = l' := by
      intro frame
      unfold openFrame
      split <;> rfl
    have hterm : ∀ t, (settle (some t) s l').lexer.remaining < l.remaining :=
      fun t => Nat.lt_of_le_of_lt (remaining_settle_le _ s l') hlt
    unfold shift
    split
    · exact .inr (.inr (by rw [hopen]; exact hlt))
    · exact .inr (.inr (by rw [hopen]; exact hlt))
    · split
      · exact .inr (.inr (hterm _))
      · exact .inr (.inr hlt)
    · split
      · exact .inr (.inr (hterm _))
      · exact .inr (.inr hlt)
    all_goals
      split
      · rename_i l'' hu
        exact key l'' (Lexer.remaining_unread?_le heq hu)
      · exact .inr (.inr hlt)

theorem remaining_lt_of_step_eq_more {limit : Int} {s s' : Stack} {l l' : Lexer}
    (h : step limit s l = .more s' l') : l'.remaining < l.remaining := by
  rcases step_cases limit s l with ⟨_, h', -⟩ | ⟨_, _, h', -⟩ | h'
  · rw [h] at h'
    cases h'
  · rw [h] at h'
    cases h'
  · rw [h] at h'
    exact h'

def run (limit : Int) (s : Stack) (l : Lexer) : Except Failure (Option Term) × Lexer :=
  match _h : step limit s l with
  | .more s l => run limit s l
  | .done term l => (.ok term, l)
  | .fail e l => (.error e, l)
termination_by l.remaining
decreasing_by exact remaining_lt_of_step_eq_more _h

theorem remaining_run_le (limit : Int) (s : Stack) (l : Lexer) :
    (run limit s l).2.remaining ≤ l.remaining := by
  fun_induction run limit s l with
  | case1 s l s' l' h ih =>
    exact Nat.le_trans ih (Nat.le_of_lt (remaining_lt_of_step_eq_more h))
  | case2 s l term l' h =>
    rcases step_cases limit s l with ⟨_, h', hle⟩ | ⟨_, _, h', -⟩ | h'
    · rw [h] at h'
      cases h'
      exact hle
    · rw [h] at h'
      cases h'
    · rw [h] at h'
      exact Nat.le_of_lt h'
  | case3 s l e l' h =>
    rcases step_cases limit s l with ⟨_, h', -⟩ | ⟨_, _, h', hle⟩ | h'
    · rw [h] at h'
      cases h'
    · rw [h] at h'
      cases h'
      exact hle
    · rw [h] at h'
      exact Nat.le_of_lt h'

theorem remaining_run_lt {limit : Int} {s : Stack} {l l' : Lexer} {t : Term}
    (h : run limit s l = (.ok (some t), l')) : l'.remaining < l.remaining := by
  unfold run at h
  split at h
  · rename_i s' l'' hs
    have hle := remaining_run_le limit s' l''
    rw [h] at hle
    exact Nat.lt_of_le_of_lt hle (remaining_lt_of_step_eq_more hs)
  · rename_i term l'' hs
    cases h
    rcases step_cases limit s l with ⟨_, h', -⟩ | ⟨_, _, h', -⟩ | h'
    · rw [hs] at h'
      cases h'
    · rw [hs] at h'
      cases h'
    · rw [hs] at h'
      exact h'
  · cases h

end Reader
end Parens
