import Parens.Proofs.Reader.Forward
import Parens.Proofs.Reader.Grammar

/-!
What the limit does. The reader with a limit takes the steps of the reader without one, up to the
step that opens one quote or list more than the limit allows, and there it fails. How many are open
is told by the lexemes alone, so whether the limit is met does not depend on how the frames are
kept. Below the limit nothing changes, so what is read under one limit is read under any higher one.
-/

namespace Parens

namespace Reader

/-- The reader with another limit. -/
def within (limit : Int) (r : Reader) : Reader := { r with limit }

/-- The states that the reader passes through. -/
inductive Passes (limit : Int) (s : Stack) (l : Lexer) : Stack → Lexer → Prop
  | start : Passes limit s l s l
  | step {s₁ s₂ : Stack} {l₁ l₂ : Lexer} : Passes limit s l s₁ l₁ →
      Reader.step limit s₁ l₁ = .more s₂ l₂ → Passes limit s l s₂ l₂

variable {limit : Int} {c : Cursor} {os : List Opened} {s s' : Stack} {l l' : Lexer}

theorem Passes.head {s₁ : Stack} {l₁ : Lexer} (hstep : Reader.step limit s l = .more s₁ l₁)
    (h : Passes limit s₁ l₁ s' l') : Passes limit s l s' l' := by
  induction h with
  | start => exact .step .start hstep
  | step _ hstep' ih => exact .step ih hstep'

/-- What the states are that the reader passes through. -/
theorem Passes.exists_reached (h : Passes limit .empty l s' l') :
    ∃ os, Reached limit l.cursor os s' l' := by
  induction h with
  | start => exact ⟨[], reached_empty limit l⟩
  | step _ hstep ih =>
      obtain ⟨os, hreached⟩ := ih
      have hprogress := hreached.step
      rw [hstep] at hprogress
      cases hprogress with
      | more os' hreached' => exact ⟨os', hreached'⟩

/-- A step under a limit is the step without one, or it fails as that one leads to where too many
are open. -/
def CutsOff (limit : Int) (unlimited limited : Step) : Prop :=
  limited = unlimited ∨ ∃ s l, unlimited = .more s l ∧ Descent.isTooDeep limit s.depth ∧
    limited = .fail (l.fault (.tooDeep limit)) l

/-- The limit is looked at only where a frame is opened. -/
theorem cutsOff_openFrame (limit : Int) (frame : Frame) (s : Stack) (l : Lexer) :
    CutsOff limit (openFrame 0 frame s l) (openFrame limit frame s l) := by
  have hunlimited : openFrame 0 frame s l = .more (s.push frame) l := if_neg fun h => h.1 rfl
  by_cases h : limit ≠ 0 ∧ limit < s.depth + 1
  · exact .inr ⟨_, l, hunlimited, isTooDeep_succ_iff.2 h, if_pos h⟩
  · exact .inl ((if_neg h).trans hunlimited.symm)

theorem cutsOff_step (limit : Int) (s : Stack) (l : Lexer) :
    CutsOff limit (step 0 s l) (step limit s l) := by
  rcases hnext : l.next with ⟨e | _ | token, l'⟩
  · exact .inl (by simp only [step, hnext])
  · exact .inl (by simp only [step, hnext])
  · simp only [step, hnext, shift]
    cases token.kind with
    | opening | quote => exact cutsOff_openFrame limit _ s l'
    | number | symbol | closing | dot => exact .inl rfl

/-- The reader with a limit comes to what the reader without one comes to, unless that one passes
through a state in which too many are open. -/
theorem run_limit_cases (limit : Int) (s : Stack) (l : Lexer) :
    run limit s l = run 0 s l ∨
      ∃ s' l', Passes 0 s l s' l' ∧ Descent.isTooDeep limit s'.depth ∧
        run limit s l = (.error (l'.fault (.tooDeep limit)), l') := by
  fun_induction run 0 s l with
  | case1 s l s' l' hstep ih =>
      rcases cutsOff_step limit s l with heq | ⟨s'', l'', hstep', hdeep, hfail⟩
      · rw [run_eq_resume, heq, hstep, resume]
        rcases ih with hsame | ⟨s'', l'', hpasses, hcut⟩
        · exact .inl hsame
        · exact .inr ⟨s'', l'', hpasses.head hstep, hcut⟩
      · refine .inr ⟨s'', l'', .step .start hstep', hdeep, ?_⟩
        rw [run_eq_resume, hfail, resume]
  | case2 s l term l' hstep =>
      rcases cutsOff_step limit s l with heq | ⟨s'', l'', hstep', -⟩
      · rw [run_eq_resume, heq, hstep, resume]
        exact .inl rfl
      · rw [hstep] at hstep'
        cases hstep'
  | case3 s l e l' hstep =>
      rcases cutsOff_step limit s l with heq | ⟨s'', l'', hstep', -⟩
      · rw [run_eq_resume, heq, hstep, resume]
        exact .inl rfl
      · rw [hstep] at hstep'
        cases hstep'

/-- Where the text opens too many, the reader is cut off on the way there. -/
theorem cutOff_of_isTooDeep {os : List Opened} {n : Nat} (hos : Opened.spelling os <+: l.lexemes)
    (hlength : os.length = n + 1) (hdeep : Descent.isTooDeep limit (n + 1)) :
    CutOff limit .empty l (Opened.spelling os) := by
  obtain ⟨behind, hbehind⟩ := hos
  rcases exists_reached limit hbehind.symm with ⟨s, l', hreached, -⟩ | hcut
  · have hwithin := hreached.within n (by omega)
    rw [hdeep] at hwithin
    cases hwithin
  · exact hcut

/-- So the reader is cut off if and only if the text opens too many. -/
theorem run_eq_tooDeep_iff : (∃ l', run limit .empty l = (.error (l'.fault (.tooDeep limit)), l')) ↔
    ∃ n, Opens l.lexemes (n + 1) ∧ Descent.isTooDeep limit (n + 1) := by
  constructor
  · rintro ⟨l', hrun⟩
    obtain ⟨-, os, x, hreads, hkind, -, hdeep⟩ := exists_of_run_eq_tooDeep hrun
    exact ⟨os.length, (opens_succ hkind).of_isPrefix (Lexer.isPrefix_of_reads hreads), hdeep⟩
  · rintro ⟨n, ⟨os, hlength, hos⟩, hdeep⟩
    obtain ⟨-, l', -, -, hrun⟩ := cutOff_of_isTooDeep hos hlength hdeep
    exact ⟨l', hrun⟩

section

variable {d : Nat} (hd : 0 < d)
include hd

theorem isTooDeep_iff {n : Nat} : Descent.isTooDeep d n ↔ d < n := by
  have hne : d ≠ 0 := Nat.ne_of_gt hd
  simp [Descent.isTooDeep, hne]

theorem run_eq_tooDeep_iff_opens :
    (∃ l', run d .empty l = (.error (l'.fault (.tooDeep d)), l')) ↔
      ∃ n, d < n ∧ Opens l.lexemes n := by
  rw [run_eq_tooDeep_iff]
  constructor
  · rintro ⟨n, hopens, hdeep⟩
    exact ⟨n + 1, (isTooDeep_iff hd).1 hdeep, hopens⟩
  · rintro ⟨n, hlt, hopens⟩
    obtain ⟨n, rfl⟩ := Nat.exists_eq_succ_of_ne_zero (Nat.ne_zero_of_lt hlt)
    exact ⟨n, hopens, (isTooDeep_iff hd).2 hlt⟩

theorem run_eq_of_opens_le (h : ∀ n, Opens l.lexemes n → n ≤ d) :
    run d .empty l = run 0 .empty l := by
  rcases run_limit_cases d .empty l with heq | ⟨-, l', -, -, hrun⟩
  · exact heq
  · obtain ⟨n, hlt, hopens⟩ := (run_eq_tooDeep_iff_opens hd).1 ⟨l', hrun⟩
    exact absurd (h n hopens) (Nat.not_le.2 hlt)

end

theorem readTerm_within_eq (r : Reader) (limit : Int) : (r.within limit).readTerm =
    ((run limit .empty r.lexer).1, ⟨(run limit .empty r.lexer).2, limit⟩) := rfl

/-- What is read under a limit is read without one and under any higher one, with the same left
over. -/
theorem readTerm_within_of_ok {r r' : Reader} {d : Nat} {term : Option Term} (hd : 0 < d)
    (h : (r.within d).readTerm = (.ok term, r')) :
    (r.within 0).readTerm = (.ok term, r'.within 0) ∧
      ∀ d' : Nat, d ≤ d' → (r.within d').readTerm = (.ok term, r'.within d') := by
  have hle : ∀ n, Opens r.lexemes n → n ≤ d := by
    intro n hopens
    rw [← Nat.not_lt]
    intro hlt
    obtain ⟨l, hrun⟩ := (run_eq_tooDeep_iff_opens hd).2 ⟨n, hlt, hopens⟩
    rw [readTerm_within_eq, hrun] at h
    cases h
  have hrun : ∀ d' : Nat, d ≤ d' → run d' .empty r.lexer = run 0 .empty r.lexer := fun d' hd' =>
    run_eq_of_opens_le (hd.trans_le hd') fun n hopens => (hle n hopens).trans hd'
  rw [readTerm_within_eq, hrun d (Nat.le_refl d)] at h
  obtain ⟨hterm, rfl⟩ := Prod.mk.inj h
  refine ⟨by rw [readTerm_within_eq, hterm]; rfl, fun d' hd' => ?_⟩
  rw [readTerm_within_eq, hrun d' hd', hterm]
  rfl

end Reader

/-- A text that holds a term under a limit holds it without one and under any higher one. -/
theorem parse_of_limit_le {source : List Char} {term : Option Term} {d : Nat} (hd : 0 < d)
    (h : parse source d = .ok term) :
    parse source 0 = .ok term ∧ ∀ d' : Nat, d ≤ d' → parse source d' = .ok term := by
  have hsource : ∀ limit, Reader.ofText source limit = (Reader.ofText source 0).within limit :=
    fun _ => rfl
  rcases hread : (Reader.ofText source d).readTerm with ⟨e | term', r⟩
  · rw [parse, hread] at h
    cases h
  · rw [hsource] at hread
    obtain ⟨hzero, hhigher⟩ := Reader.readTerm_within_of_ok hd hread
    have hparse : ∀ limit, ((Reader.ofText source 0).within limit).readTerm =
        (.ok term', r.within limit) → parse source limit = .ok term := by
      intro limit hlimit
      rw [parse, hsource d, hread] at h
      rw [parse, hsource, hlimit]
      exact h
    exact ⟨hparse 0 hzero, fun d' hd' => hparse d' (hhigher d' hd')⟩

end Parens
