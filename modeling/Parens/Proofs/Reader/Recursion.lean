import Parens.Proofs.Token.Lexing
import Parens.Reader.Descent

/-!
How much fuel the reader by recursion needs. A term uses up lexemes, and where there is none, none
has been used up. So fuel for each lexeme that is left will do, and with that much a call can only
fail by the text.
-/

namespace Parens

theorem Lexeme.Proper.exists_numeral {x : Lexeme} (h : x.Proper) (hk : x.kind = .number) :
    ∃ n, Number.Numeral.ofText? x.text = some n := by
  cases h with
  | opening | closing | quote => cases hk
  | @run text _ _ _ =>
      apply Option.isSome_iff_exists.1
      by_contra hnone
      simp only [Token.Kind.ofRun, hnone] at hk
      split at hk <;> cases hk

theorem Lexeme.Proper.exists_word {x : Lexeme} (h : x.Proper) (hk : x.kind = .symbol) :
    ∃ t, Term.ofWord x.text = .ok t := by
  cases h with
  | opening | closing | quote => cases hk
  | run hne _ _ => exact ⟨_, Term.ofWord_of_ne_nil hne⟩

namespace Descent

/-- A call fails by the text that it reads only, if it has ample fuel. -/
def FailsBy (ample : Prop) (e : Failure) : Prop := ample → ∃ p, e = .parse p

theorem FailsBy.mono {ample ample' : Prop} {e : Failure} (h : FailsBy ample e)
    (himp : ample' → ample) : FailsBy ample' e := h ∘ himp

theorem failsBy_fault (ample : Prop) (l : Lexer) (reason : Reason) :
    FailsBy ample (l.fault reason) := fun _ => ⟨_, rfl⟩

/-- What a call that reads a term does to the lexemes that are left, with so much fuel. -/
def Spends (fuel : Nat) (l : Lexer) : Except Failure (Option Term) × Lexer → Prop
  | (.ok (some _), l') => l'.lexemes.length < l.lexemes.length
  | (.ok none, l') => l'.lexemes = l.lexemes
  | (.error e, _) => FailsBy (2 * l.lexemes.length + 1 ≤ fuel) e

/-- What a call that reads the rest of a list does to them. -/
def SpendsItems (fuel : Nat) (l : Lexer) : Except Failure (Option Term) × Lexer → Prop
  | (.ok (some _), l') => l'.lexemes.length < l.lexemes.length
  | (.ok none, _) => False
  | (.error e, _) => FailsBy (2 * l.lexemes.length + 2 ≤ fuel) e

/-- Behind the tail of a list there is a parenthesis, or reading fails. -/
theorem close_cases (l : Lexer) :
    (∃ l' : Lexer, Reader.close l = (.ok (), l') ∧ l.lexemes.length = l'.lexemes.length + 1) ∨
    ∃ reason l', Reader.close l = (.error (Lexer.fault l' reason), l') := by
  unfold Reader.close
  rcases l.next_cases with ⟨-, l', hnext, -⟩ | ⟨token, l', hnext, -, hcons⟩
  · exact .inr ⟨_, l', by rw [hnext]⟩
  · by_cases hk : token.kind = .closing
    · exact .inl ⟨l', by simp only [hnext, hk, if_true], by rw [hcons, List.length_cons]⟩
    · exact .inr ⟨.closeExpected, l', by simp only [hnext, hk, if_false]⟩

section

variable {limit : Int} {fuel : Nat}
  (ihTerm : ∀ depth l, Spends fuel l (readTerm limit fuel depth l))
  (ihItems : ∀ depth items l, SpendsItems fuel l (readItems limit fuel depth items l))

include ihTerm ihItems

theorem spends_readTerm_succ (depth : Nat) (l : Lexer) :
    Spends (fuel + 1) l (readTerm limit (fuel + 1) depth l) := by
  rw [readTerm]
  rcases l.next_cases with ⟨hnil, l', hnext, hnil'⟩ | ⟨token, l', hnext, hproper, hcons⟩
  · rw [hnext]
    exact hnil'.trans hnil.symm
  · have hlength : l.lexemes.length = l'.lexemes.length + 1 := by rw [hcons, List.length_cons]
    simp only [hnext]
    cases hk : token.kind with
    | opening =>
        simp only
        split
        · exact failsBy_fault _ _ _
        · have hitems := ihItems (depth + 1) [] l'
          generalize readItems limit fuel (depth + 1) [] l' = r at hitems ⊢
          rcases r with ⟨e | _ | t, l''⟩
          · exact FailsBy.mono hitems fun hf => by omega
          · exact hitems.elim
          · simp only [Spends, SpendsItems] at hitems ⊢
            omega
    | quote =>
        simp only
        split
        · exact failsBy_fault _ _ _
        · have hterm := ihTerm (depth + 1) l'
          generalize readTerm limit fuel (depth + 1) l' = r at hterm ⊢
          rcases r with ⟨e | _ | t, l''⟩
          · exact FailsBy.mono hterm fun hf => by omega
          · exact failsBy_fault _ _ _
          · simp only [Spends] at hterm ⊢
            omega
    | number =>
        obtain ⟨n, hn⟩ := hproper.exists_numeral hk
        have hn' : Number.Numeral.ofText? token.text = some n := hn
        simp only [hn', Spends]
        omega
    | symbol =>
        obtain ⟨t, ht⟩ := hproper.exists_word hk
        have ht' : Term.ofWord token.text = .ok t := ht
        simp only [ht', Except.map, Spends]
        omega
    | closing | dot =>
        obtain ⟨l'', hunread, hlex⟩ := Lexer.unread?_cases hnext
        simp only [hunread]
        exact hlex

theorem spendsItems_readItems_succ (depth : Nat) (items : List Term) (l : Lexer) :
    SpendsItems (fuel + 1) l (readItems limit (fuel + 1) depth items l) := by
  rw [readItems]
  have hterm := ihTerm depth l
  generalize readTerm limit fuel depth l = r at hterm ⊢
  rcases r with ⟨e | _ | t, l'⟩
  · exact FailsBy.mono hterm fun hf => by omega
  · have hlex : l'.lexemes = l.lexemes := hterm
    simp only
    rcases l'.next_cases with ⟨-, l'', hnext, -⟩ | ⟨token, l'', hnext, -, hcons⟩
    · rw [hnext]
      exact failsBy_fault _ _ _
    · have hlength : l.lexemes.length = l''.lexemes.length + 1 := by
        rw [← hlex, hcons, List.length_cons]
      simp only [hnext]
      cases token.kind with
      | closing =>
          simp only [SpendsItems]
          omega
      | dot =>
          simp only
          have htail := ihTerm depth l''
          generalize readTerm limit fuel depth l'' = r at htail ⊢
          rcases r with ⟨e | _ | t, l₃⟩
          · exact FailsBy.mono htail fun hf => by omega
          · exact failsBy_fault _ _ _
          · rcases close_cases l₃ with ⟨l₄, hclose, hright⟩ | ⟨reason, l₄, hclose⟩
            · simp only [Spends] at htail
              simp only [hclose, SpendsItems]
              omega
            · simp only [hclose]
              exact failsBy_fault _ _ _
      | opening | quote | number | symbol => exact failsBy_fault _ _ _
  · simp only [Spends] at hterm
    have hitems := ihItems depth (t :: items) l'
    simp only
    generalize readItems limit fuel depth (t :: items) l' = r at hitems ⊢
    rcases r with ⟨e | _ | u, l''⟩
    · exact FailsBy.mono hitems fun hf => by omega
    · exact hitems
    · simp only [SpendsItems] at hitems ⊢
      omega

end

theorem spends_descent (limit : Int) (fuel : Nat) :
    (∀ depth l, Spends fuel l (readTerm limit fuel depth l)) ∧
      ∀ depth items l, SpendsItems fuel l (readItems limit fuel depth items l) := by
  induction fuel with
  | zero => exact ⟨fun _ _ hf => by omega, fun _ _ _ hf => by omega⟩
  | succ fuel ih => exact ⟨spends_readTerm_succ ih.1 ih.2, spendsItems_readItems_succ ih.1 ih.2⟩

end Descent
end Parens
