import Parens.Term.Equality

/-!
Equality of terms on a list of pending pairs against equality by recursion.
-/

namespace Parens.Term

theorem equalAll_eq_all (pending : List (Term × Term)) :
    equalAll pending = pending.all fun p => p.1.same p.2 := by
  fun_induction equalAll pending with
  | case1 => rfl
  | case2 rest a d b e ih => simp [ih, same, Bool.and_assoc]
  | case3 rest s t h ih => simp [ih, same]

theorem equal_eq_same (s t : Term) : s.equal t = s.same t := by
  simp [equal, equalAll_eq_all]

end Parens.Term
