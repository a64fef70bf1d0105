import Parens.Term.Basic

/-!
Sizes of terms. A list is as large as its items together, a pair for each of them, and its tail.
-/

namespace Parens.Term

theorem size_eq_one {t : Term} (h : t.kind ≠ .cons) : t.size = 1 := by
  cases t with
  | nil | number _ | symbol _ | procedure _ => rfl
  | cons a d => exact absurd rfl h

theorem totalSize_append (ts us : List Term) :
    totalSize (ts ++ us) = totalSize ts + totalSize us := by
  induction ts with
  | nil => exact (Nat.zero_add _).symm
  | cons t ts ih => rw [List.cons_append, totalSize, totalSize, ih, Nat.add_assoc]

theorem size_ofList (items : List Term) (tail : Term) :
    (ofList items tail).size = totalSize items + items.length + tail.size := by
  induction items with
  | nil => simp [totalSize]
  | cons a items ih =>
      rw [ofList_cons, size_cons, ih, totalSize, List.length_cons]
      omega

theorem items_eq_nil {t : Term} (h : t.kind ≠ .cons) : t.items = [] := by
  cases t with
  | cons _ _ => exact absurd rfl h
  | nil | number _ | symbol _ | procedure _ => rfl

theorem items_ofList_append (items : List Term) (tail : Term) :
    (ofList items tail).items = items ++ tail.items := by
  induction items with
  | nil => rfl
  | cons t items ih => rw [ofList_cons, Parens.Term.items, ih, List.cons_append]

theorem items_ofList (items : List Term) {tail : Term} (h : tail.kind ≠ .cons) :
    (ofList items tail).items = items := by
  rw [items_ofList_append, items_eq_nil h, List.append_nil]

theorem size_eq_items (t : Term) : t.size = totalSize t.items + t.items.length + t.tail.size := by
  induction t with
  | nil | number _ | symbol _ | procedure _ => rfl
  | cons a d _ ih =>
      rw [size_cons, items, tail, totalSize, List.length_cons, ih]
      omega

theorem size_le_totalSize {t : Term} {ts : List Term} (h : t ∈ ts) : t.size ≤ totalSize ts := by
  induction ts with
  | nil => cases h
  | cons u ts ih =>
      rw [totalSize]
      cases List.mem_cons.1 h with
      | inl heq => exact heq ▸ Nat.le_add_right _ _
      | inr hmem => exact Nat.le_trans (ih hmem) (Nat.le_add_left _ _)

end Parens.Term
