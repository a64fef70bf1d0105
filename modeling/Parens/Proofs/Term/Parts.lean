import Parens.Proofs.Term.Matching
import Parens.Term.Parts

/-!
Terms as sequences of parts. What follows the parts of a term can be told from them, since a mark
announces two terms and an atom none. So terms are equal if and only if their parts are equal one by
one, and equal terms have equal hashes.
-/

namespace Parens

namespace Part

/-- The atom that a part is, unless it is the mark of a pair. -/
def atom? : Part → Option Term
  | pair => none
  | nil => some .nil
  | number x => some (.number x)
  | symbol a => some (.symbol a)
  | procedure f => some (.procedure f)

/-- Marks are equal, atoms are equal as terms, and no mark equals an atom. -/
theorem equal_iff {p q : Part} : p.equal q ↔ Option.Rel Term.Equals p.atom? q.atom? := by
  cases p with
  | pair =>
      cases q with
      | pair => exact iff_of_true rfl .none
      | nil | number _ | symbol _ | procedure _ =>
          exact iff_of_false Bool.false_ne_true (by rintro ⟨⟩)
  | nil | number _ | symbol _ | procedure _ =>
      cases q with
      | pair => exact iff_of_false Bool.false_ne_true (by rintro ⟨⟩)
      | nil | number _ | symbol _ | procedure _ =>
          simp only [atom?, Option.rel_some_some, ← Term.same_iff_equals]
          simp [equal, Term.same, Term.atomEqual]

theorem hash_eq_of_equal {p q : Part} (h : p.equal q) : p.hash = q.hash := by
  have hsame : p = q → p.hash = q.hash := congrArg hash
  cases p with
  | number x =>
      cases q with
      | number y =>
          rw [hash, hash]
          rcases Number.eq_or_isZero_of_beq h with rfl | ⟨hx, hy⟩
          · rfl
          · rw [if_pos (Number.beq_zero_iff.2 hx), if_pos (Number.beq_zero_iff.2 hy)]
      | pair | nil | symbol _ | procedure _ => cases h
  | pair | nil | symbol _ | procedure _ => exact hsame (of_decide_eq_true h)

theorem ofTerms_cons (t : Term) (rest : List Term) :
    ofTerms (t :: rest) = ofTerms [t] ++ ofTerms rest := by
  induction t generalizing rest with
  | nil | number _ | symbol _ | procedure _ =>
      simp only [ofTerms, List.cons_append, List.nil_append]
  | cons a d iha ihd =>
      rw [ofTerms, ofTerms, iha, iha [d], ihd, List.cons_append, List.append_assoc]

end Part

namespace Term

theorem parts_cons (a d : Term) : (cons a d).parts = .pair :: (a.parts ++ d.parts) := by
  rw [parts, Part.ofTerms, Part.ofTerms_cons]
  rfl

theorem exists_parts_of_atom {t : Term} (h : t.kind ≠ .cons) :
    ∃ p, t.parts = [p] ∧ p.atom? = some t := by
  cases t with
  | cons a d => exact absurd rfl h
  | nil => exact ⟨.nil, by simp only [parts, Part.ofTerms], rfl⟩
  | number x => exact ⟨.number x, by simp only [parts, Part.ofTerms], rfl⟩
  | symbol a => exact ⟨.symbol a, by simp only [parts, Part.ofTerms], rfl⟩
  | procedure f => exact ⟨.procedure f, by simp only [parts, Part.ofTerms], rfl⟩

section

variable {s t : Term} {ps qs : List Part}

theorem forall₂_parts_append_of_atoms (hs : s.kind ≠ .cons) (ht : t.kind ≠ .cons) :
    List.Forall₂ (·.equal ·) (s.parts ++ ps) (t.parts ++ qs) ↔
      s.Equals t ∧ List.Forall₂ (·.equal ·) ps qs := by
  obtain ⟨p, hp, hatom⟩ := exists_parts_of_atom hs
  obtain ⟨q, hq, hatom'⟩ := exists_parts_of_atom ht
  rw [hp, hq, List.singleton_append, List.singleton_append, List.forall₂_cons, Part.equal_iff,
    hatom, hatom', Option.rel_some_some]

/-- No atom begins with a mark. -/
theorem not_forall₂_mark (h : t.kind ≠ .cons) :
    ¬ List.Forall₂ (·.equal ·) (Part.pair :: ps) (t.parts ++ qs) ∧
      ¬ List.Forall₂ (·.equal ·) (t.parts ++ qs) (Part.pair :: ps) := by
  obtain ⟨q, hq, hatom⟩ := exists_parts_of_atom h
  rw [hq, List.singleton_append, List.forall₂_cons, List.forall₂_cons, Part.equal_iff,
    Part.equal_iff, hatom]
  exact ⟨by rintro ⟨⟨⟩, -⟩, by rintro ⟨⟨⟩, -⟩⟩

/-- Equal parts in front of others: the terms that they are taken from are equal, and so is what
follows. -/
theorem forall₂_parts_append :
    List.Forall₂ (·.equal ·) (s.parts ++ ps) (t.parts ++ qs) ↔
      s.Equals t ∧ List.Forall₂ (·.equal ·) ps qs := by
  induction s generalizing t ps qs with
  | cons a d iha ihd =>
      cases t with
      | cons b e =>
          rw [parts_cons, parts_cons, List.cons_append, List.cons_append, List.append_assoc,
            List.append_assoc, List.forall₂_cons, iha, ihd, equals_cons_iff, and_assoc]
          exact and_iff_right rfl
      | nil | number _ | symbol _ | procedure _ =>
          rw [parts_cons]
          refine iff_of_false (not_forall₂_mark ?_).1 ?_
          · exact nofun
          · rintro ⟨⟨⟩, -⟩
  | nil | number _ | symbol _ | procedure _ =>
      cases t with
      | cons b e =>
          rw [parts_cons]
          refine iff_of_false (not_forall₂_mark ?_).2 ?_
          · exact nofun
          · rintro ⟨⟨⟩, -⟩
      | nil | number _ | symbol _ | procedure _ => exact forall₂_parts_append_of_atoms nofun nofun

theorem map_eq_of_forall₂ {α : Type} {hash : Part → α} (h : ∀ p q, p.equal q → hash p = hash q)
    (hall : List.Forall₂ (·.equal ·) ps qs) : ps.map hash = qs.map hash := by
  rw [← List.forall₂_eq_eq_eq, List.forall₂_map_left_iff, List.forall₂_map_right_iff]
  exact hall.imp h

theorem forall₂_parts : List.Forall₂ (·.equal ·) s.parts t.parts ↔ s.Equals t := by
  have happend : List.Forall₂ (·.equal ·) (s.parts ++ []) (t.parts ++ []) ↔ _ :=
    forall₂_parts_append
  rwa [List.append_nil, List.append_nil, and_iff_left .nil] at happend

end

/-- Terms are equal if and only if they have as many parts and the parts are equal at every place,
where marks are equal, atoms are equal as terms, and no mark equals an atom. So equal terms have
equal hashes, and so it is for every hash that is made of hashes of the parts which are equal for
equal parts. -/
theorem equal_iff_parts :
    (∀ p q : Part, p.equal q ↔ Option.Rel (·.equal ·) p.atom? q.atom?) ∧
    ∀ s t : Term,
      (s.equal t ↔ s.parts.length = t.parts.length ∧
        ∀ (i : Nat) (h : i < s.parts.length) (h' : i < t.parts.length),
          s.parts[i].equal t.parts[i]) ∧
      (s.equal t → s.hash = t.hash ∧
        ∀ (α β : Type) (hash : Part → α) (combine : List α → β),
          (∀ p q, p.equal q → hash p = hash q) →
            combine (s.parts.map hash) = combine (t.parts.map hash)) := by
  refine ⟨fun p q => ?_, fun s t => ⟨?_, fun h => ?_⟩⟩
  · simp only [equal_iff_equals]
    exact Part.equal_iff
  · rw [equal_iff_equals, ← forall₂_parts, List.forall₂_iff_get]
    rfl
  · have hparts := forall₂_parts.2 (equal_iff_equals.1 h)
    refine ⟨?_, fun α β hash combine hhash => congrArg combine (map_eq_of_forall₂ hhash hparts)⟩
    have hfold : ∀ u : Term, u.hash = (u.parts.map Part.hash).foldl mixHash 11 :=
      fun _ => List.foldl_map.symm
    rw [hfold, hfold, map_eq_of_forall₂ (fun p q => Part.hash_eq_of_equal) hparts]

end Term
end Parens
