import Mathlib.Data.List.Induction

/-! # Positions in a row of steps

A row of steps or events grows at its end, and what is said of it is said of its positions: of a
step with what came before and what came after.  A position of the grown row is the last one, or
one that was there before. -/

namespace ForgeGateway

/-- A position of a row that has grown is the new one or an old one. -/
theorem position_snoc_iff {α : Type} {row before after : List α} {x last : α} :
    row ++ [last] = before ++ x :: after ↔
      before = row ∧ x = last ∧ after = [] ∨
        ∃ rest, after = rest ++ [last] ∧ row = before ++ x :: rest := by
  constructor
  · intro split
    rcases List.eq_nil_or_concat after with rfl | ⟨rest, y, rfl⟩
    · obtain ⟨same, single⟩ := List.append_inj' split rfl
      exact .inl ⟨same.symm, (List.singleton_inj.1 single).symm, rfl⟩
    · rw [List.concat_eq_append, ← List.cons_append, ← List.append_assoc] at split
      obtain ⟨same, single⟩ := List.append_inj' split rfl
      rw [List.singleton_inj.1 single]
      exact .inr ⟨rest, List.concat_eq_append, same⟩
  · rintro (⟨rfl, rfl, rfl⟩ | ⟨rest, rfl, rfl⟩)
    · rfl
    · rw [List.append_assoc, List.cons_append]

end ForgeGateway
