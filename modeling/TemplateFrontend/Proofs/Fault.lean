import Mathlib.Data.List.Forall2

/-!
Contract: steps of which each one may fail.

Owns:
- `exists_mapM`: where every element of a row has a result, the row has its results.
-/

namespace TemplateFrontend

variable {Error First Second : Type}

/-- Where a step succeeds on every element of a row, it does on the row, and what holds
between every element and its result holds between the rows. -/
theorem exists_mapM {step : First → Except Error Second} {holds : First → Second → Prop}
    {elements : List First}
    (each : ∀ element ∈ elements, ∃ result, step element = .ok result ∧ holds element result) :
    ∃ results, elements.mapM step = .ok results ∧ List.Forall₂ holds elements results := by
  induction elements with
  | nil => exact ⟨[], rfl, .nil⟩
  | cons element later inductionHypothesis =>
      obtain ⟨result, stepEq, first⟩ := each element List.mem_cons_self
      obtain ⟨results, laterEq, rest⟩ :=
        inductionHypothesis fun other member => each other (List.mem_cons_of_mem _ member)
      refine ⟨result :: results, ?_, .cons first rest⟩
      rw [List.mapM_cons, stepEq]
      dsimp only [bind, Except.bind]
      rw [laterEq]
      rfl

end TemplateFrontend
