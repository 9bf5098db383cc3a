import TemplateFrontend.Proofs.Grammar.Derivation
import TemplateFrontend.Proofs.Parsing
import Mathlib

/-!
Contract: the tree of every text is derivable in the recovery grammar.

Owns:
- `parse_derivable`, which takes `production` to every node of a parsed tree.
-/

namespace TemplateFrontend

open scoped Computability

/-- Any run of nodes and tokens can stand below the root. -/
theorem mem_production_root (levels : Nat) (marks : List Mark) :
    marks ∈ production levels .root := by
  induction marks with
  | nil => exact Language.nil_mem_kstar _
  | cons mark later inductionHypothesis =>
      have single : [mark] ∈ Production.child + Production.anyToken := by
        cases mark with
        | none => exact Or.inl rfl
        | some kind => exact Or.inr ⟨kind, trivial, rfl⟩
      rw [production, ← Language.one_add_self_mul_kstar_eq_kstar]
      exact Or.inr (Language.append_mem_mul single inductionHypothesis)

/-- Under any ceilings, the significant children of every node are marked as the
production of its kind allows for the levels of nesting that are left inside the
node. The root alone is of the kind of roots. -/
theorem parse_derivable (text : Text) (window : Span) (limits : Limits)
    (admitted : text.Admits window) :
    ∃ parsed, parse text window limits = .ok parsed ∧
      ∀ path kind span children, parsed.tree.at? path = some (.node kind span children) →
        (kind = .root ↔ path = []) ∧
        ∃ levels, limits.depth = levels + path.length ∧
          Tree.marks children ∈ production levels kind := by
  obtain ⟨tokens, parts, parsed, reading⟩ := exists_reading limits admitted
  refine ⟨parsed, reading.parsed_eq, ?_⟩
  intro path kind span children reached
  by_cases atRoot : path = []
  · rw [atRoot, reading.tree_eq] at reached
    cases reached
    exact ⟨iff_of_true rfl atRoot, limits.depth, by simp [atRoot], mem_production_root _ _⟩
  · obtain ⟨levels, inner, before, after, levelsEq, origin, placed⟩ :=
      reading.node_at atRoot reached
    have notRoot : kind ≠ .root := by
      rintro rfl
      exact origin.begins.1
    refine ⟨iff_of_false notRoot atRoot, levels, levelsEq, ?_⟩
    rw [placed.children_eq, Outline.marks_measureAll]
    exact origin.derives

/-- At the depth ceiling the operands of a conditional are single tokens, here a
number and a bracket; the last one is missing. -/
theorem parse_derivable_at_ceiling :
    Text.Admits "if (1 ] else".toList ⟨0, 12⟩ ∧ ∃ parsed span children,
      parse "if (1 ] else".toList ⟨0, 12⟩ ⟨1, 0, 0, 0, 1⟩ = .ok parsed ∧
      parsed.tree.at? [0] = some (.node .ifStmt span children) ∧
      Tree.marks children = [some .ifKeyword, some .leftParen, some .number, some .rightBracket,
        some .elseKeyword] ∧
      Tree.marks children ∈ production 0 .ifStmt := by
  have admitted : Text.Admits "if (1 ] else".toList ⟨0, 12⟩ :=
    Text.admits_whole "if (1 ] else".toList
  have parsedEq : parse "if (1 ] else".toList ⟨0, 12⟩ ⟨1, 0, 0, 0, 1⟩ =
      .ok ⟨.node .root ⟨0, 12⟩
        [.node .ifStmt ⟨0, 12⟩
          [.leaf ⟨.ifKeyword, ⟨0, 2⟩⟩, .leaf ⟨.whitespace, ⟨2, 3⟩⟩, .leaf ⟨.leftParen, ⟨3, 4⟩⟩,
            .leaf ⟨.number, ⟨4, 5⟩⟩, .leaf ⟨.whitespace, ⟨5, 6⟩⟩, .leaf ⟨.rightBracket, ⟨6, 7⟩⟩,
            .leaf ⟨.whitespace, ⟨7, 8⟩⟩, .leaf ⟨.elseKeyword, ⟨8, 12⟩⟩]],
        [⟨.recursionDepth, 4⟩, ⟨.recursionDepth, 6⟩, ⟨.recursionDepth, 12⟩]⟩ := by cbv
  obtain ⟨parsed, derivedEq, derivable⟩ := parse_derivable _ _ _ admitted
  cases parsedEq.symm.trans derivedEq
  obtain ⟨_, levels, levelsEq, derived⟩ := derivable [0] .ifStmt _ _ rfl
  obtain rfl : levels = 0 := by simpa using levelsEq
  exact ⟨admitted, _, _, _, parsedEq, rfl, rfl, derived⟩

end TemplateFrontend
