import TemplateFrontend.Proofs.Grammar.Simulation.Rules
import TemplateFrontend.Proofs.Parsing
import Mathlib

/-!
Contract: ceilings that are not met leave no trace.

Owns:
- the order of limits, ceiling by ceiling, and that deriving limits from the two
  primary ceilings respects it;
- `Grammar.unguarded`, the pairing of a run with a run under higher ceilings,
  which is lost once a ceiling is met;
- `parse_of_no_trips`: a parse that meets no ceiling is the same under all higher
  ceilings.
-/

namespace TemplateFrontend

namespace Limits

/-- Every ceiling is at most the one of the other limits. -/
structure AtMost (limits limits' : Limits) : Prop where
  depth : limits.depth ≤ limits'.depth
  iterations : limits.iterations ≤ limits'.iterations
  chain : limits.chain ≤ limits'.chain
  regionIterations : limits.regionIterations ≤ limits'.regionIterations
  topLevelIterations : limits.topLevelIterations ≤ limits'.topLevelIterations

instance : LE Limits := ⟨AtMost⟩

theorem scaled_mono (factor : Nat) {ceiling ceiling' : Nat} (le : ceiling ≤ ceiling') :
    scaled ceiling factor ≤ scaled ceiling' factor := by
  apply min_le_min_right
  exact Nat.mul_le_mul_right factor le

/-- Higher primary ceilings lower none of the derived ones, also where those
stop at the greatest word. -/
theorem ofPrimary_mono {depth depth' iterations iterations' : Nat} (depthLe : depth ≤ depth')
    (iterationsLe : iterations ≤ iterations') :
    ofPrimary depth iterations ≤ ofPrimary depth' iterations' where
  depth := depthLe
  iterations := iterationsLe
  chain := max_le_max_right 1 (Nat.div_le_div_right iterationsLe)
  regionIterations := scaled_mono 10 iterationsLe
  topLevelIterations := scaled_mono 100 iterationsLe

end Limits

namespace Grammar

/-- The drafts are the same until the first run meets a ceiling. -/
def unguarded : Pairing where
  lost draft := draft.trips ≠ []
  related := Eq

theorem ample_of_le {budget budget' : Nat} (le : budget ≤ budget') :
    unguarded.Ample budget budget' :=
  Or.inr ⟨le, fun _ _ => List.cons_ne_nil _ _⟩

theorem unguarded_simulation {limits limits' : Limits} (le : limits ≤ limits') :
    Simulation unguarded limits limits' where
  lost_congr := by
    intro draft draft' met _ sameTrips
    have met : draft.trips ≠ [] := met
    show draft'.trips ≠ []
    rwa [← sameTrips]
  lost_settle _ := id
  lost_advance := by
    intro draft met
    show draft.advance.trips ≠ []
    rwa [Draft.trips_advance]
  lost_trip _ _ _ := List.cons_ne_nil _ _
  kinds same := Or.inl (congrArg Draft.kind same)
  settle meets := congrArg Draft.settle meets.related
  advance same _ := congrArg Draft.advance same
  opened meets := congrArg Draft.opened meets.related
  closed := by rintro left _ inside _ kind ⟨rfl, _, _⟩ rfl; rfl
  trip := fun _ _ => Or.inl (List.cons_ne_nil _ _)
  depth := ample_of_le le.depth
  iterations := ample_of_le le.iterations
  chain := ample_of_le le.chain
  regionIterations := ample_of_le le.regionIterations
  topLevelIterations := ample_of_le le.topLevelIterations

/-- A program that meets no ceiling has the same root under higher ceilings. -/
theorem program_eq_of_no_trips {limits limits' : Limits} (le : limits ≤ limits')
    (tokens : List Token) (stop : Nat) (noTrips : (program limits tokens stop).2 = []) :
    program limits' tokens stop = program limits tokens stop := by
  have start : unguarded.related (.ofTokens tokens stop) (.ofTokens tokens stop) := rfl
  rcases (unguarded_simulation le).topLevel start with met | same
  · exact absurd (List.reverse_eq_nil_iff.mp noTrips) met
  · rw [program, program, show topLevel limits _ = topLevel limits' _ from same]

end Grammar

/-- Where a parse meets no ceiling, every parse under higher ceilings meets none
either and has the same tree. -/
theorem parse_eq_of_no_trips {text : Text} {window : Span} {limits limits' : Limits}
    (admitted : text.Admits window) (le : limits ≤ limits') :
    ∃ parsed, parse text window limits = .ok parsed ∧
      (parsed.trips = [] → parse text window limits' = .ok parsed) := by
  obtain ⟨tokens, parts, parsed, reading⟩ := exists_reading limits admitted
  refine ⟨parsed, reading.parsed_eq, ?_⟩
  intro noTrips
  have sameProgram := Grammar.program_eq_of_no_trips le tokens window.stop
    (reading.trips_eq.trans noTrips)
  have parsedEq := reading.parsed_eq
  unfold parse at parsedEq ⊢
  rw [reading.tokenized] at parsedEq ⊢
  dsimp only [bind, Except.bind] at parsedEq ⊢
  rw [sameProgram]
  exact parsedEq

/-- A parse that meets no ceiling stays as it is when ceilings are raised, one by
one or through the primary ones, which the derived ones follow. -/
theorem parse_of_no_trips (text : Text) (window : Span) (admitted : text.Admits window) :
    (∀ limits limits' : Limits, limits ≤ limits' →
      ∃ parsed, parse text window limits = .ok parsed ∧
        (parsed.trips = [] → parse text window limits' = .ok parsed)) ∧
    ∀ depth depth' iterations iterations' : Nat, depth ≤ depth' → iterations ≤ iterations' →
      Limits.ofPrimary depth iterations ≤ Limits.ofPrimary depth' iterations' ∧
        ∃ parsed, parse text window (.ofPrimary depth iterations) = .ok parsed ∧
          (parsed.trips = [] →
            parse text window (.ofPrimary depth' iterations') = .ok parsed) := by
  constructor
  · exact fun limits limits' le => parse_eq_of_no_trips admitted le
  · intro depth depth' iterations iterations' depthLe iterationsLe
    have le := Limits.ofPrimary_mono depthLe iterationsLe
    exact ⟨le, parse_eq_of_no_trips admitted le⟩

/-- A call that just fits its ceilings, and the ones derived from the same two
primary ceilings. -/
theorem parse_of_no_trips_at_ceilings :
    Text.Admits "f(a.b)".toList ⟨0, 6⟩ ∧ (⟨2, 1, 1, 0, 1⟩ : Limits) ≤ .ofPrimary 2 1 ∧
      Limits.ofPrimary 2 1 ≤ .ofPrimary 3 20 ∧
      ∃ parsed, parse "f(a.b)".toList ⟨0, 6⟩ ⟨2, 1, 1, 0, 1⟩ = .ok parsed ∧ parsed.trips = [] ∧
        parse "f(a.b)".toList ⟨0, 6⟩ (.ofPrimary 2 1) = .ok parsed ∧
        parse "f(a.b)".toList ⟨0, 6⟩ (.ofPrimary 3 20) = .ok parsed := by
  have admitted : Text.Admits "f(a.b)".toList ⟨0, 6⟩ := Text.admits_whole "f(a.b)".toList
  have le : (⟨2, 1, 1, 0, 1⟩ : Limits) ≤ .ofPrimary 2 1 := by constructor <;> decide
  have fits : parse "f(a.b)".toList ⟨0, 6⟩ ⟨2, 1, 1, 0, 1⟩ = .ok ⟨.node .root ⟨0, 6⟩
      [.node .expression ⟨0, 6⟩ [.leaf ⟨.identifier, ⟨0, 1⟩⟩, .leaf ⟨.leftParen, ⟨1, 2⟩⟩,
        .node .expression ⟨2, 5⟩ [.leaf ⟨.identifier, ⟨2, 3⟩⟩, .leaf ⟨.dot, ⟨3, 4⟩⟩,
          .leaf ⟨.identifier, ⟨4, 5⟩⟩], .leaf ⟨.rightParen, ⟨5, 6⟩⟩]], []⟩ := by cbv
  obtain ⟨raised, raisedPrimary⟩ := parse_of_no_trips _ _ admitted
  obtain ⟨parsed, parsedEq, transparent⟩ := raised _ _ le
  cases parsedEq.symm.trans fits
  have derivedEq := transparent rfl
  obtain ⟨primaryLe, derived, foundEq, derivedTransparent⟩ :=
    raisedPrimary 2 3 1 20 (by decide) (by decide)
  cases foundEq.symm.trans derivedEq
  exact ⟨admitted, le, primaryLe, _, parsedEq, rfl, derivedEq, derivedTransparent rfl⟩

end TemplateFrontend
