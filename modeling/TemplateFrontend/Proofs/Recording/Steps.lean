import Mathlib.Data.List.Induction
import TemplateFrontend.Proofs.Grammar.Progress
import TemplateFrontend.Proofs.Tree.Measure

/-!
Contract: the steps of a recording.

Owns:
- `surplus`, by how much steps end more nodes than they start, and
  `surplus_nonpos_of_run`: of steps with a surplus the builder makes no tree;
- `Kept`, steps that are those of placed parts, or have a surplus;
- `stepRoom`, how many steps a row of tokens has room for, and `FitsWords`, a row in
  front of which all positions are words.
-/

namespace TemplateFrontend

open Outline (stepsAll)

/-! ## Ends without a start -/

/-- What a step at an index adds to the surplus. Positions are words, so no marker ever
gives a kind to a tombstone at a greater index, and that tombstone starts no node. -/
def BuildStep.weight (index : Nat) : BuildStep → Int
  | .finish => 1
  | .token _ => 0
  | .start kind => if index < UInt32.size ∨ kind ≠ .tombstone then -1 else 0

/-- How many more nodes the steps end than they start. -/
def surplus (steps : List BuildStep) : Int :=
  (steps.mapIdx BuildStep.weight).foldr (· + ·) 0

/-- The same where every start starts a node. -/
def plainSurplus (steps : List BuildStep) : Int :=
  (steps.map (BuildStep.weight 0)).foldr (· + ·) 0

namespace BuildStep

theorem weight_start_of_lt {index : Nat} (lt : index < UInt32.size) (kind : Kind) :
    (start kind).weight index = -1 :=
  if_pos (Or.inl lt)

theorem weight_tombstone_of_le {index : Nat} (le : UInt32.size ≤ index) :
    (start .tombstone).weight index = 0 :=
  if_neg (by simp [Nat.not_lt.mpr le])

theorem weight_tombstone_nonpos (index : Nat) : (start .tombstone).weight index ≤ 0 := by
  rcases Nat.lt_or_ge index UInt32.size with lt | le
  · rw [weight_start_of_lt lt]
    omega
  · exact Int.le_of_eq (weight_tombstone_of_le le)

/-- Every other step counts at any index as it does at the first one. -/
theorem weight_of_ne_tombstone (index : Nat) {step : BuildStep}
    (visible : step ≠ .start .tombstone) : step.weight index = step.weight 0 := by
  cases step with
  | finish => rfl
  | token token => rfl
  | start kind =>
      have ofNode : kind ≠ .tombstone := by
        rintro rfl
        exact visible rfl
      rw [weight, weight, if_pos (Or.inr ofNode), if_pos (Or.inr ofNode)]

end BuildStep

/-! ## Recording a step -/

theorem surplus_concat (steps : List BuildStep) (step : BuildStep) :
    surplus (steps ++ [step]) = surplus steps + step.weight steps.length := by
  rw [surplus, surplus, ← List.sum_eq_foldr, ← List.sum_eq_foldr, List.mapIdx_concat,
    List.sum_append, List.sum_singleton]

theorem plainSurplus_cons (step : BuildStep) (later : List BuildStep) :
    plainSurplus (step :: later) = step.weight 0 + plainSurplus later := rfl

theorem plainSurplus_append (earlier later : List BuildStep) :
    plainSurplus (earlier ++ later) = plainSurplus earlier + plainSurplus later := by
  rw [plainSurplus, plainSurplus, plainSurplus, List.map_append, ← List.sum_eq_foldr,
    ← List.sum_eq_foldr, ← List.sum_eq_foldr, List.sum_append]

theorem surplus_append_tokens (steps : List BuildStep) (tokens : List Token) :
    surplus (steps ++ tokens.map .token) = surplus steps := by
  induction tokens generalizing steps with
  | nil => rw [List.map_nil, List.append_nil]
  | cons token later inductionHypothesis =>
      rw [List.map_cons, List.append_cons, inductionHypothesis, surplus_concat, BuildStep.weight,
        Int.add_zero]

/-- Another kind for a start that a marker can reach changes nothing. -/
theorem surplus_set_start {steps : List BuildStep} {position : Nat} {other : Kind}
    (lt : position < UInt32.size) (found : steps[position]? = some (.start other)) (kind : Kind) :
    surplus (steps.set position (.start kind)) = surplus steps := by
  obtain ⟨inside, foundEq⟩ := List.getElem?_eq_some_iff.mp found
  have inside' : position < (steps.mapIdx BuildStep.weight).length := by simpa using inside
  have same : (steps.mapIdx BuildStep.weight)[position] =
      (BuildStep.start kind).weight position := by
    rw [List.getElem_mapIdx, foundEq, BuildStep.weight_start_of_lt lt,
      BuildStep.weight_start_of_lt lt]
  rw [surplus, List.mapIdx_set, ← same, List.set_getElem_self inside', surplus]

/-- A start that is set at the position of the node's own one takes its place. -/
theorem set_own_start (earlier recorded : List BuildStep) (kind : Kind) :
    (earlier ++ [BuildStep.start .tombstone] ++ recorded).set earlier.length (.start kind) =
      earlier ++ [.start kind] ++ recorded := by
  rw [List.append_assoc, List.set_append_right _ _ (Nat.le_refl _), Nat.sub_self,
    List.singleton_append, List.set_cons_zero, List.append_assoc, List.singleton_append]

/-! ## Building -/

namespace Builder

theorem opened_length_of_step {builder after : Builder} {step : BuildStep}
    (taken : builder.step step = .ok after) :
    (after.opened.length : Int) + step.weight 0 = builder.opened.length := by
  cases step with
  | start kind =>
      cases taken
      rw [BuildStep.weight_start_of_lt (by decide), Builder.start, List.length_cons]
      omega
  | token token =>
      change builder.addToken token = _ at taken
      unfold addToken at taken
      split at taken
      · cases taken
      · split at taken
        · cases taken
        · next innermost outer openedEq =>
            cases taken
            simp [openedEq, BuildStep.weight]
  | finish =>
      change builder.finishNode = _ at taken
      unfold finishNode at taken
      split at taken
      · cases taken
      · next innermost outer openedEq =>
          split at taken
          · cases taken
          · split at taken <;> cases taken <;> simp [openedEq, BuildStep.weight]

theorem opened_length_of_run {steps : List BuildStep} {builder after : Builder}
    (taken : builder.run steps = .ok after) :
    (after.opened.length : Int) + plainSurplus steps = builder.opened.length := by
  induction steps generalizing builder with
  | nil =>
      cases taken
      simp [plainSurplus]
  | cons step later inductionHypothesis =>
      unfold run at taken
      split at taken
      · cases taken
      · next between stepEq =>
          have behind := inductionHypothesis taken
          have first := opened_length_of_step stepEq
          rw [plainSurplus_cons]
          omega

end Builder

/-- Leaving out tombstones leaves out no end of a node. -/
theorem surplus_le_balance (steps : List BuildStep) :
    surplus steps ≤ plainSurplus (steps.filter fun step => step != .start .tombstone) := by
  induction steps using List.reverseRecOn with
  | nil => exact Int.le_refl 0
  | append_singleton earlier step inductionHypothesis =>
      rw [surplus_concat, List.filter_append, plainSurplus_append]
      by_cases tombstone : step = .start .tombstone
      · have nonpos := BuildStep.weight_tombstone_nonpos earlier.length
        have nothing : plainSurplus [] = 0 := rfl
        rw [tombstone, List.filter_cons_of_neg (by simp), List.filter_nil, nothing]
        omega
      · have single : plainSurplus [step] = step.weight 0 + 0 := rfl
        rw [List.filter_cons_of_pos (by simpa using tombstone), List.filter_nil, single,
          BuildStep.weight_of_ne_tombstone earlier.length tombstone]
        omega

/-- The builder never ends a node that has not been started. -/
theorem surplus_nonpos_of_run {steps : List BuildStep} {offset : Nat} {after : Builder}
    (taken : (Builder.atOffset offset).run (steps.filter fun step => step != .start .tombstone) =
      .ok after) : surplus steps ≤ 0 := by
  have opened := Builder.opened_length_of_run taken
  have fewer := surplus_le_balance steps
  rw [Builder.atOffset, List.length_nil] at opened
  omega

/-! ## Steps of placed parts -/

/-- The steps behind a frame are those of the placed parts. Where it is `cramped`, there
may be tombstones among them that stay for good; or a marker whose position has lost its
high bits has been completed, and then the steps have a surplus. -/
inductive Kept (cramped : Prop) (frame steps : List BuildStep) (placed : List Outline) : Prop
  | clean (recorded : List BuildStep) (steps_eq : steps = frame ++ recorded)
      (visible : recorded.filter (fun step => step != .start .tombstone) = stepsAll placed.reverse)
      (even : surplus steps = surplus frame)
      (whole : cramped ∨ recorded = stepsAll placed.reverse)
  | spoilt (allowed : cramped) (more : surplus frame < surplus steps)

namespace Kept

variable {cramped : Prop} {frame steps : List BuildStep} {placed : List Outline}

theorem nothing (frame : List BuildStep) : Kept cramped frame frame [] :=
  .clean [] (List.append_nil frame).symm rfl rfl (Or.inr rfl)

theorem surplus_le (kept : Kept cramped frame steps placed) : surplus frame ≤ surplus steps := by
  cases kept with
  | clean recorded stepsEq visible even whole => exact Int.le_of_eq even.symm
  | spoilt allowed more => exact Int.le_of_lt more

theorem steps_eq (kept : Kept False frame steps placed) :
    steps = frame ++ stepsAll placed.reverse := by
  cases kept with
  | clean recorded stepsEq visible even whole => rw [stepsEq, whole.resolve_left not_false]
  | spoilt allowed more => exact allowed.elim

theorem append_tokens (kept : Kept cramped frame steps placed) {tokens : List Token}
    {placed' : List Outline}
    (placedEq : stepsAll placed'.reverse = stepsAll placed.reverse ++ tokens.map .token) :
    Kept cramped frame (steps ++ tokens.map .token) placed' := by
  have noTombstone : (tokens.map BuildStep.token).filter (fun step => step != .start .tombstone) =
      tokens.map .token := by
    apply List.filter_eq_self.mpr
    intro step member
    obtain ⟨token, _, rfl⟩ := List.mem_map.mp member
    rfl
  cases kept with
  | clean recorded stepsEq visible even whole =>
      apply Kept.clean (recorded ++ tokens.map .token)
      case steps_eq => rw [stepsEq, List.append_assoc]
      case visible => rw [List.filter_append, visible, noTombstone, placedEq]
      case even => rw [surplus_append_tokens, even]
      case whole => exact whole.imp_right fun recordedEq => by rw [recordedEq, placedEq]
  | spoilt allowed more => exact .spoilt allowed (by rwa [surplus_append_tokens])

/-- A tombstone that no marker can reach stays for good. -/
theorem append_tombstone (kept : Kept cramped frame steps placed) (allowed : cramped)
    (wrapped : UInt32.size ≤ steps.length) :
    Kept cramped frame (steps ++ [.start .tombstone]) placed := by
  have same : surplus (steps ++ [.start .tombstone]) = surplus steps := by
    rw [surplus_concat, BuildStep.weight_tombstone_of_le wrapped, Int.add_zero]
  cases kept with
  | clean recorded stepsEq visible even whole =>
      apply Kept.clean (recorded ++ [.start .tombstone])
      case steps_eq => rw [stepsEq, List.append_assoc]
      case visible => simpa using visible
      case even => rw [same, even]
      case whole => exact Or.inl allowed
  | spoilt allowed more => exact .spoilt allowed (by rwa [same])

/-- A node that begins behind `earlier` is closed: the start at `position` gets its kind,
and an end is added. Where the start is not the node's own, the end is one too many. -/
theorem closed {earlier : List BuildStep} {around inner : List Outline} {position : Nat}
    {other kind : Kind} (outer : Kept cramped frame earlier around)
    (inside : Kept cramped (earlier ++ [.start .tombstone]) steps inner)
    (positionEq : position = earlier.length % UInt32.size)
    (inWords : cramped ∨ earlier.length < UInt32.size)
    (found : steps[position]? = some (.start other)) (ofNode : kind ≠ .tombstone) :
    Kept cramped frame (steps.set position (.start kind) ++ [.finish])
      (.node kind inner.reverse :: around) := by
  have positionLt : position < UInt32.size := positionEq ▸ Nat.mod_lt _ (by decide)
  have closedEq : surplus (steps.set position (.start kind) ++ [.finish]) = surplus steps + 1 := by
    rw [surplus_concat, surplus_set_start positionLt found, BuildStep.weight]
  have outerLe := outer.surplus_le
  have insideLe := inside.surplus_le
  rw [surplus_concat] at insideLe
  rcases Nat.lt_or_ge earlier.length UInt32.size with low | high
  · have own : position = earlier.length := positionEq.trans (Nat.mod_eq_of_lt low)
    rw [BuildStep.weight_start_of_lt low] at insideLe
    cases inside with
    | spoilt allowed more =>
        rw [surplus_concat, BuildStep.weight_start_of_lt low] at more
        exact .spoilt allowed (by omega)
    | clean recorded stepsEq visible even whole =>
        rw [surplus_concat, BuildStep.weight_start_of_lt low] at even
        cases outer with
        | spoilt allowed more => exact .spoilt allowed (by omega)
        | clean recorded' stepsEq' visible' even' whole' =>
            apply Kept.clean (recorded' ++ ([.start kind] ++ recorded ++ [.finish]))
            case steps_eq =>
              rw [stepsEq, own, set_own_start, stepsEq']
              simp only [List.append_assoc]
            case visible =>
              simp [visible', visible, ofNode, Outline.stepsAll_append, Outline.stepsAll_cons,
                Outline.stepsAll_nil, Outline.steps_node]
            case even => omega
            case whole =>
              rcases whole with allowed | recordedEq
              · exact Or.inl allowed
              · refine whole'.imp_right fun recordedEq' => ?_
                simp [recordedEq, recordedEq', Outline.stepsAll_append, Outline.stepsAll_cons,
                  Outline.stepsAll_nil, Outline.steps_node]
  · rw [BuildStep.weight_tombstone_of_le high] at insideLe
    exact .spoilt (inWords.resolve_right (Nat.not_lt.mpr high)) (by omega)

end Kept

/-! ## Room for steps -/

/-- How many steps are recorded of a row of tokens at most: one for each token, and two
for a node that begins with a significant one. -/
def stepRoom (tokens : List Token) : Nat :=
  tokens.length + 2 * tokens.countP fun token => !token.isTrivia

/-- Wherever a node begins while the tokens are recorded, the position of its marker is
a word. -/
def FitsWords (tokens : List Token) : Prop := stepRoom tokens ≤ UInt32.size + 1

theorem stepRoom_append (left right : List Token) :
    stepRoom (left ++ right) = stepRoom left + stepRoom right := by
  rw [stepRoom, stepRoom, stepRoom, List.length_append, List.countP_append]
  omega

theorem stepRoom_cons_of_significant {token : Token} (significant : token.isTrivia = false)
    (later : List Token) : stepRoom (token :: later) = stepRoom later + 3 := by
  rw [stepRoom, stepRoom, List.length_cons, List.countP_cons_of_pos (by simp [significant])]
  omega

theorem stepRoom_le_of_suffix {tokens more : List Token} (suffix : tokens <:+ more) :
    stepRoom tokens ≤ stepRoom more := by
  obtain ⟨passed, rfl⟩ := suffix
  rw [stepRoom_append]
  exact Nat.le_add_left _ _

theorem stepRoom_le (tokens : List Token) : stepRoom tokens ≤ 3 * tokens.length := by
  have few := List.countP_le_length (p := fun token : Token => !token.isTrivia) (l := tokens)
  rw [stepRoom]
  omega

/-- There are no more tokens than bytes. -/
theorem fitsWords_of_tiles {start stop : Nat} {tokens : List Token}
    (tiled : Tiles start tokens stop) (short : stop - start ≤ 1431655765) : FitsWords tokens := by
  have few := tiled.length_le
  have room := stepRoom_le tokens
  have sizeEq : UInt32.size = 4294967296 := rfl
  rw [FitsWords]
  omega

namespace Draft

theorem stepRoom_rest (draft : Draft) :
    stepRoom draft.rest = draft.leading.length + stepRoom draft.settle.rest := by
  have onlyTrivia : draft.leading.countP (fun token => !token.isTrivia) = 0 :=
    List.countP_eq_zero.mpr fun token member => by simp [isTrivia_of_mem_leading member]
  rw [← draft.leading_append_settle_rest, stepRoom_append, stepRoom, onlyTrivia]
  rfl

theorem NextIs.stepRoom_eq {draft : Draft} {token : Token} {later : List Token}
    (next : draft.NextIs token later) :
    stepRoom draft.rest = draft.leading.length + (stepRoom later + 3) := by
  rw [stepRoom_rest, next.settle_rest, stepRoom_cons_of_significant next.significant]

end Draft

end TemplateFrontend
