import TemplateFrontend.Proofs.Exhaustion
import TemplateFrontend.Proofs.Tree.Measure
import TemplateFrontend.Proofs.Tree.Recursion

/-!
Contract: the steps that a builder accepts are the walk of the tree that it builds.

Owns:
- `Tree.walkSteps`, the walk of a tree read as build steps;
- `Tree.MeasuredFrom`, trees whose nodes have the spans that their tokens give them,
  tokens with gaps between them and nodes without children included;
- `Tree.run_walkSteps`, which takes the walk of such a tree back to the tree;
- `Builder.Traces`, what is known of a builder that has not finished a root, and
  `Builder.walk_of_run`, which says that it ends with a measured tree whose walk is
  what it has taken.

The tokens of an outline tile, and `Proofs.Tree.Measure` has the spans of their nodes.
Here steps come from anywhere, so that the spans depend on all tokens before a node.
-/

namespace TemplateFrontend

namespace BuildStep

/-- Entering a node starts it, leaving it finishes it, and a token is a step. -/
def ofVisit : Visit → BuildStep
  | .enter entered => .start entered.kind
  | .leave _ => .finish
  | .token met => .token met

def token? : BuildStep → Option Token
  | .token given => some given
  | .start _ | .finish => none

/-- How many nodes without an enclosing one are finished by steps that find `opened`
nodes open. -/
def topLevelNodes : (opened : Nat) → List BuildStep → Nat
  | _, [] => 0
  | opened, .start _ :: later => topLevelNodes (opened + 1) later
  | opened, .token _ :: later => topLevelNodes opened later
  | opened, .finish :: later =>
      (if opened = 1 then 1 else 0) + topLevelNodes (opened - 1) later

end BuildStep

namespace Tree

/-! ## Walks as steps -/

/-- The walk of a tree, read as build steps. -/
def walkSteps (tree : Tree) : List BuildStep := tree.visits.map .ofVisit

def walkStepsAll (row : List Tree) : List BuildStep := row.flatMap walkSteps

theorem map_nestedVisitsAll (row : List Tree) :
    (nestedVisitsAll row).map .ofVisit = walkStepsAll row := by
  induction row with
  | nil => rfl
  | cons child later inductionHypothesis =>
      rw [nestedVisitsAll, List.map_append, inductionHypothesis, ← visits_eq_nestedVisits]
      rfl

@[simp] theorem walkSteps_leaf (token : Token) : walkSteps (.leaf token) = [.token token] := by
  rw [walkSteps, visits_eq_nestedVisits]
  rfl

theorem walkSteps_node (kind : Kind) (span : Span) (children : List Tree) :
    walkSteps (.node kind span children) = .start kind :: (walkStepsAll children ++ [.finish]) := by
  rw [walkSteps, visits_eq_nestedVisits, nestedVisits, List.map_cons, List.map_append,
    map_nestedVisitsAll]
  rfl

@[simp] theorem walkStepsAll_append (left right : List Tree) :
    walkStepsAll (left ++ right) = walkStepsAll left ++ walkStepsAll right :=
  List.flatMap_append

@[simp] theorem walkStepsAll_singleton (child : Tree) : walkStepsAll [child] = child.walkSteps :=
  List.flatMap_singleton _ _

mutual

/-- The tokens of a walk are those of the tree. -/
theorem filterMap_walkSteps :
    ∀ tree : Tree, tree.walkSteps.filterMap BuildStep.token? = tree.frontier
  | .leaf token => by
      rw [walkSteps_leaf, frontier]
      rfl
  | .node kind span children => by
      have inside := filterMap_walkStepsAll children
      simp only [walkSteps_node, List.filterMap_cons, List.filterMap_append, List.filterMap_nil,
        BuildStep.token?, List.append_nil, frontier, inside]

theorem filterMap_walkStepsAll :
    ∀ row : List Tree, (walkStepsAll row).filterMap BuildStep.token? = frontierAll row
  | [] => rfl
  | child :: later => by
      rw [walkStepsAll, List.flatMap_cons, List.filterMap_append, filterMap_walkSteps child,
        frontierAll, ← filterMap_walkStepsAll later]
      rfl

end

/-! ## Measured trees -/

mutual

/-- Behind tokens that end at `offset`, every node below has the span of its children,
and none is reversed. -/
def MeasuredFrom : (offset : Nat) → Tree → Prop
  | _, .leaf token => token.span.start ≤ token.span.stop
  | offset, .node _ span children =>
      span = spanAll offset children ∧ span.start ≤ span.stop ∧ AllMeasuredFrom offset children

/-- The same for a row, in which the tokens of an element stand before those of the
next one. -/
def AllMeasuredFrom : (offset : Nat) → List Tree → Prop
  | _, [] => True
  | offset, child :: later =>
      child.MeasuredFrom offset ∧ AllMeasuredFrom (Token.lastStop offset child.frontier) later

end

theorem frontierAll_append (left right : List Tree) :
    frontierAll (left ++ right) = frontierAll left ++ frontierAll right := by
  induction left with
  | nil => rfl
  | cons child later inductionHypothesis =>
      rw [List.cons_append, frontierAll, inductionHypothesis, frontierAll, List.append_assoc]

/-- A row can be made longer by an element that is measured behind it. -/
theorem allMeasuredFrom_snoc {offset : Nat} {row : List Tree} {child : Tree}
    (front : AllMeasuredFrom offset row)
    (back : child.MeasuredFrom (Token.lastStop offset (frontierAll row))) :
    AllMeasuredFrom offset (row ++ [child]) := by
  induction row generalizing offset with
  | nil => exact ⟨back, trivial⟩
  | cons first later inductionHypothesis =>
      refine ⟨front.1, inductionHypothesis front.2 ?_⟩
      rw [frontierAll, Token.lastStop_append] at back
      exact back

mutual

/-- Where a walk enters a node, the node has the span that it gets behind the tokens
that the walk has met. -/
theorem span_of_visits_eq :
    ∀ (tree : Tree) (offset : Nat), tree.MeasuredFrom offset →
      ∀ {front later : List Visit} {entered : Tree},
        tree.nestedVisits = front ++ .enter entered :: later →
        entered.span =
          spanAll (Token.lastStop offset (front.filterMap visitedToken?)) entered.children
  | .leaf token, offset, _, front, later, entered, split => by
      have member : Visit.enter entered ∈ nestedVisits (.leaf token) := by simp [split]
      simp [nestedVisits] at member
  | .node kind span children, offset, measured, front, later, entered, split => by
      rw [nestedVisits] at split
      rcases List.cons_eq_append_iff.mp split with ⟨rfl, selfEq⟩ | ⟨inner, rfl, innerEq⟩
      · cases selfEq
        exact measured.1
      · rcases List.append_eq_append_iff.mp innerEq with
          ⟨between, _, leaveEq⟩ | ⟨between, insideEq, laterEq⟩
        · have member : Visit.enter entered ∈ [Visit.leave (.node kind span children)] := by
            simp [leaveEq]
          simp at member
        · rcases List.cons_eq_append_iff.mp laterEq with ⟨_, leaveEq⟩ | ⟨more, rfl, _⟩
          · cases leaveEq
          · have inside := span_of_visitsAll_eq children offset measured.2.2 insideEq
            exact inside

theorem span_of_visitsAll_eq :
    ∀ (row : List Tree) (offset : Nat), AllMeasuredFrom offset row →
      ∀ {front later : List Visit} {entered : Tree},
        nestedVisitsAll row = front ++ .enter entered :: later →
        entered.span =
          spanAll (Token.lastStop offset (front.filterMap visitedToken?)) entered.children
  | [], _, _, front, later, entered, split => by
      have member : Visit.enter entered ∈ nestedVisitsAll [] := by simp [split]
      simp [nestedVisitsAll] at member
  | child :: others, offset, measured, front, later, entered, split => by
      have behindChild : ∀ {between : List Visit},
          nestedVisitsAll others = between ++ .enter entered :: later →
          entered.span = spanAll (Token.lastStop offset
            ((child.nestedVisits ++ between).filterMap visitedToken?)) entered.children := by
        intro between othersEq
        rw [List.filterMap_append, filterMap_nestedVisits, Token.lastStop_append]
        exact span_of_visitsAll_eq others _ measured.2 othersEq
      rcases List.append_eq_append_iff.mp split with
        ⟨between, rfl, othersEq⟩ | ⟨between, childEq, laterEq⟩
      · exact behindChild othersEq
      · rcases List.cons_eq_append_iff.mp laterEq with ⟨rfl, othersEq⟩ | ⟨more, rfl, _⟩
        · rw [List.append_nil] at childEq
          have behind := @behindChild [] othersEq
          rw [List.append_nil, childEq] at behind
          exact behind
        · exact span_of_visits_eq child offset measured.1 childEq

end

/-! ## From a tree to its walk and back -/

mutual

/-- Inside an open node, the walk of a measured element adds the element and moves the
offset to the end of its tokens. -/
theorem run_walkSteps :
    ∀ (tree : Tree) (innermost : OpenNode) (outer : List OpenNode) (finished : Option Tree)
      (offset : Nat) (more : List BuildStep), tree.MeasuredFrom offset →
      Builder.run ⟨innermost :: outer, finished, offset⟩ (tree.walkSteps ++ more) =
        Builder.run ⟨innermost.add tree :: outer, finished,
          Token.lastStop offset tree.frontier⟩ more
  | .leaf token, innermost, outer, finished, offset, more, measured => by
      have inOrder : ¬ token.span.stop < token.span.start := Nat.not_lt.mpr measured
      simp only [walkSteps_leaf, List.cons_append, List.nil_append, Builder.run, Builder.step,
        Builder.addToken, if_neg inOrder, frontier, Token.lastStop]
  | .node kind span children, innermost, outer, finished, offset, more, measured => by
      obtain ⟨rfl, ordered, inside⟩ := measured
      rw [walkSteps_node, List.cons_append, List.append_assoc, Builder.run]
      dsimp only [Builder.step, Builder.start]
      rw [run_walkStepsAll children ⟨kind, offset, []⟩ (innermost :: outer) finished offset _ inside,
        List.append_nil, List.singleton_append, Builder.run]
      simp only [Builder.step, Builder.finishNode, OpenNode.close_eq ordered, frontier]

theorem run_walkStepsAll :
    ∀ (row : List Tree) (innermost : OpenNode) (outer : List OpenNode) (finished : Option Tree)
      (offset : Nat) (more : List BuildStep), AllMeasuredFrom offset row →
      Builder.run ⟨innermost :: outer, finished, offset⟩ (walkStepsAll row ++ more) =
        Builder.run ⟨{ innermost with children := row.reverse ++ innermost.children } :: outer,
          finished, Token.lastStop offset (frontierAll row)⟩ more
  | [], _, _, _, _, _, _ => rfl
  | child :: later, innermost, outer, finished, offset, more, measured => by
      rw [walkStepsAll, List.flatMap_cons, List.append_assoc,
        run_walkSteps child innermost outer finished offset _ measured.1, ← walkStepsAll,
        run_walkStepsAll later _ outer finished _ more measured.2]
      simp only [OpenNode.add, List.reverse_cons, List.append_assoc, List.singleton_append,
        frontierAll, Token.lastStop_append]

end

/-- The walk of a measured node leaves that node as the finished root. -/
theorem run_walkSteps_node {kind : Kind} {span : Span} {children : List Tree} {offset : Nat}
    (measured : MeasuredFrom offset (.node kind span children)) :
    (Builder.atOffset offset).run (walkSteps (.node kind span children)) =
      .ok ⟨[], some (.node kind span children),
        Token.lastStop offset (frontierAll children)⟩ := by
  obtain ⟨rfl, ordered, inside⟩ := measured
  rw [walkSteps_node, Builder.run]
  dsimp only [Builder.step, Builder.start, Builder.atOffset]
  rw [run_walkStepsAll children ⟨kind, offset, []⟩ [] none offset _ inside, List.append_nil,
    Builder.run]
  simp only [Builder.step, Builder.finishNode, OpenNode.close_eq ordered, Builder.run]

end Tree

/-! ## From accepted steps to a tree -/

namespace OpenNode

/-- The node that closing gives. -/
def closed (opened : OpenNode) : Tree := .node opened.kind opened.span opened.children.reverse

theorem eq_closed_of_close {opened : OpenNode} {node : Tree} (closes : opened.close = .ok node) :
    node = opened.closed ∧ opened.span.start ≤ opened.span.stop := by
  simp only [close] at closes
  split at closes
  · next ordered => exact ⟨(Except.ok.inj closes).symm, ordered⟩
  · cases closes

/-- The steps that an open node stands for. -/
def steps (opened : OpenNode) : List BuildStep :=
  .start opened.kind :: Tree.walkStepsAll opened.children.reverse

theorem walkSteps_closed (opened : OpenNode) :
    opened.closed.walkSteps = opened.steps ++ [.finish] :=
  Tree.walkSteps_node _ _ _

theorem steps_add (opened : OpenNode) (child : Tree) :
    (opened.add child).steps = opened.steps ++ child.walkSteps := by
  simp [steps, add]

end OpenNode

namespace Builder

/-- The steps that open nodes stand for, the outermost node first. -/
def stepsOf (opened : List OpenNode) : List BuildStep := opened.reverse.flatMap OpenNode.steps

theorem stepsOf_cons (innermost : OpenNode) (outer : List OpenNode) :
    stepsOf (innermost :: outer) = stepsOf outer ++ innermost.steps := by
  simp [stepsOf]

/-- Where the tokens of some steps end, counted from `offset` on. -/
def stopOf (offset : Nat) (taken : List BuildStep) : Nat :=
  Token.lastStop offset (taken.filterMap BuildStep.token?)

theorem stopOf_append (offset : Nat) (front back : List BuildStep) :
    stopOf offset (front ++ back) = stopOf (stopOf offset front) back := by
  rw [stopOf, List.filterMap_append, Token.lastStop_append]
  rfl

theorem stopOf_steps (offset : Nat) (opened : OpenNode) :
    stopOf offset opened.steps =
      Token.lastStop offset (Tree.frontierAll opened.children.reverse) := by
  rw [← Tree.filterMap_walkStepsAll]
  rfl

/-- Every open node starts where the tokens before it end, and its children so far are
measured. -/
def StackMeasured (offset : Nat) : List OpenNode → Prop
  | [] => True
  | innermost :: outer =>
      innermost.start = stopOf offset (stepsOf outer) ∧
        Tree.AllMeasuredFrom innermost.start innermost.children.reverse ∧
        StackMeasured offset outer

/-- What is known of a builder that has taken some steps from `offset` on and has not
finished a root. -/
structure Traces (offset : Nat) (taken : List BuildStep) (builder : Builder) : Prop where
  unfinished : builder.finished = none
  steps_eq : stepsOf builder.opened = taken
  offset_eq : builder.offset = stopOf offset taken
  measured : StackMeasured offset builder.opened

/-- An element that is measured at the offset of the builder can be added. -/
theorem StackMeasured.add {offset : Nat} {innermost : OpenNode} {outer : List OpenNode}
    (measured : StackMeasured offset (innermost :: outer)) {child : Tree}
    (fits : child.MeasuredFrom (stopOf offset (stepsOf (innermost :: outer)))) :
    StackMeasured offset (innermost.add child :: outer) := by
  refine ⟨measured.1, ?_, measured.2.2⟩
  rw [stepsOf_cons, stopOf_append, ← measured.1, stopOf_steps] at fits
  rw [OpenNode.add, List.reverse_cons]
  exact Tree.allMeasuredFrom_snoc measured.2.1 fits

/-- The innermost node of a measured stack closes to a measured node. -/
theorem StackMeasured.closed {offset : Nat} {innermost : OpenNode} {outer : List OpenNode}
    (measured : StackMeasured offset (innermost :: outer))
    (ordered : innermost.span.start ≤ innermost.span.stop) :
    innermost.closed.MeasuredFrom (stopOf offset (stepsOf outer)) := by
  rw [← measured.1]
  exact ⟨innermost.span_eq, ordered, measured.2.1⟩

namespace Traces

variable {offset : Nat} {taken : List BuildStep} {builder after : Builder}

theorem atOffset (offset : Nat) : Traces offset [] (Builder.atOffset offset) :=
  ⟨rfl, rfl, rfl, trivial⟩

theorem start (traces : Traces offset taken builder) (kind : Kind) :
    Traces offset (taken ++ [.start kind]) (builder.start kind) where
  unfinished := traces.unfinished
  steps_eq := by
    rw [Builder.start, stepsOf_cons, traces.steps_eq]
    rfl
  offset_eq := by
    rw [Builder.start, stopOf_append, ← traces.offset_eq]
    rfl
  measured := ⟨traces.steps_eq ▸ traces.offset_eq, trivial, traces.measured⟩

theorem addToken (traces : Traces offset taken builder) {token : Token}
    (added : builder.addToken token = .ok after) :
    Traces offset (taken ++ [.token token]) after ∧
      after.opened.length = builder.opened.length := by
  obtain ⟨opened, finished, position⟩ := builder
  obtain ⟨unfinished, rfl, offsetEq, measured⟩ := traces
  dsimp only at unfinished offsetEq measured ⊢
  subst offsetEq
  simp only [Builder.addToken] at added
  split at added
  · cases added
  · next inOrder =>
      cases opened with
      | nil => cases added
      | cons innermost outer =>
          cases added
          refine ⟨⟨unfinished, ?_, ?_, measured.add (Nat.not_lt.mp inOrder)⟩, rfl⟩
          · rw [stepsOf_cons, OpenNode.steps_add, Tree.walkSteps_leaf, ← List.append_assoc,
              ← stepsOf_cons]
          · rw [stopOf_append]
            rfl

/-- Finishing a node leaves a builder with one node less open, or a measured root whose
walk is all that has been taken. -/
theorem finishNode (traces : Traces offset taken builder)
    (finishes : builder.finishNode = .ok after) :
    (Traces offset (taken ++ [.finish]) after ∧
        builder.opened.length = after.opened.length + 1 ∧ after.opened ≠ []) ∨
      ∃ root, after.opened = [] ∧ after.finished = some root ∧ builder.opened.length = 1 ∧
        root.isNode = true ∧ root.walkSteps = taken ++ [.finish] ∧ root.MeasuredFrom offset := by
  obtain ⟨opened, finished, position⟩ := builder
  obtain ⟨unfinished, rfl, offsetEq, measured⟩ := traces
  dsimp only at unfinished offsetEq measured ⊢
  subst offsetEq
  cases opened with
  | nil => cases finishes
  | cons innermost outer =>
      simp only [Builder.finishNode] at finishes
      split at finishes
      · cases finishes
      · next node closes =>
          obtain ⟨rfl, ordered⟩ := OpenNode.eq_closed_of_close closes
          have nodeMeasured := measured.closed ordered
          cases outer with
          | nil =>
              right
              cases finishes
              refine ⟨innermost.closed, rfl, rfl, rfl, rfl, ?_, nodeMeasured⟩
              rw [OpenNode.walkSteps_closed, stepsOf_cons]
              rfl
          | cons enclosing others =>
              left
              cases finishes
              refine ⟨⟨unfinished, ?_, ?_, measured.2.2.add nodeMeasured⟩, rfl, by simp⟩
              · rw [stepsOf_cons, OpenNode.steps_add, OpenNode.walkSteps_closed,
                  ← List.append_assoc, ← stepsOf_cons, ← List.append_assoc, ← stepsOf_cons]
              · rw [stopOf_append]
                rfl

end Traces

/-! ## Runs -/

theorem run_cons_eq_ok {builder built : Builder} {step : BuildStep} {later : List BuildStep}
    (ran : builder.run (step :: later) = .ok built) :
    ∃ after, builder.step step = .ok after ∧ after.run later = .ok built := by
  rw [run] at ran
  split at ran
  · cases ran
  · next after stepped => exact ⟨after, stepped, ran⟩

/-- A token is taken by an open node, and the node stays open. -/
theorem length_of_addToken {builder after : Builder} {token : Token}
    (added : builder.addToken token = .ok after) :
    after.opened.length = builder.opened.length ∧ builder.opened ≠ [] := by
  unfold addToken at added
  split at added
  · cases added
  · split at added
    · cases added
    · next innermost outer openedEq =>
        cases added
        simp [openedEq]

/-- Finishing closes an open node. -/
theorem length_of_finishNode {builder after : Builder} (finishes : builder.finishNode = .ok after) :
    builder.opened.length = after.opened.length + 1 := by
  unfold finishNode at finishes
  split at finishes
  · cases finishes
  · next innermost outer openedEq =>
      split at finishes
      · cases finishes
      · split at finishes <;> cases finishes <;> simp [openedEq]

/-- Where nodes are open, steps that leave none open finish the outermost one. -/
theorem topLevelNodes_pos {steps : List BuildStep} {builder built : Builder}
    (ran : builder.run steps = .ok built) (anyOpen : builder.opened ≠ [])
    (noneOpen : built.opened = []) : 0 < BuildStep.topLevelNodes builder.opened.length steps := by
  induction steps generalizing builder with
  | nil =>
      cases ran
      exact absurd noneOpen anyOpen
  | cons step later inductionHypothesis =>
      obtain ⟨after, stepped, laterRan⟩ := run_cons_eq_ok ran
      cases step with
      | start kind =>
          cases stepped
          exact inductionHypothesis laterRan (List.cons_ne_nil _ _)
      | token token =>
          obtain ⟨sameLength, _⟩ := length_of_addToken stepped
          rw [BuildStep.topLevelNodes, ← sameLength]
          apply inductionHypothesis laterRan
          rw [← List.length_pos_iff, sameLength]
          exact List.length_pos_iff.mpr anyOpen
      | finish =>
          have lengthEq := length_of_finishNode stepped
          rw [BuildStep.topLevelNodes, lengthEq, Nat.add_sub_cancel]
          by_cases outermost : after.opened = []
          · simp [outermost]
          · exact Nat.add_pos_right _ (inductionHypothesis laterRan outermost)

/-- Behind a finished root, steps that finish no further one are none. -/
theorem eq_nil_of_topLevelNodes_eq_zero {steps : List BuildStep} {builder built : Builder}
    (ran : builder.run steps = .ok built) (rootFinished : builder.opened = [])
    (noneOpen : built.opened = []) (noRoot : BuildStep.topLevelNodes 0 steps = 0) :
    steps = [] := by
  cases steps with
  | nil => rfl
  | cons step later =>
      obtain ⟨after, stepped, laterRan⟩ := run_cons_eq_ok ran
      cases step with
      | start kind =>
          cases stepped
          have oneOpen : (builder.start kind).opened.length = 1 := by simp [start, rootFinished]
          have positive := topLevelNodes_pos laterRan (List.cons_ne_nil _ _) noneOpen
          rw [oneOpen] at positive
          exact absurd noRoot (Nat.ne_of_gt positive)
      | token token => exact absurd rootFinished (length_of_addToken stepped).2
      | finish =>
          have lengthEq := length_of_finishNode stepped
          rw [rootFinished] at lengthEq
          cases lengthEq

theorem of_finish_eq_ok {built : Builder} {tree : Tree} (finishes : built.finish = .ok tree) :
    built.opened = [] ∧ built.finished = some tree := by
  unfold finish at finishes
  split at finishes
  · cases finishes
  · cases finishes
  · next openedEq finishedEq =>
      cases finishes
      exact ⟨openedEq, finishedEq⟩

/-- A run that finishes a single root ends with a measured tree, and the walk of the
tree is what has been taken. -/
theorem walk_of_run {offset : Nat} {taken later : List BuildStep} {builder built : Builder}
    {tree : Tree} (traces : Traces offset taken builder) (ran : builder.run later = .ok built)
    (finishes : built.finish = .ok tree)
    (single : BuildStep.topLevelNodes builder.opened.length later = 1) :
    tree.isNode = true ∧ tree.walkSteps = taken ++ later ∧ tree.MeasuredFrom offset := by
  induction later generalizing taken builder with
  | nil => cases single
  | cons step later inductionHypothesis =>
      obtain ⟨after, stepped, laterRan⟩ := run_cons_eq_ok ran
      rw [← List.singleton_append, ← List.append_assoc]
      cases step with
      | start kind =>
          cases stepped
          exact inductionHypothesis (traces.start kind) laterRan single
      | token token =>
          obtain ⟨afterTraces, sameLength⟩ := traces.addToken stepped
          rw [BuildStep.topLevelNodes, ← sameLength] at single
          exact inductionHypothesis afterTraces laterRan single
      | finish =>
          rw [BuildStep.topLevelNodes] at single
          rcases traces.finishNode stepped with
            ⟨afterTraces, lengthEq, stillOpen⟩ |
            ⟨root, openedEq, finishedEq, lengthEq, isNode, walkEq, measured⟩
          · have positive := List.length_pos_iff.mpr stillOpen
            rw [if_neg (by omega), Nat.zero_add, lengthEq, Nat.add_sub_cancel] at single
            exact inductionHypothesis afterTraces laterRan single
          · rw [lengthEq, if_pos rfl, Nat.sub_self] at single
            obtain ⟨noneOpen, treeEq⟩ := of_finish_eq_ok finishes
            obtain rfl : later = [] :=
              eq_nil_of_topLevelNodes_eq_zero laterRan openedEq noneOpen (by omega)
            cases laterRan
            obtain rfl : root = tree := Option.some.inj (finishedEq.symm.trans treeEq)
            rw [List.append_nil]
            exact ⟨isNode, walkEq, measured⟩

end Builder

end TemplateFrontend
