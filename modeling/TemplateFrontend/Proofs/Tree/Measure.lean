import TemplateFrontend.Outline
import TemplateFrontend.Proofs.Tiling

/-!
Contract: measuring an outline whose tokens tile a window.

Owns:
- `Outline.measure`, the measured tree by recursion on the outline;
- `build_eq_measure`, which says that the builder reaches that tree without a
  fault when the tokens tile;
- where a measured tree begins and ends, and that its children are contiguous.

Does not own: outlines with gaps between their tokens.
-/

namespace TemplateFrontend

namespace Tree

/-- The span of a row of children that begins at `offset`. -/
def spanAll (offset : Nat) (children : List Tree) : Span :=
  match children.head?, children.getLast? with
  | some first, some last => ⟨first.span.start, last.span.stop⟩
  | _, _ => .emptyAt offset

/-- Each element of a row starts where the one before it ends, the first one
at `start`, and the last one ends at `stop`. -/
def Contiguous : (start : Nat) → List Tree → (stop : Nat) → Prop
  | start, [], stop => start = stop
  | start, child :: later, stop =>
      child.span.start = start ∧ Contiguous child.span.stop later stop

theorem getLast_span_stop_of_contiguous {start stop : Nat} {children : List Tree} {last : Tree}
    (contiguous : Contiguous start children stop) (lastEq : children.getLast? = some last) :
    last.span.stop = stop := by
  induction children generalizing start with
  | nil => cases lastEq
  | cons child later inductionHypothesis =>
      cases later with
      | nil =>
          cases lastEq
          exact contiguous.2
      | cons next others =>
          rw [List.getLast?_cons_cons] at lastEq
          exact inductionHypothesis contiguous.2 lastEq

/-- A contiguous row spans from its start to its stop, also when it is empty. -/
theorem spanAll_of_contiguous {start stop : Nat} {children : List Tree}
    (contiguous : Contiguous start children stop) : spanAll start children = ⟨start, stop⟩ := by
  cases children with
  | nil =>
      cases contiguous
      rfl
  | cons child later =>
      have lastEq := List.getLast?_eq_some_getLast (List.cons_ne_nil child later)
      have stopEq := getLast_span_stop_of_contiguous contiguous lastEq
      simp only [spanAll, List.head?_cons, lastEq, contiguous.1, stopEq]

end Tree

/-- An open node would get the span of its row of children. -/
theorem OpenNode.span_eq (opened : OpenNode) :
    opened.span = Tree.spanAll opened.start opened.children.reverse := by
  cases first : opened.children.getLast? <;> cases last : opened.children.head? <;>
    simp [OpenNode.span, Tree.spanAll, List.getLast?_reverse, List.head?_reverse, first, last]

theorem OpenNode.close_eq {kind : Kind} {start : Nat} {children : List Tree}
    (ordered : (Tree.spanAll start children).start ≤ (Tree.spanAll start children).stop) :
    OpenNode.close ⟨kind, start, children.reverse⟩ =
      .ok (.node kind (Tree.spanAll start children) children) := by
  simp only [OpenNode.close, OpenNode.span_eq, List.reverse_reverse, if_pos ordered]

namespace Outline

mutual

/-- The measured tree of an outline that begins at `offset`. -/
def measure : (offset : Nat) → Outline → Tree
  | _, .leaf token => .leaf token
  | offset, .node kind parts =>
      .node kind (Tree.spanAll offset (measureAll offset parts)) (measureAll offset parts)

/-- The measured trees of a row of parts, each one beginning where the part
before it ends. -/
def measureAll : (offset : Nat) → List Outline → List Tree
  | _, [] => []
  | offset, part :: later =>
      part.measure offset :: measureAll (part.measure offset).span.stop later

end

@[simp] theorem frontierAll_append (left right : List Outline) :
    frontierAll (left ++ right) = frontierAll left ++ frontierAll right := by
  induction left with
  | nil => rfl
  | cons part later inductionHypothesis => simp [frontierAll, inductionHypothesis]

@[simp] theorem frontierAll_map_leaf (tokens : List Token) :
    frontierAll (tokens.map .leaf) = tokens := by
  induction tokens with
  | nil => rfl
  | cons token later inductionHypothesis => simp [frontierAll, frontier, inductionHypothesis]

/-! ## Measured trees keep the tokens -/

mutual

theorem frontier_measure :
    ∀ (outline : Outline) (offset : Nat), (outline.measure offset).frontier = outline.frontier
  | .leaf token, _ => by simp only [measure, Tree.frontier, frontier]
  | .node kind parts, offset => by
      simp only [measure, Tree.frontier, frontier]
      exact frontierAll_measureAll parts offset

theorem frontierAll_measureAll :
    ∀ (parts : List Outline) (offset : Nat),
      Tree.frontierAll (measureAll offset parts) = frontierAll parts
  | [], _ => rfl
  | part :: later, offset => by
      simp only [measureAll, Tree.frontierAll, frontierAll]
      rw [frontier_measure part, frontierAll_measureAll later]

end

/-! ## Measured trees fit their tokens -/

mutual

/-- An element whose tokens tile a stretch spans that stretch. -/
theorem span_measure :
    ∀ (outline : Outline) (start stop : Nat), Tiles start outline.frontier stop →
      (outline.measure start).span = ⟨start, stop⟩
  | .leaf token, start, stop, tiled => by
      obtain ⟨startEq, _, stopEq⟩ := tiled
      simp only [measure, Tree.span]
      rw [← startEq, ← show token.span.stop = stop from stopEq]
  | .node kind parts, start, stop, tiled => by
      simp only [measure, Tree.span]
      exact Tree.spanAll_of_contiguous (contiguous_measureAll parts start stop tiled)

/-- The children of a node whose tokens tile a stretch are contiguous. -/
theorem contiguous_measureAll :
    ∀ (parts : List Outline) (start stop : Nat), Tiles start (frontierAll parts) stop →
      Tree.Contiguous start (measureAll start parts) stop
  | [], _, _, tiled => tiled
  | part :: later, start, stop, tiled => by
      obtain ⟨seam, front, back⟩ := Tiles.append_iff.mp tiled
      have partSpan := span_measure part start seam front
      constructor
      · rw [partSpan]
      · rw [partSpan]
        exact contiguous_measureAll later seam stop back

end

/-- Where a measured row is split, its parts are split, and the seam of their
tokens is where the first pieces end. -/
theorem exists_of_measureAll_eq_append {parts : List Outline} {start stop : Nat}
    {front back : List Tree} (tiled : Tiles start (frontierAll parts) stop)
    (measured : measureAll start parts = front ++ back) :
    ∃ left right seam, parts = left ++ right ∧ Tiles start (frontierAll left) seam ∧
      Tiles seam (frontierAll right) stop ∧ front = measureAll start left ∧
      back = measureAll seam right := by
  induction front generalizing parts start with
  | nil => exact ⟨[], parts, start, rfl, rfl, tiled, rfl, measured.symm⟩
  | cons first front inductionHypothesis =>
      cases parts with
      | nil => cases measured
      | cons part later =>
          obtain ⟨middle, inside, behind⟩ := Tiles.append_iff.mp tiled
          rw [measureAll, List.cons_append, List.cons.injEq, span_measure part start middle inside]
            at measured
          obtain ⟨left, right, seam, rfl, tiledLeft, tiledRight, frontEq, backEq⟩ :=
            inductionHypothesis behind measured.2
          refine ⟨part :: left, right, seam, rfl, ?_, tiledRight, ?_, backEq⟩
          · exact Tiles.append_iff.mpr ⟨middle, inside, tiledLeft⟩
          · rw [measureAll, span_measure part start middle inside, measured.1, frontEq]

/-! ## Building -/

mutual

theorem stepsOnto_eq :
    ∀ (outline : Outline) (taken : List BuildStep),
      outline.stepsOnto taken = outline.stepsOnto [] ++ taken
  | .leaf _, _ => rfl
  | .node kind parts, taken => by
      simp only [stepsOnto]
      rw [stepsAllOnto_eq parts (.start kind :: taken), stepsAllOnto_eq parts [.start kind]]
      simp

theorem stepsAllOnto_eq :
    ∀ (parts : List Outline) (taken : List BuildStep),
      stepsAllOnto parts taken = stepsAllOnto parts [] ++ taken
  | [], _ => rfl
  | part :: later, taken => by
      simp only [stepsAllOnto]
      rw [stepsAllOnto_eq later (part.stepsOnto taken),
        stepsAllOnto_eq later (part.stepsOnto []), stepsOnto_eq part taken]
      simp

end

def stepsAll (parts : List Outline) : List BuildStep := (stepsAllOnto parts []).reverse

@[simp] theorem steps_leaf (token : Token) : steps (.leaf token) = [.token token] := rfl

theorem steps_node (kind : Kind) (parts : List Outline) :
    steps (.node kind parts) = .start kind :: (stepsAll parts ++ [.finish]) := by
  simp only [steps, stepsOnto, stepsAll]
  rw [stepsAllOnto_eq parts [.start kind]]
  simp

@[simp] theorem stepsAll_nil : stepsAll [] = [] := rfl

theorem stepsAll_cons (part : Outline) (later : List Outline) :
    stepsAll (part :: later) = part.steps ++ stepsAll later := by
  simp only [steps, stepsAll, stepsAllOnto]
  rw [stepsAllOnto_eq later (part.stepsOnto [])]
  simp

theorem stepsAll_append (left right : List Outline) :
    stepsAll (left ++ right) = stepsAll left ++ stepsAll right := by
  induction left with
  | nil => rfl
  | cons part later inductionHypothesis =>
      rw [List.cons_append, stepsAll_cons, stepsAll_cons, inductionHypothesis, List.append_assoc]

theorem stepsAll_map_leaf (tokens : List Token) :
    stepsAll (tokens.map .leaf) = tokens.map .token := by
  induction tokens with
  | nil => rfl
  | cons token later inductionHypothesis =>
      rw [List.map_cons, List.map_cons, stepsAll_cons, inductionHypothesis, steps_leaf,
        List.singleton_append]

/-- Closing a node of contiguous children gives the node that spans them. -/
theorem close_of_contiguous {kind : Kind} {start stop : Nat} {children : List Tree}
    (contiguous : Tree.Contiguous start children stop) (ordered : start ≤ stop) :
    OpenNode.close ⟨kind, start, children.reverse⟩ =
      .ok (.node kind (Tree.spanAll start children) children) := by
  apply OpenNode.close_eq
  rw [Tree.spanAll_of_contiguous contiguous]
  exact ordered

mutual

/-- Inside an open node, the steps of an element add the measured element and
move the offset to its end. -/
theorem run_steps :
    ∀ (outline : Outline) (innermost : OpenNode) (outer : List OpenNode) (finished : Option Tree)
      (start stop : Nat) (more : List BuildStep), Tiles start outline.frontier stop →
      Builder.run ⟨innermost :: outer, finished, start⟩ (outline.steps ++ more) =
        Builder.run ⟨innermost.add (outline.measure start) :: outer, finished, stop⟩ more
  | .leaf token, innermost, outer, finished, start, stop, more, tiled => by
      obtain ⟨startEq, positive, stopEq⟩ := tiled
      have inOrder : ¬ token.span.stop < token.span.start := by omega
      simp only [steps_leaf, List.cons_append, List.nil_append, Builder.run, Builder.step,
        Builder.addToken, if_neg inOrder, measure]
      rw [show token.span.stop = stop from stopEq]
  | .node kind parts, innermost, outer, finished, start, stop, more, tiled => by
      have contiguous := contiguous_measureAll parts start stop tiled
      rw [steps_node, List.cons_append, List.append_assoc]
      simp only [Builder.run, Builder.step, Builder.start]
      rw [run_stepsAll parts ⟨kind, start, []⟩ (innermost :: outer) finished start stop
        ([BuildStep.finish] ++ more) tiled]
      simp only [List.cons_append, List.nil_append, Builder.run, Builder.step, Builder.finishNode,
        List.append_nil, close_of_contiguous contiguous tiled.start_le_stop, measure]

theorem run_stepsAll :
    ∀ (parts : List Outline) (innermost : OpenNode) (outer : List OpenNode)
      (finished : Option Tree) (start stop : Nat) (more : List BuildStep),
      Tiles start (frontierAll parts) stop →
      Builder.run ⟨innermost :: outer, finished, start⟩ (stepsAll parts ++ more) =
        Builder.run
          ⟨{ innermost with children := (measureAll start parts).reverse ++ innermost.children } ::
            outer, finished, stop⟩ more
  | [], innermost, outer, finished, start, stop, more, tiled => by
      rw [show start = stop from tiled]
      rfl
  | part :: later, innermost, outer, finished, start, stop, more, tiled => by
      obtain ⟨seam, front, back⟩ := Tiles.append_iff.mp tiled
      rw [stepsAll_cons, List.append_assoc,
        run_steps part innermost outer finished start seam _ front,
        run_stepsAll later _ outer finished seam stop more back]
      simp only [measureAll, span_measure part start seam front, OpenNode.add, List.reverse_cons,
        List.append_assoc, List.cons_append, List.nil_append]

end

/-- The steps of a node whose tokens tile a window leave one finished root. -/
theorem run_steps_node {kind : Kind} {parts : List Outline} {start stop : Nat}
    (tiled : Tiles start (frontierAll parts) stop) :
    (Builder.atOffset start).run (node kind parts).steps =
      .ok ⟨[], some ((node kind parts).measure start), stop⟩ := by
  have contiguous := contiguous_measureAll parts start stop tiled
  have ran := run_stepsAll parts ⟨kind, start, []⟩ [] none start stop [.finish] tiled
  rw [steps_node]
  simp only [Builder.run, Builder.step, Builder.start, Builder.atOffset]
  rw [ran]
  simp only [Builder.run, Builder.step, Builder.finishNode, List.append_nil,
    close_of_contiguous contiguous tiled.start_le_stop, measure]

/-- An outline whose tokens tile a window has a tree, and measuring by
recursion gives it. -/
theorem build_eq_measure {kind : Kind} {parts : List Outline} {start stop : Nat}
    (tiled : Tiles start (frontierAll parts) stop) :
    (node kind parts).build start = .ok ((node kind parts).measure start) := by
  unfold build
  rw [run_steps_node tiled]
  rfl

end Outline

end TemplateFrontend
