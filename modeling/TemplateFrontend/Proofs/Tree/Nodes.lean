import TemplateFrontend.Proofs.Tree.Measure

/-!
Contract: facts about every node of an outline, read off the measured tree.

Owns:
- `Outline.Every`, a claim about each node of an outline together with the
  tokens that follow the node and the levels of nesting left inside it;
- `Every.nodeHeight_le`, which bounds the height of the measured tree by the
  levels that such a claim leaves for its nodes;
- `Every.of_mem_steps`, the kinds that the build steps of an outline start;
- `Every.at?`, which takes such a claim to the nodes that paths reach in the
  measured tree, and places their tokens among all tokens.
-/

namespace TemplateFrontend.Outline

/-- What may be said of a node: the levels of nesting left inside it, the
tokens that follow it, its kind and its parts. -/
abbrev NodeClaim := (levels : Nat) → (after : List Token) → Kind → List Outline → Prop

mutual

/-- The claim holds of every node of an element that has `levels` levels of
nesting for it. Without a level left there can be no node. -/
def Every (claim : NodeClaim) : (levels : Nat) → (after : List Token) → Outline → Prop
  | _, _, .leaf _ => True
  | 0, _, .node _ _ => False
  | levels + 1, after, .node kind parts =>
      claim levels after kind parts ∧ EveryAll claim levels after parts

def EveryAll (claim : NodeClaim) : (levels : Nat) → (after : List Token) → List Outline → Prop
  | _, _, [] => True
  | levels, after, part :: later =>
      part.Every claim levels (frontierAll later ++ after) ∧ EveryAll claim levels after later

end

@[simp] theorem every_leaf {claim : NodeClaim} {levels : Nat} {after : List Token}
    (token : Token) : Every claim levels after (.leaf token) := by
  simp [Every]

theorem everyAll_append_iff {claim : NodeClaim} {levels : Nat} {after : List Token}
    {left right : List Outline} :
    EveryAll claim levels after (left ++ right) ↔
      EveryAll claim levels (frontierAll right ++ after) left ∧
        EveryAll claim levels after right := by
  induction left with
  | nil => simp [EveryAll]
  | cons part later inductionHypothesis =>
      simp [EveryAll, inductionHypothesis, and_assoc]

theorem everyAll_map_leaf {claim : NodeClaim} {levels : Nat} {after : List Token}
    (tokens : List Token) : EveryAll claim levels after (tokens.map .leaf) := by
  induction tokens with
  | nil => simp [EveryAll]
  | cons token later inductionHypothesis => simp [EveryAll, inductionHypothesis]

/-! ## Weaker claims -/

mutual

theorem Every.mono {weaker stronger : NodeClaim}
    (implies : ∀ levels after kind parts,
      stronger levels after kind parts → weaker levels after kind parts) :
    ∀ (outline : Outline) (levels : Nat) (after : List Token),
      Every stronger levels after outline → Every weaker levels after outline
  | .leaf _, _, _, _ => every_leaf _
  | .node kind parts, 0, after, every => by simp [Every] at every
  | .node kind parts, levels + 1, after, every => by
      simp only [Every] at every ⊢
      exact ⟨implies levels after kind parts every.1,
        EveryAll.mono implies parts levels after every.2⟩

theorem EveryAll.mono {weaker stronger : NodeClaim}
    (implies : ∀ levels after kind parts,
      stronger levels after kind parts → weaker levels after kind parts) :
    ∀ (parts : List Outline) (levels : Nat) (after : List Token),
      EveryAll stronger levels after parts → EveryAll weaker levels after parts
  | [], _, _, _ => by simp [EveryAll]
  | part :: later, levels, after, every => by
      simp only [EveryAll] at every ⊢
      exact ⟨Every.mono implies part levels _ every.1,
        EveryAll.mono implies later levels after every.2⟩

end

/-! ## Heights -/

mutual

/-- Nodes below an element use up levels. -/
theorem Every.nodeHeight_le {claim : NodeClaim} :
    ∀ (outline : Outline) (levels : Nat) (after : List Token) (offset : Nat),
      Every claim levels after outline → (outline.measure offset).nodeHeight ≤ levels
  | .leaf _, _, _, _, _ => by simp [measure, Tree.nodeHeight]
  | .node _ _, 0, _, _, every => by simp [Every] at every
  | .node kind parts, levels + 1, after, offset, every => by
      simp only [Every] at every
      have below := EveryAll.nodeHeightAll_le parts levels after offset every.2
      simp only [measure, Tree.nodeHeight]
      omega

theorem EveryAll.nodeHeightAll_le {claim : NodeClaim} :
    ∀ (parts : List Outline) (levels : Nat) (after : List Token) (offset : Nat),
      EveryAll claim levels after parts →
        Tree.nodeHeightAll (measureAll offset parts) ≤ levels
  | [], _, _, _, _ => by simp [measureAll, Tree.nodeHeightAll]
  | part :: later, levels, after, offset, every => by
      simp only [EveryAll] at every
      have front := Every.nodeHeight_le part levels _ offset every.1
      have back := EveryAll.nodeHeightAll_le later levels after
        (part.measure offset).span.stop every.2
      simp only [measureAll, Tree.nodeHeightAll]
      omega

end

/-! ## Steps -/

mutual

/-- The kinds of the nodes are those that the build steps start. -/
theorem Every.of_mem_steps {claim : NodeClaim} {holds : Kind → Prop}
    (implies : ∀ levels after kind parts, claim levels after kind parts → holds kind) :
    ∀ (outline : Outline) (levels : Nat) (after : List Token) {kind : Kind},
      Every claim levels after outline → .start kind ∈ outline.steps → holds kind
  | .leaf _, _, _, _, _, member => by simp at member
  | .node _ _, 0, _, _, every, _ => by simp [Every] at every
  | .node other parts, levels + 1, after, kind, every, member => by
      simp only [Every] at every
      simp only [steps_node, List.mem_cons, BuildStep.start.injEq, List.mem_append,
        List.not_mem_nil, or_false, reduceCtorEq] at member
      rcases member with rfl | below
      · exact implies levels after kind parts every.1
      · exact EveryAll.of_mem_stepsAll implies parts levels after every.2 below

theorem EveryAll.of_mem_stepsAll {claim : NodeClaim} {holds : Kind → Prop}
    (implies : ∀ levels after kind parts, claim levels after kind parts → holds kind) :
    ∀ (parts : List Outline) (levels : Nat) (after : List Token) {kind : Kind},
      EveryAll claim levels after parts → .start kind ∈ stepsAll parts → holds kind
  | [], _, _, _, _, member => by simp at member
  | part :: later, levels, after, kind, every, member => by
      simp only [EveryAll] at every
      simp only [stepsAll_cons, List.mem_append] at member
      rcases member with front | back
      · exact Every.of_mem_steps implies part levels _ every.1 front
      · exact EveryAll.of_mem_stepsAll implies later levels after every.2 back

end

/-! ## Paths -/

/-- The child that a measured row has at an index comes from one part; the
parts around it keep their tokens on either side. -/
theorem exists_of_measureAll_getElem? {parts : List Outline} {start stop index : Nat} {child : Tree}
    (tiled : Tiles start (frontierAll parts) stop)
    (found : (measureAll start parts)[index]? = some child) :
    ∃ earlier part later first last, parts = earlier ++ part :: later ∧
      Tiles start (frontierAll earlier) first ∧ Tiles first part.frontier last ∧
      Tiles last (frontierAll later) stop ∧ child = part.measure first := by
  induction parts generalizing start index with
  | nil => simp [measureAll] at found
  | cons part later inductionHypothesis =>
      obtain ⟨seam, front, back⟩ := Tiles.append_iff.mp tiled
      cases index with
      | zero =>
          simp only [measureAll, List.getElem?_cons_zero, Option.some.injEq] at found
          exact ⟨[], part, later, start, seam, rfl, rfl, front, back, found.symm⟩
      | succ index =>
          rw [measureAll, List.getElem?_cons_succ, span_measure part start seam front] at found
          obtain ⟨earlier, chosen, others, first, last, rfl, tiledEarlier, inside, behind,
            childEq⟩ := inductionHypothesis back found
          refine ⟨part :: earlier, chosen, others, first, last, rfl, ?_, inside, behind, childEq⟩
          exact Tiles.append_iff.mpr ⟨seam, front, tiledEarlier⟩

/-- Where a node lies: its tokens among those of a whole stretch, its span and
its children. -/
structure Placement (start : Nat) (tokens : List Token) (stop : Nat) (parts : List Outline)
    (span : Span) (children : List Tree) (before after : List Token) : Prop where
  tokens_eq : tokens = before ++ (frontierAll parts ++ after)
  tiles_before : Tiles start before span.start
  tiles_inside : Tiles span.start (frontierAll parts) span.stop
  tiles_after : Tiles span.stop after stop
  children_eq : children = measureAll span.start parts

/-- A place inside one part is a place inside the whole row. -/
theorem Placement.outward {start first last stop : Nat} {earlier tokens later : List Token}
    {parts : List Outline} {span : Span} {children : List Tree} {before after : List Token}
    (placed : Placement first tokens last parts span children before after)
    (tiledEarlier : Tiles start earlier first) (tiledLater : Tiles last later stop) :
    Placement start (earlier ++ (tokens ++ later)) stop parts span children
      (earlier ++ before) (after ++ later) where
  tokens_eq := by rw [placed.tokens_eq]; simp
  tiles_before := Tiles.append_iff.mpr ⟨first, tiledEarlier, placed.tiles_before⟩
  tiles_inside := placed.tiles_inside
  tiles_after := Tiles.append_iff.mpr ⟨last, placed.tiles_after, tiledLater⟩
  children_eq := placed.children_eq

/-- A token that starts behind a node comes after it. -/
theorem Placement.mem_after_of_stop_le {start stop : Nat} {tokens : List Token}
    {parts : List Outline} {span : Span} {children : List Tree} {before after : List Token}
    (placed : Placement start tokens stop parts span children before after) {token : Token}
    (member : token ∈ tokens) (behind : span.stop ≤ token.span.start) : token ∈ after := by
  rw [placed.tokens_eq] at member
  rcases List.mem_append.mp member with earlier | member
  · have tokenBounds := placed.tiles_before.bounds earlier
    have ordered := placed.tiles_inside.start_le_stop
    omega
  · rcases List.mem_append.mp member with inside | later
    · have tokenBounds := placed.tiles_inside.bounds inside
      omega
    · exact later

/-- What a claim about every node says of the node that `path` reaches in the
measured tree. -/
def Reached (claim : NodeClaim) (levels : Nat) (after tokens : List Token) (start stop : Nat)
    (steps : Nat) (kind : Kind) (span : Span) (children : List Tree) : Prop :=
  ∃ levelsInside parts before behind, levels = levelsInside + 1 + steps ∧
    claim levelsInside (behind ++ after) kind parts ∧
    Placement start tokens stop parts span children before behind

theorem Reached.outward {claim : NodeClaim} {levels : Nat} {after tokens : List Token}
    {start first last stop steps : Nat} {kind : Kind} {span : Span} {children : List Tree}
    {earlier later : List Token}
    (reached : Reached claim levels (later ++ after) tokens first last steps kind span children)
    (tiledEarlier : Tiles start earlier first) (tiledLater : Tiles last later stop) :
    Reached claim levels after (earlier ++ (tokens ++ later)) start stop steps kind span
      children := by
  obtain ⟨levelsInside, parts, before, behind, levelsEq, holds, placed⟩ := reached
  refine ⟨levelsInside, parts, earlier ++ before, behind ++ later, levelsEq, ?_,
    placed.outward tiledEarlier tiledLater⟩
  rw [List.append_assoc]
  exact holds

/-- A claim about every node holds of each node that a path reaches in the
measured tree; a path uses up one level for each of its steps. -/
theorem Every.at? {claim : NodeClaim} (path : List Nat) :
    ∀ {outline : Outline} {levels start stop : Nat} {after : List Token} {kind : Kind} {span : Span}
      {children : List Tree}, Every claim levels after outline →
      Tiles start outline.frontier stop →
      (outline.measure start).at? path = some (.node kind span children) →
      Reached claim levels after outline.frontier start stop path.length kind span children := by
  induction path with
  | nil =>
      intro outline levels start stop after kind span children every tiled reached
      cases outline with
      | leaf token => simp [measure, Tree.at?] at reached
      | node ownKind parts =>
          cases levels with
          | zero => simp [Every] at every
          | succ levels =>
              have spanEq := span_measure (.node ownKind parts) start stop tiled
              simp only [measure, Tree.at?, Option.some.injEq, Tree.node.injEq, Tree.span]
                at reached spanEq
              obtain ⟨rfl, rfl, rfl⟩ := reached
              refine ⟨levels, parts, [], [], rfl, every.1, ?_⟩
              rw [spanEq]
              exact ⟨by simp [frontier], rfl, tiled, rfl, rfl⟩
  | cons index path inductionHypothesis =>
      intro outline levels start stop after kind span children every tiled reached
      cases outline with
      | leaf token => simp [measure, Tree.at?, Tree.children] at reached
      | node ownKind parts =>
          cases levels with
          | zero => simp [Every] at every
          | succ levels =>
              simp only [measure, Tree.at?, Tree.children] at reached
              split at reached
              · next child found =>
                  obtain ⟨earlier, part, later, first, last, rfl, tiledEarlier, inside, behind,
                    rfl⟩ := exists_of_measureAll_getElem? tiled found
                  have everyPart := (everyAll_append_iff.mp every.2).2.1
                  have inPart := inductionHypothesis everyPart inside reached
                  obtain ⟨levelsInside, chosen, before, rest, levelsEq, holds, placed⟩ :=
                    inPart.outward tiledEarlier behind
                  refine ⟨levelsInside, chosen, before, rest, ?_, holds, ?_⟩
                  · rw [levelsEq, List.length_cons]
                    omega
                  · rw [frontier, frontierAll_append, frontierAll]
                    exact placed
              · cases reached

/-- The same below a root, which uses up no level itself. -/
theorem EveryAll.at? {claim : NodeClaim} {levels start stop : Nat} {rootKind : Kind}
    {parts : List Outline} (every : EveryAll claim levels [] parts)
    (tiled : Tiles start (frontierAll parts) stop) {path : List Nat} (below : path ≠ [])
    {kind : Kind} {span : Span} {children : List Tree}
    (reached : ((node rootKind parts).measure start).at? path = some (.node kind span children)) :
    ∃ levelsInside inner before after, levels = levelsInside + path.length ∧
      claim levelsInside after kind inner ∧
      Placement start (frontierAll parts) stop inner span children before after := by
  -- The root is the only node with all levels left inside it.
  have whole : Every (fun inside after nodeKind inner =>
      inside = levels ∨ claim inside after nodeKind inner)
      (levels + 1) [] (.node rootKind parts) := by
    rw [Every]
    constructor
    · exact Or.inl rfl
    · exact EveryAll.mono (fun _ _ _ _ holds => Or.inr holds) parts levels [] every
  obtain ⟨levelsInside, inner, before, after, levelsEq, holds, placed⟩ :=
    whole.at? path tiled reached
  have shorter : path.length ≠ 0 := fun empty => below (List.eq_nil_of_length_eq_zero empty)
  refine ⟨levelsInside, inner, before, after, by omega, ?_, placed⟩
  rcases holds with sameLevel | holds
  · omega
  · rwa [List.append_nil] at holds

end TemplateFrontend.Outline
