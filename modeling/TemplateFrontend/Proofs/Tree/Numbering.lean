import TemplateFrontend.Proofs.Tree.Shape

/-!
Contract: trees whose spans are replaced by the significant tokens they cover.

Owns:
- `Token.significant` and `ordinalsIn`, the significant tokens of a row and the
  ordinals of those that a span covers;
- `Numbered`, a tree of kinds and ordinals, and `Tree.numbered?`, which drops
  the trivia of a tree and numbers the rest;
- `Shape.number`, which numbers a shape without any spans, and
  `Outline.numbered?_measure`, which says that the numbers of a measured tree
  follow from its shape.

Does not own: offsets that no element of a tree has.
-/

namespace TemplateFrontend

/-- The tokens of a row that are not trivia. -/
def Token.significant (tokens : List Token) : List Token :=
  tokens.filter fun token => !token.isTrivia

open Token (significant)

namespace Token

@[simp] theorem significant_append (left right : List Token) :
    significant (left ++ right) = significant left ++ significant right :=
  List.filter_append ..

theorem significant_cons {token : Token} (isSignificant : token.isTrivia = false)
    (later : List Token) : significant (token :: later) = token :: significant later :=
  List.filter_cons_of_pos (by simp [isSignificant])

theorem mem_of_mem_significant {tokens : List Token} {token : Token}
    (member : token ∈ significant tokens) : token ∈ tokens :=
  (List.mem_filter.mp member).1

end Token

/-- The ordinals of those tokens of a row that lie inside a span. -/
def ordinalsIn (tokens : List Token) (span : Span) : List Nat :=
  (tokens.zipIdx.filter fun (token, _) =>
    span.start ≤ token.span.start ∧ token.span.stop ≤ span.stop).map Prod.snd

/-- A tree of kinds, with the ordinals of the tokens that each element covers. -/
inductive Numbered where
  | leaf (kind : Kind) (ordinals : List Nat)
  | node (kind : Kind) (ordinals : List Nat) (children : List Numbered)

namespace Tree

mutual

/-- The element without trivia, its spans read against a row of tokens. -/
def numbered? (tokens : List Token) : Tree → Option Numbered
  | .leaf token =>
      if token.isTrivia then none else some (.leaf token.kind (ordinalsIn tokens token.span))
  | .node kind span children =>
      some (.node kind (ordinalsIn tokens span) (numberedAll tokens children))

def numberedAll (tokens : List Token) : List Tree → List Numbered
  | [] => []
  | child :: later => (child.numbered? tokens).toList ++ numberedAll tokens later

end

end Tree

namespace Shape

mutual

/-- The numbers of a shape whose first token has the ordinal `first`. -/
def number : (first : Nat) → Shape → Numbered
  | first, .leaf kind => .leaf kind [first]
  | first, .node kind parts =>
      .node kind (List.range' first (spellingAll parts).length) (numberAll first parts)

def numberAll : (first : Nat) → List Shape → List Numbered
  | _, [] => []
  | first, part :: later => part.number first :: numberAll (first + part.spelling.length) later

end

theorem numberAll_append (left right : List Shape) (first : Nat) :
    numberAll first (left ++ right) =
      numberAll first left ++ numberAll (first + (spellingAll left).length) right := by
  induction left generalizing first with
  | nil => rfl
  | cons part later inductionHypothesis =>
      simp only [List.cons_append, numberAll, inductionHypothesis, spellingAll,
        List.length_append, Nat.add_assoc]

end Shape

/-! ## The tokens of a stretch -/

theorem bounds_of_mem_zipIdx {start stop first : Nat} {tokens : List Token}
    (tiled : Tiles start tokens stop) {entry : Token × Nat}
    (member : entry ∈ (significant tokens).zipIdx first) :
    start ≤ entry.1.span.start ∧ entry.1.span.start < entry.1.span.stop ∧
      entry.1.span.stop ≤ stop :=
  tiled.bounds (Token.mem_of_mem_significant (List.fst_mem_of_mem_zipIdx member))

/-- The span of a stretch of a tiled row covers the tokens of the stretch. -/
theorem ordinalsIn_of_tiles {low start stop high : Nat} {before inside after : List Token}
    (tiledBefore : Tiles low before start) (tiledInside : Tiles start inside stop)
    (tiledAfter : Tiles stop after high) :
    ordinalsIn (significant (before ++ (inside ++ after))) ⟨start, stop⟩ =
      List.range' (significant before).length (significant inside).length := by
  have beforeNone : ∀ entry ∈ (significant before).zipIdx,
      ¬ (start ≤ entry.1.span.start ∧ entry.1.span.stop ≤ stop) := by
    intro entry member
    have bounds := bounds_of_mem_zipIdx tiledBefore member
    omega
  have insideAll (first : Nat) : ∀ entry ∈ (significant inside).zipIdx first,
      start ≤ entry.1.span.start ∧ entry.1.span.stop ≤ stop := by
    intro entry member
    have bounds := bounds_of_mem_zipIdx tiledInside member
    omega
  have afterNone (first : Nat) : ∀ entry ∈ (significant after).zipIdx first,
      ¬ (start ≤ entry.1.span.start ∧ entry.1.span.stop ≤ stop) := by
    intro entry member
    have bounds := bounds_of_mem_zipIdx tiledAfter member
    omega
  simp only [ordinalsIn, Token.significant_append, List.zipIdx_append, List.filter_append]
  rw [List.filter_eq_nil_iff.mpr (by simpa using beforeNone),
    List.filter_eq_self.mpr (by simpa using insideAll _),
    List.filter_eq_nil_iff.mpr (by simpa using afterNone _)]
  simp

namespace Outline

mutual

/-- The shape of an element spells its significant tokens. -/
theorem significant_frontier :
    ∀ outline : Outline, (significant outline.frontier).map Token.kind =
      Shape.spellingAll outline.shape?.toList
  | .leaf token => by
      by_cases trivia : token.isTrivia = true
      · simp [significant, frontier, shape?, trivia]
      · simp [significant, frontier, shape?, trivia]
  | .node kind parts => by
      simp only [frontier, shape?, Option.toList_some, Shape.spellingAll_node_cons,
        Shape.spellingAll_nil, List.append_nil]
      exact significant_frontierAll parts

theorem significant_frontierAll :
    ∀ parts : List Outline, (significant (frontierAll parts)).map Token.kind =
      Shape.spellingAll (shapes parts)
  | [] => rfl
  | part :: later => by
      simp only [frontierAll, shapes, Token.significant_append, List.map_append,
        Shape.spellingAll_append]
      rw [significant_frontier part, significant_frontierAll later]

end

theorem length_significant_frontierAll (parts : List Outline) :
    (significant (frontierAll parts)).length = (Shape.spellingAll (shapes parts)).length := by
  rw [← significant_frontierAll, List.length_map]

/-! ## Numbering measured trees -/

mutual

/-- Where an outline stands in a tiled row, its shape decides the numbers of
its measured tree. -/
theorem numbered?_measure :
    ∀ (outline : Outline) {low start stop high : Nat} {before after : List Token},
      Tiles low before start → Tiles start outline.frontier stop → Tiles stop after high →
      (outline.measure start).numbered? (significant (before ++ (outline.frontier ++ after))) =
        outline.shape?.map (Shape.number (significant before).length)
  | .leaf token, low, start, stop, high, before, after, tiledBefore, tiledInside, tiledAfter => by
      have covered := ordinalsIn_of_tiles tiledBefore tiledInside tiledAfter
      have spanEq : token.span = ⟨start, stop⟩ := span_measure (.leaf token) start stop tiledInside
      by_cases trivia : token.isTrivia = true
      · simp [measure, Tree.numbered?, shape?, trivia]
      · have single : significant (frontier (.leaf token)) = [token] := by
          simp [significant, frontier, trivia]
        simp only [measure, Tree.numbered?, shape?, trivia, spanEq, covered, single]
        rfl
  | .node kind parts, low, start, stop, high, before, after, tiledBefore, tiledInside,
      tiledAfter => by
      have spanEq := span_measure (.node kind parts) start stop tiledInside
      have covered := ordinalsIn_of_tiles tiledBefore tiledInside tiledAfter
      have below := numberedAll_measureAll parts tiledBefore tiledInside tiledAfter
      simp only [measure, Tree.span] at spanEq
      simp only [measure, Tree.numbered?, spanEq, covered, shape?, Option.map_some, Shape.number]
      rw [frontier, below, length_significant_frontierAll]

theorem numberedAll_measureAll :
    ∀ (parts : List Outline) {low start stop high : Nat} {before after : List Token},
      Tiles low before start → Tiles start (frontierAll parts) stop → Tiles stop after high →
      Tree.numberedAll (significant (before ++ (frontierAll parts ++ after)))
          (measureAll start parts) =
        Shape.numberAll (significant before).length (shapes parts)
  | [], _, _, _, _, _, _, _, _, _ => rfl
  | part :: later, low, start, stop, high, before, after, tiledBefore, tiledInside,
      tiledAfter => by
      obtain ⟨seam, front, back⟩ := Tiles.append_iff.mp tiledInside
      have partEq := numbered?_measure part tiledBefore front
        (Tiles.append_iff.mpr ⟨stop, back, tiledAfter⟩)
      -- For the later parts, this part belongs to what stands before.
      have laterEq := numberedAll_measureAll later
        (Tiles.append_iff.mpr ⟨start, tiledBefore, front⟩) back tiledAfter
      have partLength := congrArg List.length (significant_frontier part)
      simp only [List.append_assoc] at laterEq
      simp only [measureAll, span_measure part start seam front, Tree.numberedAll, frontierAll,
        List.append_assoc, partEq, laterEq, shapes, Shape.numberAll_append]
      rw [List.length_map] at partLength
      rw [Token.significant_append, List.length_append, partLength]
      cases part.shape? <;> simp [Shape.numberAll]

end

end Outline

end TemplateFrontend
