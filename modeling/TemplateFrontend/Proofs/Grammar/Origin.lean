import TemplateFrontend.Proofs.Grammar.Moves
import TemplateFrontend.Proofs.Tree.Nodes

/-!
Contract: no rule loses, repeats or reorders a token, and every node comes from
a statement.

Owns:
- `Adds`, a draft that has moved on by some parts whose tokens were taken off
  the front of the rest;
- `Origin`, the claim that a node is what the statement rule for its level
  placed;
- `statement_grows` and `program_origin`, which carry both through all rules.
-/

namespace TemplateFrontend.Grammar

open Outline (frontierAll EveryAll NodeClaim)

/-! ## Moving on by parts -/

/-- `after` is `draft` moved on by `parts`: they were placed in order, their
tokens were taken off the front of the rest, and `claim` holds of their nodes.
The claim may speak of the ceilings that had been met by then. -/
structure Adds (claim : List Trip → NodeClaim) (levels : Nat) (draft after : Draft)
    (parts : List Outline) : Prop where
  placed_eq : after.placed = parts.reverse ++ draft.placed
  rest_eq : draft.rest = frontierAll parts ++ after.rest
  stop_eq : after.stop = draft.stop
  trips_suffix : draft.trips <:+ after.trips
  every : EveryAll (claim after.trips) levels after.rest parts

def Grows (claim : List Trip → NodeClaim) (levels : Nat) (draft after : Draft) : Prop :=
  ∃ parts, Adds claim levels draft after parts

/-- A claim that stays true when more ceilings are met. -/
def Lasting (claim : List Trip → NodeClaim) : Prop :=
  ∀ {earlier later : List Trip}, earlier <:+ later → ∀ levels after kind parts,
    claim earlier levels after kind parts → claim later levels after kind parts

section Adding

variable {claim : List Trip → NodeClaim} {levels : Nat}

theorem Adds.refl (draft : Draft) : Adds claim levels draft draft [] where
  placed_eq := rfl
  rest_eq := rfl
  stop_eq := rfl
  trips_suffix := List.suffix_rfl
  every := by simp [EveryAll]

theorem Adds.trans (lasting : Lasting claim) {first second third : Draft}
    {front back : List Outline} (earlier : Adds claim levels first second front)
    (later : Adds claim levels second third back) :
    Adds claim levels first third (front ++ back) where
  placed_eq := by rw [later.placed_eq, earlier.placed_eq, List.reverse_append, List.append_assoc]
  rest_eq := by
    rw [earlier.rest_eq, later.rest_eq, Outline.frontierAll_append, List.append_assoc]
  stop_eq := later.stop_eq.trans earlier.stop_eq
  trips_suffix := earlier.trips_suffix.trans later.trips_suffix
  every := by
    have frontEvery := EveryAll.mono (lasting later.trips_suffix) front levels _ earlier.every
    rw [later.rest_eq] at frontEvery
    exact Outline.everyAll_append_iff.mpr ⟨frontEvery, later.every⟩

theorem adds_leaves {draft after : Draft} {tokens : List Token}
    (placedEq : after.placed = Draft.leaves tokens ++ draft.placed)
    (restEq : draft.rest = tokens ++ after.rest) (stopEq : after.stop = draft.stop)
    (tripsEq : after.trips = draft.trips) :
    Adds claim levels draft after (tokens.map .leaf) where
  placed_eq := placedEq
  rest_eq := by rw [Outline.frontierAll_map_leaf, restEq]
  stop_eq := stopEq
  trips_suffix := tripsEq ▸ List.suffix_rfl
  every := Outline.everyAll_map_leaf tokens

theorem adds_settle (draft : Draft) :
    Adds claim levels draft draft.settle (draft.leading.map .leaf) :=
  adds_leaves rfl draft.leading_append_settle_rest.symm rfl rfl

theorem adds_advance {draft : Draft} {token : Token} {later : List Token}
    (next : draft.NextIs token later) :
    Adds claim levels draft draft.advance ((draft.leading ++ [token]).map .leaf) := by
  refine adds_leaves ?_ ?_ ?_ ?_ <;> rw [next.advance_eq]
  · simp [Draft.leaves]
  · rw [List.append_assoc, List.singleton_append]
    exact next.rest_eq

theorem grows_advance (draft : Draft) : Grows claim levels draft draft.advance := by
  rcases draft.next_cases with empty | ⟨token, later, next⟩
  · rw [Draft.advance_of_settle_rest_nil empty]
    exact ⟨[], .refl draft⟩
  · exact ⟨_, adds_advance next⟩

theorem adds_trip (draft : Draft) (construct : Construct) :
    Adds claim levels draft (draft.trip construct) [] :=
  ⟨rfl, rfl, rfl, List.suffix_cons _ _, by simp [EveryAll]⟩

theorem grows_trip (draft : Draft) (construct : Construct) :
    Grows claim levels draft (draft.trip construct) :=
  ⟨[], adds_trip draft construct⟩

theorem grows_trans (lasting : Lasting claim) {first second third : Draft}
    (earlier : Grows claim levels first second) (later : Grows claim levels second third) :
    Grows claim levels first third :=
  let ⟨_, front⟩ := earlier
  let ⟨_, back⟩ := later
  ⟨_, front.trans lasting back⟩

/-- A path moves on by parts when the calls on it do. -/
theorem grows_of_path (lasting : Lasting claim) {draft after : Draft}
    (path : Path (Grows claim levels) draft after) : Grows claim levels draft after :=
  path.related (Grows claim levels) (fun current => ⟨[], .refl current⟩) (grows_trans lasting)
    grows_advance (fun current construct _ => grows_trip current construct) id

end Adding

/-! ## The origin of nodes -/

/-- The node was placed by the statement rule that has `levels + 1` levels
left, and the ceilings met by then are among `trips`. -/
def Origin (limits : Limits) (trips : List Trip) : NodeClaim := fun levels after kind parts =>
  ∃ draft result, statement limits (levels + 1) draft = (.node, result) ∧
    result.placed = .node kind parts :: draft.settle.placed ∧ result.rest = after ∧
    result.trips <:+ trips

theorem origin_lasting (limits : Limits) : Lasting (Origin limits) := by
  rintro earlier later more levels after kind parts ⟨draft, result, answer, placedEq, restEq, met⟩
  exact ⟨draft, result, answer, placedEq, restEq, met.trans more⟩

/-- What a node holds when it is closed: its first token, then whatever the
rest of its rule placed. -/
theorem exists_parts_of_path {claim : List Trip → NodeClaim} (lasting : Lasting claim)
    {levels : Nat} {draft inside : Draft} (notEnd : draft.atEnd = false)
    (path : Path (Grows claim levels) draft.opened.advance inside) :
    ∃ token later parts, draft.NextIs token later ∧ inside.placed = (.leaf token :: parts).reverse ∧
      Adds claim levels draft.opened inside (.leaf token :: parts) := by
  obtain ⟨token, later, next⟩ := Draft.exists_nextIs notEnd
  obtain ⟨parts, added⟩ := grows_of_path lasting path
  have whole := (adds_advance next.opened).trans lasting added
  rw [draft.settled_opened] at whole
  refine ⟨token, later, parts, next, ?_, whole⟩
  rw [whole.placed_eq, Draft.opened_placed, List.append_nil]
  rfl

/-- A closed node moves the draft around it on by its leading trivia and
itself. -/
theorem adds_closed {claim : List Trip → NodeClaim} {levels : Nat} {draft inside : Draft}
    {kind : Kind} {parts : List Outline}
    (added : Adds claim levels draft.opened inside parts)
    (holds : claim inside.trips levels inside.rest kind parts) :
    Adds claim (levels + 1) draft (inside.closed kind draft.settle.placed)
      (draft.leading.map .leaf ++ [.node kind parts]) where
  placed_eq := by
    simp [Draft.closed, added.placed_eq, Draft.settle_eq, Draft.leaves]
  rest_eq := by
    rw [Outline.frontierAll_append, Outline.frontierAll_map_leaf,
      ← draft.leading_append_settle_rest, List.append_assoc]
    congr 1
    rw [← Draft.opened_rest, added.rest_eq]
    simp [frontierAll, Outline.frontier, Draft.closed]
  stop_eq := added.stop_eq
  trips_suffix := added.trips_suffix
  every := by
    apply Outline.everyAll_append_iff.mpr
    constructor
    · exact Outline.everyAll_map_leaf _
    · simp only [EveryAll, Outline.Every, and_true, frontierAll, List.nil_append]
      exact ⟨holds, added.every⟩

/-- A statement rule that places a node adds the trivia before it and the node, which
begins with the next significant token. -/
theorem exists_node_of_grows {limits : Limits} {levels : Nat} {draft result : Draft}
    (nested : ∀ draft, Grows (Origin limits) levels draft (statement limits levels draft).2)
    (answerEq : statement limits (levels + 1) draft = (.node, result)) :
    ∃ kind token later parts, draft.NextIs token later ∧
      Adds (Origin limits) (levels + 1) draft result
        (draft.leading.map .leaf ++ [.node kind (.leaf token :: parts)]) := by
  have answer := statementAt_answer limits nested draft
  rw [show statementAt limits (statement limits levels) draft = (.node, result)
    from answerEq] at answer
  cases answer with
  | @node kind inside notEnd isStatement path =>
      obtain ⟨token, later, parts, next, placedEq, added⟩ :=
        exists_parts_of_path (origin_lasting limits) notEnd path
      refine ⟨kind, token, later, parts, next,
        adds_closed added ⟨draft, _, answerEq, ?_, rfl, List.suffix_rfl⟩⟩
      rw [Draft.closed, placedEq, List.reverse_reverse]

/-- The rule for statements loses no token, and every node in what it places
has its origin in a statement rule. -/
theorem statement_grows (limits : Limits) (levels : Nat) (draft : Draft) :
    Grows (Origin limits) levels draft (statement limits levels draft).2 := by
  induction levels generalizing draft with
  | zero => exact grows_trans (origin_lasting limits) (grows_trip draft _) (grows_advance _)
  | succ levels inductionHypothesis =>
      have answer := statementAt_answer limits inductionHypothesis draft
      cases answerEq : statement limits (levels + 1) draft with
      | mk outcome result =>
          rw [show statementAt limits (statement limits levels) draft = (outcome, result)
            from answerEq] at answer
          cases answer with
          | atEnd isEnd => exact ⟨[], .refl draft⟩
          | missed notEnd => exact ⟨_, adds_settle draft⟩
          | node =>
              obtain ⟨_, _, _, _, _, added⟩ := exists_node_of_grows inductionHypothesis answerEq
              exact ⟨_, added⟩

/-- What may be read off the answer of a statement rule that placed a node:
the node begins with the next significant token and is of a kind of
statements. -/
theorem Origin.begins {limits : Limits} {trips : List Trip} {levels : Nat} {after : List Token}
    {kind : Kind} {parts : List Outline} (origin : Origin limits trips levels after kind parts) :
    IsStatementKind kind ∧
      ∃ token later, parts = .leaf token :: later ∧ token.isTrivia = false := by
  obtain ⟨draft, result, answerEq, resultPlaced, _, _⟩ := origin
  have answer := statementAt_answer limits (statement_grows limits levels) draft
  rw [show statementAt limits (statement limits levels) draft = (.node, result)
    from answerEq] at answer
  cases answer with
  | node notEnd isStatement path =>
      obtain ⟨token, later, others, next, placedEq, _⟩ :=
        exists_parts_of_path (origin_lasting limits) notEnd path
      rw [Draft.closed, placedEq, List.reverse_reverse] at resultPlaced
      cases resultPlaced
      exact ⟨isStatement, token, others, rfl, next.significant⟩

/-! ## Whole programs -/

theorem topLevel_grows (limits : Limits) (draft : Draft) :
    Grows (Origin limits) limits.depth draft (topLevel limits draft) := by
  apply repeatWhile_related (Grows (Origin limits) limits.depth)
  case refl => exact fun current => ⟨[], .refl current⟩
  case trans => exact grows_trans (origin_lasting limits)
  case turnRelated =>
    intro current _
    exact grows_of_path (origin_lasting limits)
      (path_placeOrAdvance (statement_grows limits limits.depth) current)
  case cappedRelated => exact fun current _ => grows_trip current .topLevel

theorem placeRest_grows {claim : List Trip → NodeClaim} {levels : Nat} (draft : Draft) :
    Grows claim levels draft (placeRest draft) :=
  ⟨_, adds_leaves (Draft.foldl_leaf draft.rest draft.placed) (List.append_nil _).symm rfl rfl⟩

/-- The root holds every token once and in order, and every node below it has
its origin in a statement rule. -/
theorem program_origin (limits : Limits) (tokens : List Token) (stop : Nat) :
    ∃ parts, (program limits tokens stop).1 = .node .root parts ∧ frontierAll parts = tokens ∧
      EveryAll (Origin limits (program limits tokens stop).2.reverse) limits.depth [] parts := by
  obtain ⟨parts, added⟩ := grows_trans (origin_lasting limits)
    (topLevel_grows limits (.ofTokens tokens stop)) (placeRest_grows _)
  refine ⟨parts, ?_, ?_, ?_⟩
  · have placedEq : _ = parts.reverse ++ [] := added.placed_eq
    simp only [program, placedEq, List.append_nil, List.reverse_reverse]
  · have restEq := added.rest_eq
    rw [show (placeRest _).rest = [] from rfl, List.append_nil] at restEq
    exact restEq.symm
  · simp only [program, List.reverse_reverse]
    exact added.every

end TemplateFrontend.Grammar
