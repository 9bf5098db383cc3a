import TemplateFrontend.Proofs.Grammar.Origin
import Mathlib.Data.List.Nodup

/-!
Contract: where a program calls the rule for statements, and at which depth.

Owns:
- `statementAtDepth`, the rule for statements by the nesting depth of the call, counted
  from one at the top level;
- `Reached`, the drafts on which the program of a row of tokens calls that rule;
- `CalledOrigin`, the claim that such a call placed a node, and `program_called`, which
  says that every node of a program has one;
- `Reached.stands`: what such a call places stands at the level of its depth.
-/

namespace TemplateFrontend.Grammar

open Outline (frontierAll EveryAll NodeClaim)

/-! ## Statements by depth -/

/-- The rule for statements at a nesting depth. Statements at the top level have
depth one; those in a statement are one deeper. -/
def statementAtDepth (limits : Limits) (depth : Nat) : StatementRule :=
  statement limits (limits.depth + 1 - depth)

/-- Within the ceiling, the statements in a statement are called one deeper. -/
theorem statementAtDepth_of_le {limits : Limits} {depth : Nat} (within : depth ≤ limits.depth)
    (draft : Draft) :
    statementAtDepth limits depth draft =
      statementAt limits (statementAtDepth limits (depth + 1)) draft := by
  rw [statementAtDepth, show limits.depth + 1 - depth = limits.depth + 1 - (depth + 1) + 1 by omega,
    statement]
  rfl

theorem statementAtDepth_one (limits : Limits) :
    statementAtDepth limits 1 = statement limits limits.depth := rfl

theorem trips_statementAtDepth (limits : Limits) (depth : Nat) (draft : Draft) :
    draft.trips.length ≤ (statementAtDepth limits depth draft).2.trips.length := by
  obtain ⟨_, added⟩ := statement_grows limits (limits.depth + 1 - depth) draft
  exact added.trips_suffix.length_le

/-- The top level around any rule for statements. -/
def topLevelAround (limits : Limits) (nested : StatementRule) (draft : Draft) : Draft :=
  repeatWhile (fun current => !current.atEnd)
    (fun current => .again (nested.placeOrAdvance current))
    (·.trip .topLevel) limits.topLevelIterations draft

theorem topLevel_eq (limits : Limits) (draft : Draft) :
    topLevel limits draft = topLevelAround limits (statementAtDepth limits 1) draft := rfl

theorem runs_topLevelAround (limits : Limits) (draft : Draft) :
    Runs (fun _ => True) id draft fun nested => topLevelAround limits nested draft := by
  apply runs_loop trivial
  exact fun current => (runs_placeOrAdvance current).bind (fun placed _ => Turn.again placed)
    fun placed => .done (Turn.again placed)

/-! ## Calls -/

/-- The program of the tokens calls the rule for statements on these drafts, at these
depths: around everything is the top level, and statements call each other. -/
inductive Reached (limits : Limits) (tokens : List Token) (stop : Nat) : Nat → Draft → Prop
  | outermost {called : Draft}
      (calls : Calls (fun nested => topLevelAround limits nested (.ofTokens tokens stop))
        (statementAtDepth limits 1) called) :
      Reached limits tokens stop 1 called
  | nested {depth : Nat} {draft called : Draft} (reached : Reached limits tokens stop depth draft)
      (inside : depth ≤ limits.depth)
      (calls : Calls (fun nested => statementAt limits nested draft)
        (statementAtDepth limits (depth + 1)) called) :
      Reached limits tokens stop (depth + 1) called

/-- The node was placed by a call that the program makes, at the depth of its level, and
the ceilings met by then are among `trips`. -/
def CalledOrigin (limits : Limits) (tokens : List Token) (stop : Nat) (trips : List Trip) :
    NodeClaim := fun levels after kind parts =>
  ∃ depth draft result, depth + levels = limits.depth ∧ Reached limits tokens stop depth draft ∧
    statementAtDepth limits depth draft = (.node, result) ∧
    result.placed = .node kind parts :: draft.settle.placed ∧ result.rest = after ∧
    result.trips <:+ trips

section Called

variable (limits : Limits) (tokens : List Token) (stop : Nat)

theorem calledOrigin_lasting : Lasting (CalledOrigin limits tokens stop) := by
  rintro earlier later more levels after kind parts
    ⟨depth, draft, result, sum, reached, answer, placedEq, restEq, met⟩
  exact ⟨depth, draft, result, sum, reached, answer, placedEq, restEq, met.trans more⟩

theorem keeps_grows {claim : List Trip → NodeClaim} (lasting : Lasting claim) (levels : Nat)
    (mayMeet : Construct → Prop) : Runs.Keeps mayMeet (Grows claim levels) where
  refl draft := ⟨[], .refl draft⟩
  trans := grows_trans lasting
  advance := grows_advance
  trip draft construct _ := grows_trip draft construct

variable {limits tokens stop}

/-- Every node in what a call of the program places was placed by such a call. -/
theorem Reached.grows {depth levels : Nat} {draft : Draft}
    (reached : Reached limits tokens stop depth draft) (sum : depth + levels = limits.depth + 1) :
    Grows (CalledOrigin limits tokens stop) levels draft
      (statementAtDepth limits depth draft).2 := by
  have lasting : Lasting (CalledOrigin limits tokens stop) :=
    calledOrigin_lasting limits tokens stop
  -- On the levels of nesting that are left.
  induction levels generalizing depth draft with
  | zero =>
      rw [statementAtDepth, show limits.depth + 1 - depth = 0 by omega]
      exact grows_trans lasting (grows_trip draft _) (grows_advance _)
  | succ levels inductionHypothesis =>
      have inside : depth ≤ limits.depth := by omega
      have answerEq := statementAtDepth_of_le inside draft
      have calls : ∀ called, Calls (fun nested => statementAt limits nested draft)
          (statementAtDepth limits (depth + 1)) called →
            Grows (CalledOrigin limits tokens stop) levels called
              (statementAtDepth limits (depth + 1) called).2 :=
        fun called calls => inductionHypothesis (reached.nested inside calls) (by omega)
      have runs := runs_statementAt limits draft
      generalize actionEq : (fun nested => statementAt limits nested draft) = action at runs calls
      rw [show statementAt limits _ draft = action _ from congrFun actionEq _] at answerEq
      rw [answerEq]
      cases runs with
      | atEnd isEnd => exact ⟨[], .refl draft⟩
      | missed notEnd => exact ⟨_, adds_settle draft⟩
      | @node body notEnd isStatement runs =>
          have grown := runs.related_of_calls (keeps_grows lasting levels _)
            (trips_statementAtDepth limits (depth + 1))
            fun called inBody => calls called (inBody.of_body draft.settle.placed)
          obtain ⟨token, later, parts, next, placedEq, added⟩ :=
            exists_parts_of_path lasting notEnd (.single (.call grown))
          refine ⟨_, adds_closed added
            ⟨depth, draft, _, by omega, reached, answerEq, ?_, rfl, List.suffix_rfl⟩⟩
          rw [Draft.closed, placedEq, List.reverse_reverse]

end Called

/-- Every node below the root was placed by a call that the program makes. -/
theorem program_called (limits : Limits) (tokens : List Token) (stop : Nat) {parts : List Outline}
    (outlineEq : (program limits tokens stop).1 = .node .root parts) :
    EveryAll (CalledOrigin limits tokens stop (program limits tokens stop).2.reverse)
      limits.depth [] parts := by
  have lasting : Lasting (CalledOrigin limits tokens stop) :=
    calledOrigin_lasting limits tokens stop
  have topLevelGrown := (runs_topLevelAround limits (.ofTokens tokens stop)).related_of_calls
    (keeps_grows lasting limits.depth _) (trips_statementAtDepth limits 1)
    fun called calls => (Reached.outermost calls).grows (by omega)
  rw [← topLevel_eq] at topLevelGrown
  obtain ⟨grownParts, added⟩ := grows_trans lasting topLevelGrown (placeRest_grows _)
  have placedEq : (placeRest (topLevel limits (.ofTokens tokens stop))).placed =
      grownParts.reverse ++ [] := added.placed_eq
  rw [program, placedEq, List.append_nil, List.reverse_reverse] at outlineEq
  cases outlineEq
  rw [program, List.reverse_reverse]
  exact added.every

/-! ## Levels of parts -/

theorem frontierAll_eq_flatMap (parts : List Outline) :
    frontierAll parts = parts.flatMap Outline.frontier := by
  induction parts with
  | nil => rfl
  | cons part later inductionHypothesis => rw [frontierAll, inductionHypothesis, List.flatMap_cons]

theorem mem_frontierAll {parts : List Outline} {part : Outline} (member : part ∈ parts)
    {token : Token} (held : token ∈ part.frontier) : token ∈ frontierAll parts := by
  rw [frontierAll_eq_flatMap]
  exact List.mem_flatMap.mpr ⟨part, member, held⟩

/-- The part stands so many levels below the root that holds `parts`. -/
inductive Stands (part : Outline) : Nat → List Outline → Prop
  | here {parts : List Outline} (member : part ∈ parts) : Stands part 0 parts
  | inside {level : Nat} {kind : Kind} {parts inner : List Outline}
      (member : .node kind inner ∈ parts) (stands : Stands part level inner) :
      Stands part (level + 1) parts

theorem Stands.part {part : Outline} {level : Nat} {kind : Kind} {inner parts : List Outline}
    (stands : Stands (.node kind inner) level parts) (member : part ∈ inner) :
    Stands part (level + 1) parts := by
  induction stands with
  | here outer => exact .inside outer (.here member)
  | inside outer _ inductionHypothesis => exact .inside outer inductionHypothesis

theorem Stands.token_mem {token : Token} {level : Nat} {parts : List Outline}
    (stands : Stands (.leaf token) level parts) : token ∈ frontierAll parts := by
  induction stands with
  | here member => exact mem_frontierAll member (by simp [Outline.frontier])
  | inside member _ inductionHypothesis => exact mem_frontierAll member inductionHypothesis

/-- Where no token is repeated, one part holds it. -/
theorem eq_of_mem_frontier {parts : List Outline} (distinct : (frontierAll parts).Nodup)
    {left right : Outline} (leftMember : left ∈ parts) (rightMember : right ∈ parts) {token : Token}
    (inLeft : token ∈ left.frontier) (inRight : token ∈ right.frontier) : left = right := by
  induction parts with
  | nil => cases leftMember
  | cons part later inductionHypothesis =>
      rw [frontierAll] at distinct
      obtain ⟨_, laterDistinct, apart⟩ := List.nodup_append.mp distinct
      rcases List.mem_cons.mp leftMember with rfl | leftLater <;>
        rcases List.mem_cons.mp rightMember with rfl | rightLater
      · rfl
      · exact absurd rfl (apart _ inLeft _ (mem_frontierAll rightLater inRight))
      · exact absurd rfl (apart _ inRight _ (mem_frontierAll leftLater inLeft))
      · exact inductionHypothesis laterDistinct leftLater rightLater

/-- A token stands at one level. -/
theorem Stands.level_eq {token : Token} {parts : List Outline} {level other : Nat}
    (stands : Stands (.leaf token) level parts) (stands' : Stands (.leaf token) other parts)
    (distinct : (frontierAll parts).Nodup) : level = other := by
  induction stands generalizing other with
  | here member =>
      cases stands' with
      | here => rfl
      | inside member' inner =>
          cases eq_of_mem_frontier distinct member member' (by simp [Outline.frontier])
            inner.token_mem
  | inside member inner inductionHypothesis =>
      cases stands' with
      | here member' =>
          cases eq_of_mem_frontier distinct member member' inner.token_mem
            (by simp [Outline.frontier])
      | inside member' inner' =>
          cases eq_of_mem_frontier distinct member member' inner.token_mem inner'.token_mem
          rw [frontierAll_eq_flatMap, List.nodup_flatMap] at distinct
          rw [inductionHypothesis inner' (distinct.1 _ member)]

theorem Grows.mem_placed {claim : List Trip → NodeClaim} {levels : Nat} {draft after : Draft}
    (grows : Grows claim levels draft after) {part : Outline} (member : part ∈ draft.placed) :
    part ∈ after.placed := by
  obtain ⟨parts, added⟩ := grows
  rw [added.placed_eq]
  exact List.mem_append_right _ member

theorem Reached.one_le {limits : Limits} {tokens : List Token} {stop depth : Nat} {draft : Draft}
    (reached : Reached limits tokens stop depth draft) : 1 ≤ depth := by
  cases reached <;> omega

/-- What has been placed when a call of the program ends stands at the level of the call. -/
theorem Reached.stands {limits : Limits} {tokens : List Token} {stop : Nat} {parts : List Outline}
    (outlineEq : (program limits tokens stop).1 = .node .root parts) {depth : Nat} {draft : Draft}
    (reached : Reached limits tokens stop depth draft) {part : Outline}
    (placed : part ∈ (statementAtDepth limits depth draft).2.placed) :
    Stands part (depth - 1) parts := by
  -- On the statements around the call.
  induction reached generalizing part with
  | outermost calls =>
      have behind := ((runs_topLevelAround limits (.ofTokens tokens stop)).related_around_call
        (keeps_grows (origin_lasting limits) limits.depth _)
        (statement_grows limits limits.depth) calls).2
      rw [id, ← statementAtDepth_one, ← topLevel_eq] at behind
      have finished := (grows_trans (origin_lasting limits) behind (placeRest_grows _)).mem_placed
        placed
      rw [program] at outlineEq
      cases outlineEq
      exact .here (List.mem_reverse.mpr finished)
  | @nested depth draft called reached inside calls inductionHypothesis =>
      have answerEq := statementAtDepth_of_le inside draft
      have runs := runs_statementAt limits draft
      generalize actionEq : (fun nested => statementAt limits nested draft) = action at runs calls
      rw [show statementAt limits _ draft = action _ from congrFun actionEq _] at answerEq
      cases runs with
      | atEnd => exact absurd rfl calls.choose_spec.2
      | missed => exact absurd rfl calls.choose_spec.2
      | @node body notEnd isStatement runs =>
          let close (inside : Kind × Draft) : Outcome × Draft :=
            (.node, inside.2.closed inside.1 draft.settle.placed)
          have closing : Calls (fun nested => close (body nested))
            (statementAtDepth limits (depth + 1)) called := calls
          let finished := body (statementAtDepth limits (depth + 1))
          have behind : Grows (Origin limits) _ (statementAtDepth limits (depth + 1) called).2
              finished.2 :=
            (runs.related_around_call (keeps_grows (origin_lasting limits) _ _)
              (statement_grows limits _) closing.of_map).2
          have node : Stands (.node finished.1 finished.2.placed.reverse) (depth - 1) parts := by
            apply inductionHypothesis
            rw [answerEq]
            exact List.mem_cons_self
          have stands := node.part (List.mem_reverse.mpr (behind.mem_placed placed))
          rwa [Nat.sub_add_cancel reached.one_le] at stands

end TemplateFrontend.Grammar
