import TemplateFrontend.Proofs.Grammar.Simulation.Rules

/-!
Contract: runs of the grammar of which the second one ends early.

Owns:
- `Cut`, two drafts that have placed the same parts, where `after` is cut off the
  rest of the second one;
- `cutting`, the pairing of two such runs, and that it is a simulation;
- `statement_cut`, which says that a statement that leaves `after` places the same
  node when `after` is missing.

The first run is lost as soon as it places a token of `after`. Ceilings do not
count: near its end the first run may meet one that the second run does not meet.
-/

namespace TemplateFrontend.Grammar

/-! ## Cut drafts -/

/-- No trivia stands at the end. -/
def Trimmed (tokens : List Token) : Prop :=
  ∀ last ∈ tokens.getLast?, last.isTrivia = false

theorem Trimmed.suffix {tokens later : List Token} (trimmed : Trimmed tokens)
    (suffix : later <:+ tokens) : Trimmed later := by
  obtain ⟨front, rfl⟩ := suffix
  intro last isLast
  apply trimmed
  rw [List.getLast?_append, isLast]
  rfl

/-- A trimmed row of trivia is empty. -/
theorem Trimmed.eq_nil {tokens : List Token} (trimmed : Trimmed tokens)
    (allTrivia : ∀ token ∈ tokens, token.isTrivia = true) : tokens = [] := by
  cases lastEq : tokens.getLast? with
  | none => exact List.getLast?_eq_none_iff.mp lastEq
  | some last =>
      have significant := trimmed last lastEq
      rw [allTrivia last (List.mem_of_getLast? lastEq)] at significant
      cases significant

/-- Both drafts have placed the same parts, and `after` is cut off what is left
for the second one. What stays does not end with trivia if anything is cut off. No
token looks like the end. -/
structure Cut (after : List Token) (left right : Draft) : Prop where
  rest_eq : left.rest = right.rest ++ after
  placed_eq : left.placed = right.placed
  trimmed : after = [] ∨ Trimmed right.rest
  kinds : ∀ token ∈ left.rest, token.kind ≠ .endOfInput

section Cut

variable {after : List Token} {left right : Draft} (cut : Cut after left right)

include cut

/-- Where the second draft has a significant token left, both stand before it. -/
theorem Cut.next {token : Token} {later : List Token} (next : right.NextIs token later) :
    left.leading = right.leading ∧ left.NextIs token (later ++ after) := by
  apply Draft.nextIs_of_rest_eq
  · rw [cut.rest_eq, next.rest_eq, List.append_assoc, List.cons_append]
  · exact fun _ => Draft.isTrivia_of_mem_leading
  · exact next.significant

/-- Otherwise the rests are the same, or all that is left for the first draft is
cut off. -/
theorem Cut.atEnd (empty : right.settle.rest = []) :
    left.rest = right.rest ∨ left.rest = after ∧ right.rest = [] := by
  have allTrivia : ∀ token ∈ right.rest, token.isTrivia = true := List.dropWhile_eq_nil_iff.mp empty
  rcases cut.trimmed with rfl | trimmed
  · exact Or.inl (by rw [cut.rest_eq, List.append_nil])
  · have nothing := trimmed.eq_nil allTrivia
    exact Or.inr ⟨by rw [cut.rest_eq, nothing, List.nil_append], nothing⟩

theorem Cut.trimmed_suffix {later : List Token} (suffix : later <:+ right.rest) :
    after = [] ∨ Trimmed later :=
  cut.trimmed.imp_right fun trimmed => trimmed.suffix suffix

end Cut

/-- Runs of which the second one ends before `after`. -/
def cutting (after : List Token) : Pairing where
  lost draft := ¬ after <:+ draft.rest
  related := Cut after

section Cutting

variable {after : List Token} {left right : Draft}

theorem lost_of_suffix {draft draft' : Draft} (suffix : draft'.rest <:+ draft.rest) :
    (cutting after).Keeps draft draft' :=
  fun lost stays => lost (stays.trans suffix)

/-- A draft that has placed a token of `after` is lost. -/
theorem lost_of_length_lt {draft : Draft} (shorter : draft.rest.length < after.length) :
    (cutting after).lost draft := by
  intro suffix
  have bound := suffix.length_le
  omega

theorem Cut.parted (cut : Cut after left right) (restEq : left.rest = after)
    (nothing : right.rest = []) (notEnd : left.atEnd = false) :
    (cutting after).Parted left right := by
  obtain ⟨token, later, next⟩ := Draft.exists_nextIs notEnd
  have lengthEq : after.length = left.leading.length + (later.length + 1) := by
    rw [← restEq]
    simpa using congrArg List.length next.rest_eq
  constructor
  case related => exact cut
  case notEnd => exact notEnd
  case atEnd => simp [Draft.kind, Draft.next?, nothing]
  case advance =>
    apply lost_of_length_lt
    rw [next.advance_eq]
    dsimp only
    omega
  case settle =>
    by_cases settled : left.leading = []
    · right
      rw [Draft.settle_eq_self settled]
      exact cut
    · left
      apply lost_of_length_lt
      have someTrivia := List.length_pos_of_ne_nil settled
      rw [next.settle_rest, List.length_cons]
      omega
  case trip => exact fun _ => Or.inr ⟨cut.rest_eq, cut.placed_eq, cut.trimmed, cut.kinds⟩

theorem Cut.kinds_alike (cut : Cut after left right) :
    left.kind = right.kind ∨ (cutting after).Parted left right := by
  rcases right.next_cases with empty | ⟨token, later, next⟩
  · rcases cut.atEnd empty with sameRest | ⟨restEq, nothing⟩
    · exact Or.inl (Draft.kind_congr sameRest)
    · cases isEnd : left.atEnd with
      | true =>
          have rightEnd := Draft.atEnd_of_settle_rest_nil empty
          rw [Draft.atEnd, beq_iff_eq] at isEnd rightEnd
          exact Or.inl (isEnd.trans rightEnd.symm)
      | false => exact Or.inr (cut.parted restEq nothing isEnd)
  · exact Or.inl (by rw [next.kind_eq, (cut.next next).2.kind_eq])

theorem Cut.settle (cut : Cut after left right) (notEnd : right.atEnd = false) :
    Cut after left.settle right.settle := by
  obtain ⟨token, later, next⟩ := Draft.exists_nextIs notEnd
  obtain ⟨leadingEq, leftNext⟩ := cut.next next
  constructor
  case rest_eq => rw [leftNext.settle_rest, next.settle_rest, List.cons_append]
  case placed_eq => rw [Draft.settle_eq, Draft.settle_eq, leadingEq, cut.placed_eq]
  case trimmed => exact cut.trimmed_suffix right.rest_settle_suffix
  case kinds => exact fun token member => cut.kinds token (left.rest_settle_suffix.mem member)

theorem Cut.advance (cut : Cut after left right) (sameKind : left.kind = right.kind) :
    Cut after left.advance right.advance := by
  rcases right.next_cases with empty | ⟨token, later, next⟩
  · have rightEnd := Draft.atEnd_of_settle_rest_nil empty
    have leftEnd : left.atEnd = true := by rwa [Draft.atEnd, sameKind]
    have leftEmpty := Draft.settle_rest_of_atEnd cut.kinds leftEnd
    rwa [Draft.advance_of_settle_rest_nil empty, Draft.advance_of_settle_rest_nil leftEmpty]
  · obtain ⟨leadingEq, leftNext⟩ := cut.next next
    constructor
    case rest_eq => rw [leftNext.advance_eq, next.advance_eq]
    case placed_eq => rw [leftNext.advance_eq, next.advance_eq, leadingEq, cut.placed_eq]
    case trimmed => exact cut.trimmed_suffix right.rest_advance_suffix
    case kinds => exact fun token member => cut.kinds token (left.rest_advance_suffix.mem member)

end Cutting

theorem cutting_simulation (after : List Token) (limits : Limits) :
    Simulation (cutting after) limits limits where
  lost_congr := by
    intro draft draft' lost sameRest _
    exact lost_of_suffix (sameRest ▸ List.suffix_rfl) lost
  lost_settle draft := lost_of_suffix draft.rest_settle_suffix
  lost_advance draft := lost_of_suffix draft.rest_advance_suffix
  lost_trip _ _ := lost_of_suffix List.suffix_rfl
  kinds := Cut.kinds_alike
  settle meets := meets.related.settle meets.notEnd
  advance := Cut.advance
  opened meets :=
    let settled := meets.related.settle meets.notEnd
    ⟨settled.rest_eq, rfl, settled.trimmed, settled.kinds⟩
  closed kind meets inside := by
    have settled := meets.related.settle meets.notEnd
    refine ⟨inside.rest_eq, ?_, inside.trimmed, inside.kinds⟩
    rw [Draft.closed, Draft.closed, inside.placed_eq, settled.placed_eq]
  trip construct cut := Or.inr ⟨cut.rest_eq, cut.placed_eq, cut.trimmed, cut.kinds⟩
  depth := Or.inl rfl
  iterations := Or.inl rfl
  chain := Or.inl rfl
  regionIterations := Or.inl rfl
  topLevelIterations := Or.inl rfl

/-! ## Statements -/

/-- Statements answer alike where the tokens from the next significant one on are
the same up to `after`. What stands before does not matter. -/
theorem statement_twins (limits : Limits) (levels : Nat) {left right : Draft} {after : List Token}
    (restEq : left.settle.rest = right.settle.rest ++ after)
    (trimmed : after = [] ∨ Trimmed right.settle.rest)
    (kinds : ∀ token ∈ left.settle.rest, token.kind ≠ .endOfInput)
    (notEnd : right.atEnd = false) :
    (cutting after).TracksTwins left right (statement limits (levels + 1) left)
      (statement limits (levels + 1) right) := by
  have simulation := cutting_simulation after limits
  have opened : Cut after left.opened right.opened := ⟨restEq, rfl, trimmed, kinds⟩
  have sameKind : left.kind = right.kind := by
    obtain ⟨token, later, next⟩ := Draft.exists_nextIs notEnd
    rw [← left.kind_opened, (opened.next next.opened).2.kind_eq, next.kind_eq]
  have nested : (cutting after).FollowsAnswer .nothing (statement limits levels)
      (statement limits levels) := simulation.follows_statement (Or.inl rfl)
  exact simulation.twins_statementAt nested sameKind notEnd opened

/-- A statement that leaves `after` untouched places the same node where `after`
is missing. -/
theorem statement_cut {limits : Limits} {levels : Nat} {left right result : Draft} {kind : Kind}
    {parts : List Outline} {kept after : List Token}
    (answer : statement limits (levels + 1) left = (.node, result))
    (placedEq : result.placed = .node kind parts :: left.settle.placed)
    (restEq : left.settle.rest = right.settle.rest ++ after) (keptEq : result.rest = kept ++ after)
    (trimmed : after = [] ∨ Trimmed right.settle.rest)
    (kinds : ∀ token ∈ left.settle.rest, token.kind ≠ .endOfInput)
    (notEnd : right.atEnd = false) :
    ∃ result', statement limits (levels + 1) right = (.node, result') ∧
      result'.placed = .node kind parts :: right.settle.placed ∧ result'.rest = kept := by
  have twins := statement_twins limits levels restEq trimmed kinds notEnd
  rw [answer] at twins
  cases rightEq : statement limits (levels + 1) right with
  | mk outcome result' =>
      rw [rightEq] at twins
      rcases twins with lost | twins
      · exact absurd ⟨kept, keptEq.symm⟩ lost
      · cases twins with
        | node ownKind pair =>
            cases placedEq
            refine ⟨_, rfl, ?_, ?_⟩
            · rw [Draft.closed, pair.placed_eq]
            · exact List.append_cancel_right (pair.rest_eq.symm.trans keptEq)

end TemplateFrontend.Grammar
