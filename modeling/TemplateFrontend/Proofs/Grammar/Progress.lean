import TemplateFrontend.Proofs.Grammar.Moves
import TemplateFrontend.Proofs.Tiling

/-!
Contract: where the next significant token begins before and after a rule.

Owns:
- `Draft.Onward`, a draft that has come behind another one;
- `Proceeds`, the answer of a rule that tells whether it has placed a significant
  token;
- `Proceeds.offset_eq_iff`, which says that offsets tell the same when the tokens
  tile a window.
-/

namespace TemplateFrontend

namespace Draft

/-- The token ahead: the next significant one, or the empty token of the end. -/
def ahead (draft : Draft) : Token :=
  draft.settle.rest.headD ⟨.endOfInput, .emptyAt draft.stop⟩

theorem ahead_of_settle_rest_nil {draft : Draft} (empty : draft.settle.rest = []) :
    draft.ahead = ⟨.endOfInput, .emptyAt draft.stop⟩ := by
  rw [ahead, empty, List.headD_nil]

theorem NextIs.ahead_eq {draft : Draft} {token : Token} {later : List Token}
    (next : draft.NextIs token later) : draft.ahead = token := by
  rw [ahead, next.settle_rest, List.headD_cons]

theorem kind_ahead (draft : Draft) : draft.ahead.kind = draft.kind := by
  rcases draft.next_cases with empty | ⟨token, later, next⟩
  · rw [ahead_of_settle_rest_nil empty, kind, next?_of_settle_rest_nil empty]
  · rw [next.ahead_eq, next.kind_eq]

theorem start_ahead (draft : Draft) : draft.ahead.span.start = draft.offset := by
  rcases draft.next_cases with empty | ⟨token, later, next⟩
  · rw [ahead_of_settle_rest_nil empty, offset, next?_of_settle_rest_nil empty]
    rfl
  · rw [next.ahead_eq, offset, next.next?_eq]

theorem ahead_congr {left right : Draft} (sameRest : left.settle.rest = right.settle.rest)
    (sameStop : left.stop = right.stop) : left.ahead = right.ahead := by
  rw [ahead, ahead, sameRest, sameStop]

/-! ## Coming behind a draft -/

/-- Of the tokens of `draft`, only a last part is left in `after`. -/
structure Onward (draft after : Draft) : Prop where
  rest_suffix : after.rest <:+ draft.rest
  stop_eq : after.stop = draft.stop

namespace Onward

theorem refl (draft : Draft) : draft.Onward draft := ⟨List.suffix_rfl, rfl⟩

theorem trans {first second third : Draft} (earlier : first.Onward second)
    (later : second.Onward third) : first.Onward third :=
  ⟨later.rest_suffix.trans earlier.rest_suffix, later.stop_eq.trans earlier.stop_eq⟩

theorem advance (draft : Draft) : draft.Onward draft.advance :=
  ⟨draft.rest_advance_suffix, draft.stop_advance⟩

theorem trip (draft : Draft) (construct : Construct) : draft.Onward (draft.trip construct) :=
  ⟨List.suffix_rfl, rfl⟩

theorem of_path {draft after : Draft} (path : Grammar.Path Onward draft after) :
    draft.Onward after :=
  path.related Onward refl trans advance (fun current construct _ => trip current construct) id

end Onward

theorem rest_advance {draft : Draft} (notEnd : draft.atEnd = false) :
    draft.advance.rest = draft.settle.rest.tail := by
  obtain ⟨token, later, next⟩ := exists_nextIs notEnd
  rw [next.advance_eq, next.settle_rest, List.tail_cons]

theorem rest_advance_length_lt {draft : Draft} (notEnd : draft.atEnd = false) :
    draft.advance.rest.length < draft.rest.length := by
  obtain ⟨token, later, next⟩ := exists_nextIs notEnd
  have restLength := congrArg List.length next.rest_eq
  rw [List.length_append, List.length_cons] at restLength
  rw [next.advance_eq]
  dsimp only
  omega

/-- Before the same token, drafts advance to the same rest. -/
theorem Onward.of_advance {draft other after : Draft} (notEnd : draft.atEnd = false)
    (sameRest : other.settle.rest = draft.settle.rest) (sameStop : other.stop = draft.stop)
    (onward : other.advance.Onward after) : draft.advance.Onward after where
  rest_suffix := by
    have otherNotEnd : other.atEnd = false := (atEnd_congr_settle sameRest).trans notEnd
    rw [rest_advance notEnd, ← sameRest, ← rest_advance otherNotEnd]
    exact onward.rest_suffix
  stop_eq := by rw [onward.stop_eq, stop_advance, stop_advance, sameStop]

/-- What is left tiles a window up to its end. -/
def Tiled (draft : Draft) : Prop := ∃ start, Tiles start draft.rest draft.stop

theorem Onward.tiled {draft after : Draft} (onward : draft.Onward after) (tiled : draft.Tiled) :
    after.Tiled := by
  obtain ⟨start, tiles⟩ := tiled
  obtain ⟨skipped, split⟩ := onward.rest_suffix
  rw [← split] at tiles
  obtain ⟨seam, _, back⟩ := Tiles.append_iff.mp tiles
  rw [← onward.stop_eq] at back
  exact ⟨seam, back⟩

/-- The token ahead does not begin before the first token that is left. -/
theorem le_offset {draft : Draft} {start : Nat} (tiles : Tiles start draft.rest draft.stop) :
    start ≤ draft.offset := by
  rcases draft.next_cases with empty | ⟨token, later, next⟩
  · rw [← start_ahead, ahead_of_settle_rest_nil empty]
    exact tiles.start_le_stop
  · rw [← start_ahead, next.ahead_eq]
    exact (tiles.bounds (by simp [next.rest_eq])).1

/-- In tokens that tile, no rule goes back. -/
theorem Tiled.offset_le {draft after : Draft} (tiled : draft.Tiled)
    (onward : draft.Onward after) : draft.offset ≤ after.offset := by
  obtain ⟨start, tiles⟩ := tiled
  obtain ⟨skipped, split⟩ := onward.rest_suffix
  rw [← split] at tiles
  obtain ⟨seam, front, back⟩ := Tiles.append_iff.mp tiles
  have within : seam ≤ after.offset := le_offset (onward.stop_eq ▸ back)
  have lookahead : draft.next? =
      (skipped.find? fun token => !token.isTrivia).or after.next? := by
    rw [next?, next?, ← split, List.find?_append]
  cases passed : skipped.find? fun token => !token.isTrivia with
  | none =>
      rw [passed, Option.none_or] at lookahead
      rw [offset, offset, lookahead, onward.stop_eq]
  | some token =>
      have bounds := front.bounds (List.mem_of_find?_eq_some passed)
      rw [passed, Option.some_or] at lookahead
      rw [offset, lookahead]
      dsimp only
      omega

/-- In tokens that tile, what comes behind a token begins behind its start. -/
theorem Tiled.offset_lt {draft after : Draft} (tiled : draft.Tiled) (notEnd : draft.atEnd = false)
    (onward : draft.advance.Onward after) : draft.offset < after.offset := by
  obtain ⟨start, tiles⟩ := tiled
  obtain ⟨token, later, next⟩ := exists_nextIs notEnd
  rw [next.rest_eq] at tiles
  obtain ⟨seam, _, startEq, positive, laterTiles⟩ := Tiles.append_iff.mp tiles
  obtain ⟨skipped, split⟩ := onward.rest_suffix
  rw [rest_advance notEnd, next.settle_rest, List.tail_cons] at split
  rw [← split] at laterTiles
  obtain ⟨middle, front, back⟩ := Tiles.append_iff.mp laterTiles
  have behind := front.start_le_stop
  have stopEq : after.stop = draft.stop := onward.stop_eq.trans draft.stop_advance
  have within : middle ≤ after.offset := le_offset (stopEq ▸ back)
  rw [← start_ahead, next.ahead_eq]
  omega

end Draft

namespace Grammar

/-- A rule that answers whether it has placed a significant token, and has placed
at least one where it says so. -/
structure Proceeds (draft : Draft) (answer : Bool × Draft) : Prop where
  onward : draft.Onward answer.2
  waits : answer.1 = false → answer.2.settle.rest = draft.settle.rest
  moves : answer.1 = true → draft.atEnd = false → draft.advance.Onward answer.2

namespace Proceeds

theorem offset_eq_iff {draft : Draft} {answer : Bool × Draft} (proceeds : Proceeds draft answer)
    (tiled : draft.Tiled) (notEnd : draft.atEnd = false) :
    answer.2.offset = draft.offset ↔ answer.1 = false := by
  rcases answer with ⟨_ | _, after⟩
  · have same : after.offset = draft.offset := by
      rw [← after.start_ahead, ← draft.start_ahead,
        Draft.ahead_congr (proceeds.waits rfl) proceeds.onward.stop_eq]
    simp [same]
  · have behind : draft.offset < after.offset :=
      tiled.offset_lt notEnd (proceeds.moves rfl notEnd)
    simp only [reduceCtorEq, iff_false]
    omega

end Proceeds

section Rules

variable {nested : StatementRule}
  (proceeds : ∀ draft, Proceeds draft (statementElement nested draft))

include proceeds

theorem entryElement_proceeds (draft : Draft) : Proceeds draft (entryElement nested draft) := by
  have key := proceeds draft
  have behindKey : (nested draft).2.Onward (entryElement nested draft).2 :=
    .of_path (path_entryValue (fun current => (proceeds current).onward) draft)
  refine ⟨key.onward.trans behindKey, ?_, ?_⟩
  · intro waits
    unfold entryElement at waits ⊢
    dsimp only at waits ⊢
    split at waits
    · cases waits
    · exact key.waits waits
  · intro moves notEnd
    by_cases found : (statementElement nested draft).1 = true
    · exact (key.moves found notEnd).trans behindKey
    · -- Without a key there is a colon, in front of which the draft has waited.
      have missed : (statementElement nested draft).1 = false := by simpa using found
      unfold entryElement at moves ⊢
      dsimp only at moves ⊢
      split at moves
      · next afterColon taken =>
          obtain ⟨_, rfl⟩ := Draft.take?_eq_some_iff.mp taken
          exact .of_advance notEnd (key.waits missed) key.onward.stop_eq
            (proceeds (nested draft).2.advance).onward
      · exact absurd moves found

end Rules

/-- The rule for statements tells what it has done. -/
theorem statement_proceeds (limits : Limits) (levels : Nat) (draft : Draft) :
    Proceeds draft (statementElement (statement limits levels) draft) := by
  induction levels generalizing draft with
  | zero =>
      have tripped := Draft.Onward.trip draft .recursionDepth
      constructor
      case onward => exact tripped.trans (.advance _)
      case waits =>
        intro missed
        cases missed
      case moves =>
        intro _ notEnd
        have sameRest : (draft.trip .recursionDepth).settle.rest = draft.settle.rest := rfl
        exact .of_advance notEnd sameRest tripped.stop_eq (.refl _)
  | succ levels inductionHypothesis =>
      have answer :=
        statementAt_answer limits (fun draft => (inductionHypothesis draft).onward) draft
      unfold statementElement statement
      generalize statementAt limits (statement limits levels) draft = answered at answer
      cases answer with
      | atEnd isEnd => exact ⟨.refl draft, fun _ => rfl, fun moves => by cases moves⟩
      | missed notEnd =>
          exact ⟨⟨draft.rest_settle_suffix, rfl⟩,
            fun _ => congrArg Draft.rest (Draft.settle_eq_self draft.settled_settle),
            fun moves => by cases moves⟩
      | @node kind inside notEnd isStatement path =>
          have openedRest : draft.opened.settle.rest = draft.settle.rest := by
            rw [Draft.settle_eq_self draft.settled_opened, Draft.opened_rest]
          have insideOnward : draft.advance.Onward inside :=
            .of_advance notEnd openedRest rfl (.of_path path)
          have behind : draft.advance.Onward (inside.closed kind draft.settle.placed) :=
            ⟨insideOnward.rest_suffix, insideOnward.stop_eq⟩
          refine ⟨(Draft.Onward.advance draft).trans behind, ?_, fun _ _ => behind⟩
          intro missed
          cases missed

end Grammar

end TemplateFrontend
