import TemplateFrontend.Proofs.Grammar.Origin
import TemplateFrontend.Proofs.Grammar.Progress
import TemplateFrontend.Proofs.Grammar.Recognition

/-!
Contract: what the rule for statements does to a draft, and every turn of a loop with it.

Owns:
- `Answers`, the ways in which the rule answers at a level of nesting, and that there are
  no others;
- `MovesOn`, a draft that has come behind the token ahead, and one lemma for each loop
  whose turns begin with statements;
- `StatementContract`, which holds of every draft.
-/

namespace TemplateFrontend.Grammar

/-! ## Answers -/

/-- How the rule for statements answers with so many levels of nesting left: with a node
that begins with the token ahead; by waiting before that token; or, when no level is left,
by noting the ceiling and placing the token ahead, if there is one. -/
inductive Answers (limits : Limits) (draft : Draft) : Nat → Outcome × Draft → Prop
  | node {levels : Nat} {kind : Kind} {token : Token} {later : List Token}
      {parts : List Outline} {after : Draft} (next : draft.NextIs token later)
      (added : Adds (Origin limits) (levels + 1) draft after
        (draft.leading.map .leaf ++ [.node kind (.leaf token :: parts)])) :
      Answers limits draft (levels + 1) (.node, after)
  | missed {levels : Nat} {after : Draft} (waits : after = draft ∨ after = draft.settle) :
      Answers limits draft (levels + 1) (.nothing, after)
  | skipped {token : Token} {later : List Token} {after : Draft} (next : draft.NextIs token later)
      (added : Adds (Origin limits) 0 draft after ((draft.leading ++ [token]).map .leaf))
      (trips_eq : after.trips = ⟨.recursionDepth, draft.offset⟩ :: draft.trips) :
      Answers limits draft 0 (.skipped, after)
  | skippedAtEnd (isEnd : draft.atEnd = true) :
      Answers limits draft 0 (.skipped, draft.trip .recursionDepth)

theorem answers_statement (limits : Limits) (levels : Nat) (draft : Draft) :
    Answers limits draft levels (statement limits levels draft) := by
  cases levels with
  | zero =>
      have answerEq : statement limits 0 draft =
          (.skipped, (draft.trip .recursionDepth).advance) := rfl
      rw [answerEq]
      rcases draft.next_cases with empty | ⟨token, later, next⟩
      · have emptyTrip : (draft.trip .recursionDepth).settle.rest = [] := empty
        rw [Draft.advance_of_settle_rest_nil emptyTrip]
        exact .skippedAtEnd (Draft.atEnd_of_settle_rest_nil empty)
      · have tripNext : (draft.trip .recursionDepth).NextIs token later :=
          ⟨next.rest_eq, next.significant⟩
        refine .skipped next ?_ ?_
        · exact (adds_trip draft .recursionDepth).trans (origin_lasting limits)
            (adds_advance tripNext)
        · rw [Draft.trips_advance]
          rfl
  | succ levels =>
      have answer := statementAt_answer limits (statement_grows limits levels) draft
      cases answerEq : statement limits (levels + 1) draft with
      | mk outcome after =>
          rw [show statementAt limits (statement limits levels) draft = (outcome, after)
            from answerEq] at answer
          cases answer with
          | atEnd isEnd => exact .missed (Or.inl rfl)
          | missed notEnd => exact .missed (Or.inr rfl)
          | node =>
              obtain ⟨_, _, _, _, next, added⟩ :=
                exists_node_of_grows (statement_grows limits levels) answerEq
              exact .node next added

theorem statement_waits {limits : Limits} {levels : Nat} {draft : Draft}
    (waited : (statement limits levels draft).1 = .nothing) :
    (statement limits levels draft).2 = draft ∨
      (statement limits levels draft).2 = draft.settle := by
  have answers := answers_statement limits levels draft
  generalize statement limits levels draft = answer at answers waited
  cases answers with
  | missed waits => exact waits
  | node next added => cases waited
  | skipped next added => cases waited
  | skippedAtEnd isEnd => cases waited

/-! ## Turns -/

/-- What the rules make of a draft, from behind the token ahead of it. -/
structure MovesOn (limits : Limits) (levels : Nat) (draft after : Draft) : Prop where
  grows : Grows (Origin limits) levels draft after
  onward : draft.advance.Onward after

theorem MovesOn.advance {limits : Limits} {levels : Nat} {draft after : Draft}
    (movesOn : MovesOn limits levels draft after) : MovesOn limits levels draft after.advance where
  grows := grows_trans (origin_lasting limits) movesOn.grows (grows_advance after)
  onward := movesOn.onward.trans (.advance after)

theorem movesOn_advance (limits : Limits) (levels : Nat) (draft : Draft) :
    MovesOn limits levels draft draft.advance :=
  ⟨grows_advance draft, .refl _⟩

theorem Listing.rule_proceeds (listing : Listing) (limits : Limits) (levels : Nat)
    (draft : Draft) : Proceeds draft (listing.rule limits levels draft) := by
  have statements := statement_proceeds limits levels
  cases listing
  case entries => exact entryElement_proceeds statements draft
  all_goals exact statements draft

theorem Listing.path_rule (listing : Listing) (limits : Limits) (levels : Nat)
    {call : Draft → Draft → Prop} (obeys : ∀ draft, call draft (statement limits levels draft).2)
    (draft : Draft) : Path call draft (listing.rule limits levels draft).2 := by
  cases listing
  case entries => exact path_entryElement obeys draft
  all_goals exact path_place obeys draft

theorem Proceeds.onward_placeOrAdvance {element : ElementRule} {draft : Draft}
    (proceeds : Proceeds draft (element draft)) (notEnd : draft.atEnd = false) :
    draft.advance.Onward (element.placeOrAdvance draft) := by
  unfold ElementRule.placeOrAdvance
  generalize element draft = answer at proceeds
  rcases answer with ⟨_ | _, after⟩
  · exact .of_advance notEnd (proceeds.waits rfl) proceeds.onward.stop_eq (.refl _)
  · exact proceeds.moves rfl notEnd

section Turns

variable (limits : Limits) (levels : Nat) {draft : Draft} (notEnd : draft.atEnd = false)

include notEnd

theorem movesOn_placeOrAdvance :
    MovesOn limits levels draft ((statement limits levels).placeOrAdvance draft) where
  grows := grows_of_path (origin_lasting limits)
    (path_placeOrAdvance (statement_grows limits levels) draft)
  onward := by
    rw [← statementElement_placeOrAdvance]
    exact (statement_proceeds limits levels draft).onward_placeOrAdvance notEnd

theorem movesOn_element (listing : Listing) :
    MovesOn limits levels draft ((listing.rule limits levels).placeOrAdvance draft) where
  grows := grows_of_path (origin_lasting limits)
    (path_elementOrAdvance (listing.path_rule limits levels (statement_grows limits levels)) draft)
  onward := (listing.rule_proceeds limits levels draft).onward_placeOrAdvance notEnd

theorem movesOn_separatedTurn (listing : Listing) :
    MovesOn limits levels draft
      (separatedTurn listing.separators (listing.rule limits levels) draft).state := by
  have placed := movesOn_element limits levels notEnd listing
  unfold separatedTurn
  dsimp only
  split
  · next next taken =>
      obtain ⟨_, rfl⟩ := Draft.takeIn?_eq_some_iff.mp taken
      exact placed.advance
  · exact placed

end Turns

theorem movesOn_regionTurn (limits : Limits) (levels : Nat) (region : Region)
    (notEnd : region.draft.atEnd = false) :
    MovesOn limits levels region.draft
      (regionTurn (statement limits levels) region).state.draft := by
  unfold regionTurn
  split
  · exact movesOn_advance limits levels region.draft
  · split <;> exact movesOn_advance limits levels region.draft
  · exact movesOn_placeOrAdvance limits levels notEnd

/-! ## The contract of the rule for statements -/

/-- The rule answers in one of its ways, and every turn of a loop moves on. -/
structure StatementContract (limits : Limits) (levels : Nat) (draft : Draft) : Prop where
  answers : Answers limits draft levels (statement limits levels draft)
  topLevelTurn : draft.atEnd = false →
    MovesOn limits levels draft ((statement limits levels).placeOrAdvance draft)
  listTurn : draft.atEnd = false → ∀ listing : Listing,
    MovesOn limits levels draft
      (separatedTurn listing.separators (listing.rule limits levels) draft).state
  regionTurn : draft.atEnd = false → ∀ braces : Nat,
    MovesOn limits levels draft (regionTurn (statement limits levels) ⟨braces, draft⟩).state.draft

theorem statementContract (limits : Limits) (levels : Nat) (draft : Draft) :
    StatementContract limits levels draft where
  answers := answers_statement limits levels draft
  topLevelTurn := movesOn_placeOrAdvance limits levels
  listTurn := movesOn_separatedTurn limits levels
  regionTurn := fun notEnd braces => movesOn_regionTurn limits levels ⟨braces, draft⟩ notEnd

end TemplateFrontend.Grammar
