import TemplateFrontend.Proofs.Grammar.ExpressionEndings

/-!
Contract: how every node ends.

Owns:
- the ending of markup blocks, which await nothing;
- `statementAt_ending`: with a regular rule for its operands, a node is left
  waiting when its marks say that it awaits an operand, and clean otherwise;
- `ceiling_ending`: at the depth ceiling every node is left clean.
-/

namespace TemplateFrontend.Grammar

section Endings

variable {nested : StatementRule} (limits : Limits) (regular : Regular nested)

/-! ## Markup blocks -/

include regular in
theorem regionBody_clean {draft : Draft} (clean : draft.Clean) :
    (regionBody limits nested draft).Clean := by
  have turnClean : ∀ region : Region, (!region.draft.atEnd) = true →
      (regionTurn nested region).state.draft.Clean := by
    intro region wanted
    have notEnd : region.draft.atEnd = false := by simpa using wanted
    unfold regionTurn
    split
    · exact Draft.clean_advance notEnd
    · split <;> exact Draft.clean_advance notEnd
    · exact (placeOrAdvance_cases regular notEnd).1
  refine repeatWhile_related
    (fun before after : Region => before.draft.Clean → after.draft.Clean)
    (fun _ => id) (fun front back => back ∘ front) (fun region wanted _ => turnClean region wanted)
    (fun _ _ regionClean => ?_) limits.regionIterations ⟨1, draft⟩ clean
  exact regionClean

include regular in
theorem templateParts_clean {draft : Draft} (notEnd : draft.atEnd = false) :
    (templateParts limits nested draft).Clean := by
  have advanced := Draft.clean_advance notEnd
  unfold templateParts
  split
  · by_cases closes : draft.advance.kind = .rightBrace
    · rw [Draft.skip_of_kind closes]
      exact advanced.advance
    · rwa [Draft.skip_of_kind_ne closes]
  · split
    · next inside taken =>
        exact regionBody_clean limits regular (Draft.take?_marks (by decide) taken).2
    · exact advanced
  · exact regionBody_clean limits regular advanced

/-! ## All nodes -/

/-- Every node that an answer places is left as its marks tell. -/
def NodeEnds (limits : Limits) (nested : StatementRule) (draft : Draft)
    (answer : Outcome × Draft) : Prop :=
  ∀ result, answer = (.node, result) → ∃ kind inside,
    result = inside.closed kind draft.settle.placed ∧
      EndsAs nested (awaitsOperand limits kind inside.marks.reverse) inside

theorem nodeEnds_closed {draft inside : Draft} {kind : Kind}
    (ends : EndsAs nested (awaitsOperand limits kind inside.marks.reverse) inside) :
    NodeEnds limits nested draft (.node, inside.closed kind draft.settle.placed) := by
  intro result answer
  cases answer
  exact ⟨kind, inside, rfl, ends⟩

include regular

theorem expression_ending (draft : Draft) :
    NodeEnds limits nested draft (expression limits nested draft) := by
  unfold expression
  dsimp only
  split
  · exact fun _ => nofun
  · next first begun =>
      have firstEnds := primary_ending limits regular begun (by rw [draft.marks_opened]; rfl)
      split
      · next afterSign taken =>
          obtain ⟨signMarks, signClean⟩ := Draft.take?_marks (by decide) taken
          exact nodeEnds_closed limits (ending_after_token regular signMarks signClean)
      · have chainEnds := operatorChain_ending limits regular firstEnds
        apply nodeEnds_closed limits
        rwa [awaitsOperand, List.reverse_reverse]

theorem statementAt_ending (draft : Draft) :
    NodeEnds limits nested draft (statementAt limits nested draft) := by
  have keyword : ∀ {first : Kind}, draft.kind = first → first ≠ .endOfInput →
      ∀ {kind : Kind}, (∀ marks, awaitsOperand limits kind marks = endsInToken marks) →
      NodeEnds limits nested draft (.node, keywordStatement kind nested draft) := by
    intro first kindEq notEndKind kind reads
    have notEnd := draft.atEnd_opened.trans (Draft.atEnd_eq_false_of_kind kindEq notEndKind)
    apply nodeEnds_closed limits
    rw [reads]
    exact ending_after_token regular (Draft.marks_advance notEnd) (Draft.clean_advance notEnd)
  have function : ∀ {first : Kind}, draft.kind = first → first ≠ .endOfInput →
      NodeEnds limits nested draft (.node, functionDefinition limits nested draft) :=
    fun kindEq notEndKind => nodeEnds_closed limits (function_ending limits regular
      (draft.atEnd_opened.trans (Draft.atEnd_eq_false_of_kind kindEq notEndKind)))
  have template : draft.atEnd = false →
      NodeEnds limits nested draft (.node, templateBlock limits nested draft) :=
    fun notEnd => nodeEnds_closed limits
      (.of_clean (templateParts_clean limits regular (draft.atEnd_opened.trans notEnd)) rfl)
  unfold statementAt
  split
  · exact fun _ => nofun
  · next kindEq => exact nodeEnds_closed limits (if_ending limits regular kindEq)
  · next kindEq =>
      exact nodeEnds_closed limits
        (for_ending limits regular (Draft.atEnd_eq_false_of_kind kindEq (by decide)))
  · next kindEq =>
      exact nodeEnds_closed limits
        (for_ending limits regular (Draft.atEnd_eq_false_of_kind kindEq (by decide)))
  · next kindEq =>
      exact nodeEnds_closed limits
        (while_ending limits regular (Draft.atEnd_eq_false_of_kind kindEq (by decide)))
  · next kindEq =>
      exact nodeEnds_closed limits
        (do_ending limits regular (Draft.atEnd_eq_false_of_kind kindEq (by decide)))
  · next kindEq => exact keyword kindEq (by decide) fun _ => rfl
  · next kindEq => exact function kindEq (by decide)
  · next kindEq => exact function kindEq (by decide)
  · next kindEq => exact keyword kindEq (by decide) fun _ => rfl
  · next kindEq => exact keyword kindEq (by decide) fun _ => rfl
  · next kindEq => exact keyword kindEq (by decide) fun _ => rfl
  · next kindEq => exact keyword kindEq (by decide) fun _ => rfl
  · next kindEq => exact template (Draft.atEnd_eq_false_of_kind kindEq (by decide))
  · next notEndKind _ _ _ _ _ _ _ _ _ _ _ _ _ =>
      split
      · exact template (Draft.atEnd_eq_false_of_kind rfl notEndKind)
      · exact expression_ending limits regular draft

end Endings

/-! ## The depth ceiling -/

/-- At the depth ceiling operands are single tokens, so nothing is ever left
after a miss. -/
theorem ceiling_ending (limits : Limits) {draft result : Draft}
    (answer : statementAt limits (statement limits 0) draft = (.node, result)) :
    ∃ (kind : Kind) (inside : Draft),
      result = inside.closed kind draft.settle.placed ∧ inside.Clean := by
  have answered : Answer (fun before after => before.Clean → after.Clean) draft
      (statementAt limits (statement limits 0) draft) :=
    statementAt_answer limits
      (fun current (clean : current.Clean) =>
        (show (current.trip .recursionDepth).Clean from clean).advance) draft
  rw [answer] at answered
  cases answered with
  | @node kind inside notEnd isStatement path =>
      refine ⟨kind, inside, rfl, ?_⟩
      exact path.related (fun before after => before.Clean → after.Clean) (fun _ => id)
        (fun front back => back ∘ front) (fun _ => Draft.Clean.advance) (fun _ _ _ => id) id
        (draft.clean_opened.advance)

end TemplateFrontend.Grammar
