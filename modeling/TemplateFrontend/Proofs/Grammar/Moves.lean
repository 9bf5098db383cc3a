import TemplateFrontend.Proofs.Grammar.Runs
import Mathlib.Logic.Relation

/-!
Contract: everything that the rules of the grammar do to a draft.

Owns:
- `Move`, the moves of which every rule is made: placing a significant token,
  noting a ceiling below the top level, and calling the rule for nested statements;
- `Path`, any number of moves; every run is a path;
- `Answer`, the three ways in which a statement rule answers, and
  `statementAt_answer`, which says that there are no others.

A fact that every move keeps is therefore kept by every rule. A node begins with
a significant token.
-/

namespace TemplateFrontend.Grammar

/-! ## Loops -/

section Loops

variable {State : Type} {wanted : State → Bool} {turn : State → Turn State}
  {capped : State → State}

/-- A reflexive and transitive relation that every turn keeps is kept by the
whole loop. -/
theorem repeatWhile_related (relation : State → State → Prop)
    (refl : ∀ state, relation state state)
    (trans : ∀ {first second third}, relation first second → relation second third →
      relation first third)
    (turnRelated : ∀ state, wanted state = true → relation state (turn state).state)
    (cappedRelated : ∀ state, wanted state = true → relation state (capped state))
    (budget : Nat) (state : State) :
    relation state (repeatWhile wanted turn capped budget state) := by
  induction budget generalizing state with
  | zero =>
      rw [repeatWhile]
      split
      · next goesOn => exact cappedRelated state goesOn
      · exact refl state
  | succ budget inductionHypothesis =>
      rw [repeatWhile]
      split
      · next goesOn =>
          have related := turnRelated state goesOn
          split
          · next next turnEq =>
              rw [turnEq] at related
              exact trans related (inductionHypothesis next)
          · next last turnEq =>
              rw [turnEq] at related
              exact related
      · exact refl state

theorem repeatWhile_of_unwanted {state : State} (unwanted : wanted state = false) (budget : Nat) :
    repeatWhile wanted turn capped budget state = state := by
  cases budget <;> simp [repeatWhile, unwanted]

theorem repeatWhile_of_again {state next : State} (goesOn : wanted state = true)
    (turnEq : turn state = .again next) (budget : Nat) :
    repeatWhile wanted turn capped (budget + 1) state =
      repeatWhile wanted turn capped budget next := by
  simp [repeatWhile, goesOn, turnEq]

theorem repeatWhile_of_done {state last : State} (goesOn : wanted state = true)
    (turnEq : turn state = .done last) (budget : Nat) :
    repeatWhile wanted turn capped (budget + 1) state = last := by
  simp [repeatWhile, goesOn, turnEq]

end Loops

/-! ## Moves and paths -/

/-- One move of a rule. `call` relates a draft to what the rule for nested
statements makes of it. The ceiling of the top level is its own. -/
inductive Move (call : Draft → Draft → Prop) : Draft → Draft → Prop
  | advance (draft : Draft) : Move call draft draft.advance
  | trip (draft : Draft) {construct : Construct} (below : construct ≠ .topLevel) :
      Move call draft (draft.trip construct)
  | call {draft after : Draft} (called : call draft after) : Move call draft after

abbrev Path (call : Draft → Draft → Prop) : Draft → Draft → Prop :=
  Relation.ReflTransGen (Move call)

namespace Path

variable {call : Draft → Draft → Prop}

theorem advance (draft : Draft) : Path call draft draft.advance :=
  .single (.advance draft)

theorem trip (draft : Draft) {construct : Construct} (below : construct ≠ .topLevel) :
    Path call draft (draft.trip construct) :=
  .single (.trip draft below)

theorem take? {draft after : Draft} {kind : Kind} (taken : draft.take? kind = some after) :
    Path call draft after := by
  rw [(Draft.take?_eq_some_iff.mp taken).2]
  exact advance draft

/-- A relation that is reflexive, transitive and kept by every move is kept by
paths. -/
theorem related (relation : Draft → Draft → Prop) (refl : ∀ draft, relation draft draft)
    (trans : ∀ {first second third}, relation first second → relation second third →
      relation first third)
    (advanced : ∀ draft : Draft, relation draft draft.advance)
    (tripped : ∀ (draft : Draft) construct, construct ≠ .topLevel →
      relation draft (draft.trip construct))
    (called : ∀ {draft after}, call draft after → relation draft after)
    {draft after : Draft} (path : Path call draft after) : relation draft after := by
  induction path with
  | refl => exact refl draft
  | tail _ move inductionHypothesis =>
      apply trans inductionHypothesis
      cases move with
      | advance => exact advanced _
      | trip below => exact tripped _ _ below
      | call holds => exact called holds

end Path

/-! ## Every rule is a path -/

section Runs

variable {call : Draft → Draft → Prop} {Told Result : Type} {view : Result → Draft} {draft : Draft}

theorem keeps_path : Runs.Keeps IsBelowTopLevel (Path call) where
  refl _ := .refl
  trans := .trans
  advance draft := .advance draft
  trip draft _ below := .trip draft below

/-- A run is a path over the paths of the rule that it calls. -/
theorem Runs.path {action : Rule Told → Result} {rule : Rule Told}
    (runs : Runs IsBelowTopLevel view draft action)
    (obeys : ∀ draft, Path call draft (rule draft).2) : Path call draft (view (action rule)) :=
  runs.related keeps_path obeys

/-- A run that calls no other rule. -/
theorem Runs.path_alone {result : Result}
    (runs : Runs IsBelowTopLevel view draft fun _ : Rule Unit => result) :
    Path call draft (view result) := by
  let stay : Rule Unit := fun draft => ((), draft)
  have stays : ∀ draft, Path call draft (stay draft).2 := fun _ => .refl
  exact runs.path stays

theorem Path.skip (draft : Draft) (kind : Kind) : Path call draft (draft.skip kind) :=
  (Runs.skip draft kind).path_alone

end Runs

theorem statementElement_placeOrAdvance (nested : StatementRule) (draft : Draft) :
    (statementElement nested).placeOrAdvance draft = nested.placeOrAdvance draft := by
  unfold ElementRule.placeOrAdvance StatementRule.placeOrAdvance statementElement
  rcases nested draft with ⟨_ | _ | _, placed⟩ <;> rfl

section Rules

variable {call : Draft → Draft → Prop} {nested : StatementRule} (limits : Limits)

theorem path_propertyTurn (draft : Draft) :
    Path call draft.advance (propertyTurn draft).state := by
  rw [propertyTurn_eq_behind]
  exact (runs_behind fun _ taken => (Draft.take?_eq_some_iff.mp taken).2).path_alone

theorem path_propertyChain (draft : Draft) : Path call draft (propertyChain limits draft) :=
  (runs_propertyChain limits draft).path_alone

theorem path_parameterTurn (draft : Draft) :
    Path call draft.advance (parameterTurn draft).state := by
  rw [parameterTurn_eq_behind]
  exact (runs_behind fun _ taken => (Draft.take?_eq_some_iff.mp taken).2).path_alone

theorem path_parameterList (draft : Draft) : Path call draft (parameterList limits draft) :=
  (runs_parameterList limits draft).path_alone

theorem path_parameters (draft : Draft) : Path call draft (parameters limits draft) :=
  (runs_parameters limits draft).path_alone

section Elements

variable {separators : KindSet} {element : ElementRule}

theorem path_separator (draft : Draft) :
    Path call (element.placeOrAdvance draft) (separatedTurn separators element draft).state := by
  rw [separatedTurn_eq_behind]
  exact (runs_behind fun _ taken => (Draft.takeIn?_eq_some_iff.mp taken).2).path_alone

variable (elementPath : ∀ draft, Path call draft (element draft).2)

include elementPath

theorem path_elementOrAdvance (draft : Draft) : Path call draft (element.placeOrAdvance draft) :=
  (runs_elementOrAdvance draft).path elementPath

theorem path_separatedTurn (draft : Draft) :
    Path call draft (separatedTurn separators element draft).state :=
  (runs_separatedTurn separators draft).path elementPath

theorem path_separated {construct : Construct} (below : IsBelowTopLevel construct) {closing : Kind}
    (draft : Draft) :
    Path call draft (separated limits construct closing separators element draft) :=
  (runs_separated limits below closing separators draft).path elementPath

end Elements

variable (obeys : ∀ draft, call draft (nested draft).2)

include obeys

theorem path_place (draft : Draft) : Path call draft (nested.place draft) :=
  .single (.call (obeys draft))

theorem path_placeOrAdvance (draft : Draft) : Path call draft (nested.placeOrAdvance draft) :=
  (runs_placeOrAdvance draft).path (path_place obeys)

theorem path_entryValue (draft : Draft) :
    Path call (nested draft).2 (entryElement nested draft).2 := by
  unfold entryElement
  dsimp only
  split
  · next afterColon taken => exact (Path.take? taken).trans (path_place obeys afterColon)
  · exact .refl

theorem path_entryElement (draft : Draft) : Path call draft (entryElement nested draft).2 :=
  (runs_entryElement draft).path (path_place obeys)

/-- A primary begins with a significant token; the rest of it is a path. -/
theorem path_primary {draft first : Draft} (begun : primary? limits nested draft = some first) :
    draft.atEnd = false ∧ Path call draft.advance first := by
  rcases runs_primary limits draft with none | ⟨notEnd, _, begins, runs⟩
  · cases begun.symm.trans (none nested)
  · cases begun.symm.trans (begins nested)
    exact ⟨notEnd, runs.path (path_place obeys)⟩

theorem path_operatorTurn (draft : Draft) :
    Path call draft.advance (operatorTurn limits nested draft).state :=
  (runs_operatorTurn limits draft).path (path_place obeys)

theorem path_operatorChain (draft : Draft) :
    Path call draft (operatorChain limits nested draft) :=
  (runs_operatorChain limits draft).path (path_place obeys)

theorem path_regionTurn (region : Region) :
    Path call region.draft (regionTurn nested region).state.draft :=
  (runs_regionTurn region).path (path_place obeys)

theorem path_regionLoop (turns : Nat) (region : Region) :
    Path call region.draft (regionLoop nested turns region).draft :=
  (runs_regionLoop turns region).path (path_place obeys)

theorem path_regionBody (draft : Draft) : Path call draft (regionBody limits nested draft) :=
  path_regionLoop obeys limits.regionIterations ⟨1, draft⟩

theorem templateParts_path (draft : Draft) :
    Path call draft.advance (templateParts limits nested draft) :=
  (runs_templateParts limits draft).path (path_place obeys)

end Rules

/-! ## Statements -/

/-- How a statement rule answers: there is no significant token, or none that
begins a statement, or there is a node that begins with one. -/
inductive Answer (call : Draft → Draft → Prop) (draft : Draft) : Outcome × Draft → Prop
  | atEnd (isEnd : draft.atEnd = true) : Answer call draft (.nothing, draft)
  | missed (notEnd : draft.atEnd = false) : Answer call draft (.nothing, draft.settle)
  | node {kind : Kind} {inside : Draft} (notEnd : draft.atEnd = false)
      (isStatement : IsStatementKind kind) (path : Path call draft.opened.advance inside) :
      Answer call draft (.node, inside.closed kind draft.settle.placed)

/-- At the end nothing begins. -/
theorem statementAt_of_atEnd (limits : Limits) (nested : StatementRule) {draft : Draft}
    (isEnd : draft.atEnd = true) : statementAt limits nested draft = (.nothing, draft) := by
  have kindEq : draft.kind = .endOfInput := by simpa [Draft.atEnd] using isEnd
  unfold statementAt
  rw [kindEq]

/-- Before a markup opener a markup block is placed. -/
theorem statementAt_of_isMarkup (limits : Limits) (nested : StatementRule) {draft : Draft}
    (isMarkup : draft.kind.isMarkup = true) :
    statementAt limits nested draft = (.node, templateBlock limits nested draft) := by
  unfold statementAt
  split
  case h_14 => rfl
  case h_15 => rw [if_pos isMarkup]
  all_goals
    next kindEq =>
      rw [kindEq] at isMarkup
      cases isMarkup

/-- A statement rule answers in one of the three ways. -/
theorem statementAt_answer {call : Draft → Draft → Prop} {nested : StatementRule} (limits : Limits)
    (obeys : ∀ draft, call draft (nested draft).2) (draft : Draft) :
    Answer call draft (statementAt limits nested draft) := by
  have runs := runs_statementAt limits draft
  generalize actionEq : (fun nested => statementAt limits nested draft) = action at runs
  rw [show statementAt limits nested draft = action nested from congrFun actionEq nested]
  cases runs with
  | atEnd isEnd => exact .atEnd isEnd
  | missed notEnd => exact .missed notEnd
  | node notEnd isStatement runs =>
      exact .node notEnd (isStatement nested) (runs.path (path_place obeys))

end TemplateFrontend.Grammar
