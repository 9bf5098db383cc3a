import TemplateFrontend.Proofs.Grammar.Simulation

/-!
Contract: every rule of the grammar respects every simulation.

Owns:
- one lemma for each rule, which says that its two runs stay related until the
  first one is lost;
- `Twins`, the answers of two statement rules that go the same way, also where
  the drafts around their nodes are not related;
- `Simulation.topLevel`, which joins the rules.

Rules that branch on the next kind take the same branch in both runs. Where only
the second run has come to its end, the first one is lost with the next token
that it places.
-/

namespace TemplateFrontend.Grammar

section Rules

variable {pairing : Pairing} {limits limits' : Limits}
  (simulation : Simulation pairing limits limits')

include simulation

/-! ## Chains and lists -/

theorem Simulation.follows_propertyChain :
    pairing.Follows (propertyChain limits) (propertyChain limits') where
  keeps draft := simulation.lost_of_path (path_propertyChain limits draft)
  tracks := by
    apply simulation.tracks_repeatWhile (· == .dot) rfl
    case turnKeeps =>
      exact fun draft lost =>
        simulation.lost_of_path (path_propertyTurn draft) (simulation.lost_advance draft lost)
    case turnParted =>
      exact fun left _ parted =>
        simulation.lost_of_path (path_propertyTurn left) parted.advance
    case turns =>
      intro left right meets
      have afterDot := simulation.advance meets.related meets.kind_eq
      rw [propertyTurn_eq_behind, propertyTurn_eq_behind]
      exact (simulation.take?_alike afterDot .identifier nofun).related_behind afterDot
    case ample => exact simulation.chain

theorem Simulation.follows_parameterList :
    pairing.Follows (parameterList limits) (parameterList limits') where
  keeps draft := simulation.lost_of_path (path_parameterList limits draft)
  tracks := by
    apply simulation.tracks_repeatWhile (· == .identifier) rfl
    case turnKeeps =>
      exact fun draft lost =>
        simulation.lost_of_path (path_parameterTurn draft) (simulation.lost_advance draft lost)
    case turnParted =>
      exact fun left _ parted =>
        simulation.lost_of_path (path_parameterTurn left) parted.advance
    case turns =>
      intro left right meets
      have named := simulation.advance meets.related meets.kind_eq
      rw [parameterTurn_eq_behind, parameterTurn_eq_behind]
      exact (simulation.take?_alike named .comma nofun).related_behind named
    case ample => exact simulation.iterations

theorem Simulation.follows_parameters :
    pairing.Follows (parameters limits) (parameters limits') :=
  simulation.follows_branch .leftParen nofun
    ((simulation.follows_skip .rightParen nofun).comp simulation.follows_parameterList) .refl

section Elements

variable {element element' : ElementRule} (follows : pairing.FollowsAnswer false element element')

include follows

/-- An element, or a token of noise in its place. -/
theorem Simulation.follows_elementOrAdvance :
    pairing.Follows element.placeOrAdvance element'.placeOrAdvance where
  keeps draft := simulation.lost_of_path (path_elementOrAdvance follows.path draft)
  tracks := by
    intro left right pair
    have tracked := follows.tracks pair
    unfold ElementRule.placeOrAdvance
    generalize element left = answered, element' right = answered' at tracked ⊢
    rcases answered with ⟨placed, after⟩
    rcases answered' with ⟨placed', after'⟩
    rcases tracked with lost | ⟨sameAnswer, afterPair⟩
    · left
      cases placed with
      | true => exact lost
      | false => exact simulation.lost_advance after lost
    · cases sameAnswer
      cases placed with
      | true => exact Or.inr afterPair
      | false => exact simulation.follows_advance.tracks afterPair

/-- Where only the second run has come to its end, the first one places a
token in any case. -/
theorem Simulation.lost_elementOrAdvance {left right : Draft}
    (parted : pairing.Parted left right) : pairing.lost (element.placeOrAdvance left) := by
  have answer := follows.parted parted
  unfold ElementRule.placeOrAdvance
  generalize element left = answered at answer ⊢
  rcases answered with ⟨placed, after⟩
  rcases answer with lost | ⟨missed, partedAfter⟩
  · cases placed with
    | true => exact lost
    | false => exact simulation.lost_advance after lost
  · cases missed
    exact partedAfter.advance

theorem Simulation.follows_separated (construct : Construct) (below : construct ≠ .topLevel)
    (closing : Kind) (notEnd : closing ≠ .endOfInput) (separators : KindSet)
    (noEnd : separators.contains .endOfInput = false) :
    pairing.Follows (separated limits construct closing separators element)
      (separated limits' construct closing separators element') where
  keeps draft := simulation.lost_of_path (path_separated limits follows.path below draft)
  tracks := by
    intro left right pair
    apply (simulation.follows_skip closing notEnd).after
    apply simulation.tracks_repeatWhile (fun kind => kind != closing && !(kind == .endOfInput))
    case noEnd => simp
    case turnKeeps =>
      exact fun draft => simulation.lost_of_path (path_separatedTurn follows.path draft)
    case turnParted =>
      exact fun left _ parted => simulation.lost_of_path (path_separator left)
        (simulation.lost_elementOrAdvance follows parted)
    case ample => exact simulation.iterations
    case pair => exact pair
    case turns =>
      intro left right meets
      rcases (simulation.follows_elementOrAdvance follows).tracks meets.related with
        lost | placedPair
      · exact Or.inl (simulation.lost_of_path (path_separator left) lost)
      · rw [separatedTurn_eq_behind, separatedTurn_eq_behind]
        exact (simulation.takeIn?_alike placedPair separators noEnd).related_behind placedPair

end Elements

section Nested

variable {nested nested' : StatementRule} (follows : pairing.FollowsAnswer .nothing nested nested')

include follows

omit simulation in
theorem follows_place : pairing.Follows nested.place nested'.place where
  keeps := follows.keeps
  tracks pair := (follows.tracks pair).imp_right And.right

omit simulation in
theorem follows_statementElement :
    pairing.FollowsAnswer false (statementElement nested) (statementElement nested') where
  keeps := follows.keeps
  tracks pair := (follows.tracks pair).imp_right
    (And.imp_left (congrArg fun answer : Outcome => answer != .nothing))
  parted parted := (follows.parted parted).imp_right
    (And.imp_left (congrArg fun answer : Outcome => answer != .nothing))

theorem Simulation.follows_placeOrAdvance :
    pairing.Follows nested.placeOrAdvance nested'.placeOrAdvance := by
  have elementFollows :=
    simulation.follows_elementOrAdvance (follows_statementElement follows)
  rwa [funext (statementElement_placeOrAdvance nested),
    funext (statementElement_placeOrAdvance nested')] at elementFollows

theorem Simulation.lost_placeOrAdvance {left right : Draft}
    (parted : pairing.Parted left right) : pairing.lost (nested.placeOrAdvance left) := by
  rw [← statementElement_placeOrAdvance]
  exact simulation.lost_elementOrAdvance (follows_statementElement follows) parted

theorem Simulation.follows_entryElement :
    pairing.FollowsAnswer false (entryElement nested) (entryElement nested') where
  keeps draft lost :=
    simulation.lost_of_path (path_entryValue follows.keeps draft) (follows.keeps draft lost)
  tracks := by
    intro left right pair
    rcases follows.tracks pair with lost | ⟨sameAnswer, keyPair⟩
    · exact Or.inl (simulation.lost_of_path (path_entryValue follows.keeps left) lost)
    · unfold entryElement
      rcases simulation.take?_alike keyPair .colon nofun with
        ⟨leftEq, rightEq⟩ | ⟨leftEq, rightEq, next⟩ | ⟨leftEq, _, lost⟩
      · simp only [leftEq, rightEq]
        exact Or.inr ⟨by rw [sameAnswer], keyPair⟩
      · simp only [leftEq, rightEq]
        exact ((follows_place follows).tracks next).imp_right fun valuePair => ⟨rfl, valuePair⟩
      · simp only [leftEq]
        exact Or.inl (follows.keeps _ lost)
  parted := by
    intro left right parted
    rcases follows.parted parted with lost | ⟨missed, keyParted⟩
    · exact Or.inl (simulation.lost_of_path (path_entryValue follows.keeps left) lost)
    · unfold entryElement
      dsimp only
      split
      · next afterColon taken =>
          rw [(Draft.take?_eq_some_iff.mp taken).2]
          exact Or.inl (follows.keeps _ keyParted.advance)
      · exact Or.inr ⟨by rw [missed]; rfl, keyParted⟩

theorem Simulation.follows_condition : pairing.Follows (condition nested) (condition nested') :=
  simulation.follows_branch .leftParen nofun
    ((simulation.follows_skip .rightParen nofun).comp (follows_place follows)) .refl

theorem Simulation.follows_loopHeader :
    pairing.Follows (loopHeader limits nested) (loopHeader limits' nested') :=
  simulation.follows_branch .leftParen nofun
    (simulation.follows_separated (follows_statementElement follows) .loopHeader (by decide)
      .rightParen nofun headerSeparators (by decide))
    .refl

theorem Simulation.follows_atomPrimary :
    pairing.Follows (atomPrimary limits nested) (atomPrimary limits' nested') := by
  have chain := simulation.follows_propertyChain.comp simulation.follows_advance
  have arguments := simulation.follows_branch .leftParen nofun
    (simulation.follows_separated (follows_statementElement follows) .argumentList (by decide)
      .rightParen nofun commaOnly (by decide))
    .refl
  exact (arguments.comp chain :)

theorem Simulation.follows_parenthesized :
    pairing.Follows (parenthesized nested) (parenthesized nested') := by
  have inner := (follows_place follows).comp simulation.follows_advance
  exact ((simulation.follows_skip .rightParen nofun).comp inner :)

theorem Simulation.follows_listLiteral :
    pairing.Follows (listLiteral limits nested) (listLiteral limits' nested') := by
  have entries := simulation.follows_separated (simulation.follows_entryElement follows)
    .listLiteral (by decide) .rightBracket nofun commaOnly (by decide)
  exact (entries.comp simulation.follows_advance :)

theorem Simulation.follows_arrayLiteral :
    pairing.Follows (arrayLiteral limits nested) (arrayLiteral limits' nested') := by
  have elements := simulation.follows_separated (follows_statementElement follows)
    .arrayLiteral (by decide) .rightBrace nofun arraySeparators (by decide)
  exact (elements.comp simulation.follows_advance :)

/-- Primaries begin together, unless the first run is lost in one that begins
alone. -/
theorem Simulation.primary?_cases {left right : Draft} (pair : pairing.related left right) :
    primary? limits nested left = none ∧ primary? limits' nested' right = none ∨
      (∃ first first', primary? limits nested left = some first ∧
          primary? limits' nested' right = some first' ∧ pairing.Tracks first first') ∨
        ∃ first, primary? limits nested left = some first ∧
          primary? limits' nested' right = none ∧ pairing.lost first := by
  rcases simulation.kinds pair with same | parted
  · unfold primary?
    rw [same]
    split
    · exact Or.inr (Or.inl ⟨_, _, rfl, rfl, (simulation.follows_atomPrimary follows).tracks pair⟩)
    · split
      · exact Or.inr (Or.inl
          ⟨_, _, rfl, rfl, (simulation.follows_parenthesized follows).tracks pair⟩)
      · exact Or.inr (Or.inl
          ⟨_, _, rfl, rfl, (simulation.follows_listLiteral follows).tracks pair⟩)
      · exact Or.inr (Or.inl
          ⟨_, _, rfl, rfl, (simulation.follows_arrayLiteral follows).tracks pair⟩)
      · exact Or.inl ⟨rfl, rfl⟩
  · have missing : primary? limits' nested' right = none := by
      unfold primary?
      rw [parted.atEnd]
      rfl
    cases begun : primary? limits nested left with
    | none => exact Or.inl ⟨rfl, missing⟩
    | some first =>
        have path := (path_primary limits follows.keeps begun).2
        exact Or.inr (Or.inr ⟨first, rfl, missing, simulation.lost_of_path path parted.advance⟩)

theorem Simulation.follows_operatorChain :
    pairing.Follows (operatorChain limits nested) (operatorChain limits' nested') where
  keeps draft := simulation.lost_of_path (path_operatorChain limits follows.keeps draft)
  tracks := by
    apply simulation.tracks_repeatWhile (fun kind => binaryOperators.contains kind)
    case noEnd => decide
    case turnKeeps =>
      exact fun draft lost =>
        simulation.lost_of_path (path_operatorTurn limits follows.keeps draft)
          (simulation.lost_advance draft lost)
    case turnParted =>
      exact fun left _ parted =>
        simulation.lost_of_path (path_operatorTurn limits follows.keeps left) parted.advance
    case ample => exact simulation.chain
    case turns =>
      intro left right meets
      have afterOperator := simulation.advance meets.related meets.kind_eq
      rw [operatorTurn_eq_behind, operatorTurn_eq_behind]
      rcases simulation.primary?_cases follows afterOperator with
        ⟨leftEq, rightEq⟩ | ⟨first, first', leftEq, rightEq, tracked⟩ | ⟨first, leftEq, _, lost⟩
      · simp only [leftEq, rightEq]
        exact Or.inr (.done afterOperator)
      · simp only [leftEq, rightEq]
        exact tracked.imp_right .again
      · simp only [leftEq]
        exact Or.inl lost

/-! ## Markup regions -/

theorem Simulation.regionTurn_tracks {region region' : Region}
    (sameBraces : region.braces = region'.braces)
    (meets : pairing.Meets region.draft region'.draft) :
    pairing.lost (regionTurn nested region).state.draft ∨
      Turn.Related pairing.Regions (regionTurn nested region) (regionTurn nested' region') := by
  have next := simulation.advance meets.related meets.kind_eq
  unfold regionTurn
  rw [meets.kind_eq, sameBraces]
  split
  · exact Or.inr (.again ⟨rfl, next⟩)
  · split
    · exact Or.inr (.done ⟨rfl, next⟩)
    · exact Or.inr (.again ⟨rfl, next⟩)
  · exact ((simulation.follows_placeOrAdvance follows).tracks meets.related).imp_right
      fun placedPair => .again ⟨rfl, placedPair⟩

theorem Simulation.lost_regionTurn {region : Region} {right : Draft}
    (parted : pairing.Parted region.draft right) :
    pairing.lost (regionTurn nested region).state.draft := by
  unfold regionTurn
  split
  · exact parted.advance
  · split
    · exact parted.advance
    · exact parted.advance
  · exact simulation.lost_placeOrAdvance follows parted

theorem Simulation.follows_regionBody :
    pairing.Follows (regionBody limits nested) (regionBody limits' nested') where
  keeps draft := simulation.lost_of_path (path_regionBody limits follows.keeps draft)
  tracks := by
    intro left right pair
    have looped : pairing.lost (regionLoop nested limits.regionIterations ⟨1, left⟩).draft ∨
        pairing.Regions (regionLoop nested limits.regionIterations ⟨1, left⟩)
          (regionLoop nested' limits'.regionIterations ⟨1, right⟩) := by
      apply repeatWhile_tracks (fun region => pairing.lost region.draft) pairing.Regions
      case turnKeeps =>
        exact fun region => simulation.lost_of_path (path_regionTurn follows.keeps region)
      case cappedKeeps => exact fun region => simulation.lost_trip region.draft .markupRegion
      case wantedCases =>
        intro region region' regions
        rcases simulation.kinds regions.2 with same | parted
        · exact Or.inl (by rw [Draft.atEnd, Draft.atEnd, same])
        · refine Or.inr ⟨by simp [Draft.atEnd, parted.atEnd], ?_, ?_⟩
          · exact simulation.lost_regionTurn follows parted
          · exact (parted.trip .markupRegion).imp_right fun tripped => ⟨regions.1, tripped⟩
      case turns =>
        intro region region' regions goesOn
        have notEnd : region'.draft.atEnd = false := by simpa using goesOn
        exact simulation.regionTurn_tracks follows regions.1 (simulation.meets regions.2 notEnd)
      case capped_tracks =>
        exact fun _ _ regions =>
          (simulation.trip .markupRegion regions.2).imp_right fun tripped => ⟨regions.1, tripped⟩
      case serves => exact simulation.regionIterations.imp fun spent _ => spent _ _
      case pair => exact ⟨rfl, pair⟩
    exact looped.imp_right And.right

theorem Simulation.follows_templateParts :
    pairing.Follows (templateParts limits nested) (templateParts limits' nested') where
  keeps draft lost := simulation.lost_of_path (templateParts_path limits follows.keeps draft)
    (simulation.lost_advance draft lost)
  tracks := by
    intro left right pair
    rcases simulation.kinds pair with same | parted
    · have opener := simulation.advance pair same
      have region := simulation.follows_regionBody follows
      unfold templateParts
      rw [same]
      split
      · exact (simulation.follows_skip .rightBrace nofun).tracks opener
      · exact (simulation.follows_branch .leftBrace nofun region .refl).tracks opener
      · exact region.tracks opener
    · exact Or.inl (simulation.lost_of_path (templateParts_path limits follows.keeps left)
        parted.advance)

/-! ## Statements -/

omit follows in
theorem Simulation.lost_closed {inside : Draft} {kind : Kind} {around : List Outline}
    (lost : pairing.lost inside) : pairing.lost (inside.closed kind around) :=
  simulation.lost_congr lost rfl rfl

omit follows in
/-- A node whose parts are tracked is placed in both runs. -/
theorem Simulation.twins_closed (left right : Draft) {inside inside' : Draft} (kind : Kind)
    (tracked : pairing.Tracks inside inside') :
    pairing.TracksTwins left right (.node, inside.closed kind left.settle.placed)
      (.node, inside'.closed kind right.settle.placed) := by
  rcases tracked with lost | pair
  · exact Or.inl (simulation.lost_closed lost)
  · exact Or.inr (.node kind pair)

omit follows in
/-- A node whose body follows is placed in both runs. -/
theorem Simulation.twins_node {left right : Draft}
    (opened : pairing.related left.opened right.opened) (kind : Kind) {body body' : Draft → Draft}
    (bodyFollows : pairing.Follows body body') :
    pairing.TracksTwins left right (.node, left.node kind body) (.node, right.node kind body') :=
  simulation.twins_closed left right kind (bodyFollows.tracks opened)

theorem Simulation.lost_expression {left first : Draft}
    (begun : primary? limits nested left.opened = some first) (lost : pairing.lost first) :
    pairing.lost (expression limits nested left).2 := by
  unfold expression
  simp only [begun]
  split
  · next afterSign taken =>
      have path := (Path.take? taken).trans (.single (.call (follows.keeps afterSign)))
      exact simulation.lost_closed (simulation.lost_of_path path lost)
  · have path := path_operatorChain limits follows.keeps first
    exact simulation.lost_closed (simulation.lost_of_path path lost)

theorem Simulation.twins_expression {left right : Draft}
    (opened : pairing.related left.opened right.opened) :
    pairing.TracksTwins left right (expression limits nested left)
      (expression limits' nested' right) := by
  rcases simulation.primary?_cases follows opened with
    ⟨leftEq, rightEq⟩ | ⟨first, first', leftEq, rightEq, lost | firstPair⟩ |
      ⟨first, leftEq, _, lost⟩
  · unfold expression
    simp only [leftEq, rightEq]
    exact Or.inr .missed
  · exact Or.inl (simulation.lost_expression follows leftEq lost)
  · rcases simulation.take?_alike firstPair .assign nofun with
      ⟨leftTaken, rightTaken⟩ | ⟨leftTaken, rightTaken, next⟩ | ⟨leftTaken, _, lost⟩
    · unfold expression
      simp only [leftEq, rightEq, leftTaken, rightTaken]
      apply simulation.twins_closed
      exact (simulation.follows_operatorChain follows).tracks firstPair
    · unfold expression
      simp only [leftEq, rightEq, leftTaken, rightTaken]
      apply simulation.twins_closed
      exact (follows_place follows).tracks next
    · left
      unfold expression
      simp only [leftEq, leftTaken]
      exact simulation.lost_closed (follows.keeps first.advance lost)
  · exact Or.inl (simulation.lost_expression follows leftEq lost)

/-- Statement rules answer alike before tokens of the same kind when the drafts
inside of them are related. -/
theorem Simulation.twins_statementAt {left right : Draft} (sameKind : left.kind = right.kind)
    (notEnd : right.atEnd = false) (opened : pairing.related left.opened right.opened) :
    pairing.TracksTwins left right (statementAt limits nested left)
      (statementAt limits' nested' right) := by
  have place := follows_place follows
  have condition := simulation.follows_condition follows
  have operand := place.comp simulation.follows_advance
  have conditioned := place.comp (condition.comp simulation.follows_advance)
  have conditional := (simulation.follows_branch .elseKeyword nofun place .refl).comp conditioned
  have forLoop := place.comp
    ((simulation.follows_loopHeader follows).comp simulation.follows_advance)
  have doLoop := (simulation.follows_branch .whileKeyword nofun condition
    (simulation.follows_branch .untilKeyword nofun condition .refl)).comp conditioned
  have function := place.comp (simulation.follows_parameters.comp
    ((simulation.follows_skip .identifier nofun).comp simulation.follows_advance))
  have template := simulation.follows_templateParts follows
  unfold statementAt
  rw [sameKind]
  split
  · next isEnd =>
      rw [Draft.atEnd, isEnd] at notEnd
      cases notEnd
  · exact (simulation.twins_node opened .ifStmt conditional :)
  · exact (simulation.twins_node opened .forStmt forLoop :)
  · exact (simulation.twins_node opened .forStmt forLoop :)
  · exact (simulation.twins_node opened .whileStmt conditioned :)
  · exact (simulation.twins_node opened .whileStmt doLoop :)
  · exact (simulation.twins_node opened .returnStmt operand :)
  · exact (simulation.twins_node opened .functionDef function :)
  · exact (simulation.twins_node opened .functionDef function :)
  · exact (simulation.twins_node opened .statement operand :)
  · exact (simulation.twins_node opened .statement operand :)
  · exact (simulation.twins_node opened .statement operand :)
  · exact (simulation.twins_node opened .statement operand :)
  · exact (simulation.twins_node opened .templateBlock template :)
  · split
    · exact (simulation.twins_node opened .templateBlock template :)
    · exact simulation.twins_expression follows opened

theorem Simulation.lost_statementAt (draft : Draft) :
    pairing.Keeps draft (statementAt limits nested draft).2 := by
  intro lost
  have answer := statementAt_answer limits follows.keeps draft
  generalize statementAt limits nested draft = answered at answer ⊢
  cases answer with
  | atEnd => exact lost
  | missed => exact simulation.lost_settle draft lost
  | node _ _ path =>
      have openedLost : pairing.lost draft.opened :=
        simulation.lost_congr (simulation.lost_settle draft lost) rfl rfl
      exact simulation.lost_closed
        (simulation.lost_of_path path (simulation.lost_advance draft.opened openedLost))

/-- Where only the second run has come to its end, the first one is lost in a
node or misses. -/
theorem Simulation.parted_statementAt {left right : Draft} (parted : pairing.Parted left right) :
    pairing.lost (statementAt limits nested left).2 ∨
      (statementAt limits nested left).1 = .nothing ∧
        pairing.Parted (statementAt limits nested left).2 right := by
  have answer := statementAt_answer limits follows.keeps left
  generalize statementAt limits nested left = answered at answer ⊢
  cases answer with
  | atEnd isEnd =>
      rw [parted.notEnd] at isEnd
      cases isEnd
  | missed =>
      exact parted.settle.imp_right fun settledPair =>
        ⟨rfl, simulation.parted_of_related parted settledPair left.kind_settle⟩
  | node notEnd _ path =>
      left
      obtain ⟨token, later, next⟩ := Draft.exists_nextIs notEnd
      have openedLost : pairing.lost left.opened.advance := by
        refine simulation.lost_congr parted.advance ?_ ?_
        · rw [next.advance_eq, next.opened.advance_eq]
        · rw [Draft.trips_advance, Draft.trips_advance]
          rfl
      exact simulation.lost_closed (simulation.lost_of_path path openedLost)

theorem Simulation.follows_statementAt :
    pairing.FollowsAnswer .nothing (statementAt limits nested) (statementAt limits' nested') where
  keeps := simulation.lost_statementAt follows
  parted := simulation.parted_statementAt follows
  tracks := by
    intro left right pair
    rcases simulation.kinds pair with same | parted
    · cases isEnd : right.atEnd with
      | true =>
          have leftEq : statementAt limits nested left = (.nothing, left) :=
            statementAt_of_atEnd limits nested (by rwa [Draft.atEnd, same])
          have rightEq := statementAt_of_atEnd limits' nested' isEnd
          rw [leftEq, rightEq]
          exact Or.inr ⟨rfl, pair⟩
      | false =>
          have meets := simulation.meets pair isEnd
          rcases simulation.twins_statementAt follows same isEnd (simulation.opened meets) with
            lost | twins
          · exact Or.inl lost
          · generalize statementAt limits nested left = answer,
              statementAt limits' nested' right = answer' at twins ⊢
            cases twins with
            | missed => exact Or.inr ⟨rfl, simulation.settle meets⟩
            | node kind insidePair => exact Or.inr ⟨rfl, simulation.closed kind meets insidePair⟩
    · have isEnd : right.atEnd = true := by simp [Draft.atEnd, parted.atEnd]
      rw [statementAt_of_atEnd limits' nested' isEnd]
      exact (simulation.parted_statementAt follows parted).imp_right fun answer =>
        ⟨answer.1, answer.2.related⟩

end Nested

/-- The rules for statements follow each other, level by level. A run without a
level left may follow only a run that is lost by then, or that has none left
either. -/
theorem Simulation.follows_statement {levels levels' : Nat}
    (ample : pairing.Ample levels levels') :
    pairing.FollowsAnswer .nothing (statement limits levels) (statement limits' levels') := by
  induction levels generalizing levels' with
  | zero =>
      constructor
      case keeps =>
        exact fun draft lost =>
          simulation.lost_advance _ (simulation.lost_trip draft .recursionDepth lost)
      case tracks =>
        intro left right pair
        cases levels' with
        | zero =>
            exact (simulation.follows_advance.after
              (simulation.trip .recursionDepth pair)).imp_right fun skipped => ⟨rfl, skipped⟩
        | succ levels' =>
            -- The first run meets the ceiling on nesting, the second one does not.
            exact Or.inl (simulation.lost_advance _ (ample.of_zero left .recursionDepth))
      case parted =>
        intro left right parted
        left
        rcases parted.trip .recursionDepth with lost | trippedPair
        · exact simulation.lost_advance _ lost
        · exact (simulation.parted_of_related parted trippedPair rfl).advance
  | succ levels inductionHypothesis =>
      obtain ⟨fewer, rfl, nestedAmple⟩ := ample.of_succ
      exact simulation.follows_statementAt (inductionHypothesis nestedAmple)

/-- Two runs from related drafts stay related to their ends, unless the first
one is lost. -/
theorem Simulation.topLevel {left right : Draft} (pair : pairing.related left right) :
    pairing.Tracks (topLevel limits left) (topLevel limits' right) := by
  have rules := simulation.follows_statement simulation.depth
  have statements := simulation.follows_placeOrAdvance rules
  apply simulation.tracks_repeatWhile (fun kind => !(kind == .endOfInput)) rfl
  case turnKeeps => exact statements.keeps
  case turnParted => exact fun _ _ parted => simulation.lost_placeOrAdvance rules parted
  case turns => exact fun _ _ meets => (statements.tracks meets.related).imp_right .again
  case ample => exact simulation.topLevelIterations
  case pair => exact pair

end Rules

end TemplateFrontend.Grammar
