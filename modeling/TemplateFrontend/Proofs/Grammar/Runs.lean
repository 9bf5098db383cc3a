import TemplateFrontend.Grammar.Program
import TemplateFrontend.Proofs.Grammar.Transitions

/-!
Contract: the rules of the grammar as runs that call the rule for nested statements.

Owns:
- `Runs`, a rule that moves a draft on and learns of another rule nothing but what
  that rule tells when it is called;
- `Calls`, which tells from outside on which drafts a run calls another rule, and
  `Runs.related_of_calls`: a relation that moves and these calls keep is kept by the
  run;
- one lemma for each rule, which says that it is a run around the rule for nested
  statements. Only `statementAt` opens and closes nodes; `StatementRuns` tells what
  it does around a run.
-/

namespace TemplateFrontend.Grammar

/-! ## Runs -/

/-- A rule that tells something of the draft that it leaves. -/
abbrev Rule (Told : Type) := Draft → Told × Draft

/-- What the action does around another rule, from a draft on: it places a token, notes
a ceiling that it may meet, or calls the other rule and goes on from there, as that rule
tells. `view` is the draft in a result. -/
inductive Runs {Told Result : Type} (mayMeet : Construct → Prop) (view : Result → Draft) :
    Draft → (Rule Told → Result) → Prop
  | done (result : Result) : Runs mayMeet view (view result) fun _ => result
  | advance {draft : Draft} {action : Rule Told → Result}
      (later : Runs mayMeet view draft.advance action) : Runs mayMeet view draft action
  | trip {draft : Draft} {construct : Construct} {action : Rule Told → Result}
      (may : mayMeet construct) (later : Runs mayMeet view (draft.trip construct) action) :
      Runs mayMeet view draft action
  | call (draft : Draft) (goOn : Told × Draft → Rule Told → Result)
      (later : ∀ told, Runs mayMeet view told.2 (goOn told)) :
      Runs mayMeet view draft fun rule => goOn (rule draft) rule

/-- The run of the action calls the rule on `called`: another rule, the same on all
other drafts, would give another result. -/
def Calls {Told Result : Type} (action : Rule Told → Result) (rule : Rule Told)
    (called : Draft) : Prop :=
  ∃ other : Rule Told, (∀ draft, draft ≠ called → other draft = rule draft) ∧
    action other ≠ action rule

namespace Runs

variable {Told Result : Type} {mayMeet : Construct → Prop} {view : Result → Draft}
  {draft : Draft} {action : Rule Told → Result}

theorem congr {action' : Rule Told → Result} (same : ∀ rule, action rule = action' rule)
    (runs : Runs mayMeet view draft action') : Runs mayMeet view draft action := by
  rw [funext same]
  exact runs

/-- One run behind another one. -/
theorem bind {Middle : Type} {between : Middle → Draft} {first : Rule Told → Middle}
    (begun : Runs mayMeet between draft first) (next : Middle → Rule Told → Result)
    (goesOn : ∀ middle, Runs mayMeet view (between middle) (next middle)) :
    Runs mayMeet view draft fun rule => next (first rule) rule := by
  induction begun with
  | done middle => exact goesOn middle
  | advance _ inductionHypothesis => exact .advance inductionHypothesis
  | trip may _ inductionHypothesis => exact .trip may inductionHypothesis
  | call draft goOn _ inductionHypothesis =>
      exact .call draft (fun told rule => next (goOn told rule) rule) inductionHypothesis

/-- A run around a rule that is itself a run around another rule. -/
theorem through {Inner : Type} {element : Rule Inner → Rule Told}
    (elements : ∀ draft, Runs mayMeet Prod.snd draft fun rule => element rule draft)
    (runs : Runs mayMeet view draft action) :
    Runs mayMeet view draft fun rule => action (element rule) := by
  induction runs with
  | done result => exact .done result
  | advance _ inductionHypothesis => exact .advance inductionHypothesis
  | trip may _ inductionHypothesis => exact .trip may inductionHypothesis
  | call draft goOn _ inductionHypothesis =>
      exact (elements draft).bind (fun told rule => goOn told (element rule)) inductionHypothesis

theorem take? {after : Draft} {kind : Kind} (taken : draft.take? kind = some after)
    (later : Runs mayMeet view after action) : Runs mayMeet view draft action := by
  rw [(Draft.take?_eq_some_iff.mp taken).2] at later
  exact .advance later

theorem skip (draft : Draft) (kind : Kind) :
    Runs mayMeet id draft fun _ : Rule Told => draft.skip kind := by
  by_cases same : draft.kind = kind
  · rw [Draft.skip_of_kind same]
    exact .advance (.done draft.advance)
  · rw [Draft.skip_of_kind_ne same]
    exact .done draft

/-! ## What is kept by runs -/

/-- A relation that is reflexive and transitive and kept by the moves of a run. -/
structure Keeps (mayMeet : Construct → Prop) (relation : Draft → Draft → Prop) : Prop where
  refl : ∀ draft, relation draft draft
  trans : ∀ {first second third}, relation first second → relation second third →
    relation first third
  advance : ∀ draft : Draft, relation draft draft.advance
  trip : ∀ (draft : Draft) construct, mayMeet construct → relation draft (draft.trip construct)

variable {relation : Draft → Draft → Prop} {rule : Rule Told}

/-- What the moves and all calls keep is kept by the run. -/
theorem related (keeps : Keeps mayMeet relation)
    (called : ∀ draft, relation draft (rule draft).2)
    (runs : Runs mayMeet view draft action) : relation draft (view (action rule)) := by
  induction runs with
  | done result => exact keeps.refl _
  | advance _ inductionHypothesis => exact keeps.trans (keeps.advance _) inductionHypothesis
  | trip may _ inductionHypothesis => exact keeps.trans (keeps.trip _ _ may) inductionHypothesis
  | call draft _ _ inductionHypothesis =>
      exact keeps.trans (called draft) (inductionHypothesis (rule draft))

theorem keeps_trips_length : Keeps mayMeet fun before after : Draft =>
    before.trips.length ≤ after.trips.length where
  refl _ := Nat.le_refl _
  trans := Nat.le_trans
  advance draft := by rw [Draft.trips_advance]
  trip _ _ _ := Nat.le_succ _

/-- A run calls the rule on the draft with which it goes on: a rule that notes more
ceilings there than the whole run does would give another result. -/
theorem calls_first {goOn : Told × Draft → Rule Told → Result}
    (later : ∀ told, Runs mayMeet view told.2 (goOn told))
    (grows : ∀ draft, draft.trips.length ≤ (rule draft).2.trips.length) :
    Calls (fun rule => goOn (rule draft) rule) rule draft := by
  classical
  let met := (view (goOn (rule draft) rule)).trips
  let marked : Draft := { draft with trips := ⟨.topLevel, 0⟩ :: met ++ draft.trips }
  let other : Rule Told := Function.update rule draft ((rule draft).1, marked)
  have markedLength : marked.trips.length = met.length + 1 + draft.trips.length :=
    List.length_append
  refine ⟨other, fun _ distinct => Function.update_of_ne distinct _ _, ?_⟩
  intro same
  have otherGrows : ∀ current, current.trips.length ≤ (other current).2.trips.length := by
    intro current
    by_cases isDraft : current = draft
    · subst isDraft
      rw [show other current = _ from Function.update_self current _ rule, markedLength]
      omega
    · rw [show other current = _ from Function.update_of_ne isDraft _ rule]
      exact grows current
  have more := (later (other draft)).related keeps_trips_length otherGrows
  dsimp only at same
  rw [same, show other draft = _ from Function.update_self draft _ rule, markedLength] at more
  change _ ≤ met.length at more
  omega

/-- What the moves and the calls that the run makes keep is kept by the run. -/
theorem related_of_calls (keeps : Keeps mayMeet relation)
    (grows : ∀ draft, draft.trips.length ≤ (rule draft).2.trips.length)
    (runs : Runs mayMeet view draft action)
    (called : ∀ called, Calls action rule called → relation called (rule called).2) :
    relation draft (view (action rule)) := by
  induction runs with
  | done result => exact keeps.refl _
  | advance _ inductionHypothesis =>
      exact keeps.trans (keeps.advance _) (inductionHypothesis called)
  | trip may _ inductionHypothesis =>
      exact keeps.trans (keeps.trip _ _ may) (inductionHypothesis called)
  | call draft goOn later inductionHypothesis =>
      have first : relation draft (rule draft).2 := called draft (calls_first later grows)
      refine keeps.trans first (inductionHypothesis (rule draft) ?_)
      rintro next ⟨other, elsewhere, changed⟩
      by_cases again : next = draft
      · rw [again]
        exact first
      · refine called next ⟨other, elsewhere, ?_⟩
        dsimp only
        rw [elsewhere draft (Ne.symm again)]
        exact changed

/-- A run comes to the drafts on which it calls the rule, and goes on from what the rule
makes of them. -/
theorem related_around_call (keeps : Keeps mayMeet relation)
    (every : ∀ draft, relation draft (rule draft).2) (runs : Runs mayMeet view draft action)
    {called : Draft} (calls : Calls action rule called) :
    relation draft called ∧ relation (rule called).2 (view (action rule)) := by
  induction runs with
  | done result =>
      obtain ⟨_, _, changed⟩ := calls
      exact absurd rfl changed
  | advance _ inductionHypothesis =>
      obtain ⟨before, behind⟩ := inductionHypothesis calls
      exact ⟨keeps.trans (keeps.advance _) before, behind⟩
  | trip may _ inductionHypothesis =>
      obtain ⟨before, behind⟩ := inductionHypothesis calls
      exact ⟨keeps.trans (keeps.trip _ _ may) before, behind⟩
  | call draft goOn later inductionHypothesis =>
      by_cases first : called = draft
      · rw [first]
        exact ⟨keeps.refl draft, (later (rule draft)).related keeps every⟩
      · obtain ⟨other, elsewhere, changed⟩ := calls
        dsimp only at changed
        rw [elsewhere draft (Ne.symm first)] at changed
        obtain ⟨before, behind⟩ :=
          inductionHypothesis (rule draft) ⟨other, elsewhere, changed⟩
        exact ⟨keeps.trans (every draft) before, behind⟩

end Runs

/-- A call whose answer decides. -/
theorem Calls.of_changed {Told Result : Type} {action : Rule Told → Result} {rule : Rule Told}
    {called : Draft} (answer : Told × Draft)
    (changed : ∀ other : Rule Told, other called = answer → action other ≠ action rule) :
    Calls action rule called := by
  classical
  exact ⟨Function.update rule called answer, fun _ distinct => Function.update_of_ne distinct _ _,
    changed _ (Function.update_self called answer rule)⟩

/-- What is made of the result of a run depends on calls of the run alone. -/
theorem Calls.of_map {Told Middle Result : Type} {make : Middle → Result}
    {first : Rule Told → Middle} {rule : Rule Told} {called : Draft}
    (calls : Calls (fun rule => make (first rule)) rule called) : Calls first rule called := by
  obtain ⟨other, elsewhere, changed⟩ := calls
  exact ⟨other, elsewhere, fun same => changed (congrArg make same)⟩

/-! ## Loops and lists -/

/-- The ceilings below the top level, which has one of its own. -/
abbrev IsBelowTopLevel (construct : Construct) : Prop := construct ≠ .topLevel

def Turn.state {State : Type} : Turn State → State
  | .again state => state
  | .done state => state

/-- A turn that goes on behind a token, if one is taken. -/
def Turn.behind {State : Type} (taken : Option State) (state : State) : Turn State :=
  match taken with
  | some next => .again next
  | none => .done state

theorem propertyTurn_eq_behind (draft : Draft) :
    propertyTurn draft = .behind (draft.advance.take? .identifier) draft.advance := by
  cases taken : draft.advance.take? .identifier <;> simp [propertyTurn, Turn.behind, taken]

theorem parameterTurn_eq_behind (draft : Draft) :
    parameterTurn draft = .behind (draft.advance.take? .comma) draft.advance := by
  cases taken : draft.advance.take? .comma <;> simp [parameterTurn, Turn.behind, taken]

theorem operatorTurn_eq_behind (limits : Limits) (nested : StatementRule) (draft : Draft) :
    operatorTurn limits nested draft =
      .behind (primary? limits nested draft.advance) draft.advance := by
  cases begun : primary? limits nested draft.advance <;> simp [operatorTurn, Turn.behind, begun]

theorem separatedTurn_eq_behind (separators : KindSet) (element : ElementRule) (draft : Draft) :
    separatedTurn separators element draft =
      .behind ((element.placeOrAdvance draft).takeIn? separators)
        (element.placeOrAdvance draft) := by
  cases taken : (element.placeOrAdvance draft).takeIn? separators <;>
    simp [separatedTurn, Turn.behind, taken]

section Loops

variable {Told State : Type} {mayMeet : Construct → Prop} {view : State → Draft}

theorem runs_repeatWhile {wanted : State → Bool} {turn : Rule Told → State → Turn State}
    {capped : State → State}
    (turns : ∀ state, Runs mayMeet (fun turn => view turn.state) (view state) fun rule =>
      turn rule state)
    (caps : ∀ state, Runs mayMeet view (view state) fun _ : Rule Told => capped state)
    (budget : Nat) (state : State) :
    Runs mayMeet view (view state) fun rule =>
      repeatWhile wanted (turn rule) capped budget state := by
  induction budget generalizing state with
  | zero =>
      unfold repeatWhile
      cases wanted state with
      | true => exact caps state
      | false => exact .done state
  | succ budget inductionHypothesis =>
      unfold repeatWhile
      cases wanted state with
      | false => exact .done state
      | true =>
          refine (turns state).bind (fun turned rule => match turned with
            | .again next => repeatWhile wanted (turn rule) capped budget next
            | .done last => last) ?_
          intro turned
          cases turned with
          | again next => exact inductionHypothesis next
          | done last => exact .done last

theorem runs_loop {wanted : Draft → Bool} {turn : Rule Told → Draft → Turn Draft}
    {construct : Construct} (may : mayMeet construct)
    (turns : ∀ draft, Runs mayMeet Turn.state draft fun rule => turn rule draft)
    (budget : Nat) (draft : Draft) :
    Runs mayMeet id draft fun rule =>
      repeatWhile wanted (turn rule) (·.trip construct) budget draft :=
  runs_repeatWhile turns (fun _ => .trip may (.done _)) budget draft

/-- A turn goes on behind a token, if it is there. -/
theorem runs_behind {draft : Draft} {next? : Option Draft}
    (taken : ∀ next, next? = some next → next = draft.advance) :
    Runs mayMeet Turn.state draft fun _ : Rule Told => .behind next? draft := by
  cases next? with
  | none => exact .done (Turn.done draft)
  | some next =>
      cases taken next rfl
      exact .advance (.done (Turn.again draft.advance))

theorem runs_propertyChain (limits : Limits) (draft : Draft) :
    Runs IsBelowTopLevel id draft fun _ : Rule Told => propertyChain limits draft := by
  apply runs_loop (by decide)
  intro current
  rw [propertyTurn_eq_behind]
  exact .advance (runs_behind fun _ taken => (Draft.take?_eq_some_iff.mp taken).2)

theorem runs_parameterList (limits : Limits) (draft : Draft) :
    Runs IsBelowTopLevel id draft fun _ : Rule Told => parameterList limits draft := by
  apply runs_loop (by decide)
  intro current
  rw [parameterTurn_eq_behind]
  exact .advance (runs_behind fun _ taken => (Draft.take?_eq_some_iff.mp taken).2)

theorem runs_parameters (limits : Limits) (draft : Draft) :
    Runs IsBelowTopLevel id draft fun _ : Rule Told => parameters limits draft := by
  unfold parameters
  cases taken : draft.take? .leftParen with
  | none => exact .done draft
  | some inside =>
      exact .take? taken ((runs_parameterList limits inside).bind (fun list _ => list.skip _)
        fun list => .skip list _)

/-- An element of a list; one token where there is none. -/
theorem runs_elementOrAdvance (draft : Draft) :
    Runs mayMeet id draft fun element : ElementRule => element.placeOrAdvance draft := by
  -- What it does behind the element it would do behind one that only tells that.
  refine .call draft (fun told _ => ElementRule.placeOrAdvance (fun _ => told) draft) ?_
  rintro ⟨_ | _, placed⟩
  · exact .advance (.done placed.advance)
  · exact .done placed

theorem runs_separatedTurn (separators : KindSet) (draft : Draft) :
    Runs mayMeet Turn.state draft fun element : ElementRule =>
      separatedTurn separators element draft := by
  apply Runs.congr fun element => separatedTurn_eq_behind separators element draft
  refine (runs_elementOrAdvance draft).bind
    (fun placed _ => Turn.behind (placed.takeIn? separators) placed) ?_
  exact fun placed => runs_behind fun _ taken => (Draft.takeIn?_eq_some_iff.mp taken).2

/-- A list is a run around the rule for its elements. -/
theorem runs_separated (limits : Limits) {construct : Construct} (may : mayMeet construct)
    (closing : Kind) (separators : KindSet) (draft : Draft) :
    Runs mayMeet id draft fun element : ElementRule =>
      separated limits construct closing separators element draft := by
  have elements : Runs mayMeet id draft fun element : ElementRule =>
      repeatWhile (fun current => current.kind != closing && !current.atEnd)
        (separatedTurn separators element) (·.trip construct) limits.iterations draft :=
    runs_loop may (runs_separatedTurn separators) limits.iterations draft
  exact elements.bind (fun list _ => list.skip closing) fun list => .skip list closing

end Loops

/-! ## Operands -/

/-- A run around the rule for nested statements that stays below the top level. -/
abbrev RunsBelow {Result : Type} (view : Result → Draft) :
    Draft → (StatementRule → Result) → Prop :=
  Runs IsBelowTopLevel view

variable (limits : Limits)

theorem runs_place (draft : Draft) :
    Runs mayMeet id draft fun nested : StatementRule => nested.place draft :=
  .call draft (fun told _ => told.2) fun told => .done told.2

theorem runs_statementElement (draft : Draft) :
    RunsBelow Prod.snd draft fun nested => statementElement nested draft :=
  .call draft (fun (told : Outcome × Draft) _ => (told.1 != .nothing, told.2)) fun told =>
    .done (told.1 != Outcome.nothing, told.2)

/-- An entry calls the rule for its key, and behind a colon for its value. -/
theorem runs_entryElement (draft : Draft) :
    RunsBelow Prod.snd draft fun nested => entryElement nested draft := by
  have behindKey : ∀ nested : StatementRule, entryElement nested draft =
      ((nested draft).2.take? .colon).elim ((nested draft).1 != .nothing, (nested draft).2)
        fun afterColon => (true, nested.place afterColon) := by
    intro nested
    rw [entryElement]
    rcases nested draft with ⟨outcome, key⟩
    dsimp only
    cases key.take? .colon <;> rfl
  apply Runs.congr behindKey
  refine .call draft (fun (told : Outcome × Draft) (nested : StatementRule) =>
    (told.2.take? .colon).elim (told.1 != .nothing, told.2)
      fun afterColon => (true, nested.place afterColon)) ?_
  intro told
  cases taken : told.2.take? .colon with
  | none => exact .done (told.1 != Outcome.nothing, told.2)
  | some afterColon =>
      exact .take? taken ((runs_place afterColon).bind (fun value _ => (true, value))
        fun value => .done (true, value))

theorem runs_placeOrAdvance (draft : Draft) :
    Runs mayMeet id draft fun nested : StatementRule => nested.placeOrAdvance draft := by
  refine .call draft (fun told _ => StatementRule.placeOrAdvance (fun _ => told) draft) ?_
  rintro ⟨_ | _ | _, placed⟩
  · exact .done placed
  · exact .advance (.done placed.advance)
  · exact .done placed

theorem runs_condition (draft : Draft) :
    RunsBelow id draft fun nested => condition nested draft := by
  unfold condition
  cases taken : draft.take? .leftParen with
  | none => exact .done draft
  | some inside =>
      exact .take? taken ((runs_place inside).bind (fun placed _ => placed.skip .rightParen)
        fun placed => .skip placed _)

theorem runs_loopHeader (draft : Draft) :
    RunsBelow id draft fun nested => loopHeader limits nested draft := by
  unfold loopHeader
  cases taken : draft.take? .leftParen with
  | none => exact .done draft
  | some inside =>
      exact .take? taken (.through runs_statementElement
        (runs_separated limits (by decide) .rightParen headerSeparators inside))

/-- An operand behind a run. -/
theorem Runs.thenPlace {draft : Draft} {first : StatementRule → Draft}
    (runs : RunsBelow id draft first) :
    RunsBelow id draft fun nested => nested.place (first nested) :=
  runs.bind (fun between nested => StatementRule.place nested between) runs_place

/-- A choice between going on behind a token and stopping in front of it. -/
theorem runs_behindToken (draft : Draft) (kind : Kind) {later : StatementRule → Draft → Draft}
    (there : ∀ next, RunsBelow id next fun nested => later nested next) :
    RunsBelow id draft fun nested => match draft.take? kind with
      | some next => later nested next
      | none => draft := by
  cases taken : draft.take? kind with
  | none => exact .done draft
  | some next => exact .take? taken (there next)

/-! ## Expressions -/

theorem runs_atomPrimary (draft : Draft) :
    RunsBelow id draft.advance fun nested => atomPrimary limits nested draft := by
  refine (runs_propertyChain limits draft.advance).bind (fun chain nested =>
    match chain.take? .leftParen with
    | some inside =>
        separated limits .argumentList .rightParen commaOnly (statementElement nested) inside
    | none => chain) ?_
  intro chain
  exact runs_behindToken chain .leftParen fun inside => .through runs_statementElement
    (runs_separated limits (by decide) .rightParen commaOnly inside)

/-- Whether a primary begins is seen from the draft; then it is a run behind its first
token. -/
theorem runs_primary (draft : Draft) :
    (∀ nested, primary? limits nested draft = none) ∨
      draft.atEnd = false ∧ ∃ first,
        (∀ nested, primary? limits nested draft = some (first nested)) ∧
          RunsBelow id draft.advance first := by
  by_cases isAtom : atoms.contains draft.kind = true
  · exact .inr ⟨Draft.atEnd_eq_false_of_contains isAtom (by decide), _,
      fun nested => if_pos isAtom, runs_atomPrimary limits draft⟩
  have other : ∀ nested, primary? limits nested draft = _ := fun nested => if_neg isAtom
  by_cases paren : draft.kind = .leftParen
  · refine .inr ⟨Draft.atEnd_eq_false_of_kind paren (by decide),
      fun nested => parenthesized nested draft, ?_, ?_⟩
    · intro nested
      rw [other, paren]
    · exact (runs_place draft.advance).bind (fun placed _ => placed.skip .rightParen)
        fun placed => .skip placed _
  by_cases bracket : draft.kind = .leftBracket
  · refine .inr ⟨Draft.atEnd_eq_false_of_kind bracket (by decide),
      fun nested => listLiteral limits nested draft, ?_, ?_⟩
    · intro nested
      rw [other, bracket]
    · exact .through runs_entryElement
        (runs_separated limits (by decide) .rightBracket commaOnly draft.advance)
  by_cases brace : draft.kind = .leftBrace
  · refine .inr ⟨Draft.atEnd_eq_false_of_kind brace (by decide),
      fun nested => arrayLiteral limits nested draft, ?_, ?_⟩
    · intro nested
      rw [other, brace]
    · exact .through runs_statementElement
        (runs_separated limits (by decide) .rightBrace arraySeparators draft.advance)
  · refine .inl fun nested => ?_
    rw [other]
    split
    case h_4 => rfl
    all_goals contradiction

theorem runs_operatorTurn (draft : Draft) :
    RunsBelow Turn.state draft.advance fun nested => operatorTurn limits nested draft := by
  rcases runs_primary limits draft.advance with none | ⟨_, first, begins, runs⟩
  · refine .congr (fun nested => ?_) (.done (Turn.done draft.advance))
    rw [operatorTurn_eq_behind, none]
    rfl
  · refine .congr (fun nested => ?_)
      (.advance (runs.bind (fun next _ => .again next) fun next => .done (Turn.again next)))
    rw [operatorTurn_eq_behind, begins]
    rfl

theorem runs_operatorChain (draft : Draft) :
    RunsBelow id draft fun nested => operatorChain limits nested draft :=
  runs_loop (by decide) (fun current => .advance (runs_operatorTurn limits current)) limits.chain
    draft

/-! ## Markup blocks -/

theorem runs_regionTurn (region : Region) :
    RunsBelow (fun turn : Turn Region => turn.state.draft) region.draft fun nested =>
      regionTurn nested region := by
  by_cases left : region.draft.kind = .leftBrace
  · let next := Turn.again (Region.mk (region.braces + 1) region.draft.advance)
    refine .congr (fun nested => ?_) (.advance (.done next))
    rw [regionTurn, left]
  by_cases right : region.draft.kind = .rightBrace
  · by_cases last : region.braces ≤ 1
    · refine .congr (fun nested => ?_)
        (.advance (.done (Turn.done (Region.mk 0 region.draft.advance))))
      rw [regionTurn, right]
      exact if_pos last
    · let next := Turn.again (Region.mk (region.braces - 1) region.draft.advance)
      refine .congr (fun nested => ?_) (.advance (.done next))
      rw [regionTurn, right]
      exact if_neg last
  · refine .congr (fun nested => ?_) ((runs_placeOrAdvance region.draft).bind
      (fun placed _ => Turn.again { region with draft := placed })
      fun placed => .done (Turn.again { region with draft := placed }))
    unfold regionTurn
    split
    case h_3 => rfl
    all_goals contradiction

def regionLoop (nested : StatementRule) : (turns : Nat) → Region → Region :=
  repeatWhile (fun current => !current.draft.atEnd) (regionTurn nested)
    (fun current => { current with draft := current.draft.trip .markupRegion })

theorem runs_regionLoop (turns : Nat) (region : Region) :
    RunsBelow Region.draft region.draft fun nested => regionLoop nested turns region := by
  apply runs_repeatWhile runs_regionTurn
  intro current
  have below : IsBelowTopLevel .markupRegion := by decide
  exact .trip below (.done { current with draft := current.draft.trip .markupRegion })

theorem runs_regionBody (draft : Draft) :
    RunsBelow id draft fun nested => regionBody limits nested draft :=
  (runs_regionLoop limits.regionIterations ⟨1, draft⟩).bind (fun region _ => region.draft)
    fun region => .done region.draft

theorem runs_templateParts (draft : Draft) :
    RunsBelow id draft.advance fun nested => templateParts limits nested draft := by
  by_cases closing : draft.kind = .markupEnd
  · refine .congr (fun nested => ?_) (.skip draft.advance .rightBrace)
    rw [templateParts, closing]
  by_cases sign : draft.kind = .atSign
  · refine .congr (fun nested => ?_)
      (runs_behindToken draft.advance .leftBrace (runs_regionBody limits))
    rewrite [templateParts, sign]
    rfl
  · refine .congr (fun nested => ?_) (runs_regionBody limits draft.advance)
    unfold templateParts
    split
    case h_3 => rfl
    all_goals contradiction

/-! ## Statements -/

/-- The kinds of the nodes that statements place. -/
def IsStatementKind : Kind → Prop
  | .expression | .assignment | .ifStmt | .forStmt | .whileStmt | .returnStmt | .functionDef
  | .templateBlock | .statement => True
  | _ => False

/-- What a rule for statements does around the rule for nested ones: it is at the end, or
before a token that begins no statement, or it places a node. Which of these is seen from
the draft. Inside the node it is a run behind the first token. -/
inductive StatementRuns (draft : Draft) : (StatementRule → Outcome × Draft) → Prop
  | atEnd (isEnd : draft.atEnd = true) : StatementRuns draft fun _ => (.nothing, draft)
  | missed (notEnd : draft.atEnd = false) : StatementRuns draft fun _ => (.nothing, draft.settle)
  | node {body : StatementRule → Kind × Draft} (notEnd : draft.atEnd = false)
      (isStatement : ∀ nested, IsStatementKind (body nested).1)
      (runs : RunsBelow Prod.snd draft.opened.advance body) :
      StatementRuns draft fun nested =>
        (.node, (body nested).2.closed (body nested).1 draft.settle.placed)

theorem StatementRuns.congr {draft : Draft} {action action' : StatementRule → Outcome × Draft}
    (same : ∀ nested, action nested = action' nested) (runs : StatementRuns draft action') :
    StatementRuns draft action := by
  rw [funext same]
  exact runs

theorem eq_of_closed_eq {left right : Draft} {kind kind' : Kind} {around : List Outline}
    (same : left.closed kind around = right.closed kind' around) : kind = kind' ∧ left = right := by
  simp only [Draft.closed, Draft.mk.injEq, List.cons.injEq, Outline.node.injEq, List.reverse_inj,
    and_true] at same
  obtain ⟨restSame, ⟨kindSame, placedSame⟩, tripsSame, stopSame⟩ := same
  refine ⟨kindSame, ?_⟩
  cases left
  cases right
  rw [Draft.mk.injEq]
  exact ⟨restSame, placedSame, tripsSame, stopSame⟩

/-- A node tells of the run inside it, so it depends on the same calls. -/
theorem Calls.of_body {body : StatementRule → Kind × Draft} {nested : StatementRule}
    {called : Draft} (calls : Calls body nested called) (around : List Outline) :
    Calls (fun nested => (Outcome.node, (body nested).2.closed (body nested).1 around))
      nested called := by
  obtain ⟨other, elsewhere, changed⟩ := calls
  refine ⟨other, elsewhere, fun same => changed ?_⟩
  obtain ⟨kindSame, insideSame⟩ := eq_of_closed_eq (congrArg Prod.snd same)
  exact Prod.ext kindSame insideSame

/-- A node of a kind that is seen from its first token. -/
theorem runs_node (kind : Kind) (isStatement : IsStatementKind kind) {draft : Draft}
    (notEnd : draft.atEnd = false) {body : StatementRule → Draft → Draft}
    (runs : RunsBelow id draft.opened.advance fun nested => body nested draft.opened) :
    StatementRuns draft fun nested => (.node, draft.node kind (body nested)) :=
  .node notEnd (fun _ => isStatement) (runs.bind (fun inside _ => (kind, inside)) fun inside =>
    .done (kind, inside))

theorem runs_expression {draft : Draft} (notEnd : draft.atEnd = false) :
    StatementRuns draft fun nested => expression limits nested draft := by
  rcases runs_primary limits draft.opened with none | ⟨_, first, begins, runs⟩
  · refine .congr (fun nested => ?_) (.missed notEnd)
    rw [expression, none]
  · let body : Draft → StatementRule → Kind × Draft := fun begun nested =>
      match begun.take? .assign with
      | some afterSign => (.assignment, nested.place afterSign)
      | none => (.expression, operatorChain limits nested begun)
    have later : ∀ begun, RunsBelow Prod.snd begun (body begun) := by
      intro begun
      dsimp only [body]
      cases taken : begun.take? .assign with
      | none =>
          exact (runs_operatorChain limits begun).bind
            (fun chain _ => (Kind.expression, chain)) fun chain => .done (Kind.expression, chain)
      | some afterSign =>
          exact .take? taken ((runs_place afterSign).bind
            (fun value _ => (Kind.assignment, value)) fun value => .done (Kind.assignment, value))
    refine .congr (fun nested => ?_) (.node notEnd (fun nested => ?_) (runs.bind body later))
    · rw [expression]
      dsimp only [body]
      rw [begins]
      dsimp only
      cases (first nested).take? .assign <;> rfl
    · dsimp only [body]
      cases (first nested).take? .assign <;> exact trivial

theorem runs_ifBody (draft : Draft) :
    RunsBelow id draft.advance fun nested =>
      let branch := nested.place (condition nested draft.advance)
      match branch.take? .elseKeyword with
      | some afterElse => nested.place afterElse
      | none => branch :=
  (runs_condition draft.advance).thenPlace.bind
    (fun branch nested => match branch.take? .elseKeyword with
      | some afterElse => StatementRule.place nested afterElse
      | none => branch)
    fun branch => runs_behindToken branch .elseKeyword runs_place

theorem runs_forBody (draft : Draft) :
    RunsBelow id draft.advance fun nested =>
      nested.place (loopHeader limits nested draft.advance) :=
  (runs_loopHeader limits draft.advance).thenPlace

theorem runs_doBody (draft : Draft) :
    RunsBelow id draft.advance fun nested =>
      let body := nested.place (condition nested draft.advance)
      match body.take? .whileKeyword with
      | some afterWhile => condition nested afterWhile
      | none =>
          match body.take? .untilKeyword with
          | some afterUntil => condition nested afterUntil
          | none => body := by
  refine (runs_condition draft.advance).thenPlace.bind
    (fun body nested => match body.take? .whileKeyword with
      | some afterWhile => condition nested afterWhile
      | none =>
          match body.take? .untilKeyword with
          | some afterUntil => condition nested afterUntil
          | none => body) ?_
  intro body
  cases taken : body.take? .whileKeyword with
  | some afterWhile => exact .take? taken (runs_condition afterWhile)
  | none => exact runs_behindToken body .untilKeyword runs_condition

theorem runs_functionBody (draft : Draft) :
    RunsBelow id draft.advance fun nested =>
      nested.place (parameters limits (draft.advance.skip .identifier)) :=
  ((Runs.skip draft.advance .identifier).bind (fun named _ => parameters limits named)
    (runs_parameters limits)).thenPlace

/-- The rule for statements around the rule for nested ones. -/
theorem runs_statementAt (draft : Draft) :
    StatementRuns draft fun nested => statementAt limits nested draft := by
  have keyword (kind : Kind) (isStatement : IsStatementKind kind) (notEnd : draft.atEnd = false) :
      StatementRuns draft fun nested => (.node, keywordStatement kind nested draft) :=
    runs_node kind isStatement notEnd (runs_place draft.opened.advance)
  have block (notEnd : draft.atEnd = false) :
      StatementRuns draft fun nested => (.node, templateBlock limits nested draft) :=
    runs_node .templateBlock trivial notEnd (runs_templateParts limits draft.opened)
  have loop (notEnd : draft.atEnd = false) :
      StatementRuns draft fun nested => (.node, forStatement limits nested draft) :=
    runs_node .forStmt trivial notEnd (runs_forBody limits draft.opened)
  have function (notEnd : draft.atEnd = false) :
      StatementRuns draft fun nested => (.node, functionDefinition limits nested draft) :=
    runs_node .functionDef trivial notEnd (runs_functionBody limits draft.opened)
  unfold statementAt
  cases kindEq : draft.kind
  case endOfInput => exact .atEnd (by simp [Draft.atEnd, kindEq])
  all_goals have notEnd : draft.atEnd = false := Draft.atEnd_eq_false_of_kind kindEq (by decide)
  case ifKeyword => exact runs_node .ifStmt trivial notEnd (runs_ifBody draft.opened)
  case forKeyword => exact loop notEnd
  case foreachKeyword => exact loop notEnd
  case whileKeyword =>
    exact runs_node .whileStmt trivial notEnd (runs_condition draft.opened.advance).thenPlace
  case doKeyword => exact runs_node .whileStmt trivial notEnd (runs_doBody draft.opened)
  case returnKeyword => exact keyword .returnStmt trivial notEnd
  case defKeyword => exact function notEnd
  case functionKeyword => exact function notEnd
  case newKeyword => exact keyword .statement trivial notEnd
  case assertKeyword => exact keyword .statement trivial notEnd
  case isdefKeyword => exact keyword .statement trivial notEnd
  case withKeyword => exact keyword .statement trivial notEnd
  case atSign => exact block notEnd
  -- Every other kind is that of a markup opener, or one for the rule for expressions.
  all_goals first
    | exact runs_expression limits notEnd
    | exact block notEnd

end TemplateFrontend.Grammar
