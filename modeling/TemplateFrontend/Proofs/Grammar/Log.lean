import TemplateFrontend.Proofs.Grammar.Progress

/-!
Contract: the log of met ceilings while a program is read.

Owns:
- `Draft.StandsIn`, a draft that stands before what is left of the tokens of a window,
  and where the token ahead of it begins;
- `Draft.Noted`, what is known of the log at any time: it is in order, it lies behind the
  draft, and there are at most so many notes of the ceiling of depth at the end of the
  window;
- `Notes`, how many such notes a rule for nested statements can add;
- one lemma for each rule of the grammar, and `statement_notes` for all of them.

Only the ceiling of depth is noted without looking at what is ahead. Before a significant
token it costs that token, so the next note lies behind it; at the end it costs nothing.
As long as a rule has taken a token since, no note can be at the end (`Draft.Noted.renew`),
so only the last calls of a rule count.
-/

namespace TemplateFrontend

open Grammar (StatementRule ElementRule)

/-- A place where a draft can stand: where a significant token begins, or the end of the
window. -/
def PlaceIn (tokens : List Token) (stop offset : Nat) : Prop :=
  offset = stop ∨ ∃ token ∈ tokens, token.isTrivia = false ∧ token.span.start = offset

namespace Trip

/-- A trip lies before an offset: not behind it, and where the ceiling of depth was met not
at it either, unless that is the end of the window. -/
structure Before (stop offset : Nat) (trip : Trip) : Prop where
  offset_le : trip.offset ≤ offset
  at_stop : trip.construct = .recursionDepth → trip.offset = offset → offset = stop

/-- A trip below the top level: it is where a draft can stand, and before the end of the
window unless the ceiling of depth was met. -/
structure Fits (tokens : List Token) (stop : Nat) (trip : Trip) : Prop where
  below : trip.construct ≠ .topLevel
  place : PlaceIn tokens stop trip.offset
  before_stop : trip.construct ≠ .recursionDepth → trip.offset < stop

theorem Before.mono {stop offset offset' : Nat} {trip : Trip} (before : trip.Before stop offset)
    (le : offset ≤ offset') : trip.Before stop offset' where
  offset_le := before.offset_le.trans le
  at_stop isDepth atOffset := by
    have offsetLe := before.offset_le
    have atStop := before.at_stop isDepth (by omega)
    omega

end Trip

namespace Draft

variable {tokens : List Token} {stop : Nat}

/-! ## Where a draft stands -/

/-- What is left of the tokens of a window that ends at `stop`. -/
structure StandsIn (tokens : List Token) (stop : Nat) (draft : Draft) : Prop where
  rest_suffix : draft.rest <:+ tokens
  stop_eq : draft.stop = stop
  tiled : draft.Tiled
  kinds : ∀ token ∈ tokens, token.kind ≠ .endOfInput

namespace StandsIn

variable {draft after : Draft}

theorem onward (stands : draft.StandsIn tokens stop) (goesOn : draft.Onward after) :
    after.StandsIn tokens stop where
  rest_suffix := goesOn.rest_suffix.trans stands.rest_suffix
  stop_eq := goesOn.stop_eq.trans stands.stop_eq
  tiled := goesOn.tiled stands.tiled
  kinds := stands.kinds

theorem offset_of_atEnd (stands : draft.StandsIn tokens stop) (isEnd : draft.atEnd = true) :
    draft.offset = stop := by
  have empty := settle_rest_of_atEnd
    (fun token member => stands.kinds token (stands.rest_suffix.mem member)) isEnd
  rw [← start_ahead, ahead_of_settle_rest_nil empty]
  exact stands.stop_eq

theorem offset_lt_stop (stands : draft.StandsIn tokens stop) (notEnd : draft.atEnd = false) :
    draft.offset < stop := by
  obtain ⟨start, tiles⟩ := stands.tiled
  obtain ⟨token, later, next⟩ := exists_nextIs notEnd
  have bounds := tiles.bounds (show token ∈ draft.rest by simp [next.rest_eq])
  rw [stands.stop_eq] at bounds
  rw [← start_ahead, next.ahead_eq]
  omega

theorem place (stands : draft.StandsIn tokens stop) : PlaceIn tokens stop draft.offset := by
  cases isEnd : draft.atEnd with
  | true => exact Or.inl (stands.offset_of_atEnd isEnd)
  | false =>
      obtain ⟨token, later, next⟩ := exists_nextIs isEnd
      refine Or.inr ⟨token, stands.rest_suffix.mem (by simp [next.rest_eq]), next.significant, ?_⟩
      rw [← start_ahead, next.ahead_eq]

end StandsIn

/-! ## What is known of the log -/

/-- The log of a draft below the top level, its last note first. At most `budget` of its
notes are those of the ceiling of depth at the end of the window. -/
structure Noted (tokens : List Token) (stop budget : Nat) (draft : Draft) : Prop where
  stands : draft.StandsIn tokens stop
  ordered : draft.trips.Pairwise fun later earlier => earlier.Before stop later.offset
  behind : ∀ trip ∈ draft.trips, trip.Before stop draft.offset
  fits : ∀ trip ∈ draft.trips, trip.Fits tokens stop
  count_le : draft.trips.count ⟨.recursionDepth, stop⟩ ≤ budget

namespace Noted

variable {budget : Nat} {draft : Draft}

theorem mono (noted : draft.Noted tokens stop budget) {more : Nat} (le : budget ≤ more) :
    draft.Noted tokens stop more :=
  { noted with count_le := noted.count_le.trans le }

/-- Before a significant token the notes at the end are still to come. -/
theorem renew (noted : draft.Noted tokens stop budget) (notEnd : draft.atEnd = false)
    (budget' : Nat) : draft.Noted tokens stop budget' where
  stands := noted.stands
  ordered := noted.ordered
  behind := noted.behind
  fits := noted.fits
  count_le := by
    have absent : ⟨.recursionDepth, stop⟩ ∉ draft.trips := by
      intro member
      have offsetLe : stop ≤ draft.offset := (noted.behind _ member).offset_le
      have offsetLt := noted.stands.offset_lt_stop notEnd
      omega
    rw [List.count_eq_zero_of_not_mem absent]
    exact Nat.zero_le budget'

/-- A draft that has come on keeps what is known of the same log. -/
theorem onward {after : Draft} (noted : draft.Noted tokens stop budget)
    (goesOn : draft.Onward after) (sameTrips : after.trips = draft.trips) :
    after.Noted tokens stop budget where
  stands := noted.stands.onward goesOn
  ordered := sameTrips ▸ noted.ordered
  behind := by
    rw [sameTrips]
    intro trip member
    exact (noted.behind trip member).mono (noted.stands.tiled.offset_le goesOn)
  fits := sameTrips ▸ noted.fits
  count_le := sameTrips ▸ noted.count_le

theorem advance (noted : draft.Noted tokens stop budget) :
    draft.advance.Noted tokens stop budget :=
  noted.onward (.advance draft) draft.trips_advance

theorem settle (noted : draft.Noted tokens stop budget) : draft.settle.Noted tokens stop budget :=
  noted.onward ⟨draft.rest_settle_suffix, rfl⟩ rfl

theorem opened (noted : draft.Noted tokens stop budget) : draft.opened.Noted tokens stop budget :=
  noted.onward ⟨draft.rest_settle_suffix, rfl⟩ rfl

theorem closed (noted : draft.Noted tokens stop budget) (kind : Kind) (around : List Outline) :
    (draft.closed kind around).Noted tokens stop budget :=
  noted.onward ⟨List.suffix_rfl, rfl⟩ rfl

theorem skip (noted : draft.Noted tokens stop budget) (kind : Kind) :
    (draft.skip kind).Noted tokens stop budget := by
  by_cases same : draft.kind = kind
  · rw [skip_of_kind same]
    exact noted.advance
  · rwa [skip_of_kind_ne same]

/-- Behind a token that was there to be taken no note at the end is left. -/
theorem take? {after : Draft} {kind : Kind} (noted : draft.Noted tokens stop budget)
    (taken : draft.take? kind = some after) (notEnd : kind ≠ .endOfInput) (budget' : Nat) :
    after.Noted tokens stop budget' := by
  obtain ⟨kindEq, rfl⟩ := take?_eq_some_iff.mp taken
  exact (noted.renew (atEnd_eq_false_of_kind kindEq notEnd) budget').advance

theorem takeIn? {after : Draft} {set : KindSet} (noted : draft.Noted tokens stop budget)
    (taken : draft.takeIn? set = some after) (noEnd : set.contains .endOfInput = false)
    (budget' : Nat) : after.Noted tokens stop budget' := by
  obtain ⟨inside, rfl⟩ := takeIn?_eq_some_iff.mp taken
  exact (noted.renew (atEnd_eq_false_of_contains inside noEnd) budget').advance

/-- A loop that goes on before a significant token notes its ceiling there. -/
theorem trip (noted : draft.Noted tokens stop budget) (notEnd : draft.atEnd = false)
    {construct : Construct} (below : construct ≠ .topLevel)
    (notDepth : construct ≠ .recursionDepth) :
    (draft.trip construct).Noted tokens stop budget where
  stands := noted.stands.onward (.trip draft construct)
  ordered := List.Pairwise.cons noted.behind noted.ordered
  behind := List.forall_mem_cons.mpr
    ⟨⟨Nat.le_refl _, fun isDepth => absurd isDepth notDepth⟩, noted.behind⟩
  fits := List.forall_mem_cons.mpr
    ⟨⟨below, noted.stands.place, fun _ => noted.stands.offset_lt_stop notEnd⟩, noted.fits⟩
  count_le := by
    have other : (⟨construct, draft.offset⟩ : Trip) ≠ ⟨.recursionDepth, stop⟩ := by
      intro same
      exact notDepth (congrArg Trip.construct same)
    rw [Draft.trip, List.count_cons_of_ne other]
    exact noted.count_le

/-- The ceiling of depth is noted anywhere, and one more time at the end. -/
theorem tripDepth (noted : draft.Noted tokens stop budget) :
    (draft.trip .recursionDepth).advance.Noted tokens stop (budget + 1) := by
  have goesOn : draft.Onward (draft.trip .recursionDepth).advance :=
    (Onward.trip draft .recursionDepth).trans (.advance _)
  have tripsEq := (draft.trip .recursionDepth).trips_advance
  have offsetLe := noted.stands.tiled.offset_le goesOn
  have last : Trip.Before stop (draft.trip .recursionDepth).advance.offset
      ⟨.recursionDepth, draft.offset⟩ := by
    refine ⟨offsetLe, fun _ same => ?_⟩
    cases isEnd : draft.atEnd with
    | true => exact same.symm.trans (noted.stands.offset_of_atEnd isEnd)
    | false =>
        have sameRest : (draft.trip .recursionDepth).settle.rest = draft.settle.rest := rfl
        have moved := noted.stands.tiled.offset_lt isEnd
          (.of_advance isEnd sameRest rfl (.refl _))
        exact absurd same (Nat.ne_of_lt moved)
  constructor
  case stands => exact noted.stands.onward goesOn
  case ordered =>
    rw [tripsEq]
    exact List.Pairwise.cons noted.behind noted.ordered
  case behind =>
    rw [tripsEq]
    exact List.forall_mem_cons.mpr
      ⟨last, fun trip member => (noted.behind trip member).mono offsetLe⟩
  case fits =>
    rw [tripsEq]
    exact List.forall_mem_cons.mpr
      ⟨⟨nofun, noted.stands.place, fun notDepth => absurd rfl notDepth⟩, noted.fits⟩
  case count_le =>
    have countLe := noted.count_le
    rw [tripsEq, Draft.trip, List.count_cons]
    split <;> omega

end Noted

end Draft

namespace Grammar

/-! ## Rules -/

/-- From a log that may have `fresh` notes at the end, or more, a call of the rule adds at
most `again`. -/
def Notes (tokens : List Token) (stop fresh again : Nat) {Answer : Type}
    (rule : Draft → Answer × Draft) : Prop :=
  ∀ budget draft, fresh ≤ budget → draft.Noted tokens stop budget →
    (rule draft).2.Noted tokens stop (budget + again)

section Rules

variable {tokens : List Token} {stop budget : Nat} (limits : Limits)

theorem repeatWhile_noted {wanted : Draft → Bool} {turn : Draft → Turn Draft}
    {construct : Construct} (below : construct ≠ .topLevel)
    (notDepth : construct ≠ .recursionDepth)
    (notEnd : ∀ draft, wanted draft = true → draft.atEnd = false)
    (turnNoted : ∀ draft, draft.atEnd = false → draft.Noted tokens stop budget →
      (turn draft).state.Noted tokens stop budget)
    (turns : Nat) {draft : Draft} (noted : draft.Noted tokens stop budget) :
    (repeatWhile wanted turn (·.trip construct) turns draft).Noted tokens stop budget :=
  repeatWhile_related
    (fun before after : Draft => before.Noted tokens stop budget → after.Noted tokens stop budget)
    (fun _ => id) (fun first second => second ∘ first)
    (fun current goesOn => turnNoted current (notEnd current goesOn))
    (fun current goesOn noted => noted.trip (notEnd current goesOn) below notDepth)
    turns draft noted

theorem atEnd_eq_false_of_beq {kind : Kind} (notEnd : kind ≠ .endOfInput) (draft : Draft)
    (found : (draft.kind == kind) = true) : draft.atEnd = false :=
  Draft.atEnd_eq_false_of_kind (eq_of_beq found) notEnd

theorem propertyChain_noted {draft : Draft} (noted : draft.Noted tokens stop budget) :
    (propertyChain limits draft).Noted tokens stop budget := by
  refine repeatWhile_noted (by decide) (by decide) (atEnd_eq_false_of_beq (by decide)) ?_
    limits.chain noted
  intro current _ noted
  unfold propertyTurn
  dsimp only
  split
  · next taken => exact noted.advance.take? taken (by decide) budget
  · exact noted.advance

theorem parameters_noted {draft : Draft} (noted : draft.Noted tokens stop budget) :
    (parameters limits draft).Noted tokens stop budget := by
  unfold parameters
  split
  · next inside taken =>
      have list : (parameterList limits inside).Noted tokens stop budget := by
        refine repeatWhile_noted (by decide) (by decide) (atEnd_eq_false_of_beq (by decide)) ?_
          limits.iterations (noted.take? taken (by decide) budget)
        intro current _ noted
        unfold parameterTurn
        dsimp only
        split
        · next commaTaken => exact noted.advance.take? commaTaken (by decide) budget
        · exact noted.advance
      exact list.skip .rightParen
  · exact noted

variable {fresh again : Nat}

section Elements

variable {element : ElementRule} (notes : Notes tokens stop fresh again element)

include notes

/-- A turn of a list begins before a significant token, so it counts for itself. -/
theorem separatedTurn_noted {separators : KindSet}
    (noEnd : separators.contains .endOfInput = false) {draft : Draft}
    (notEnd : draft.atEnd = false) (noted : draft.Noted tokens stop budget) :
    (separatedTurn separators element draft).state.Noted tokens stop (fresh + again) := by
  have placed : (element.placeOrAdvance draft).Noted tokens stop (fresh + again) := by
    have inner := notes fresh draft (Nat.le_refl _) (noted.renew notEnd fresh)
    unfold ElementRule.placeOrAdvance
    split
    · next placed answer =>
        rw [answer] at inner
        exact inner
    · next missed answer =>
        rw [answer] at inner
        exact inner.advance
  unfold separatedTurn
  dsimp only
  split
  · next taken => exact placed.takeIn? taken noEnd _
  · exact placed

theorem separated_noted {construct : Construct} (below : construct ≠ .topLevel)
    (notDepth : construct ≠ .recursionDepth) {closing : Kind} {separators : KindSet}
    (noEnd : separators.contains .endOfInput = false) {draft : Draft}
    (noted : draft.Noted tokens stop (fresh + again)) :
    (separated limits construct closing separators element draft).Noted tokens stop
      (fresh + again) := by
  refine Draft.Noted.skip (repeatWhile_noted below notDepth ?_ ?_ limits.iterations noted) closing
  · intro current goesOn
    simp only [Bool.and_eq_true, Bool.not_eq_true'] at goesOn
    exact goesOn.2
  · exact fun current notEnd noted => separatedTurn_noted notes noEnd notEnd noted

end Elements

variable {nested : StatementRule} (notes : Notes tokens stop fresh again nested)

include notes

/-- A nested statement behind a token that was there to be taken. -/
theorem place_noted_of_take? {draft after : Draft} {kind : Kind}
    (noted : draft.Noted tokens stop budget) (taken : draft.take? kind = some after)
    (notEnd : kind ≠ .endOfInput) :
    (nested.place after).Noted tokens stop (fresh + again) :=
  notes fresh after (Nat.le_refl _) (noted.take? taken notEnd fresh)

theorem statementElement_notes : Notes tokens stop fresh again (statementElement nested) := notes

theorem entryElement_notes : Notes tokens stop fresh again (entryElement nested) := by
  intro budget draft le noted
  have key := notes budget draft le noted
  unfold entryElement
  dsimp only
  split
  · next taken =>
      exact (place_noted_of_take? notes key taken (by decide)).mono (Nat.add_le_add_right le again)
  · exact key

theorem condition_noted {draft : Draft} (noted : draft.Noted tokens stop (fresh + again)) :
    (condition nested draft).Noted tokens stop (fresh + again) := by
  unfold condition
  split
  · next taken => exact (place_noted_of_take? notes noted taken (by decide)).skip .rightParen
  · exact noted

theorem loopHeader_noted {draft : Draft} (noted : draft.Noted tokens stop (fresh + again)) :
    (loopHeader limits nested draft).Noted tokens stop (fresh + again) := by
  unfold loopHeader
  split
  · next taken =>
      exact separated_noted limits (statementElement_notes notes) (by decide) (by decide)
        (by decide) (noted.take? taken (by decide) _)
  · exact noted

theorem primary?_noted {draft first : Draft} (begun : primary? limits nested draft = some first)
    (noted : draft.Noted tokens stop budget) :
    first.Noted tokens stop (fresh + again) := by
  unfold primary? at begun
  split at begun
  · next isAtom =>
      cases begun
      have behind : draft.advance.Noted tokens stop (fresh + again) :=
        noted.takeIn? (Draft.takeIn?_eq_some_iff.mpr ⟨isAtom, rfl⟩) (by decide) _
      have chain := propertyChain_noted limits behind
      unfold atomPrimary
      dsimp only
      split
      · next taken =>
          exact separated_noted limits (statementElement_notes notes) (by decide) (by decide)
            (by decide) (chain.take? taken (by decide) _)
      · exact chain
  · -- Each bracket is there to be taken.
    have behind {bracket : Kind} (kindEq : draft.kind = bracket) (notEnd : bracket ≠ .endOfInput)
        (budget' : Nat) : draft.advance.Noted tokens stop budget' :=
      noted.take? (Draft.take?_eq_some_iff.mpr ⟨kindEq, rfl⟩) notEnd budget'
    split at begun
    · next kindEq =>
        cases begun
        have inside := notes fresh draft.advance (Nat.le_refl _) (behind kindEq (by decide) fresh)
        exact inside.skip .rightParen
    · next kindEq =>
        cases begun
        exact separated_noted limits (entryElement_notes notes) (by decide) (by decide) (by decide)
          (behind kindEq (by decide) _)
    · next kindEq =>
        cases begun
        exact separated_noted limits (statementElement_notes notes) (by decide) (by decide)
          (by decide) (behind kindEq (by decide) _)
    · cases begun

theorem operatorChain_noted {draft : Draft} (noted : draft.Noted tokens stop (fresh + again)) :
    (operatorChain limits nested draft).Noted tokens stop (fresh + again) := by
  refine repeatWhile_noted (by decide) (by decide) ?_ ?_ limits.chain noted
  · exact fun current found => Draft.atEnd_eq_false_of_contains found (by decide)
  · intro current _ noted
    unfold operatorTurn
    dsimp only
    split
    · next begun => exact primary?_noted limits notes begun noted.advance
    · exact noted.advance

theorem expression_noted {draft : Draft} (notEnd : draft.atEnd = false)
    (noted : draft.Noted tokens stop budget) :
    (expression limits nested draft).2.Noted tokens stop (fresh + again) := by
  unfold expression
  dsimp only
  split
  · exact (noted.renew notEnd _).settle
  · next begun =>
      have first := primary?_noted limits notes begun noted.opened
      split
      · next taken => exact (place_noted_of_take? notes first taken (by decide)).closed _ _
      · exact (operatorChain_noted limits notes first).closed _ _

theorem placeOrAdvance_noted {draft : Draft} (notEnd : draft.atEnd = false)
    (noted : draft.Noted tokens stop budget) :
    (nested.placeOrAdvance draft).Noted tokens stop (fresh + again) := by
  have inner := notes fresh draft (Nat.le_refl _) (noted.renew notEnd fresh)
  unfold StatementRule.placeOrAdvance
  split
  · next missed answer =>
      rw [answer] at inner
      exact inner.advance
  · next answer =>
      rw [answer] at inner
      exact inner

theorem regionBody_noted {draft : Draft} (noted : draft.Noted tokens stop (fresh + again)) :
    (regionBody limits nested draft).Noted tokens stop (fresh + again) := by
  refine repeatWhile_related
    (fun before after : Region => before.draft.Noted tokens stop (fresh + again) →
      after.draft.Noted tokens stop (fresh + again))
    (fun _ => id) (fun first second => second ∘ first) ?_ ?_ limits.regionIterations ⟨1, draft⟩
    noted
  · intro region goesOn noted
    have notEnd : region.draft.atEnd = false := by simpa using goesOn
    unfold regionTurn
    split
    · exact noted.advance
    · split <;> exact noted.advance
    · exact placeOrAdvance_noted notes notEnd noted
  · intro region goesOn noted
    exact noted.trip (by simpa using goesOn) (by decide) (by decide)

theorem templateParts_noted {draft : Draft} (noted : draft.Noted tokens stop (fresh + again)) :
    (templateParts limits nested draft).Noted tokens stop (fresh + again) := by
  unfold templateParts
  split
  · exact noted.advance.skip .rightBrace
  · split
    · next taken =>
        exact regionBody_noted limits notes (noted.advance.take? taken (by decide) _)
    · exact noted.advance
  · exact regionBody_noted limits notes noted.advance

/-! ## Statements -/

theorem place_noted {draft : Draft} (noted : draft.Noted tokens stop (fresh + again)) :
    (nested.place draft).Noted tokens stop (fresh + again + again) :=
  notes (fresh + again) draft (Nat.le_add_right fresh again) noted

section Statements

variable {draft : Draft} (inside : draft.opened.advance.Noted tokens stop (fresh + again))

include inside

theorem ifStatement_noted :
    (ifStatement nested draft).Noted tokens stop (fresh + again + again) := by
  have branch := place_noted notes (condition_noted notes inside)
  refine Draft.Noted.closed ?_ _ _
  dsimp only
  split
  · next taken =>
      exact (place_noted_of_take? notes branch taken (by decide)).mono (Nat.le_add_right _ again)
  · exact branch

theorem forStatement_noted :
    (forStatement limits nested draft).Noted tokens stop (fresh + again + again) :=
  (place_noted notes (loopHeader_noted limits notes inside)).closed _ _

theorem whileStatement_noted :
    (whileStatement nested draft).Noted tokens stop (fresh + again + again) :=
  (place_noted notes (condition_noted notes inside)).closed _ _

theorem doStatement_noted :
    (doStatement nested draft).Noted tokens stop (fresh + again + again) := by
  have body := place_noted notes (condition_noted notes inside)
  have last {after : Draft} (noted : after.Noted tokens stop (fresh + again)) :
      (condition nested after).Noted tokens stop (fresh + again + again) :=
    (condition_noted notes noted).mono (Nat.le_add_right _ again)
  refine Draft.Noted.closed ?_ _ _
  dsimp only
  split
  · next taken => exact last (body.take? taken (by decide) _)
  · split
    · next taken => exact last (body.take? taken (by decide) _)
    · exact body

theorem keywordStatement_noted (kind : Kind) :
    (keywordStatement kind nested draft).Noted tokens stop (fresh + again + again) :=
  (place_noted notes inside).closed _ _

theorem functionDefinition_noted :
    (functionDefinition limits nested draft).Noted tokens stop (fresh + again + again) :=
  (place_noted notes (parameters_noted limits (inside.skip .identifier))).closed _ _

end Statements

theorem templateBlock_noted {draft : Draft}
    (noted : draft.opened.Noted tokens stop (fresh + again)) :
    (templateBlock limits nested draft).Noted tokens stop (fresh + again + again) :=
  ((templateParts_noted limits notes noted).closed _ _).mono (Nat.le_add_right _ again)

/-- A statement before the end notes no more there than one nested call that comes to the
end and one that begins there. -/
theorem statementAt_noted {draft : Draft} (notEnd : draft.atEnd = false)
    (noted : draft.Noted tokens stop budget) :
    (statementAt limits nested draft).2.Noted tokens stop (fresh + again + again) := by
  have opened : draft.opened.Noted tokens stop (fresh + again) := (noted.renew notEnd _).opened
  have inside := opened.advance
  unfold statementAt
  split
  · next kindEq => simp [Draft.atEnd, kindEq] at notEnd
  · exact ifStatement_noted notes inside
  · exact forStatement_noted limits notes inside
  · exact forStatement_noted limits notes inside
  · exact whileStatement_noted notes inside
  · exact doStatement_noted notes inside
  · exact keywordStatement_noted notes inside .returnStmt
  · exact functionDefinition_noted limits notes inside
  · exact functionDefinition_noted limits notes inside
  · exact keywordStatement_noted notes inside .statement
  · exact keywordStatement_noted notes inside .statement
  · exact keywordStatement_noted notes inside .statement
  · exact keywordStatement_noted notes inside .statement
  · exact templateBlock_noted limits notes opened
  · split
    · exact templateBlock_noted limits notes opened
    · exact (expression_noted limits notes notEnd noted).mono (Nat.le_add_right _ again)

end Rules

/-- With no level left a call at the end is noted; with a level left nothing begins there,
and a call before the end comes to two notes there at most. -/
theorem statement_notes (tokens : List Token) (stop : Nat) (limits : Limits) (levels : Nat) :
    ∃ fresh again, fresh + again + again ≤ 2 ∧
      Notes tokens stop fresh again (statement limits levels) := by
  induction levels with
  | zero => exact ⟨0, 1, Nat.le_refl 2, fun _ _ _ noted => noted.tripDepth⟩
  | succ levels inductionHypothesis =>
      obtain ⟨fresh, again, sum, notes⟩ := inductionHypothesis
      refine ⟨2, 0, Nat.le_refl 2, ?_⟩
      intro budget draft le noted
      cases isEnd : draft.atEnd with
      | true =>
          rw [statement, statementAt_of_atEnd limits _ isEnd]
          exact noted
      | false =>
          -- The notes at the end are all from this call, however many were allowed before.
          exact (statementAt_noted limits notes isEnd noted).mono (sum.trans le)

end Grammar

end TemplateFrontend
