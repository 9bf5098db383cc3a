import TemplateFrontend.Proofs.Grammar.Progress
import TemplateFrontend.Proofs.Grammar.Turns

/-!
Contract: the top level of a program in two stages.

Owns:
- `MeetsBelow`, a draft that has come on from another one without meeting the ceiling of
  the top level, and that every rule for statements leaves such drafts;
- `topLevelLoop_stages`, which says that a top level with more turns goes on from the
  draft on which one with fewer turns meets its ceiling;
- `logging`, the pairing of a run that goes on from earlier ceilings with one that has met
  none, and that it is a simulation;
- `program_stages`, which compares the programs under two ceilings of the top level.
-/

namespace TemplateFrontend.Grammar

open Outline (frontierAll)

/-! ## Ceilings below the top level -/

/-- Between the drafts ceilings were met, but not that of the top level. -/
def MeetsBelow (draft after : Draft) : Prop :=
  ∃ met, after.trips = met ++ draft.trips ∧ ∀ trip ∈ met, trip.construct ≠ .topLevel

namespace MeetsBelow

theorem of_trips_eq {draft after : Draft} (same : after.trips = draft.trips) :
    MeetsBelow draft after :=
  ⟨[], same, by simp⟩

theorem trans {first second third : Draft} (earlier : MeetsBelow first second)
    (later : MeetsBelow second third) : MeetsBelow first third := by
  obtain ⟨front, frontEq, frontBelow⟩ := earlier
  obtain ⟨back, backEq, backBelow⟩ := later
  refine ⟨back ++ front, by rw [backEq, frontEq, List.append_assoc], ?_⟩
  intro trip member
  rcases List.mem_append.mp member with inBack | inFront
  · exact backBelow trip inBack
  · exact frontBelow trip inFront

theorem trip (draft : Draft) {construct : Construct} (below : construct ≠ .topLevel) :
    MeetsBelow draft (draft.trip construct) := by
  refine ⟨[⟨construct, draft.offset⟩], rfl, ?_⟩
  intro trip member
  rw [List.mem_singleton.mp member]
  exact below

theorem of_path {draft after : Draft} (path : Path MeetsBelow draft after) :
    MeetsBelow draft after :=
  path.related MeetsBelow (fun _ => of_trips_eq rfl) trans
    (fun draft => of_trips_eq draft.trips_advance) (fun draft _ below => trip draft below) id

end MeetsBelow

theorem statement_meetsBelow (limits : Limits) (levels : Nat) (draft : Draft) :
    MeetsBelow draft (statement limits levels draft).2 := by
  induction levels generalizing draft with
  | zero =>
      exact (MeetsBelow.trip draft (by decide)).trans
        (.of_trips_eq (draft.trip .recursionDepth).trips_advance)
  | succ levels inductionHypothesis =>
      have answer := statementAt_answer limits inductionHypothesis draft
      unfold statement
      generalize statementAt limits (statement limits levels) draft = answered at answer
      cases answer with
      | atEnd isEnd => exact .of_trips_eq rfl
      | missed notEnd => exact .of_trips_eq rfl
      | @node kind inside notEnd isStatement path =>
          have opened : MeetsBelow draft draft.opened.advance :=
            .of_trips_eq draft.opened.trips_advance
          have within : MeetsBelow draft.opened.advance inside := .of_path path
          have closed : MeetsBelow inside (inside.closed kind draft.settle.placed) :=
            .of_trips_eq rfl
          exact (opened.trans within).trans closed

theorem topLevelTurn_meetsBelow (limits : Limits) (draft : Draft) :
    MeetsBelow draft (topLevelTurn limits draft) :=
  .of_path (path_placeOrAdvance (statement_meetsBelow limits limits.depth) draft)

theorem topLevelTurn_grows (limits : Limits) (draft : Draft) :
    Grows (Origin limits) limits.depth draft (topLevelTurn limits draft) :=
  grows_of_path (origin_lasting limits)
    (path_placeOrAdvance (statement_grows limits limits.depth) draft)

/-! ## Stages -/

/-- The ceiling of the top level does not matter to statements. -/
theorem statement_topLevelIterations (limits : Limits) (turns levels : Nat) :
    statement { limits with topLevelIterations := turns } levels = statement limits levels := by
  induction levels with
  | zero => rfl
  | succ levels inductionHypothesis =>
      funext draft
      rw [statement, statement, inductionHypothesis]
      rfl

theorem topLevel_topLevelIterations (limits : Limits) (turns : Nat) (draft : Draft) :
    topLevel { limits with topLevelIterations := turns } draft =
      topLevelLoop limits turns draft := by
  rw [topLevel, topLevelLoop, statement_topLevelIterations]
  rfl

/-- A number of turns of the top level come to the end of the tokens, or to a draft from
which the top level goes on if there are more turns. -/
theorem topLevelLoop_stages (limits : Limits) (turns : Nat) (draft : Draft) :
    (∃ last, MeetsBelow draft last ∧ ∀ more, topLevelLoop limits (turns + more) draft = last) ∨
      ∃ between, between.atEnd = false ∧ MeetsBelow draft between ∧
        Grows (Origin limits) limits.depth draft between ∧
        ∀ more, topLevelLoop limits (turns + more) draft = topLevelLoop limits more between := by
  induction turns generalizing draft with
  | zero =>
      cases isEnd : draft.atEnd with
      | true => exact Or.inl ⟨draft, .of_trips_eq rfl, fun _ => topLevelLoop_of_atEnd isEnd⟩
      | false =>
          refine Or.inr ⟨draft, isEnd, .of_trips_eq rfl, ⟨[], .refl draft⟩, ?_⟩
          intro more
          rw [Nat.zero_add]
  | succ turns inductionHypothesis =>
      cases isEnd : draft.atEnd with
      | true => exact Or.inl ⟨draft, .of_trips_eq rfl, fun _ => topLevelLoop_of_atEnd isEnd⟩
      | false =>
          have first : ∀ more, topLevelLoop limits (turns + 1 + more) draft =
              topLevelLoop limits (turns + more) (topLevelTurn limits draft) := by
            intro more
            rw [Nat.add_right_comm, topLevelLoop_succ isEnd]
          have below := topLevelTurn_meetsBelow limits draft
          rcases inductionHypothesis (topLevelTurn limits draft) with
            ⟨last, lastBelow, ends⟩ | ⟨between, notEnd, betweenBelow, grows, goesOn⟩
          · exact Or.inl ⟨last, below.trans lastBelow, fun more => (first more).trans (ends more)⟩
          · exact Or.inr ⟨between, notEnd, below.trans betweenBelow,
              grows_trans (origin_lasting limits) (topLevelTurn_grows limits draft) grows,
              fun more => (first more).trans (goesOn more)⟩

theorem topLevelLoop_zero {limits : Limits} {draft : Draft} (notEnd : draft.atEnd = false) :
    topLevelLoop limits 0 draft = draft.trip .topLevel := by
  rw [topLevelLoop, repeatWhile, if_pos (by simp [notEnd])]

theorem topLevelLoop_grows (limits : Limits) (turns : Nat) (draft : Draft) :
    Grows (Origin { limits with topLevelIterations := turns }) limits.depth draft
      (topLevelLoop limits turns draft) := by
  rw [← topLevel_topLevelIterations]
  exact topLevel_grows { limits with topLevelIterations := turns } draft

theorem placed_placeRest (draft : Draft) :
    (placeRest draft).placed = (draft.settle.rest.map .leaf).reverse ++ draft.settle.placed := by
  rw [placeRest, Draft.foldl_leaf]
  conv_lhs => rw [← draft.leading_append_settle_rest]
  rw [Draft.leaves, List.map_append, List.reverse_append, List.append_assoc]
  rfl

/-- However many turns are left, what a program places from a draft on begins with the
trivia before the token ahead. -/
theorem placeRest_topLevelLoop {limits : Limits} {draft : Draft} (notEnd : draft.atEnd = false)
    (kinds : ∀ token ∈ draft.rest, token.kind ≠ .endOfInput) (turns : Nat) :
    ∃ parts, frontierAll parts = draft.settle.rest ∧
      (placeRest (topLevelLoop limits turns draft)).placed =
        parts.reverse ++ draft.settle.placed := by
  cases turns with
  | zero =>
      refine ⟨draft.settle.rest.map .leaf, Outline.frontierAll_map_leaf _, ?_⟩
      rw [topLevelLoop_zero notEnd, placed_placeRest]
      rfl
  | succ turns =>
      obtain ⟨_, element, placed, _⟩ := topLevelTurn_alike rfl notEnd limits kinds
      obtain ⟨parts, added⟩ := grows_trans (origin_lasting _)
        (topLevelLoop_grows limits turns (topLevelTurn limits draft)) (placeRest_grows _)
      have nothing :
          (placeRest (topLevelLoop limits turns (topLevelTurn limits draft))).rest = [] := rfl
      refine ⟨element :: parts, ?_, ?_⟩
      · have turnRest := topLevelTurn_rest placed
        have laterRest := added.rest_eq
        rw [nothing, List.append_nil] at laterRest
        rw [← draft.leading_append_settle_rest, laterRest] at turnRest
        exact (List.append_cancel_left turnRest).symm
      · rw [topLevelLoop_succ notEnd, added.placed_eq, placed, List.reverse_cons, List.append_assoc]
        rfl

/-- A program under another ceiling of the top level. -/
theorem program_topLevelIterations (limits : Limits) (turns : Nat) (tokens : List Token)
    (stop : Nat) :
    program { limits with topLevelIterations := turns } tokens stop =
      (.node .root (placeRest (topLevelLoop limits turns (.ofTokens tokens stop))).placed.reverse,
        (topLevelLoop limits turns (.ofTokens tokens stop)).trips.reverse) := by
  rw [program, topLevel_topLevelIterations]
  rfl

/-! ## Logs -/

/-- Both drafts stand before the same token, and the first one has met the ceilings `met`
before those of the second one. What they have placed does not matter. -/
structure Logs (met : List Trip) (left right : Draft) : Prop where
  rest_eq : left.settle.rest = right.settle.rest
  stop_eq : left.stop = right.stop
  trips_eq : left.trips = right.trips ++ met

/-- Runs that go on alike from different logs. No run is ever lost. -/
def logging (met : List Trip) : Pairing where
  lost _ := False
  related := Logs met

theorem Logs.kind_eq {met : List Trip} {left right : Draft} (logs : Logs met left right) :
    left.kind = right.kind := by
  rw [← left.kind_settle, ← right.kind_settle, Draft.kind_congr logs.rest_eq]

theorem Logs.settle {met : List Trip} {left right : Draft} (logs : Logs met left right) :
    Logs met left.settle right.settle where
  rest_eq := by
    rw [Draft.settle_eq_self left.settled_settle, Draft.settle_eq_self right.settled_settle]
    exact logs.rest_eq
  stop_eq := logs.stop_eq
  trips_eq := logs.trips_eq

theorem Logs.advance {met : List Trip} {left right : Draft} (logs : Logs met left right) :
    Logs met left.advance right.advance := by
  rcases right.next_cases with empty | ⟨token, later, next⟩
  · rwa [Draft.advance_of_settle_rest_nil empty,
      Draft.advance_of_settle_rest_nil (logs.rest_eq.trans empty)]
  · have leftNext := Draft.nextIs_of_settle_rest (logs.rest_eq.trans next.settle_rest)
    rw [next.advance_eq, leftNext.advance_eq]
    exact ⟨rfl, logs.stop_eq, logs.trips_eq⟩

theorem Logs.trip {met : List Trip} {left right : Draft} (logs : Logs met left right)
    (construct : Construct) : Logs met (left.trip construct) (right.trip construct) where
  rest_eq := logs.rest_eq
  stop_eq := logs.stop_eq
  trips_eq := by
    have sameOffset : left.offset = right.offset := by
      rw [← left.start_ahead, ← right.start_ahead, Draft.ahead_congr logs.rest_eq logs.stop_eq]
    rw [Draft.trip, Draft.trip, sameOffset, logs.trips_eq, List.cons_append]

theorem logging_simulation (met : List Trip) (limits : Limits) :
    Simulation (logging met) limits limits where
  lost_congr := fun lost _ _ => lost
  lost_settle _ := id
  lost_advance _ := id
  lost_trip _ _ := id
  kinds logs := Or.inl logs.kind_eq
  settle meets := meets.related.settle
  advance logs _ := logs.advance
  opened meets :=
    let settled := meets.related.settle
    ⟨settled.rest_eq, settled.stop_eq, settled.trips_eq⟩
  closed _ _ inside := ⟨inside.rest_eq, inside.stop_eq, inside.trips_eq⟩
  trip construct logs := Or.inr (logs.trip construct)
  depth := Or.inl rfl
  iterations := Or.inl rfl
  chain := Or.inl rfl
  regionIterations := Or.inl rfl
  topLevelIterations := Or.inl rfl

/-- The ceilings that a top level meets from a draft on are those that it meets when it
begins with the same token. -/
theorem topLevelLoop_trips {limits : Limits} {draft : Draft} {tokens : List Token}
    (restEq : draft.settle.rest = tokens) (turns : Nat) :
    (topLevelLoop limits turns draft).trips =
      (topLevelLoop limits turns (.ofTokens tokens draft.stop)).trips ++ draft.trips := by
  have logs : Logs draft.trips draft (.ofTokens tokens draft.stop) := by
    refine ⟨?_, rfl, rfl⟩
    rw [← restEq]
    exact (congrArg Draft.rest (Draft.settle_eq_self draft.settled_settle)).symm
  have simulation := logging_simulation draft.trips { limits with topLevelIterations := turns }
  rw [← topLevel_topLevelIterations, ← topLevel_topLevelIterations]
  rcases simulation.topLevel logs with lost | after
  · cases lost
  · exact after.trips_eq

/-! ## Programs under two ceilings -/

/-- A program of `tokens` that meets the ceiling of the top level before `token`, and what
`more` turns make of it: they go on there as in a program of the tokens from there on. -/
structure CutShort (limits : Limits) (more : Nat) (tokens : List Token) (stop : Nat)
    (front back : List Outline) (token : Token) (later : List Token) (met : List Trip) :
    Prop where
  tokens_eq : tokens = frontierAll front ++ token :: later
  frontier_back : frontierAll back = token :: later
  below : ∀ trip ∈ met, trip.construct ≠ .topLevel
  program_eq : program limits tokens stop =
    (.node .root (front ++ (token :: later).map .leaf), met ++ [⟨.topLevel, token.span.start⟩])
  program_eq_more :
    program { limits with topLevelIterations := limits.topLevelIterations + more } tokens stop =
      (.node .root (front ++ back),
        met ++ (program { limits with topLevelIterations := more } (token :: later) stop).2)

theorem cutShort_of_between {limits : Limits} {tokens : List Token} {stop : Nat} {between : Draft}
    (kinds : ∀ token ∈ tokens, token.kind ≠ .endOfInput) (notEnd : between.atEnd = false)
    (below : MeetsBelow (.ofTokens tokens stop) between)
    (grows : Grows (Origin limits) limits.depth (.ofTokens tokens stop) between)
    (goesOn : ∀ more, topLevelLoop limits (limits.topLevelIterations + more)
      (.ofTokens tokens stop) = topLevelLoop limits more between) (more : Nat) :
    ∃ front back token later met, CutShort limits more tokens stop front back token later met := by
  obtain ⟨met, metEq, below⟩ := below
  replace metEq : between.trips = met := by rw [metEq, Draft.ofTokens, List.append_nil]
  obtain ⟨token, later, next⟩ := Draft.exists_nextIs notEnd
  obtain ⟨parts, added⟩ := grows
  have settled := added.trans (origin_lasting limits) (adds_settle between)
  have placedEq : between.settle.placed = _ ++ [] := settled.placed_eq
  have tokensEq : tokens = _ ++ between.settle.rest := settled.rest_eq
  rw [next.settle_rest] at tokensEq
  have betweenKinds : ∀ other ∈ between.rest, other.kind ≠ .endOfInput := by
    intro other member
    have restEq : tokens = _ ++ between.rest := added.rest_eq
    exact kinds other (restEq ▸ List.mem_append_right _ member)
  obtain ⟨back, backFrontier, backPlaced⟩ :=
    @placeRest_topLevelLoop limits between notEnd betweenKinds more
  have stopEq : between.stop = stop := added.stop_eq
  have offsetEq : between.offset = token.span.start := by
    rw [← between.start_ahead, next.ahead_eq]
  refine ⟨_, back, token, later, met.reverse, tokensEq, backFrontier.trans next.settle_rest,
    fun trip member => below trip (List.mem_reverse.mp member), ?_, ?_⟩
  · have programEq := program_topLevelIterations limits limits.topLevelIterations tokens stop
    have atCeiling := goesOn 0
    rw [Nat.add_zero, topLevelLoop_zero notEnd] at atCeiling
    have placedEq' : (placeRest (between.trip .topLevel)).placed =
        ((between.settle.rest.map .leaf).reverse ++ between.settle.placed) :=
      placed_placeRest (between.trip .topLevel)
    rw [atCeiling, placedEq', placedEq, next.settle_rest, Draft.trip, offsetEq, metEq] at programEq
    simpa using programEq
  · rw [program_topLevelIterations, program_topLevelIterations, goesOn more, backPlaced, placedEq,
      topLevelLoop_trips next.settle_rest, stopEq, metEq]
    simp

/-- A program comes to its end within its turns and more turns change nothing, or it meets
the ceiling of the top level and more turns go on from there. -/
theorem program_stages (limits : Limits) {tokens : List Token} (stop : Nat)
    (kinds : ∀ token ∈ tokens, token.kind ≠ .endOfInput) (more : Nat) :
    ((∀ trip ∈ (program limits tokens stop).2, trip.construct ≠ .topLevel) ∧
      program { limits with topLevelIterations := limits.topLevelIterations + more } tokens stop =
        program limits tokens stop) ∨
      ∃ front back token later met,
        CutShort limits more tokens stop front back token later met := by
  rcases topLevelLoop_stages limits limits.topLevelIterations (.ofTokens tokens stop) with
    ⟨last, ⟨met, metEq, below⟩, ends⟩ | ⟨between, notEnd, below, grows, goesOn⟩
  · have programEq := program_topLevelIterations limits limits.topLevelIterations tokens stop
    have loopEq := ends 0
    rw [Nat.add_zero] at loopEq
    rw [loopEq] at programEq
    refine Or.inl ⟨?_, ?_⟩
    · rw [programEq, metEq]
      intro trip member
      exact below trip (by simpa [Draft.ofTokens] using member)
    · rw [program_topLevelIterations, ends more]
      exact programEq.symm
  · exact Or.inr (cutShort_of_between kinds notEnd below grows goesOn more)

end TemplateFrontend.Grammar
