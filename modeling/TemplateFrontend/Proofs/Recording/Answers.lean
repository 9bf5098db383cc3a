import TemplateFrontend.Proofs.Grammar.Answers
import TemplateFrontend.Proofs.Recording.Calls

/-!
Contract: what the rule for statements does to a recorder.

Owns:
- `Recorder.Records`, a recorder that has moved on by some parts, and
  `Recorder.Waits`, one that still stands before the same token;
- `Answers`, the three ways in which the rule answers, and that there are no others
  on recorders in the place of a draft.
-/

namespace TemplateFrontend

open Outline (frontierAll stepsAll)

/-! ## Moving on and waiting -/

namespace Recorder

/-- The tokens that are still to be recorded: the trivia that is kept, the significant
token ahead, and what the reader gives behind it. -/
def unread (recorder : Recorder) : Except Breach (List Token) :=
  if recorder.current.kind = .endOfInput then
    .ok recorder.trivia
  else do
    let later ← recorder.reader.tokens
    return recorder.trivia ++ recorder.current :: later

theorem kind_start (recorder : Recorder) :
    recorder.start.2.current.kind = recorder.current.kind := by
  unfold Recorder.start
  dsimp only [Recorder.push]
  split <;> rfl

/-- `after` is `before` moved on by `parts`: the steps of the parts were recorded, their
tokens were taken off the front of the unread ones, and the same markers are in use. -/
structure Records (before after : Recorder) (parts : List Outline) : Prop where
  steps_eq : after.steps = before.steps ++ stepsAll parts
  unread_eq : ∃ left, before.unread = .ok (frontierAll parts ++ left) ∧ after.unread = .ok left
  armed_eq : after.armed = before.armed
  trips_suffix : before.trips <:+ after.trips

/-- `after` stands where `before` does: nothing was recorded, or only the trivia that
was kept. -/
structure Waits (before after : Recorder) : Prop where
  current_eq : after.current = before.current
  reader_eq : after.reader = before.reader
  armed_eq : after.armed = before.armed
  trips_eq : after.trips = before.trips
  steps_cases : after.steps = before.steps ∧ after.trivia = before.trivia ∨
    after.steps = before.steps ++ before.trivia.map .token ∧ after.trivia = []

/-- The significant token ahead, and maybe more, was recorded. -/
def MovesOn (before after : Recorder) : Prop :=
  before.current.isTrivia = false ∧
    ∃ parts, before.Records after parts ∧ before.current ∈ frontierAll parts

end Recorder

namespace Represents

variable {frame : List BuildStep} {armed : List Nat} {recorder : Recorder} {draft : Draft}

theorem unread_eq (represents : Represents False 0 frame armed recorder draft) :
    recorder.unread = .ok draft.rest := by
  unfold Recorder.unread
  rw [represents.trivia_eq]
  cases isEnd : draft.atEnd with
  | true =>
      have onlyTrivia := draft.leading_append_settle_rest
      rw [represents.settle_rest_of_atEnd isEnd, List.append_nil] at onlyTrivia
      rw [if_pos (represents.isEnd_iff.mpr isEnd), onlyTrivia]
  | false =>
      obtain ⟨token, later, next⟩ := Draft.exists_nextIs isEnd
      obtain ⟨scanner, reads, tokensEq, _⟩ := represents.reads
      rw [next.settle_rest, List.tail_cons] at tokensEq
      have tokens : recorder.reader.tokens = .ok later := by
        rw [← tokensEq]
        exact Reader.drain_eq reads []
      rw [if_neg (by simp [represents.isEnd_iff, isEnd]), tokens, represents.current_eq,
        next.ahead_eq, next.rest_eq]
      rfl

/-- Where a draft adds parts, a recorder in its place records them. -/
theorem records (before : Represents False 0 frame armed recorder draft)
    {recorder' : Recorder} {draft' : Draft}
    (after : Represents False 0 frame armed recorder' draft')
    {claim : List Trip → Outline.NodeClaim} {levels : Nat} {parts : List Outline}
    (added : Grammar.Adds claim levels draft draft' parts) : recorder.Records recorder' parts where
  steps_eq := by
    rw [after.kept.steps_eq, before.kept.steps_eq, added.placed_eq, List.reverse_append,
      List.reverse_reverse, Outline.stepsAll_append, List.append_assoc]
  unread_eq := ⟨draft'.rest, by rw [before.unread_eq, added.rest_eq], after.unread_eq⟩
  armed_eq := after.armed_eq.trans before.armed_eq.symm
  trips_suffix := by
    rw [before.trips_eq, after.trips_eq]
    exact added.trips_suffix

/-- Where a draft advances and goes on from there, a recorder moves on. -/
theorem movesOn (before : Represents False 0 frame armed recorder draft)
    (notEnd : draft.atEnd = false) {recorder' : Recorder} {draft' : Draft}
    (after : Represents False 0 frame armed recorder' draft')
    {limits : Limits} {levels : Nat} (movesOn : Grammar.MovesOn limits levels draft draft') :
    recorder.MovesOn recorder' := by
  obtain ⟨token, later, next⟩ := Draft.exists_nextIs notEnd
  obtain ⟨⟨parts, added⟩, onward⟩ := movesOn
  obtain ⟨passed, split⟩ := onward.rest_suffix
  have restEq : frontierAll parts ++ draft'.rest =
      (draft.leading ++ token :: passed) ++ draft'.rest := by
    rw [← added.rest_eq, next.rest_eq, List.append_assoc, List.cons_append, split,
      next.advance_eq]
  have frontierEq := List.append_cancel_right restEq
  rw [Recorder.MovesOn, before.current_eq, next.ahead_eq]
  refine ⟨next.significant, parts, before.records after added, ?_⟩
  rw [frontierEq]
  simp

end Represents

/-! ## The answers of the rule for statements -/

namespace Record

/-- How the rule for statements answers at a depth: with a node that begins with the
token ahead; by waiting before a token that begins none; or, above the ceiling on
nesting, by noting the ceiling and recording the token ahead, if there is one. -/
inductive Answers (limits : Limits) (depth : Nat) (before : Recorder) : Bool → Recorder → Prop
  | node {after : Recorder} {kind : Kind} {parts : List Outline} (inside : depth ≤ limits.depth)
      (notEnd : before.current.kind ≠ .endOfInput) (significant : before.current.isTrivia = false)
      (records : before.Records after
        (before.trivia.map .leaf ++ [.node kind (.leaf before.current :: parts)]))
      (complete : .start .tombstone ∉ (Outline.node kind (.leaf before.current :: parts)).steps) :
      Answers limits depth before true after
  | missed {after : Recorder} (inside : depth ≤ limits.depth) (waits : before.Waits after) :
      Answers limits depth before false after
  | skipped {after : Recorder} (outside : limits.depth < depth)
      (notEnd : before.current.kind ≠ .endOfInput) (significant : before.current.isTrivia = false)
      (records : before.Records after ((before.trivia ++ [before.current]).map .leaf))
      (trips_eq : after.trips = ⟨.recursionDepth, before.current.span.start⟩ :: before.trips) :
      Answers limits depth before false after
  | skippedAtEnd (outside : limits.depth < depth) (isEnd : before.current.kind = .endOfInput) :
      Answers limits depth before false (before.trip .recursionDepth)

variable {limits : Limits} {nested : Record Bool} {recorder : Recorder}

/-! ### Before a token that begins no statement -/

theorem yields_primary_missed (opensNone : Grammar.opensPrimary recorder.current.kind = false) :
    (primary limits nested).Yields False recorder fun found after =>
      found = false ∧ recorder = after := by
  apply Yields.observe_bind
  split
  · next isAtom =>
      rw [Grammar.opensPrimary_of_atom isAtom] at opensNone
      cases opensNone
  · split
    case h_4 => exact .pure ⟨rfl, rfl⟩
    all_goals
      next kindEq =>
        rw [kindEq] at opensNone
        cases opensNone

/-- Before a token that begins no statement a marker is set and abandoned. -/
theorem yields_statementWith_abandoned {marker : Marker} {opened after : Recorder}
    (notEnd : recorder.current.kind ≠ .endOfInput)
    (startsNone : Grammar.starts recorder.current.kind = false)
    (startEq : recorder.start = (marker, opened)) (abandonEq : opened.abandon marker = .ok after) :
    (statementWith limits nested).Yields False recorder fun found left =>
      found = false ∧ after = left := by
  have openedKind : opened.current.kind = recorder.current.kind := by
    rw [← recorder.kind_start, startEq]
  have opensNone : Grammar.opensPrimary opened.current.kind = false := by
    cases opens : Grammar.opensPrimary opened.current.kind with
    | false => rfl
    | true =>
        rw [openedKind] at opens
        exact absurd (Grammar.opensPrimary_facts opens).1 (by simp [startsNone])
  apply Yields.observe_bind
  split
  case h_1 => contradiction
  case h_15 =>
    split
    · next isMarkup =>
        rw [Grammar.starts_of_isMarkup isMarkup] at startsNone
        cases startsNone
    · have started : start.Yields False recorder fun found begun =>
          marker = found ∧ opened = begun := .of_ok (congrArg Except.ok startEq) ⟨rfl, rfl⟩
      apply started.bind
      rintro _ _ ⟨rfl, rfl⟩
      apply (yields_primary_missed opensNone).bind
      rintro _ _ ⟨rfl, rfl⟩
      have abandoned : (abandon marker).Yields False opened fun _ left => after = left :=
        .change abandonEq rfl
      apply abandoned.bind
      rintro _ _ rfl
      exact .pure ⟨rfl, rfl⟩
  all_goals
    next kindEq =>
      rw [kindEq] at startsNone
      cases startsNone

section Missed

variable {frame : List BuildStep} {armed : List Nat} {draft : Draft}
  (represents : Represents False 0 frame armed recorder draft)

include represents

/-- A marker that is abandoned at once leaves no more than the trivia recorded. -/
theorem exists_abandoned (notEnd : recorder.current.kind ≠ .endOfInput) :
    ∃ marker opened after, recorder.start = (marker, opened) ∧
      opened.abandon marker = .ok after ∧ recorder.Waits after := by
  have draftNotEnd : draft.atEnd = false := by
    rw [← Bool.not_eq_true, ← represents.isEnd_iff]
    exact notEnd
  obtain ⟨token, later, next⟩ := Draft.exists_nextIs draftNotEnd
  have inWords : recorder.flushTrivia.steps.length < UInt32.size := by
    have room := represents.room.resolve_left not_false
    have enclosed := List.length_pos_iff.mpr represents.enclosed
    rw [next.stepRoom_eq] at room
    rw [represents.flushTrivia_length]
    omega
  refine ⟨_, _, _, Recorder.start_eq represents.steps_ne_nil,
    Recorder.abandon_eq rfl rfl (Nat.mod_eq_of_lt inWords), ?_⟩
  exact ⟨rfl, rfl, rfl, rfl, Or.inr ⟨rfl, rfl⟩⟩

theorem yields_statementWith_missed
    (startsNone : Grammar.starts recorder.current.kind = false) :
    (statementWith limits nested).Yields False recorder fun found after =>
      found = false ∧ recorder.Waits after := by
  by_cases isEnd : recorder.current.kind = .endOfInput
  · apply Yields.observe_bind
    rw [isEnd]
    exact .pure ⟨rfl, rfl, rfl, rfl, rfl, Or.inl ⟨rfl, rfl⟩⟩
  · obtain ⟨marker, opened, after, startEq, abandonEq, waits⟩ := exists_abandoned represents isEnd
    apply (yields_statementWith_abandoned isEnd startsNone startEq abandonEq).mono
    rintro _ _ ⟨rfl, rfl⟩
    exact ⟨rfl, waits⟩

end Missed

/-! ### All answers -/

/-- The steps of what rules for statements have placed start no tombstone. -/
theorem no_tombstone_of_every {limits : Limits} {trips : List Trip} {levels : Nat}
    {after : List Token} {parts : List Outline}
    (every : Outline.EveryAll (Grammar.Origin limits trips) levels after parts) :
    .start .tombstone ∉ stepsAll parts := by
  intro member
  exact Outline.EveryAll.of_mem_stepsAll (fun _ _ _ _ origin => origin.begins.1) parts _ _ every
    member

section Placed

variable {depth : Nat} {frame : List BuildStep} {armed : List Nat} {draft : Draft}
  (represents : Represents False 0 frame armed recorder draft)

include represents

/-- Above the ceiling on nesting the token ahead is recorded. -/
theorem yields_skipped (outside : limits.depth < depth) :
    (statement limits depth).Yields False recorder (Answers limits depth recorder) := by
  rw [statement, dif_pos outside]
  have noted : (trip .recursionDepth).Yields False recorder fun _ after =>
      recorder.trip .recursionDepth = after := .change rfl rfl
  apply noted.bind
  rintro _ _ rfl
  have tripped := represents.trip .recursionDepth
  cases isEnd : draft.atEnd with
  | true =>
      have isEndKind : recorder.current.kind = .endOfInput := represents.isEnd_iff.mpr isEnd
      have stayed : advance.Yields False (recorder.trip .recursionDepth) fun _ after =>
          recorder.trip .recursionDepth = after := .change (if_pos isEndKind) rfl
      apply stayed.bind
      rintro _ _ rfl
      exact .pure (.skippedAtEnd outside isEndKind)
  | false =>
      obtain ⟨token, later, next⟩ := Draft.exists_nextIs isEnd
      have trippedNext : (draft.trip .recursionDepth).NextIs token later :=
        ⟨next.rest_eq, next.significant⟩
      have added : Grammar.Adds (Grammar.Origin limits) 0 draft
          (draft.trip .recursionDepth).advance _ :=
        (Grammar.adds_trip draft .recursionDepth).trans (Grammar.origin_lasting limits)
          (Grammar.adds_advance trippedNext)
      obtain ⟨after, advanceEq, representsAfter⟩ :=
        (tripped.mono (Nat.zero_le 2)).advance_of_notEnd isEnd
      have notEnd : recorder.current.kind ≠ .endOfInput := by simp [represents.isEnd_iff, isEnd]
      have currentEq : recorder.current = token := represents.current_eq.trans next.ahead_eq
      have records :
          recorder.Records after ((recorder.trivia ++ [recorder.current]).map .leaf) := by
        rw [represents.trivia_eq, currentEq]
        exact represents.records representsAfter added
      have tripsEq : after.trips =
          ⟨.recursionDepth, recorder.current.span.start⟩ :: recorder.trips := by
        rw [representsAfter.trips_eq, Draft.trips_advance, ← tripped.trips_eq]
        rfl
      have advanced : advance.Yields False (recorder.trip .recursionDepth) fun _ last =>
          after = last := .change advanceEq rfl
      apply advanced.bind
      rintro _ _ rfl
      exact .pure (.skipped outside notEnd (currentEq ▸ next.significant) records tripsEq)

/-- Before a kind with which statements begin a node is recorded. -/
theorem yields_begun (words : limits.AreWords) (heightEq : armed.length = depth)
    (inside : depth ≤ limits.depth) (begins : Grammar.starts recorder.current.kind = true) :
    (statement limits depth).Yields False recorder (Answers limits depth recorder) := by
  obtain ⟨levels, sum⟩ := Nat.exists_eq_add_of_le' inside
  have performs : PerformsStatement False depth (statement limits depth)
      (Grammar.statement limits (levels + 1)) := performs_statement words (by omega)
  apply (performs heightEq represents).mono
  rintro _ after ⟨rfl, representsAfter⟩
  have outcome := Grammar.statementAt_outcome limits (Grammar.statement limits levels) draft
  rw [represents.kind_eq] at begins
  rw [if_pos begins] at outcome
  generalize answerEq : Grammar.statement limits (levels + 1) draft = answer
    at representsAfter ⊢
  obtain ⟨found, result⟩ := answer
  rw [show Grammar.statementAt limits (Grammar.statement limits levels) draft = (found, result)
    from answerEq] at outcome
  cases outcome
  obtain ⟨kind, token, later, parts, next, added⟩ :=
    Grammar.exists_node_of_grows (Grammar.statement_grows limits levels) answerEq
  have noTombstone := no_tombstone_of_every added.every
  have records := represents.records representsAfter added
  have currentEq : recorder.current = token := represents.current_eq.trans next.ahead_eq
  rw [← represents.trivia_eq, ← currentEq] at records noTombstone
  have notEnd : recorder.current.kind ≠ .endOfInput := by
    rw [represents.kind_eq]
    exact (Grammar.starts_facts begins).1
  refine .node inside notEnd (currentEq ▸ next.significant) records ?_
  intro member
  apply noTombstone
  rw [Outline.stepsAll_append, Outline.stepsAll_cons, Outline.stepsAll_nil, List.append_nil]
  exact List.mem_append_right _ member

end Placed

/-- On a recorder in the place of a draft the rule for statements answers in one of
these ways. -/
theorem yields_answers (words : limits.AreWords) {depth : Nat} (placed : Placed depth recorder) :
    (statement limits depth).Yields False recorder (Answers limits depth recorder) := by
  obtain ⟨frame, armed, draft, heightEq, represents⟩ := placed
  rcases Nat.lt_or_ge limits.depth depth with outside | inside
  · exact yields_skipped represents outside
  · cases begins : Grammar.starts recorder.current.kind with
    | false =>
        rw [statement, dif_neg (Nat.not_lt_of_le inside)]
        apply (yields_statementWith_missed represents begins).mono
        rintro _ after ⟨rfl, waits⟩
        exact .missed inside waits
    | true => exact yields_begun represents words heightEq inside begins

end Record

end TemplateFrontend
