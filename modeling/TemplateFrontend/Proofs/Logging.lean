import TemplateFrontend.Proofs.Grammar.Log
import TemplateFrontend.Proofs.Grammar.Stages
import TemplateFrontend.Proofs.Parsing
import Mathlib

/-!
Contract: the log of met ceilings follows the text.

Owns:
- `Trip.IsLog`, the order of a log, its places, and how often each ceiling can be met at
  one place;
- `topLevelLoop_noted`, what the top level adds to the logs of the rules below it;
- `trips_in_order`, which says that every parse of an admitted window has such a log.
-/

namespace TemplateFrontend

open Grammar (topLevelLoop topLevelTurn)

/-- A log of a window with these tokens, its first note first. Notes are made at
significant tokens and never further back than the note before. Only the ceiling of depth
is noted at the end of the window, at most twice, and before the end at most once at one
token. The note of the top level is the last one. -/
structure Trip.IsLog (tokens : List Token) (stop : Nat) (trips : List Trip) : Prop where
  ordered : trips.Pairwise fun earlier later => earlier.offset ≤ later.offset
  places : ∀ trip ∈ trips, PlaceIn tokens stop trip.offset
  depth_before : ∀ offset < stop, trips.count ⟨.recursionDepth, offset⟩ ≤ 1
  depth_at_stop : trips.count ⟨.recursionDepth, stop⟩ ≤ 2
  topLevel_once : trips.countP (·.construct = .topLevel) ≤ 1
  topLevel_last : ∀ earlier trip later, trips = earlier ++ trip :: later →
    trip.construct = .topLevel → later = []
  others_before : ∀ trip ∈ trips, trip.construct ≠ .recursionDepth → trip.offset < stop

namespace Draft.Noted

variable {tokens : List Token} {stop budget : Nat} {draft : Draft}

/-- Two notes of the ceiling of depth at one place are at the end of the window. -/
theorem count_depth_le_one (noted : draft.Noted tokens stop budget) {offset : Nat}
    (notStop : offset ≠ stop) : draft.trips.count ⟨.recursionDepth, offset⟩ ≤ 1 := by
  by_contra many
  have pair : List.Sublist (List.replicate 2 ⟨.recursionDepth, offset⟩) draft.trips :=
    List.replicate_sublist_iff.mpr (by omega)
  have before := List.pairwise_pair.mp (noted.ordered.sublist pair)
  exact notStop (before.at_stop rfl rfl)

/-- What is known of a log below the top level, and of the one note that may follow it. -/
theorem isLog (noted : draft.Noted tokens stop 2) {last : List Trip} (short : last.length ≤ 1)
    (capped : ∀ trip ∈ last, trip = ⟨.topLevel, draft.offset⟩ ∧ draft.atEnd = false) :
    Trip.IsLog tokens stop (draft.trips.reverse ++ last) := by
  have absent (offset : Nat) : last.count ⟨.recursionDepth, offset⟩ = 0 := by
    refine List.count_eq_zero_of_not_mem fun member => ?_
    cases (capped _ member).1
  have below : ∀ trip ∈ draft.trips.reverse, trip.construct ≠ .topLevel :=
    fun trip member => (noted.fits trip (List.mem_reverse.mp member)).below
  have nothingBehind (front : List Trip) {trip : Trip} {later : List Trip}
      (lastEq : last = front ++ trip :: later) : later = [] := by
    rw [lastEq, List.length_append, List.length_cons] at short
    exact List.eq_nil_of_length_eq_zero (by omega)
  constructor
  case ordered =>
    refine List.pairwise_append.mpr ⟨?_, ?_, ?_⟩
    · exact List.pairwise_reverse.mpr (noted.ordered.imp fun before => before.offset_le)
    · match last, short with
      | [], _ => exact .nil
      | [_], _ => exact List.pairwise_singleton _ _
    · intro earlier member trip isLast
      rw [(capped trip isLast).1]
      exact (noted.behind earlier (List.mem_reverse.mp member)).offset_le
  case places =>
    refine List.forall_mem_append.mpr ⟨?_, ?_⟩
    · exact fun trip member => (noted.fits trip (List.mem_reverse.mp member)).place
    · intro trip isLast
      rw [(capped trip isLast).1]
      exact noted.stands.place
  case depth_before =>
    intro offset before
    rw [List.count_append, absent, List.count_reverse]
    exact noted.count_depth_le_one (Nat.ne_of_lt before)
  case depth_at_stop =>
    rw [List.count_append, absent, List.count_reverse]
    exact noted.count_le
  case topLevel_once =>
    have none : draft.trips.reverse.countP (·.construct = .topLevel) = 0 :=
      List.countP_eq_zero.mpr fun trip member => by simpa using below trip member
    rw [List.countP_append, none, Nat.zero_add]
    exact List.countP_le_length.trans short
  case topLevel_last =>
    -- A note of the top level is not one of those below it, so it is the one behind them.
    intro earlier trip later split isTopLevel
    rcases List.append_eq_append_iff.mp split with ⟨front, _, lastEq⟩ | ⟨front, frontEq, restEq⟩
    · exact nothingBehind front lastEq
    · cases front with
      | nil => exact nothingBehind [] restEq.symm
      | cons first front =>
          obtain ⟨rfl, _⟩ := List.cons.inj restEq
          exact absurd isTopLevel (below trip (by simp [frontEq]))
  case others_before =>
    refine List.forall_mem_append.mpr ⟨?_, ?_⟩
    · exact fun trip member => (noted.fits trip (List.mem_reverse.mp member)).before_stop
    · intro trip isLast _
      obtain ⟨rfl, notEnd⟩ := capped trip isLast
      exact noted.stands.offset_lt_stop notEnd

end Draft.Noted

namespace Grammar

variable {tokens : List Token} {stop : Nat} (limits : Limits)

theorem topLevelTurn_noted {draft : Draft} (notEnd : draft.atEnd = false)
    (noted : draft.Noted tokens stop 2) : (topLevelTurn limits draft).Noted tokens stop 2 := by
  obtain ⟨fresh, again, sum, notes⟩ := statement_notes tokens stop limits limits.depth
  exact (placeOrAdvance_noted notes notEnd noted).mono ((Nat.le_add_right _ again).trans sum)

/-- The top level stops at a draft whose log is one below the top level, and adds its own
note to it only where significant tokens are left. -/
theorem topLevelLoop_noted (turns : Nat) {draft : Draft} (noted : draft.Noted tokens stop 2) :
    ∃ (between : Draft) (last : List Trip), between.Noted tokens stop 2 ∧ last.length ≤ 1 ∧
      (∀ trip ∈ last, trip = ⟨.topLevel, between.offset⟩ ∧ between.atEnd = false) ∧
      (topLevelLoop limits turns draft).trips.reverse = between.trips.reverse ++ last := by
  induction turns generalizing draft with
  | zero =>
      cases isEnd : draft.atEnd with
      | true =>
          rw [topLevelLoop_of_atEnd isEnd]
          exact ⟨draft, [], noted, Nat.zero_le 1, by simp, by simp⟩
      | false =>
          rw [topLevelLoop_zero isEnd]
          exact ⟨draft, [⟨.topLevel, draft.offset⟩], noted, Nat.le_refl 1, by simp [isEnd],
            List.reverse_cons⟩
  | succ turns inductionHypothesis =>
      cases isEnd : draft.atEnd with
      | true =>
          rw [topLevelLoop_of_atEnd isEnd]
          exact ⟨draft, [], noted, Nat.zero_le 1, by simp, by simp⟩
      | false =>
          rw [topLevelLoop_succ isEnd]
          exact inductionHypothesis (topLevelTurn_noted limits isEnd noted)

end Grammar

/-- Whatever the ceilings, a parse notes those that it meets in the order of the text: at
significant tokens or at the end of the window, where only the ceiling of depth can be
met, and no more than twice. -/
theorem trips_in_order (text : Text) (window : Span) (limits : Limits)
    (admitted : text.Admits window) :
    ∃ tokens parsed, tokenize text window = .ok tokens ∧ parse text window limits = .ok parsed ∧
      Trip.IsLog tokens window.stop parsed.trips := by
  obtain ⟨tokens, parts, parsed, reading⟩ := exists_reading limits admitted
  refine ⟨tokens, parsed, reading.tokenized, reading.parsed_eq, ?_⟩
  have start : (Draft.ofTokens tokens window.stop).Noted tokens window.stop 2 :=
    { stands :=
        { rest_suffix := List.suffix_rfl
          stop_eq := rfl
          tiled := ⟨window.start, reading.tiled⟩
          kinds := fun token member =>
            Lexeme.ne_endOfInput_of_isTokenKind (reading.token_kinds token member) }
      ordered := .nil
      behind := by simp [Draft.ofTokens]
      fits := by simp [Draft.ofTokens]
      count_le := Nat.zero_le 2 }
  obtain ⟨between, last, noted, short, capped, tripsEq⟩ :=
    Grammar.topLevelLoop_noted limits limits.topLevelIterations start
  have finished : parsed.trips =
      (topLevelLoop limits limits.topLevelIterations
        (.ofTokens tokens window.stop)).trips.reverse := by
    rw [← reading.trips_eq]
    rfl
  rw [finished, tripsEq]
  exact noted.isLog short capped

/-- A chain, a nested call, and a condition that is cut off: the ceiling of depth is met
twice at the end. -/
theorem trips_in_order_cut_off :
    Text.Admits "a.b(c) if(".toList ⟨0, 10⟩ ∧
      ∃ tokens parsed, tokenize "a.b(c) if(".toList ⟨0, 10⟩ = .ok tokens ∧
        parse "a.b(c) if(".toList ⟨0, 10⟩ ⟨1, 9, 0, 9, 9⟩ = .ok parsed ∧
        parsed.trips = [⟨.propertyChain, 1⟩, ⟨.recursionDepth, 4⟩, ⟨.recursionDepth, 10⟩,
          ⟨.recursionDepth, 10⟩] ∧
        Trip.IsLog tokens 10 parsed.trips := by
  have admitted : Text.Admits "a.b(c) if(".toList ⟨0, 10⟩ :=
    Text.admits_whole "a.b(c) if(".toList
  obtain ⟨tokens, parsed, tokenized, parsedEq, isLog⟩ :=
    trips_in_order _ _ ⟨1, 9, 0, 9, 9⟩ admitted
  have logged : (parse "a.b(c) if(".toList ⟨0, 10⟩ ⟨1, 9, 0, 9, 9⟩).toOption.map Parsed.trips =
      some [⟨.propertyChain, 1⟩, ⟨.recursionDepth, 4⟩, ⟨.recursionDepth, 10⟩,
        ⟨.recursionDepth, 10⟩] := by cbv
  rw [parsedEq] at logged
  exact ⟨admitted, tokens, parsed, tokenized, parsedEq, Option.some.inj logged, isLog⟩

end TemplateFrontend
