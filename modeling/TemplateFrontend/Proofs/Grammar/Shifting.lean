import TemplateFrontend.Proofs.Grammar.Simulation.Rules
import TemplateFrontend.Proofs.Tree.Shifting

/-!
Contract: runs of the grammar over tokens that lie a distance further on.

Owns:
- `Draft.shift`, and that the transitions respect it;
- `shifting`, the pairing of a run with its shifted run, and that it is a
  simulation;
- `program_shift`, the same for whole programs.
-/

namespace TemplateFrontend

def Trip.shift (distance : Nat) (trip : Trip) : Trip :=
  { trip with offset := distance + trip.offset }

namespace Draft

/-- The same draft in a text that has `distance` more bytes in front. -/
def shift (distance : Nat) (draft : Draft) : Draft where
  rest := draft.rest.map (Token.shift distance)
  placed := Outline.shiftAll distance draft.placed
  trips := draft.trips.map (Trip.shift distance)
  stop := distance + draft.stop

variable (distance : Nat) (draft : Draft)

theorem next?_shift : (draft.shift distance).next? = draft.next?.map (Token.shift distance) := by
  rw [next?, next?, shift, List.find?_map]
  rfl

theorem kind_shift : (draft.shift distance).kind = draft.kind := by
  rw [kind, kind, next?_shift]
  cases draft.next? with
  | none => rfl
  | some token => rfl

theorem offset_shift : (draft.shift distance).offset = distance + draft.offset := by
  rw [offset, offset, next?_shift]
  cases draft.next? with
  | none => rfl
  | some token => rfl

theorem settle_shift : (draft.shift distance).settle = draft.settle.shift distance := by
  have isTriviaEq : Token.isTrivia ∘ Token.shift distance = Token.isTrivia := rfl
  simp only [settle, shift, List.takeWhile_map, List.dropWhile_map, isTriviaEq,
    Outline.shiftAll_append, Outline.shiftAll_reverse, Outline.shiftAll_map_leaf]

theorem advance_shift : (draft.shift distance).advance = draft.advance.shift distance := by
  unfold advance
  rw [settle_shift]
  cases restEq : draft.settle.rest with
  | nil => simp only [shift, restEq, List.map_nil]
  | cons token later =>
      simp only [shift, restEq, List.map_cons, Outline.shiftAll, Outline.shift]

theorem opened_shift : (draft.shift distance).opened = draft.opened.shift distance := by
  rw [opened, settle_shift]
  rfl

theorem closed_shift (kind : Kind) (around : List Outline) :
    (draft.shift distance).closed kind (Outline.shiftAll distance around) =
      (draft.closed kind around).shift distance := by
  simp only [closed, shift, Outline.shiftAll, Outline.shift, Outline.shiftAll_reverse]

theorem trip_shift (construct : Construct) :
    (draft.shift distance).trip construct = (draft.trip construct).shift distance := by
  rw [trip, offset_shift]
  rfl

end Draft

namespace Grammar

/-- The second run is the first one, a distance further on. -/
def shifting (distance : Nat) : Pairing where
  lost _ := False
  related left right := right = left.shift distance

theorem shifting_simulation (distance : Nat) (limits : Limits) :
    Simulation (shifting distance) limits limits where
  lost_congr lost _ _ := lost
  lost_settle _ := id
  lost_advance _ := id
  lost_trip _ _ := id
  kinds := by
    rintro left right rfl
    exact Or.inl (left.kind_shift distance).symm
  settle := by
    rintro left right ⟨rfl, _, _⟩
    exact left.settle_shift distance
  advance := by
    rintro left right rfl _
    exact left.advance_shift distance
  opened := by
    rintro left right ⟨rfl, _, _⟩
    exact left.opened_shift distance
  closed := by
    rintro left right inside inside' kind ⟨rfl, _, _⟩ rfl
    rw [Draft.settle_shift]
    exact inside.closed_shift distance kind left.settle.placed
  trip := by
    rintro left right construct rfl
    exact Or.inr (left.trip_shift distance construct)
  depth := Or.inl rfl
  iterations := Or.inl rfl
  chain := Or.inl rfl
  regionIterations := Or.inl rfl
  topLevelIterations := Or.inl rfl

/-- Shifted tokens give the shifted root, and the same ceilings are met at shifted
offsets. -/
theorem program_shift (limits : Limits) (distance : Nat) (tokens : List Token) (stop : Nat) :
    program limits (tokens.map (Token.shift distance)) (distance + stop) =
      ((program limits tokens stop).1.shift distance,
        (program limits tokens stop).2.map (Trip.shift distance)) := by
  have start : (shifting distance).related (.ofTokens tokens stop)
      (.ofTokens (tokens.map (Token.shift distance)) (distance + stop)) := rfl
  have finished :
      topLevel limits (.ofTokens (tokens.map (Token.shift distance)) (distance + stop)) =
      (topLevel limits (.ofTokens tokens stop)).shift distance :=
    ((shifting_simulation distance limits).topLevel start).resolve_left id
  simp only [program, finished, placeRest, Draft.foldl_leaf, Draft.shift, Draft.leaves,
    Outline.shift, Outline.shiftAll_reverse, Outline.shiftAll_append, Outline.shiftAll_map_leaf,
    List.map_reverse]

end Grammar

end TemplateFrontend
