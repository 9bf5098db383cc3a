import TemplateFrontend.Proofs.Grammar.Pending
import TemplateFrontend.Proofs.Grammar.Simulation.Rules
import TemplateFrontend.Proofs.Tree.Numbering

/-!
Contract: runs of the grammar over two rows of tokens that differ in trivia and
in spelling only.

Owns:
- `Landmark` and `Trip.numbered?`, met ceilings whose offsets are replaced by
  what they point at;
- `Row`, a tiled row of tokens, and `Draft.WorksOn`, a draft that works on a row;
- `respelling`, the pairing of two such runs, and that it is a simulation.

Does not own: trees and their spans.
-/

namespace TemplateFrontend

open Token (significant)

/-! ## Landmarks -/

/-- What an offset points at: a significant token, or the end of the window. -/
inductive Landmark where
  | token (ordinal : Nat)
  | stop
deriving DecidableEq, Repr

/-- The landmark at an offset, if there is one. `tokens` are the significant
tokens of a window that ends at `stop`. -/
def landmark? (tokens : List Token) (stop offset : Nat) : Option Landmark :=
  match tokens.findIdx? fun token => token.span.start = offset with
  | some ordinal => some (.token ordinal)
  | none => if offset = stop then some .stop else none

/-- No token of a tiled row starts at its stop or behind it. -/
theorem findIdx?_start_of_tiles {start stop offset : Nat} {tokens : List Token}
    (tiled : Tiles start tokens stop) (behind : stop ≤ offset) :
    (significant tokens).findIdx? (fun token => token.span.start = offset) = none := by
  apply List.findIdx?_eq_none_iff.mpr
  intro token member
  have bounds := tiled.bounds (Token.mem_of_mem_significant member)
  simp only [decide_eq_false_iff_not]
  omega

theorem landmark?_stop {start stop : Nat} {tokens : List Token} (tiled : Tiles start tokens stop) :
    landmark? (significant tokens) stop stop = some .stop := by
  rw [landmark?, findIdx?_start_of_tiles tiled (Nat.le_refl stop)]
  simp

/-- A significant token is the first one that starts where the row before it
stops. -/
theorem landmark?_token {start stop : Nat} {before later : List Token} {token : Token}
    (tiledBefore : Tiles start before token.span.start) (isSignificant : token.isTrivia = false) :
    landmark? (significant (before ++ token :: later)) stop token.span.start =
      some (.token (significant before).length) := by
  have found : (significant (before ++ token :: later)).findIdx?
      (fun other => other.span.start = token.span.start) = some (significant before).length := by
    rw [Token.significant_append, Token.significant_cons isSignificant, List.findIdx?_append,
      findIdx?_start_of_tiles tiledBefore (Nat.le_refl token.span.start), List.findIdx?_cons]
    simp
  rw [landmark?, found]

/-- A met ceiling with the landmark in place of its offset. -/
def Trip.numbered? (tokens : List Token) (stop : Nat) (trip : Trip) :
    Option (Construct × Landmark) :=
  (landmark? tokens stop trip.offset).map fun landmark => (trip.construct, landmark)

/-- A row of tokens without gaps or overlaps. -/
structure Row where
  tokens : List Token
  start : Nat
  stop : Nat
  tiled : Tiles start tokens stop

namespace Row

def significant (row : Row) : List Token := Token.significant row.tokens

/-- Where `pending` significant tokens are left, the next one is a landmark. -/
def landmark (row : Row) (pending : List Kind) : Landmark :=
  if pending = [] then .stop else .token (row.significant.length - pending.length)

/-- The numbers of met ceilings, all of which are found. -/
def Logs (row : Row) (trips : List Trip) (log : List (Construct × Landmark)) : Prop :=
  trips.map (Trip.numbered? row.significant row.stop) = log.map some

theorem Logs.cons {row : Row} {trip : Trip} {trips : List Trip} {entry : Construct × Landmark}
    {log : List (Construct × Landmark)}
    (found : trip.numbered? row.significant row.stop = some entry)
    (logged : row.Logs trips log) : row.Logs (trip :: trips) (entry :: log) := by
  rw [Logs, List.map_cons, List.map_cons, found, show trips.map _ = _ from logged]

theorem Logs.reverse {row : Row} {trips : List Trip} {log : List (Construct × Landmark)}
    (logged : row.Logs trips log) : row.Logs trips.reverse log.reverse := by
  rw [Logs, List.map_reverse, List.map_reverse, show trips.map _ = _ from logged]

end Row

/-! ## Drafts over a row -/

/-- What is left for the draft is the end of the row. -/
structure Draft.WorksOn (row : Row) (draft : Draft) : Prop where
  rest_suffix : draft.rest <:+ row.tokens
  stop_eq : draft.stop = row.stop

namespace Draft.WorksOn

variable {row : Row} {draft : Draft}

theorem settle (works : draft.WorksOn row) : draft.settle.WorksOn row where
  rest_suffix := draft.rest_settle_suffix.trans works.rest_suffix
  stop_eq := works.stop_eq

theorem advance (works : draft.WorksOn row) : draft.advance.WorksOn row where
  rest_suffix := draft.rest_advance_suffix.trans works.rest_suffix
  stop_eq := draft.stop_advance.trans works.stop_eq

/-- The offset that a met ceiling notes is a landmark. -/
theorem landmark?_offset (works : draft.WorksOn row) :
    landmark? row.significant row.stop draft.offset = some (row.landmark draft.pending) := by
  rcases draft.next_cases with empty | ⟨token, later, next⟩
  · have offsetEq : draft.offset = row.stop := by
      rw [offset, next?_of_settle_rest_nil empty]
      exact works.stop_eq
    rw [offsetEq, Row.landmark, if_pos (pending_of_settle_rest_nil empty)]
    exact landmark?_stop row.tiled
  · have offsetEq : draft.offset = token.span.start := by rw [offset, next.next?_eq]
    obtain ⟨placed, tokensEq⟩ := works.rest_suffix
    rw [next.rest_eq, ← List.append_assoc] at tokensEq
    have tiled := row.tiled
    rw [← tokensEq] at tiled
    obtain ⟨seam, tiledBefore, rfl, _, _⟩ := Tiles.append_iff.mp tiled
    -- The tokens before the next one are those of the row that are not pending.
    have ordinalEq : row.significant.length - draft.pending.length =
        (significant (placed ++ draft.leading)).length := by
      rw [Row.significant, ← tokensEq, next.pending_eq, Token.significant_append,
        Token.significant_cons next.significant, List.length_append, List.length_cons,
        List.length_cons, List.length_map]
      exact Nat.add_sub_cancel ..
    have someLeft : draft.pending ≠ [] := by simp [next.pending_eq]
    rw [offsetEq, Row.landmark, if_neg someLeft, ordinalEq, Row.significant, ← tokensEq]
    exact landmark?_token tiledBefore next.significant

end Draft.WorksOn

/-! ## Two rows -/

namespace Grammar

/-- Two drafts that have come equally far, in the same way. -/
structure Alike (row row' : Row) (left right : Draft) : Prop where
  left_works : left.WorksOn row
  right_works : right.WorksOn row'
  pending_eq : left.pending = right.pending
  shapes_eq : left.shapes = right.shapes
  logged : ∃ log, row.Logs left.trips log ∧ row'.Logs right.trips log

/-- Runs over two rows, neither of which is ever lost. -/
def respelling (row row' : Row) : Pairing where
  lost _ := False
  related := Alike row row'

section Alike

variable {row row' : Row} {left right : Draft} (alike : Alike row row' left right)

include alike

theorem Alike.settle : Alike row row' left.settle right.settle where
  left_works := alike.left_works.settle
  right_works := alike.right_works.settle
  pending_eq := by simp [alike.pending_eq]
  shapes_eq := by simp [alike.shapes_eq]
  logged := alike.logged

theorem Alike.opened : Alike row row' left.opened right.opened where
  left_works := ⟨alike.left_works.settle.rest_suffix, alike.left_works.stop_eq⟩
  right_works := ⟨alike.right_works.settle.rest_suffix, alike.right_works.stop_eq⟩
  pending_eq := by simp [alike.pending_eq]
  shapes_eq := rfl
  logged := alike.logged

theorem Alike.closed {inside inside' : Draft} (insideAlike : Alike row row' inside inside')
    (kind : Kind) :
    Alike row row' (inside.closed kind left.settle.placed)
      (inside'.closed kind right.settle.placed) where
  left_works := ⟨insideAlike.left_works.rest_suffix, insideAlike.left_works.stop_eq⟩
  right_works := ⟨insideAlike.right_works.rest_suffix, insideAlike.right_works.stop_eq⟩
  pending_eq := insideAlike.pending_eq
  shapes_eq := by
    rw [Draft.shapes_closed, Draft.shapes_closed, alike.shapes_eq, insideAlike.shapes_eq]
  logged := insideAlike.logged

theorem Alike.advance : Alike row row' left.advance right.advance := by
  have pendingEq := alike.pending_eq
  cases leftPending : left.pending with
  | nil =>
      -- At the end neither draft moves.
      rw [Draft.advance_of_pending_nil leftPending,
        Draft.advance_of_pending_nil (pendingEq ▸ leftPending)]
      exact alike
  | cons kind more =>
      have leftReads := Reads.advance leftPending
      have rightReads := Reads.advance (pendingEq ▸ leftPending)
      constructor
      case left_works => exact alike.left_works.advance
      case right_works => exact alike.right_works.advance
      case pending_eq => rw [leftReads.pending_eq, rightReads.pending_eq]
      case shapes_eq => rw [leftReads.shapes_eq, rightReads.shapes_eq, alike.shapes_eq]
      case logged => simpa only [Draft.trips_advance] using alike.logged

/-- Ceilings are met at the same landmark. -/
theorem Alike.trip (sameLength : row.significant.length = row'.significant.length)
    (construct : Construct) :
    Alike row row' (left.trip construct) (right.trip construct) := by
  obtain ⟨log, leftLogged, rightLogged⟩ := alike.logged
  have landmarkEq : row'.landmark right.pending = row.landmark left.pending := by
    rw [Row.landmark, Row.landmark, sameLength, alike.pending_eq]
  constructor
  case left_works => exact ⟨alike.left_works.rest_suffix, alike.left_works.stop_eq⟩
  case right_works => exact ⟨alike.right_works.rest_suffix, alike.right_works.stop_eq⟩
  case pending_eq => exact alike.pending_eq
  case shapes_eq => exact alike.shapes_eq
  case logged =>
    refine ⟨(construct, row.landmark left.pending) :: log, leftLogged.cons ?_,
      rightLogged.cons ?_⟩
    · rw [Trip.numbered?, alike.left_works.landmark?_offset]
      rfl
    · rw [Trip.numbered?, alike.right_works.landmark?_offset, landmarkEq]
      rfl

end Alike

theorem respelling_simulation {row row' : Row}
    (sameLength : row.significant.length = row'.significant.length) (limits : Limits) :
    Simulation (respelling row row') limits limits where
  lost_congr lost _ _ := lost
  lost_settle _ := id
  lost_advance _ := id
  lost_trip _ _ := id
  kinds alike :=
    Or.inl (by rw [Draft.kind_eq_head?, Draft.kind_eq_head?, alike.pending_eq])
  settle meets := meets.related.settle
  advance alike _ := alike.advance
  opened meets := meets.related.opened
  closed kind meets insideAlike := meets.related.closed insideAlike kind
  trip := fun construct alike => Or.inr (alike.trip sameLength construct)
  depth := Or.inl rfl
  iterations := Or.inl rfl
  chain := Or.inl rfl
  regionIterations := Or.inl rfl
  topLevelIterations := Or.inl rfl

/-! ## Whole programs -/

/-- Rows that spell the same kinds have roots of the same shape, and meet the
same ceilings at the same landmarks. -/
theorem program_respelled (row row' : Row) (limits : Limits)
    (sameKinds : row.significant.map Token.kind = row'.significant.map Token.kind) :
    (program limits row.tokens row.stop).1.shape? =
        (program limits row'.tokens row'.stop).1.shape? ∧
      ∃ log, row.Logs (program limits row.tokens row.stop).2 log ∧
        row'.Logs (program limits row'.tokens row'.stop).2 log := by
  have sameLength : row.significant.length = row'.significant.length := by
    simpa using congrArg List.length sameKinds
  have start : Alike row row' (.ofTokens row.tokens row.stop) (.ofTokens row'.tokens row'.stop) :=
    { left_works := ⟨List.suffix_rfl, rfl⟩
      right_works := ⟨List.suffix_rfl, rfl⟩
      pending_eq := sameKinds
      shapes_eq := rfl
      logged := ⟨[], rfl, rfl⟩ }
  have alike := ((respelling_simulation sameLength limits).topLevel start).resolve_left id
  obtain ⟨log, leftLogged, rightLogged⟩ := alike.logged
  refine ⟨?_, log.reverse, leftLogged.reverse, rightLogged.reverse⟩
  have sameShapes : (placeRest (topLevel limits (.ofTokens row.tokens row.stop))).shapes =
      (placeRest (topLevel limits (.ofTokens row'.tokens row'.stop))).shapes := by
    rw [Draft.shapes_placeRest, Draft.shapes_placeRest, alike.pending_eq, alike.shapes_eq]
  simp only [program, Outline.shape?, Outline.shapes_reverse]
  exact congrArg (fun shapes => some (Shape.node .root shapes.reverse)) sameShapes

end Grammar

end TemplateFrontend
