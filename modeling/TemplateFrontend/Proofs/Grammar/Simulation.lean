import TemplateFrontend.Proofs.Grammar.Origin

/-!
Contract: two runs of the grammar side by side.

Owns:
- `Pairing`, a relation between the drafts of the two runs, and when the first
  run is lost;
- `Simulation`, what a pairing has to say of the transitions and the ceilings;
- `Follows`, the claim that the runs of two rules stay related until the first
  one is lost, and how such claims are joined;
- the loops and the single tokens of two runs.

Does not own: the rules of the grammar, or any particular pairing. The two runs
may differ in their tokens or in their ceilings, and the second one may come to
its end before the first one does. Nothing is said of the second run once the
first one is lost.
-/

namespace TemplateFrontend.Grammar

/-! ## Pairs of loops -/

/-- Two turns that go on alike. -/
inductive Turn.Related {State : Type} (related : State → State → Prop) :
    Turn State → Turn State → Prop
  | again {left right : State} (next : related left right) :
      Turn.Related related (.again left) (.again right)
  | done {left right : State} (last : related left right) :
      Turn.Related related (.done left) (.done right)

/-- A second run may take the place of a first one: it has the same budget, or no
smaller one while `spent` says that the first run no longer counts once its
budget is spent. -/
def Serves (spent : Prop) (budget budget' : Nat) : Prop :=
  budget = budget' ∨ budget ≤ budget' ∧ spent

namespace Serves

variable {spent spent' : Prop} {budget budget' : Nat}

theorem imp (serves : Serves spent budget budget') (implies : spent → spent') :
    Serves spent' budget budget' :=
  Or.imp_right (And.imp_right implies) serves

theorem of_zero (serves : Serves spent 0 (budget' + 1)) : spent := by
  rcases serves with same | ⟨_, holds⟩
  · cases same
  · exact holds

theorem of_succ (serves : Serves spent (budget + 1) budget') :
    ∃ fewer, budget' = fewer + 1 ∧ Serves spent budget fewer := by
  rcases serves with rfl | ⟨smaller, holds⟩
  · exact ⟨budget, rfl, Or.inl rfl⟩
  · exact ⟨budget' - 1, by omega, Or.inr ⟨by omega, holds⟩⟩

end Serves

/-- A loop whose next turn is lost is lost, when turns and caps stay lost. -/
theorem repeatWhile_lost {State : Type} {wanted : State → Bool} {turn : State → Turn State}
    {capped : State → State} {lost : State → Prop}
    (turnKeeps : ∀ state, lost state → lost (turn state).state)
    (cappedKeeps : ∀ state, lost state → lost (capped state)) (budget : Nat) {state : State}
    (goesOn : wanted state = true) (lostAfter : lost (turn state).state) :
    lost (repeatWhile wanted turn capped (budget + 1) state) := by
  cases turnEq : turn state with
  | done last =>
      rw [turnEq] at lostAfter
      rw [repeatWhile_of_done goesOn turnEq]
      exact lostAfter
  | again next =>
      rw [turnEq] at lostAfter
      rw [repeatWhile_of_again goesOn turnEq]
      exact repeatWhile_related (fun before after => lost before → lost after)
        (fun _ => id) (fun earlier later => later ∘ earlier)
        (fun state _ => turnKeeps state) (fun state _ => cappedKeeps state)
        budget next lostAfter

/-- Loops whose turns and caps keep two states related, until the first one is
lost, keep them so to the end. Where only the first loop would go on, a turn of
it is lost and its cap changes nothing. -/
theorem repeatWhile_tracks {State : Type} {wanted : State → Bool}
    {turn turn' : State → Turn State} {capped : State → State} (lost : State → Prop)
    (related : State → State → Prop)
    (turnKeeps : ∀ state, lost state → lost (turn state).state)
    (cappedKeeps : ∀ state, lost state → lost (capped state))
    (wantedCases : ∀ left right, related left right → wanted left = wanted right ∨
      wanted right = false ∧ lost (turn left).state ∧ (lost (capped left) ∨
        related (capped left) right))
    (turns : ∀ left right, related left right → wanted right = true →
      lost (turn left).state ∨ Turn.Related related (turn left) (turn' right))
    (capped_tracks : ∀ left right, related left right →
      lost (capped left) ∨ related (capped left) (capped right))
    {budget budget' : Nat} (serves : Serves (∀ state, lost (capped state)) budget budget')
    {left right : State} (pair : related left right) :
    lost (repeatWhile wanted turn capped budget left) ∨
      related (repeatWhile wanted turn capped budget left)
        (repeatWhile wanted turn' capped budget' right) := by
  have stopsToo : ∀ {left right : State}, related left right → ¬ wanted left = true →
      wanted right = false := by
    intro left right pair stops
    rcases wantedCases left right pair with same | ⟨stopsRight, _⟩
    · rw [← same]
      exact Bool.eq_false_iff.mpr stops
    · exact stopsRight
  -- On the budget of the first run; that of the second one is any that serves it.
  induction budget generalizing budget' left right with
  | zero =>
      by_cases goesOn : wanted left = true
      · rw [repeatWhile, if_pos goesOn]
        rcases wantedCases left right pair with same | ⟨stops, _, cappedAlone⟩
        · cases budget' with
          | zero =>
              rw [repeatWhile, if_pos (same ▸ goesOn)]
              exact capped_tracks left right pair
          | succ budget' =>
              -- Only the first run has used up its budget.
              exact Or.inl (serves.of_zero left)
        · rw [repeatWhile_of_unwanted stops]
          exact cappedAlone
      · rw [repeatWhile_of_unwanted (Bool.eq_false_iff.mpr goesOn),
          repeatWhile_of_unwanted (stopsToo pair goesOn)]
        exact Or.inr pair
  | succ budget inductionHypothesis =>
      by_cases goesOn : wanted left = true
      · rcases wantedCases left right pair with same | ⟨_, lostAfter, _⟩
        · obtain ⟨fewer, rfl, servesLater⟩ := serves.of_succ
          have goesOnToo : wanted right = true := same ▸ goesOn
          rcases turns left right pair goesOnToo with lostAfter | sameTurn
          · exact Or.inl (repeatWhile_lost turnKeeps cappedKeeps budget goesOn lostAfter)
          · cases leftEq : turn left <;> cases rightEq : turn' right <;>
              rw [leftEq, rightEq] at sameTurn
            case again.again =>
              rw [repeatWhile_of_again goesOn leftEq, repeatWhile_of_again goesOnToo rightEq]
              cases sameTurn with
              | again next => exact inductionHypothesis servesLater next
            case done.done =>
              rw [repeatWhile_of_done goesOn leftEq, repeatWhile_of_done goesOnToo rightEq]
              cases sameTurn with
              | done last => exact Or.inr last
            all_goals cases sameTurn
        · exact Or.inl (repeatWhile_lost turnKeeps cappedKeeps budget goesOn lostAfter)
      · rw [repeatWhile_of_unwanted (Bool.eq_false_iff.mpr goesOn),
          repeatWhile_of_unwanted (stopsToo pair goesOn)]
        exact Or.inr pair

/-! ## Pairings -/

/-- How the drafts of two runs belong together, and from which drafts on the
first run is lost. -/
structure Pairing where
  lost : Draft → Prop
  related : Draft → Draft → Prop

namespace Pairing

variable (pairing : Pairing)

/-- The drafts are related, unless the first run is lost. -/
def Tracks (left right : Draft) : Prop :=
  pairing.lost left ∨ pairing.related left right

/-- The budget of the second run serves the first run, which may be lost as soon
as it meets a ceiling. -/
def Ample (budget budget' : Nat) : Prop :=
  Serves (∀ (draft : Draft) construct, pairing.lost (draft.trip construct)) budget budget'

/-- Related drafts before tokens of the same kind. -/
structure Meets (left right : Draft) : Prop where
  related : pairing.related left right
  kind_eq : left.kind = right.kind
  notEnd : right.atEnd = false

/-- Related drafts of which only the second one has come to its end. The first
run is lost with the next token that it places. -/
structure Parted (left right : Draft) : Prop where
  related : pairing.related left right
  notEnd : left.atEnd = false
  atEnd : right.kind = .endOfInput
  advance : pairing.lost left.advance
  settle : pairing.Tracks left.settle right
  trip : ∀ construct, pairing.Tracks (left.trip construct) right

/-- A run that is lost before is lost after. -/
def Keeps (before after : Draft) : Prop :=
  pairing.lost before → pairing.lost after

/-- The second rule follows the first one, which keeps lost drafts lost. -/
structure Follows (rule rule' : Draft → Draft) : Prop where
  keeps : ∀ draft, pairing.Keeps draft (rule draft)
  tracks : ∀ {left right : Draft}, pairing.related left right →
    pairing.Tracks (rule left) (rule' right)

/-- The drafts are related and the answers alike, unless the first run is lost. -/
def TracksAnswer {Answer : Type} (left right : Answer × Draft) : Prop :=
  pairing.lost left.2 ∨ left.1 = right.1 ∧ pairing.related left.2 right.2

/-- Like `Follows`, for rules that also answer. Where the second run has come to
its end, the first rule answers `miss` and waits for the same token, or the
first run is lost. -/
structure FollowsAnswer {Answer : Type} (miss : Answer) (rule rule' : Draft → Answer × Draft) :
    Prop where
  keeps : ∀ draft, pairing.Keeps draft (rule draft).2
  tracks : ∀ {left right : Draft}, pairing.related left right →
    pairing.TracksAnswer (rule left) (rule' right)
  parted : ∀ {left right : Draft}, pairing.Parted left right →
    pairing.lost (rule left).2 ∨ (rule left).1 = miss ∧ pairing.Parted (rule left).2 right

/-- Both drafts take a token or neither does, unless the first run is lost by
taking one alone. -/
def TakesAlike (left right : Draft) (taken taken' : Option Draft) : Prop :=
  taken = none ∧ taken' = none ∨
    taken = some left.advance ∧ taken' = some right.advance ∧
        pairing.related left.advance right.advance ∨
      taken = some left.advance ∧ taken' = none ∧ pairing.lost left.advance

/-- Two statement rules answer in the same way before a token: none begins a
statement, or both place a node of the same kind, from whose insides related
drafts are left. The drafts around the nodes need not be related. -/
inductive Twins (left right : Draft) : Outcome × Draft → Outcome × Draft → Prop
  | missed : Twins left right (.nothing, left.settle) (.nothing, right.settle)
  | node (kind : Kind) {inside inside' : Draft} (pair : pairing.related inside inside') :
      Twins left right (.node, inside.closed kind left.settle.placed)
        (.node, inside'.closed kind right.settle.placed)

/-- The answers are twins, unless the first run is lost. -/
def TracksTwins (left right : Draft) (answer answer' : Outcome × Draft) : Prop :=
  pairing.lost answer.2 ∨ pairing.Twins left right answer answer'

/-- Regions with equally many open braces, and related drafts. -/
def Regions (region region' : Region) : Prop :=
  region.braces = region'.braces ∧ pairing.related region.draft region'.draft

variable {pairing}

theorem Follows.refl : pairing.Follows (fun draft => draft) (fun draft => draft) where
  keeps _ := id
  tracks := Or.inr

/-- A rule after other rules. -/
theorem Follows.after {rule rule' : Draft → Draft} (follows : pairing.Follows rule rule')
    {left right : Draft} (tracked : pairing.Tracks left right) :
    pairing.Tracks (rule left) (rule' right) := by
  rcases tracked with lost | pair
  · exact Or.inl (follows.keeps left lost)
  · exact follows.tracks pair

theorem Follows.comp {first first' second second' : Draft → Draft}
    (later : pairing.Follows second second') (earlier : pairing.Follows first first') :
    pairing.Follows (fun draft => second (first draft)) (fun draft => second' (first' draft)) where
  keeps draft lost := later.keeps (first draft) (earlier.keeps draft lost)
  tracks pair := later.after (earlier.tracks pair)

theorem FollowsAnswer.path {Answer : Type} {miss : Answer} {rule rule' : Draft → Answer × Draft}
    (follows : pairing.FollowsAnswer miss rule rule') (draft : Draft) :
    Path pairing.Keeps draft (rule draft).2 :=
  .single (.call (follows.keeps draft))

theorem TakesAlike.related_behind {left right : Draft} (pair : pairing.related left right)
    {taken taken' : Option Draft} (alike : pairing.TakesAlike left right taken taken') :
    pairing.lost (Turn.behind taken left).state ∨
      Turn.Related pairing.related (Turn.behind taken left) (Turn.behind taken' right) := by
  rcases alike with ⟨rfl, rfl⟩ | ⟨rfl, rfl, next⟩ | ⟨rfl, rfl, lost⟩
  · exact Or.inr (.done pair)
  · exact Or.inr (.again next)
  · exact Or.inl lost

end Pairing

/-- The transitions keep a pairing, and the ceilings of the second run serve
the first one. Whether a draft is lost shows in its rest and its met ceilings,
and a lost draft stays lost. -/
structure Simulation (pairing : Pairing) (limits limits' : Limits) : Prop where
  lost_congr : ∀ {draft draft' : Draft}, pairing.lost draft → draft.rest = draft'.rest →
    draft.trips = draft'.trips → pairing.lost draft'
  lost_settle : ∀ draft : Draft, pairing.Keeps draft draft.settle
  lost_advance : ∀ draft : Draft, pairing.Keeps draft draft.advance
  lost_trip : ∀ (draft : Draft) construct, pairing.Keeps draft (draft.trip construct)
  kinds : ∀ {left right : Draft}, pairing.related left right →
    left.kind = right.kind ∨ pairing.Parted left right
  settle : ∀ {left right : Draft}, pairing.Meets left right →
    pairing.related left.settle right.settle
  advance : ∀ {left right : Draft}, pairing.related left right → left.kind = right.kind →
    pairing.related left.advance right.advance
  opened : ∀ {left right : Draft}, pairing.Meets left right →
    pairing.related left.opened right.opened
  closed : ∀ {left right inside inside' : Draft} (kind : Kind), pairing.Meets left right →
    pairing.related inside inside' →
    pairing.related (inside.closed kind left.settle.placed)
      (inside'.closed kind right.settle.placed)
  trip : ∀ {left right : Draft} (construct : Construct), pairing.related left right →
    pairing.Tracks (left.trip construct) (right.trip construct)
  depth : pairing.Ample limits.depth limits'.depth
  iterations : pairing.Ample limits.iterations limits'.iterations
  chain : pairing.Ample limits.chain limits'.chain
  regionIterations : pairing.Ample limits.regionIterations limits'.regionIterations
  topLevelIterations : pairing.Ample limits.topLevelIterations limits'.topLevelIterations

/-- A rule that goes on with `there` behind a token of the given kind, and with
`missing` where there is none. -/
def branch (kind : Kind) (there missing : Draft → Draft) (draft : Draft) : Draft :=
  match draft.take? kind with
  | some inside => there inside
  | none => missing draft

section Rules

variable {pairing : Pairing} {limits limits' : Limits}
  (simulation : Simulation pairing limits limits')

include simulation

/-! ## Lost drafts -/

theorem Simulation.lost_of_path {draft after : Draft} (path : Path pairing.Keeps draft after) :
    pairing.Keeps draft after :=
  path.related pairing.Keeps (fun _ => id) (fun earlier later => later ∘ earlier)
    simulation.lost_advance (fun draft construct _ => simulation.lost_trip draft construct) id

/-! ## Single tokens -/

/-- Drafts stand before tokens of the same kind when the second one is not at its
end. -/
theorem Simulation.meets {left right : Draft} (pair : pairing.related left right)
    (notEnd : right.atEnd = false) : pairing.Meets left right := by
  rcases simulation.kinds pair with same | parted
  · exact ⟨pair, same, notEnd⟩
  · rw [Draft.atEnd, parted.atEnd] at notEnd
    cases notEnd

/-- Drafts stay parted while they are related and the first one stays before its
token. -/
theorem Simulation.parted_of_related {left after right : Draft}
    (parted : pairing.Parted left right) (pair : pairing.related after right)
    (sameKind : after.kind = left.kind) : pairing.Parted after right := by
  rcases simulation.kinds pair with same | parted
  · have notEnd := parted.notEnd
    rw [Draft.atEnd, ← sameKind, same, parted.atEnd] at notEnd
    cases notEnd
  · exact parted

/-- A token is taken alike when the end is never taken for it. -/
theorem Simulation.takesAlike {left right : Draft} (pair : pairing.related left right)
    (wanted : Kind → Prop) [DecidablePred wanted] (noEnd : ¬ wanted .endOfInput) :
    pairing.TakesAlike left right (if wanted left.kind then some left.advance else none)
      (if wanted right.kind then some right.advance else none) := by
  by_cases taken : wanted left.kind
  · right
    rcases simulation.kinds pair with same | parted
    · left
      exact ⟨if_pos taken, if_pos (same ▸ taken), simulation.advance pair same⟩
    · right
      exact ⟨if_pos taken, if_neg (parted.atEnd ▸ noEnd), parted.advance⟩
  · left
    refine ⟨if_neg taken, if_neg ?_⟩
    rcases simulation.kinds pair with same | parted
    · rwa [← same]
    · rwa [parted.atEnd]

theorem Simulation.take?_alike {left right : Draft} (pair : pairing.related left right)
    (kind : Kind) (notEnd : kind ≠ .endOfInput) :
    pairing.TakesAlike left right (left.take? kind) (right.take? kind) :=
  simulation.takesAlike pair (· = kind) notEnd.symm

theorem Simulation.takeIn?_alike {left right : Draft} (pair : pairing.related left right)
    (set : KindSet) (noEnd : set.contains .endOfInput = false) :
    pairing.TakesAlike left right (left.takeIn? set) (right.takeIn? set) :=
  simulation.takesAlike pair (fun kind => set.contains kind = true) (by simp [noEnd])

theorem Simulation.follows_advance : pairing.Follows Draft.advance Draft.advance where
  keeps := simulation.lost_advance
  tracks pair := by
    rcases simulation.kinds pair with same | parted
    · exact Or.inr (simulation.advance pair same)
    · exact Or.inl parted.advance

theorem Simulation.follows_branch (kind : Kind) (notEnd : kind ≠ .endOfInput)
    {there there' missing missing' : Draft → Draft}
    (thereFollows : pairing.Follows there there')
    (missingFollows : pairing.Follows missing missing') :
    pairing.Follows (branch kind there missing) (branch kind there' missing') where
  keeps := by
    intro draft lost
    unfold branch
    split
    · next inside taken =>
        exact thereFollows.keeps inside (simulation.lost_of_path (.take? taken) lost)
    · exact missingFollows.keeps draft lost
  tracks := by
    intro left right pair
    unfold branch
    rcases simulation.take?_alike pair kind notEnd with
      ⟨leftEq, rightEq⟩ | ⟨leftEq, rightEq, next⟩ | ⟨leftEq, _, lost⟩
    · simp only [leftEq, rightEq]
      exact missingFollows.tracks pair
    · simp only [leftEq, rightEq]
      exact thereFollows.tracks next
    · simp only [leftEq]
      exact Or.inl (thereFollows.keeps left.advance lost)

theorem Simulation.follows_skip (kind : Kind) (notEnd : kind ≠ .endOfInput) :
    pairing.Follows (·.skip kind) (·.skip kind) where
  keeps draft := simulation.lost_of_path (.skip draft kind)
  tracks := by
    intro left right pair
    unfold Draft.skip
    rcases simulation.take?_alike pair kind notEnd with
      ⟨leftEq, rightEq⟩ | ⟨leftEq, rightEq, next⟩ | ⟨leftEq, _, lost⟩
    · simp only [leftEq, rightEq, Option.getD_none]
      exact Or.inr pair
    · simp only [leftEq, rightEq, Option.getD_some]
      exact Or.inr next
    · simp only [leftEq, Option.getD_some]
      exact Or.inl lost

/-! ## Loops and lists -/

/-- Loops that go on before tokens of some kinds, and never at the end. -/
theorem Simulation.tracks_repeatWhile (wanted : Kind → Bool) (noEnd : wanted .endOfInput = false)
    {turn turn' : Draft → Turn Draft} {construct : Construct} {budget budget' : Nat}
    (turnKeeps : ∀ draft, pairing.Keeps draft (turn draft).state)
    (turnParted : ∀ left right, pairing.Parted left right → pairing.lost (turn left).state)
    (turns : ∀ left right, pairing.Meets left right →
      pairing.lost (turn left).state ∨ Turn.Related pairing.related (turn left) (turn' right))
    (ample : pairing.Ample budget budget') {left right : Draft}
    (pair : pairing.related left right) :
    pairing.Tracks
      (repeatWhile (fun draft => wanted draft.kind) turn (·.trip construct) budget left)
      (repeatWhile (fun draft => wanted draft.kind) turn' (·.trip construct) budget' right) := by
  apply repeatWhile_tracks pairing.lost pairing.related
  case turnKeeps => exact turnKeeps
  case cappedKeeps => exact fun draft => simulation.lost_trip draft construct
  case wantedCases =>
    intro left right pair
    rcases simulation.kinds pair with same | parted
    · exact Or.inl (by rw [same])
    · exact Or.inr ⟨by rw [parted.atEnd, noEnd], turnParted left right parted,
        parted.trip construct⟩
  case turns =>
    intro left right pair goesOn
    exact turns left right
      (simulation.meets pair (Draft.atEnd_eq_false_of_wanted wanted noEnd goesOn))
  case capped_tracks => exact fun _ _ => simulation.trip construct
  case serves => exact ample.imp fun spent draft => spent draft construct
  case pair => exact pair

end Rules

end TemplateFrontend.Grammar
