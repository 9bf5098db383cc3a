import TemplateFrontend.Grammar.Draft
import Mathlib.Data.List.TakeWhile

/-!
Contract: what the transitions of a draft do to its rest and its parts.

Owns:
- `Draft.leading`, the trivia before the next significant token;
- the two shapes of a rest: trivia only, or trivia, a significant token and
  more (`next_cases`);
- equations for settling, advancing and taking in these shapes.
-/

namespace TemplateFrontend.Draft

/-- The trivia before the next significant token. -/
def leading (draft : Draft) : List Token := draft.rest.takeWhile Token.isTrivia

/-- Leaves of tokens, the last one first, as they stand in `placed`. -/
def leaves (tokens : List Token) : List Outline := (tokens.map .leaf).reverse

@[simp] theorem leaves_nil : leaves [] = [] := rfl

theorem foldl_leaf (tokens : List Token) (placed : List Outline) :
    tokens.foldl (fun placed token => .leaf token :: placed) placed = leaves tokens ++ placed := by
  induction tokens generalizing placed with
  | nil => rfl
  | cons token later inductionHypothesis => simp [inductionHypothesis, leaves]

theorem isTrivia_of_mem_leading {draft : Draft} {token : Token} (member : token ∈ draft.leading) :
    token.isTrivia = true :=
  List.mem_takeWhile_imp member

theorem settle_eq (draft : Draft) :
    draft.settle =
      { draft with
        rest := draft.rest.dropWhile Token.isTrivia
        placed := leaves draft.leading ++ draft.placed } := rfl

@[simp] theorem opened_rest (draft : Draft) : draft.opened.rest = draft.settle.rest := rfl

@[simp] theorem opened_placed (draft : Draft) : draft.opened.placed = [] := rfl

theorem leading_append_settle_rest (draft : Draft) :
    draft.leading ++ draft.settle.rest = draft.rest :=
  List.takeWhile_append_dropWhile

/-- Looking ahead depends on the rest alone. -/
theorem kind_congr {left right : Draft} (sameRest : left.rest = right.rest) :
    left.kind = right.kind := by
  simp only [kind, next?, sameRest]

theorem atEnd_congr {left right : Draft} (sameRest : left.rest = right.rest) :
    left.atEnd = right.atEnd := by
  simp only [atEnd, kind_congr sameRest]

/-! ## The two shapes of a rest -/

/-- The rest of a draft is trivia, then the significant token `token`, then
`later`. -/
structure NextIs (draft : Draft) (token : Token) (later : List Token) : Prop where
  rest_eq : draft.rest = draft.leading ++ token :: later
  significant : token.isTrivia = false

/-- The first token after the leading trivia is significant. -/
theorem nextIs_of_settle_rest {draft : Draft} {token : Token} {later : List Token}
    (settled : draft.settle.rest = token :: later) : draft.NextIs token later where
  rest_eq := by rw [← settled, leading_append_settle_rest]
  significant := by
    have headFails := List.head?_dropWhile_not Token.isTrivia draft.rest
    rw [show draft.rest.dropWhile Token.isTrivia = token :: later from settled] at headFails
    simpa using headFails

/-- Either only trivia is left, or a significant token is next. -/
theorem next_cases (draft : Draft) :
    draft.settle.rest = [] ∨ ∃ token later, draft.NextIs token later := by
  cases settled : draft.settle.rest with
  | nil => exact Or.inl rfl
  | cons token later => exact Or.inr ⟨token, later, nextIs_of_settle_rest settled⟩

theorem next?_of_settle_rest_nil {draft : Draft} (empty : draft.settle.rest = []) :
    draft.next? = none := by
  have allTrivia : ∀ token ∈ draft.rest, token.isTrivia = true := List.dropWhile_eq_nil_iff.mp empty
  exact List.find?_eq_none.mpr fun token member => by simp [allTrivia token member]

theorem atEnd_of_settle_rest_nil {draft : Draft} (empty : draft.settle.rest = []) :
    draft.atEnd = true := by
  simp [atEnd, kind, next?_of_settle_rest_nil empty]

theorem advance_of_settle_rest_nil {draft : Draft} (empty : draft.settle.rest = []) :
    draft.advance = draft := by
  simp [advance, empty]

/-- A draft whose rest is trivia, a significant token and more stands there. -/
theorem nextIs_of_rest_eq {draft : Draft} {trivia later : List Token} {token : Token}
    (restEq : draft.rest = trivia ++ token :: later)
    (allTrivia : ∀ blank ∈ trivia, blank.isTrivia = true) (significant : token.isTrivia = false) :
    draft.leading = trivia ∧ draft.NextIs token later := by
  have leadingEq : draft.leading = trivia := by
    rw [leading, restEq, List.takeWhile_append_of_pos allTrivia,
      List.takeWhile_cons_of_neg (by simp [significant]), List.append_nil]
  exact ⟨leadingEq, by rw [restEq, leadingEq], significant⟩

namespace NextIs

variable {draft : Draft} {token : Token} {later : List Token}

theorem settle_rest (next : draft.NextIs token later) : draft.settle.rest = token :: later := by
  have split := draft.leading_append_settle_rest
  rw [next.rest_eq] at split
  exact List.append_cancel_left split

theorem next?_eq (next : draft.NextIs token later) : draft.next? = some token := by
  rw [Draft.next?, next.rest_eq, List.find?_append, List.find?_eq_none.mpr]
  · simp [next.significant]
  · intro other member
    simp [isTrivia_of_mem_leading member]

theorem kind_eq (next : draft.NextIs token later) : draft.kind = token.kind := by
  simp [kind, next.next?_eq]

theorem advance_eq (next : draft.NextIs token later) :
    draft.advance =
      { draft with
        rest := later
        placed := .leaf token :: (leaves draft.leading ++ draft.placed) } := by
  have settled := next.settle_rest
  unfold advance
  simp only [settled]
  rfl

end NextIs

@[simp] theorem trips_advance (draft : Draft) : draft.advance.trips = draft.trips := by
  rcases draft.next_cases with empty | ⟨token, later, next⟩
  · rw [advance_of_settle_rest_nil empty]
  · rw [next.advance_eq]

@[simp] theorem stop_advance (draft : Draft) : draft.advance.stop = draft.stop := by
  rcases draft.next_cases with empty | ⟨token, later, next⟩
  · rw [advance_of_settle_rest_nil empty]
  · rw [next.advance_eq]

theorem rest_settle_suffix (draft : Draft) : draft.settle.rest <:+ draft.rest :=
  List.dropWhile_suffix _

theorem rest_advance_suffix (draft : Draft) : draft.advance.rest <:+ draft.rest := by
  rcases draft.next_cases with empty | ⟨token, later, next⟩
  · simp only [advance_of_settle_rest_nil empty, List.suffix_rfl]
  · apply List.IsSuffix.trans _ draft.rest_settle_suffix
    rw [next.advance_eq, next.settle_rest]
    exact List.suffix_cons token later

theorem exists_nextIs {draft : Draft} (notEnd : draft.atEnd = false) :
    ∃ token later, draft.NextIs token later := by
  rcases draft.next_cases with empty | next
  · rw [atEnd_of_settle_rest_nil empty] at notEnd
    cases notEnd
  · exact next

theorem atEnd_eq_false_of_kind {draft : Draft} {kind : Kind} (kindEq : draft.kind = kind)
    (notEnd : kind ≠ .endOfInput) : draft.atEnd = false := by
  simp [atEnd, kindEq, notEnd]

/-- A draft before a wanted kind is not at its end when the end is not wanted. -/
theorem atEnd_eq_false_of_wanted {draft : Draft} (wanted : Kind → Bool)
    (noEnd : wanted .endOfInput = false) (found : wanted draft.kind = true) :
    draft.atEnd = false := by
  apply atEnd_eq_false_of_kind rfl
  intro isEnd
  rw [isEnd, noEnd] at found
  cases found

theorem atEnd_eq_false_of_contains {draft : Draft} {set : KindSet}
    (inside : set.contains draft.kind = true) (noEnd : set.contains .endOfInput = false) :
    draft.atEnd = false :=
  atEnd_eq_false_of_wanted set.contains noEnd inside

/-- Where no token looks like the end, only trivia is left at the end. -/
theorem settle_rest_of_atEnd {draft : Draft}
    (kinds : ∀ token ∈ draft.rest, token.kind ≠ .endOfInput) (isEnd : draft.atEnd = true) :
    draft.settle.rest = [] := by
  rcases draft.next_cases with empty | ⟨token, later, next⟩
  · exact empty
  · have notEnd : token.kind ≠ .endOfInput := kinds token (by simp [next.rest_eq])
    rw [atEnd_eq_false_of_kind next.kind_eq notEnd] at isEnd
    cases isEnd

/-! ## Settled drafts -/

/-- No trivia stands before the next significant token. -/
def Settled (draft : Draft) : Prop := draft.leading = []

theorem settled_settle (draft : Draft) : draft.settle.Settled := by
  rcases draft.next_cases with empty | ⟨token, later, next⟩
  · simp [Settled, leading, empty]
  · simp [Settled, leading, next.settle_rest, next.significant]

theorem settled_opened (draft : Draft) : draft.opened.Settled := draft.settled_settle

theorem settle_eq_self {draft : Draft} (settled : draft.Settled) : draft.settle = draft := by
  have restEq := draft.leading_append_settle_rest
  rw [settled, List.nil_append] at restEq
  rw [settle_eq, settled, leaves_nil, List.nil_append]
  exact congrArg (fun rest => { draft with rest := rest }) restEq

theorem settled_of_significant {draft : Draft} {token : Token} {later : List Token}
    (restEq : draft.rest = token :: later) (significant : token.isTrivia = false) :
    draft.Settled := by
  simp [Settled, leading, restEq, significant]

/-- Settling and looking ahead do not disturb each other. -/
theorem kind_settle (draft : Draft) : draft.settle.kind = draft.kind := by
  rcases draft.next_cases with empty | ⟨token, later, next⟩
  · simp [kind, next?, empty, show draft.rest.find? (fun token => !token.isTrivia) = none from
      next?_of_settle_rest_nil empty]
  · rw [next.kind_eq]
    simp [kind, next?, next.settle_rest, next.significant]

theorem atEnd_settle (draft : Draft) : draft.settle.atEnd = draft.atEnd := by
  simp [atEnd, kind_settle]

theorem atEnd_congr_settle {left right : Draft} (sameRest : left.settle.rest = right.settle.rest) :
    left.atEnd = right.atEnd := by
  rw [← left.atEnd_settle, ← right.atEnd_settle]
  exact atEnd_congr sameRest

theorem kind_opened (draft : Draft) : draft.opened.kind = draft.kind :=
  (kind_congr rfl).trans draft.kind_settle

theorem atEnd_opened (draft : Draft) : draft.opened.atEnd = draft.atEnd :=
  (atEnd_congr rfl).trans draft.atEnd_settle

theorem NextIs.opened {draft : Draft} {token : Token} {later : List Token}
    (next : draft.NextIs token later) : draft.opened.NextIs token later where
  rest_eq := by rw [draft.settled_opened, List.nil_append, opened_rest, next.settle_rest]
  significant := next.significant

/-- Placing the trivia first makes no difference before a significant token. -/
theorem advance_settle {draft : Draft} (notEnd : draft.atEnd = false) :
    draft.settle.advance = draft.advance := by
  obtain ⟨token, later, next⟩ := exists_nextIs notEnd
  have settledNext : draft.settle.NextIs token later :=
    nextIs_of_settle_rest ((congrArg rest (settle_eq_self draft.settled_settle)).trans
      next.settle_rest)
  rw [next.advance_eq, settledNext.advance_eq, draft.settled_settle]
  rfl

/-! ## Taking a token that may be missing -/

theorem take?_eq_some_iff {draft after : Draft} {kind : Kind} :
    draft.take? kind = some after ↔ draft.kind = kind ∧ after = draft.advance := by
  unfold take?
  split
  · next same => simp [same, eq_comm]
  · next other => simp [other]

theorem take?_eq_none_iff {draft : Draft} {kind : Kind} :
    draft.take? kind = none ↔ draft.kind ≠ kind := by
  simp [take?]

theorem takeIn?_eq_some_iff {draft after : Draft} {set : KindSet} :
    draft.takeIn? set = some after ↔ set.contains draft.kind = true ∧ after = draft.advance := by
  unfold takeIn?
  split
  · next inside => simp [inside, eq_comm]
  · next outside => simp [outside]

theorem takeIn?_eq_none_iff {draft : Draft} {set : KindSet} :
    draft.takeIn? set = none ↔ set.contains draft.kind = false := by
  simp [takeIn?]

theorem skip_of_kind {draft : Draft} {kind : Kind} (same : draft.kind = kind) :
    draft.skip kind = draft.advance := by
  simp [skip, take?, same]

theorem skip_of_kind_ne {draft : Draft} {kind : Kind} (other : draft.kind ≠ kind) :
    draft.skip kind = draft := by
  simp [skip, take?, other]

end TemplateFrontend.Draft
