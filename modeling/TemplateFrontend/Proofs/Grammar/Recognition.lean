import TemplateFrontend.Proofs.Grammar.Moves
import TemplateFrontend.Proofs.Grammar.Pending
import TemplateFrontend.Proofs.Grammar.WellFormed
import TemplateFrontend.Proofs.KindSet

/-!
Contract: what it means that a rule recognizes a well-formed phrase.

Owns:
- `starts` and `goesOn`, the kinds with which statements begin and with which
  expressions go on;
- `Recognized`, what it means for the rule of a phrase to read given shapes.

Does not own: the productions, which are in
`TemplateFrontend.Proofs.Grammar.Recognition.Expressions` and
`TemplateFrontend.Proofs.Grammar.Recognition.Statements`.

A phrase is read up to its last token and no further: what follows it must not
be a kind with which it could go on.
-/

namespace TemplateFrontend.Grammar

open Shape (spellingAll)

/-! ## First tokens and tokens behind -/

def opensPrimary (kind : Kind) : Bool :=
  match kind with
  | .leftParen | .leftBracket | .leftBrace => true
  | kind => atoms.contains kind

/-- The kinds with which well-formed statements begin. -/
def starts (kind : Kind) : Bool :=
  match kind with
  | .ifKeyword | .forKeyword | .foreachKeyword | .whileKeyword | .doKeyword | .returnKeyword
  | .newKeyword | .assertKeyword | .isdefKeyword | .withKeyword | .defKeyword | .functionKeyword
  | .atSign => true
  | kind => kind.isMarkup || opensPrimary kind

/-- The kinds with which an expression goes on. -/
def goesOn (kind : Kind) : Bool :=
  match kind with
  | .dot | .leftParen | .assign => true
  | kind => binaryOperators.contains kind

theorem starts_facts {kind : Kind} (begins : starts kind = true) :
    kind ≠ .endOfInput ∧ kind ≠ .rightParen ∧ kind ≠ .rightBracket ∧ kind ≠ .rightBrace ∧
      (kind ≠ .leftParen → goesOn kind = false) := by
  revert begins
  cases kind <;> decide

theorem starts_of_isMarkup {kind : Kind} (isMarkup : kind.isMarkup = true) :
    starts kind = true := by
  revert isMarkup
  cases kind <;> decide

theorem goesOn_facts {kind : Kind} (stops : goesOn kind = false) :
    kind ≠ .leftParen ∧ binaryOperators.contains kind = false := by
  revert stops
  cases kind <;> decide

theorem opensPrimary_of_atom {kind : Kind} (isAtom : atoms.contains kind = true) :
    opensPrimary kind = true := by
  unfold opensPrimary
  split
  · rfl
  · rfl
  · rfl
  · exact isAtom

theorem opensPrimary_facts {kind : Kind} (opens : opensPrimary kind = true) :
    starts kind = true ∧ kind.isMarkup = false := by
  revert opens
  cases kind <;> decide

theorem primary?_isSome (limits : Limits) (nested : StatementRule) (draft : Draft) :
    (primary? limits nested draft).isSome = opensPrimary draft.kind := by
  unfold primary?
  split
  · next isAtom => rw [opensPrimary_of_atom isAtom, Option.isSome_some]
  · next notAtom =>
      split
      case h_4 =>
        unfold opensPrimary
        split
        case h_4 => exact (Bool.eq_false_iff.mpr notAtom).symm
        all_goals contradiction
      all_goals
        next kindEq =>
          rw [kindEq]
          rfl

/-- A node is placed exactly before the kinds with which statements begin. -/
theorem statementAt_outcome (limits : Limits) (nested : StatementRule) (draft : Draft) :
    (statementAt limits nested draft).1 = if starts draft.kind then .node else .nothing := by
  have begun := primary?_isSome limits nested draft.opened
  rw [draft.kind_opened] at begun
  unfold statementAt
  split
  case h_15 =>
    have startsEq : starts draft.kind = (draft.kind.isMarkup || opensPrimary draft.kind) := by
      unfold starts
      split
      case h_14 => rfl
      all_goals contradiction
    rw [startsEq, ← begun]
    split
    · next isMarkup => rw [isMarkup, Bool.true_or, if_pos rfl]
    · next notMarkup =>
        rw [Bool.eq_false_iff.mpr notMarkup, Bool.false_or]
        unfold expression
        dsimp only
        cases primary? limits nested draft.opened with
        | none => rfl
        | some first =>
            dsimp only
            split <;> rfl
  all_goals
    next kindEq =>
      rw [kindEq]
      rfl

/-- Shapes whose first token begins a statement. -/
def Begins (parts : List Shape) : Prop :=
  ∃ kind later, spellingAll parts = kind :: later ∧ starts kind = true

/-- No expression goes on with these kinds. -/
def Stops (more : List Kind) : Prop := ∀ kind, more.head? = some kind → goesOn kind = false

theorem stops_cons {kind : Kind} (more : List Kind) (stops : goesOn kind = false) :
    Stops (kind :: more) := by
  intro head headEq
  cases headEq
  exact stops

theorem Begins.append {parts : List Shape} (begins : Begins parts) (later : List Shape) :
    Begins (parts ++ later) := by
  obtain ⟨kind, rest, spelled, startsKind⟩ := begins
  have spelledAll : spellingAll (parts ++ later) = kind :: (rest ++ spellingAll later) := by
    rw [Shape.spellingAll_append, spelled, List.cons_append]
  exact ⟨kind, _, spelledAll, startsKind⟩

/-! ## Recognized phrases -/

def Listing.rule (limits : Limits) (levels : Nat) : Listing → ElementRule
  | .entries => entryElement (statement limits levels)
  | _ => statementElement (statement limits levels)

def Listing.loop (listing : Listing) (limits : Limits) (levels : Nat) :
    (turns : Nat) → Draft → Draft :=
  repeatWhile (fun current => current.kind != listing.closing && !current.atEnd)
    (separatedTurn listing.separators (listing.rule limits levels)) (·.trip listing.construct)

/-- What may follow an element of a list: neither more of an expression nor, in
a list literal, the colon of a value. -/
def Listing.StopsElement (listing : Listing) (more : List Kind) : Prop :=
  Stops more ∧ (listing = .entries → more.head? ≠ some .colon)

def propertyLoop : (turns : Nat) → Draft → Draft :=
  repeatWhile (fun current => current.kind == .dot) propertyTurn (·.trip .propertyChain)

def operatorLoop (limits : Limits) (levels : Nat) : (turns : Nat) → Draft → Draft :=
  repeatWhile (fun current => binaryOperators.contains current.kind)
    (operatorTurn limits (statement limits levels)) (·.trip .operatorChain)

def parameterLoop : (turns : Nat) → Draft → Draft :=
  repeatWhile (fun current => current.kind == .identifier) parameterTurn (·.trip .parameterList)

def programLoop (limits : Limits) (levels : Nat) : (turns : Nat) → Draft → Draft :=
  repeatWhile (fun current => !current.atEnd)
    (fun current => .again ((statement limits levels).placeOrAdvance current)) (·.trip .topLevel)

/-- The rule of a phrase reads `parts` from every draft that spells them and goes
on in a way that ends the phrase. -/
def Recognized (limits : Limits) : Phrase → List Shape → Prop
  | .statement levels, parts =>
      Begins parts ∧ ∀ draft more, draft.pending = spellingAll parts ++ more → Stops more →
        ∃ after, statement limits levels draft = (.node, after) ∧ Reads parts more draft after
  | .primary levels, parts =>
      (∃ kind later, spellingAll parts = kind :: later ∧ opensPrimary kind = true) ∧
      ∀ draft more, draft.pending = spellingAll parts ++ more →
        more.head? ≠ some .dot → more.head? ≠ some .leftParen →
        ∃ after, primary? limits (statement limits levels) draft = some after ∧
          Reads parts more draft after
  | .properties turns, parts =>
      ∀ draft more, draft.pending = spellingAll parts ++ more → more.head? ≠ some .dot →
        Reads parts more draft (propertyLoop turns draft)
  | .operators levels turns, parts =>
      (∀ kind, firstKind? parts = some kind → binaryOperators.contains kind = true) ∧
      ∀ draft more, draft.pending = spellingAll parts ++ more → Stops more →
        Reads parts more draft (operatorLoop limits levels turns draft)
  | .element listing levels, parts =>
      Begins parts ∧ ∀ draft more, draft.pending = spellingAll parts ++ more →
        listing.StopsElement more →
        ∃ after, listing.rule limits levels draft = (true, after) ∧ Reads parts more draft after
  | .list listing levels turns, parts =>
      ∀ draft more, draft.pending = spellingAll parts ++ listing.closing :: more →
        Reads parts (listing.closing :: more) draft (listing.loop limits levels turns draft)
  | .names turns, parts =>
      ∀ draft more, draft.pending = spellingAll parts ++ .rightParen :: more →
        Reads parts (.rightParen :: more) draft (parameterLoop turns draft)
  | .region levels turns, parts =>
      (∀ more, Stops (spellingAll parts ++ more)) ∧
      ∀ draft more, draft.pending = spellingAll parts ++ more →
        Reads parts more draft (regionLoop (statement limits levels) turns ⟨1, draft⟩).draft
  | .program levels turns, parts =>
      (parts = [] ∨ Begins parts) ∧
      ∀ draft, draft.pending = spellingAll parts →
        Reads parts [] draft (programLoop limits levels turns draft)

section Phrases

variable {limits : Limits} {levels : Nat}

theorem Recognized.place {parts : List Shape}
    (recognized : Recognized limits (.statement levels) parts) {draft : Draft} {more : List Kind}
    (pendingEq : draft.pending = spellingAll parts ++ more) (stops : Stops more) :
    Reads parts more draft ((statement limits levels).place draft) := by
  obtain ⟨after, answer, reads⟩ := recognized.2 draft more pendingEq stops
  rwa [StatementRule.place, answer]

theorem Recognized.placeOrAdvance {parts : List Shape}
    (recognized : Recognized limits (.statement levels) parts) {draft : Draft} {more : List Kind}
    (pendingEq : draft.pending = spellingAll parts ++ more) (stops : Stops more) :
    Reads parts more draft ((statement limits levels).placeOrAdvance draft) := by
  obtain ⟨after, answer, reads⟩ := recognized.2 draft more pendingEq stops
  rwa [StatementRule.placeOrAdvance, answer]

end Phrases

end TemplateFrontend.Grammar
