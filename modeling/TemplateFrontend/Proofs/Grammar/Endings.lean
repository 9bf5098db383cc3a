import TemplateFrontend.Proofs.Grammar.Waiting
import Mathlib.Tactic.FinCases

/-!
Contract: how the nodes of statements end.

Owns:
- `EndsAs`, which ties the end of a draft to whether its node awaits an
  operand: a node that awaits one is left waiting, every other one clean;
- the endings of conditionals, loops, functions and keyword statements.

Does not own: expressions, which are in
`TemplateFrontend.Proofs.Grammar.ExpressionEndings`.
-/

namespace TemplateFrontend.Grammar

/-- A draft that awaits an operand is waiting; any other one is clean. -/
def EndsAs (nested : StatementRule) (awaited : Bool) (draft : Draft) : Prop :=
  awaited = true ∧ draft.Waiting nested ∨ awaited = false ∧ draft.Clean

theorem EndsAs.of_clean {nested : StatementRule} {awaited : Bool} {draft : Draft}
    (clean : draft.Clean) (notAwaited : awaited = false) : EndsAs nested awaited draft :=
  Or.inr ⟨notAwaited, clean⟩

theorem EndsAs.of_waiting {nested : StatementRule} {awaited : Bool} {draft : Draft}
    (waiting : draft.Waiting nested) (isAwaited : awaited = true) :
    EndsAs nested awaited draft :=
  Or.inl ⟨isAwaited, waiting⟩

section Endings

variable {nested : StatementRule} (limits : Limits) (regular : Regular nested)

/-! ## Statements with one operand at the end -/

include regular in
/-- An operand is placed or awaited, where `awaits` tells which from the marks,
the last one first. -/
theorem endsAs_place {draft : Draft} (clean : draft.Clean) (awaits : List Mark → Bool)
    (filled : awaits (none :: draft.marks) = false) (unfilled : awaits draft.marks = true) :
    EndsAs nested (awaits (nested.place draft).marks) (nested.place draft) := by
  rcases regular.place_cases clean with ⟨_, placedMarks, placed⟩ | ⟨_, placedMarks, placed⟩
  · exact .of_clean placed (by rw [placedMarks, filled])
  · exact .of_waiting placed (by rw [placedMarks, unfilled])

include regular in
theorem ending_after_token {draft : Draft} {kind : Kind} {earlier : List Mark}
    (marksEq : draft.marks = some kind :: earlier) (clean : draft.Clean) :
    EndsAs nested (endsInToken (nested.place draft).marks.reverse) (nested.place draft) := by
  apply endsAs_place regular clean fun marks => endsInToken marks.reverse
  · simp [endsInToken]
  · simp [endsInToken, marksEq]

/-- A clean draft whose last mark is that of a token. -/
def EndsInToken (draft : Draft) : Prop :=
  (∃ kind earlier, draft.marks = some kind :: earlier) ∧ draft.Clean

theorem EndsInToken.advance {draft : Draft} (ends : EndsInToken draft) :
    EndsInToken draft.advance := by
  rcases draft.next_cases with empty | ⟨token, later, next⟩
  · rwa [Draft.advance_of_settle_rest_nil empty]
  · refine ⟨⟨token.kind, draft.marks, ?_⟩, ends.2.advance⟩
    rw [next.advance_eq, Draft.marks, Outline.marks_cons (.leaf token) _ next.significant,
      Outline.marks_append,
      Outline.marks_leaves_of_trivia fun _ => Draft.isTrivia_of_mem_leading]
    rfl

/-- Without calls for statements only tokens are placed. -/
theorem EndsInToken.of_path {draft after : Draft} (ends : EndsInToken draft)
    (path : Path (fun _ _ => False) draft after) : EndsInToken after :=
  path.related (fun before after => EndsInToken before → EndsInToken after) (fun _ => id)
    (fun front back => back ∘ front) (fun _ => EndsInToken.advance) (fun _ _ _ => id) False.elim ends

theorem endsInToken_advance {draft : Draft} (notEnd : draft.atEnd = false) :
    EndsInToken draft.advance :=
  ⟨⟨draft.kind, draft.marks, Draft.marks_advance notEnd⟩, Draft.clean_advance notEnd⟩

include regular in
theorem function_ending {draft : Draft} (notEnd : draft.atEnd = false) :
    let inside := nested.place (parameters limits (draft.advance.skip .identifier))
    EndsAs nested (endsInToken inside.marks.reverse) inside := by
  have ends := (endsInToken_advance notEnd).of_path
    ((Path.skip draft.advance .identifier).trans (path_parameters limits _))
  obtain ⟨⟨kind, earlier, marksEq⟩, clean⟩ := ends
  exact ending_after_token regular marksEq clean

/-! ## Statements with a condition -/

include regular in
/-- A keyword, an optional condition and an operand, before anything else is
read: either the operand is there, or the draft waits. -/
theorem conditioned_cases {draft : Draft} (notEnd : draft.atEnd = false) :
    ∃ added, (nested.place (condition nested draft.opened.advance)).marks.reverse
        = some draft.kind :: added ∧
      (added ∈ filledMarks ∧ (nested.place (condition nested draft.opened.advance)).Clean ∨
        added ∈ unfilledMarks ∧
          (nested.place (condition nested draft.opened.advance)).Waiting nested) := by
  have opened := draft.atEnd_opened.trans notEnd
  obtain ⟨added, marksEq, cases⟩ := regular.place_condition_cases (Draft.clean_advance opened)
  refine ⟨added, ?_, cases⟩
  rw [marksEq, Draft.marks_advance opened, draft.kind_opened]
  simp

/-- With no condition behind its body, a loop awaits its body. -/
theorem awaits_while (kind : Kind) :
    (∀ added ∈ filledMarks, awaitsOperand limits .whileStmt (some kind :: added) = false) ∧
      ∀ added ∈ unfilledMarks, awaitsOperand limits .whileStmt (some kind :: added) = true := by
  constructor <;> (intro added member; fin_cases member <;> rfl)

/-- With a condition behind its body, a loop awaits nothing but the inside of
the condition. -/
theorem awaits_do (kind : Kind) {keyword : Kind}
    (keywordEq : keyword = .whileKeyword ∨ keyword = .untilKeyword) :
    ∀ body ∈ filledMarks ++ unfilledMarks,
      (∀ added ∈ conditionMarks,
        awaitsOperand limits .whileStmt (some kind :: body ++ some keyword :: added) = false) ∧
      awaitsOperand limits .whileStmt
        (some kind :: body ++ [some keyword, some .leftParen]) = true := by
  intro body member
  constructor
  · intro added addedMember
    rcases keywordEq with rfl | rfl <;> fin_cases member <;> fin_cases addedMember <;> rfl
  · rcases keywordEq with rfl | rfl <;> fin_cases member <;> rfl

theorem awaits_if :
    (∀ added ∈ filledMarks, awaitsOperand limits .ifStmt (some .ifKeyword :: added) = false) ∧
      (∀ added ∈ unfilledMarks, awaitsOperand limits .ifStmt (some .ifKeyword :: added) = true) ∧
      ∀ body ∈ filledMarks ++ unfilledMarks,
        awaitsOperand limits .ifStmt
          (some .ifKeyword :: body ++ [some .elseKeyword, none]) = false ∧
        awaitsOperand limits .ifStmt (some .ifKeyword :: body ++ [some .elseKeyword]) = true := by
  refine ⟨?_, ?_, ?_⟩
  · intro added member
    fin_cases member <;> rfl
  · intro added member
    fin_cases member <;> rfl
  · intro body member
    fin_cases member <;> exact ⟨rfl, rfl⟩

include regular in
theorem while_ending {draft : Draft} (notEnd : draft.atEnd = false) :
    let inside := nested.place (condition nested draft.opened.advance)
    EndsAs nested (awaitsOperand limits .whileStmt inside.marks.reverse) inside := by
  obtain ⟨added, marksEq, ⟨member, clean⟩ | ⟨member, waiting⟩⟩ := conditioned_cases regular notEnd
  · exact .of_clean clean (by rw [marksEq, (awaits_while limits _).1 added member])
  · exact .of_waiting waiting (by rw [marksEq, (awaits_while limits _).2 added member])

include regular in
theorem trailing_ending {body : Draft} {first keyword : Kind} {added : List Mark}
    (marksEq : body.marks.reverse = some first :: added)
    (member : added ∈ filledMarks ++ unfilledMarks) (kindEq : body.kind = keyword)
    (keywordEq : keyword = .whileKeyword ∨ keyword = .untilKeyword) :
    EndsAs nested (awaitsOperand limits .whileStmt (condition nested body.advance).marks.reverse)
      (condition nested body.advance) := by
  obtain ⟨awaitsNone, awaitsInside⟩ := awaits_do limits first keywordEq added member
  obtain ⟨keywordMarks, keywordClean⟩ :=
    Draft.advance_marks (by rcases keywordEq with rfl | rfl <;> decide) kindEq
  obtain ⟨behind, behindEq, cases⟩ := regular.condition_cases keywordClean
  rw [keywordMarks] at behindEq
  rcases cases with ⟨behindMember, clean⟩ | ⟨rfl, waiting⟩
  · apply EndsAs.of_clean clean
    rw [← awaitsNone behind behindMember, behindEq]
    simp [marksEq]
  · apply EndsAs.of_waiting waiting
    rw [← awaitsInside, behindEq]
    simp [marksEq]

include regular in
theorem do_ending {draft : Draft} (notEnd : draft.atEnd = false) :
    let body := nested.place (condition nested draft.opened.advance)
    let inside := match body.take? .whileKeyword with
      | some afterWhile => condition nested afterWhile
      | none =>
          match body.take? .untilKeyword with
          | some afterUntil => condition nested afterUntil
          | none => body
    EndsAs nested (awaitsOperand limits .whileStmt inside.marks.reverse) inside := by
  obtain ⟨added, marksEq, cases⟩ := conditioned_cases regular notEnd
  have member : added ∈ filledMarks ++ unfilledMarks :=
    List.mem_append.mpr (cases.imp And.left And.left)
  dsimp only
  split
  · next afterWhile taken =>
      obtain ⟨kindEq, rfl⟩ := Draft.take?_eq_some_iff.mp taken
      exact trailing_ending limits regular marksEq member kindEq (Or.inl rfl)
  · split
    · next afterUntil taken =>
        obtain ⟨kindEq, rfl⟩ := Draft.take?_eq_some_iff.mp taken
        exact trailing_ending limits regular marksEq member kindEq (Or.inr rfl)
    · exact while_ending limits regular notEnd

include regular in
theorem if_ending {draft : Draft} (kindEq : draft.kind = .ifKeyword) :
    let branch := nested.place (condition nested draft.opened.advance)
    let inside := match branch.take? .elseKeyword with
      | some afterElse => nested.place afterElse
      | none => branch
    EndsAs nested (awaitsOperand limits .ifStmt inside.marks.reverse) inside := by
  have notEnd := Draft.atEnd_eq_false_of_kind kindEq (by decide)
  obtain ⟨added, marksEq, cases⟩ := conditioned_cases regular notEnd
  obtain ⟨filled, unfilled, withElse⟩ := awaits_if limits
  rw [kindEq] at marksEq
  dsimp only
  split
  · next afterElse taken =>
      have member : added ∈ filledMarks ++ unfilledMarks :=
        List.mem_append.mpr (cases.imp And.left And.left)
      obtain ⟨afterMarks, afterClean⟩ := Draft.take?_marks (by decide) taken
      apply endsAs_place regular afterClean fun marks => awaitsOperand limits .ifStmt marks.reverse
      · rw [← (withElse added member).1, afterMarks]
        simp [marksEq]
      · rw [← (withElse added member).2, afterMarks]
        simp [marksEq]
  · rcases cases with ⟨member, clean⟩ | ⟨member, waiting⟩
    · exact .of_clean clean (by rw [marksEq, filled added member])
    · exact .of_waiting waiting (by rw [marksEq, unfilled added member])

/-! ## Elements of lists -/

include regular in
/-- An element is a statement, or a token that opens nothing. -/
theorem placeOrAdvance_cases {draft : Draft} (notEnd : draft.atEnd = false) :
    (nested.placeOrAdvance draft).Clean ∧ ∃ mark,
      (nested.placeOrAdvance draft).marks = mark :: draft.marks ∧
      (mark = none ∨ mark = some draft.kind ∧ isOpening mark = false) := by
  unfold StatementRule.placeOrAdvance
  rcases regular.answers notEnd with answer | ⟨result, kind, parts, answer, placedEq⟩
  · have settledNotEnd := draft.atEnd_settle.trans notEnd
    rw [answer]
    refine ⟨Draft.clean_advance settledNotEnd, some draft.kind, ?_, Or.inr ⟨rfl, ?_⟩⟩
    · rw [Draft.marks_advance settledNotEnd, draft.kind_settle, draft.marks_settle]
    · exact regular.opens (by rw [answer])
  · rw [answer]
    refine ⟨Draft.clean_cons placedEq rfl, none, ?_, Or.inl rfl⟩
    rw [Draft.marks, placedEq, Outline.marks_cons (.node kind parts) _ rfl]
    exact congrArg (none :: ·) draft.marks_settle

/-! ## Loop headers -/

/-- The marks that can follow the elements of a header: its closing token, a
body, or nothing. -/
def MayFollow (elements : Draft) (more : List Mark) : Prop :=
  (elements.kind = .rightParen ∧ more.head? = some (some .rightParen)) ∨
    (elements.kind ≠ .rightParen ∧
      (more = [] ∨ elements.atEnd = false ∧ more.head? = some none))

theorem MayFollow.not_separator {elements : Draft} {more : List Mark}
    (follows : MayFollow elements more) (kind : Kind) (head : more.head? = some (some kind)) :
    headerSeparators.contains kind = false := by
  rcases follows with ⟨_, headEq⟩ | ⟨_, rfl | ⟨_, headEq⟩⟩
  · rw [headEq] at head
    cases head
    decide
  · cases head
  · rw [headEq] at head
    cases head

theorem afterElements_last (turns : Nat) {element : Mark} {more : List Mark}
    (notClosing : element ≠ some .rightParen)
    (noSeparator : ∀ kind, more.head? = some (some kind) → headerSeparators.contains kind = false) :
    afterElements (turns + 1) (element :: more) = more := by
  match more with
  | [] => simp [afterElements, notClosing]
  | none :: later => simp [afterElements, notClosing]
  | some separator :: later => simp [afterElements, notClosing, noSeparator separator rfl]

theorem afterElements_separator (turns : Nat) {element : Mark} {separator : Kind}
    {more : List Mark} (notClosing : element ≠ some .rightParen)
    (separates : headerSeparators.contains separator = true) :
    afterElements (turns + 1) (element :: some separator :: more) = afterElements turns more := by
  simp [afterElements, notClosing, separates]

def headerElements (nested : StatementRule) : (budget : Nat) → Draft → Draft :=
  repeatWhile (fun current => current.kind != .rightParen && !current.atEnd)
    (separatedTurn headerSeparators (statementElement nested)) (·.trip .loopHeader)

include regular in
/-- The elements are read back from their marks, by induction on the turns. -/
theorem headerElements_ending (budget : Nat) {draft : Draft} (clean : draft.Clean) :
    (headerElements nested budget draft).Clean ∧ ∃ added,
      (headerElements nested budget draft).marks = added.reverse ++ draft.marks ∧
      ∀ more, MayFollow (headerElements nested budget draft) more →
        afterElements budget (added ++ more) = more := by
  induction budget generalizing draft with
  | zero =>
      rw [headerElements, repeatWhile]
      split
      · exact ⟨clean, [], rfl, fun _ _ => rfl⟩
      · exact ⟨clean, [], rfl, fun _ _ => rfl⟩
  | succ budget inductionHypothesis =>
      rw [headerElements, repeatWhile]
      split
      · next wanted =>
          obtain ⟨notClosing, notEnd⟩ : draft.kind ≠ .rightParen ∧ draft.atEnd = false := by
            simpa using wanted
          obtain ⟨placedClean, mark, placedMarks, markCases⟩ := placeOrAdvance_cases regular notEnd
          have markNotClosing : mark ≠ some .rightParen := by
            rcases markCases with rfl | ⟨rfl, _⟩
            · simp
            · simpa using notClosing
          unfold separatedTurn
          rw [statementElement_placeOrAdvance]
          dsimp only
          cases taken : (nested.placeOrAdvance draft).takeIn? headerSeparators with
          | none =>
              exact ⟨placedClean, [mark], placedMarks, fun more follows =>
                afterElements_last budget markNotClosing follows.not_separator⟩
          | some next =>
              obtain ⟨separates, rfl⟩ := Draft.takeIn?_eq_some_iff.mp taken
              have nextNotEnd := Draft.atEnd_eq_false_of_contains separates (by decide)
              obtain ⟨resultClean, added, marksEq, readBack⟩ :=
                inductionHypothesis (Draft.clean_advance nextNotEnd)
              refine ⟨resultClean,
                mark :: some (nested.placeOrAdvance draft).kind :: added, ?_, ?_⟩
              · exact marksEq.trans (by rw [Draft.marks_advance nextNotEnd, placedMarks]; simp)
              · intro more follows
                exact (afterElements_separator budget markNotClosing separates).trans
                  (readBack more follows)
      · next unwanted =>
          refine ⟨clean, [], rfl, ?_⟩
          intro more follows
          rcases follows with ⟨_, head⟩ | ⟨notClosing, rfl | ⟨notEnd, _⟩⟩
          · cases more with
            | nil => cases head
            | cons element later =>
                cases head
                rfl
          · rfl
          · exact absurd (by simp [notClosing, notEnd]) unwanted

include regular in
theorem for_ending {draft : Draft} (notEnd : draft.atEnd = false) :
    let inside := nested.place (loopHeader limits nested draft.opened.advance)
    EndsAs nested (awaitsOperand limits .forStmt inside.marks.reverse) inside := by
  have openedNotEnd := draft.atEnd_opened.trans notEnd
  have advancedMarks := Draft.marks_advance openedNotEnd
  have advancedClean := Draft.clean_advance openedNotEnd
  dsimp only
  unfold loopHeader
  cases taken : draft.opened.advance.take? .leftParen with
  | none =>
      dsimp only
      apply endsAs_place regular advancedClean
        fun marks => awaitsOperand limits .forStmt marks.reverse
      · rw [advancedMarks]
        rfl
      · rw [advancedMarks]
        rfl
  | some inside =>
      obtain ⟨insideMarks, insideClean⟩ := Draft.take?_marks (by decide) taken
      obtain ⟨clean, added, marksEq, readBack⟩ :=
        headerElements_ending regular limits.iterations insideClean
      rw [insideMarks, advancedMarks] at marksEq
      have separatedEq : separated limits .loopHeader .rightParen headerSeparators
          (statementElement nested) inside =
          (headerElements nested limits.iterations inside).skip .rightParen := rfl
      dsimp only
      rw [separatedEq]
      -- The header and what follows it, as the marks are read from the front.
      have awaits : ∀ more : List Mark,
          MayFollow (headerElements nested limits.iterations inside) more →
          awaitsOperand limits .forStmt
              (more.reverse ++ (headerElements nested limits.iterations inside).marks).reverse =
            (afterToken .rightParen more).isEmpty := by
        intro more follows
        rw [marksEq]
        simp [awaitsOperand, afterHeader, readBack more follows]
      by_cases closes : (headerElements nested limits.iterations inside).kind = .rightParen
      · obtain ⟨closedMarks, closedClean⟩ := Draft.advance_marks (by decide) closes
        rw [Draft.skip_of_kind closes]
        apply endsAs_place regular closedClean
          fun marks => awaitsOperand limits .forStmt marks.reverse
        · rw [closedMarks]
          exact awaits [some .rightParen, none] (Or.inl ⟨closes, rfl⟩)
        · rw [closedMarks]
          exact awaits [some .rightParen] (Or.inl ⟨closes, rfl⟩)
      · rw [Draft.skip_of_kind_ne closes]
        rcases regular.place_cases clean with
          ⟨outcome, placedMarks, placed⟩ | ⟨_, placedMarks, placed⟩
        · have notEnd : (headerElements nested limits.iterations inside).atEnd = false := by
            by_contra isEnd
            rw [regular.atEnd (by simpa using isEnd)] at outcome
            cases outcome
          apply EndsAs.of_clean placed
          rw [placedMarks]
          exact awaits [none] (Or.inr ⟨closes, Or.inr ⟨notEnd, rfl⟩⟩)
        · apply EndsAs.of_waiting placed
          rw [placedMarks]
          exact awaits [] (Or.inr ⟨closes, Or.inl rfl⟩)

end Endings

end TemplateFrontend.Grammar
