import TemplateFrontend.Proofs.Grammar.Operands

/-!
Contract: what placing an operand does to the end of a draft.

Owns:
- `Draft.Clean` and `Draft.Waiting`: either nothing trivial was placed last, or
  the place of a statement was offered and nothing took it;
- `Regular`, the few facts about a statement rule on which the ending of a node
  depends, proved of every rule above the depth ceiling;
- how the transitions, operands and optional conditions move between clean and
  waiting drafts, and the marks they leave.

A waiting draft that is not at the end has placed the trivia before the next
significant token. This is how trivia comes to stand last in a node.
-/

namespace TemplateFrontend

namespace Draft

/-- The marks of what has been placed, the last one first. -/
def marks (draft : Draft) : List Mark := Outline.marks draft.placed

/-- What was placed last is not trivia. -/
def Clean (draft : Draft) : Prop :=
  ∀ part, draft.placed.head? = some part → part.isTriviaLeaf = false

theorem clean_cons {draft : Draft} {part : Outline} {earlier : List Outline}
    (placedEq : draft.placed = part :: earlier) (significant : part.isTriviaLeaf = false) :
    draft.Clean := by
  intro last lastEq
  rw [placedEq] at lastEq
  cases lastEq
  exact significant

@[simp] theorem marks_settle (draft : Draft) : draft.settle.marks = draft.marks := by
  rw [settle_eq]
  simp only [marks, Outline.marks_append]
  rw [Outline.marks_leaves_of_trivia fun _ => isTrivia_of_mem_leading, List.nil_append]

@[simp] theorem marks_opened (draft : Draft) : draft.opened.marks = [] := rfl

theorem clean_opened (draft : Draft) : draft.opened.Clean := by
  intro part head
  cases head

theorem NextIs.marks_advance {draft : Draft} {token : Token} {later : List Token}
    (next : draft.NextIs token later) : draft.advance.marks = some token.kind :: draft.marks := by
  rw [next.advance_eq]
  simp only [marks]
  rw [Outline.marks_cons (.leaf token) _ next.significant,
    Outline.marks_append, Outline.marks_leaves_of_trivia fun _ => isTrivia_of_mem_leading]
  rfl

theorem marks_advance {draft : Draft} (notEnd : draft.atEnd = false) :
    draft.advance.marks = some draft.kind :: draft.marks := by
  obtain ⟨token, later, next⟩ := exists_nextIs notEnd
  rw [next.marks_advance, next.kind_eq]

theorem clean_advance {draft : Draft} (notEnd : draft.atEnd = false) : draft.advance.Clean := by
  obtain ⟨token, later, next⟩ := exists_nextIs notEnd
  rw [next.advance_eq]
  exact clean_cons rfl next.significant

/-- Advancing keeps a clean draft clean, also where nothing is left to place. -/
theorem Clean.advance {draft : Draft} (clean : draft.Clean) : draft.advance.Clean := by
  rcases draft.next_cases with empty | ⟨token, later, next⟩
  · rwa [advance_of_settle_rest_nil empty]
  · rw [next.advance_eq]
    exact clean_cons rfl next.significant

theorem advance_marks {draft : Draft} {kind : Kind} (notEnd : kind ≠ .endOfInput)
    (kindEq : draft.kind = kind) :
    draft.advance.marks = some kind :: draft.marks ∧ draft.advance.Clean := by
  have before := atEnd_eq_false_of_kind kindEq notEnd
  exact ⟨by rw [marks_advance before, kindEq], clean_advance before⟩

theorem take?_marks {draft after : Draft} {kind : Kind} (notEnd : kind ≠ .endOfInput)
    (taken : draft.take? kind = some after) :
    after.marks = some kind :: draft.marks ∧ after.Clean := by
  obtain ⟨kindEq, rfl⟩ := take?_eq_some_iff.mp taken
  exact advance_marks notEnd kindEq

/-- A rest that holds a significant token does not count as the end. -/
theorem atEnd_eq_false_of_mem {draft : Draft}
    (significant : ∃ token ∈ draft.rest, token.isTrivia = false)
    (kinds : ∀ token ∈ draft.rest, Lexeme.IsTokenKind token.kind) : draft.atEnd = false := by
  rcases draft.next_cases with empty | ⟨token, later, next⟩
  · obtain ⟨token, member, notTrivia⟩ := significant
    have allTrivia : ∀ other ∈ draft.rest, other.isTrivia = true :=
      List.dropWhile_eq_nil_iff.mp empty
    rw [allTrivia token member] at notTrivia
    cases notTrivia
  · have member : token ∈ draft.rest := by
      rw [next.rest_eq]
      simp
    apply atEnd_eq_false_of_kind next.kind_eq
    exact Lexeme.ne_endOfInput_of_isTokenKind (kinds token member)

/-- A statement was offered its place here: unless the input is at its end, the
trivia has been placed and the rule finds nothing to begin with. -/
structure Waiting (nested : Grammar.StatementRule) (draft : Draft) : Prop where
  settled : draft.atEnd = false → draft.Settled
  misses : draft.atEnd = false → (nested draft).1 = .nothing
  clean : draft.atEnd = true → draft.Clean

end Draft

namespace Grammar

/-! ## Regular statement rules -/

/-- What the ending of a node depends on in the rule for its operands: the rule
misses, with the trivia placed, or it places one node; which of the two is
decided by the next significant token; and it never misses one that opens a
primary. -/
structure Regular (nested : StatementRule) : Prop where
  atEnd : ∀ {draft : Draft}, draft.atEnd = true → nested draft = (.nothing, draft)
  answers : ∀ {draft : Draft}, draft.atEnd = false →
    nested draft = (.nothing, draft.settle) ∨ ∃ result kind parts,
      nested draft = (.node, result) ∧ result.placed = .node kind parts :: draft.settle.placed
  decided : ∀ {left right : Draft}, left.kind = right.kind → (nested left).1 = (nested right).1
  opens : ∀ {draft : Draft}, (nested draft).1 = .nothing → isOpening (some draft.kind) = false

theorem primary?_isSome_congr (limits : Limits) (nested : StatementRule) {left right : Draft}
    (sameKind : left.kind = right.kind) :
    (primary? limits nested left).isSome = (primary? limits nested right).isSome := by
  unfold primary?
  rw [sameKind]
  split
  · rfl
  · split <;> rfl

theorem expression_fst (limits : Limits) (nested : StatementRule) (draft : Draft) :
    (expression limits nested draft).1 =
      if (primary? limits nested draft.opened).isSome then .node else .nothing := by
  unfold expression
  dsimp only
  split
  · next none => simp [none]
  · next first begun => split <;> simp [begun]

/-- Whether a statement begins is decided by the next significant token. -/
theorem statementAt_decided (limits : Limits) (nested : StatementRule) {left right : Draft}
    (sameKind : left.kind = right.kind) :
    (statementAt limits nested left).1 = (statementAt limits nested right).1 := by
  have samePrimary := primary?_isSome_congr limits nested
    (left.kind_opened.trans (sameKind.trans right.kind_opened.symm))
  unfold statementAt
  rw [sameKind]
  split
  all_goals try rfl
  split
  · rfl
  · rw [expression_fst, expression_fst, samePrimary]

theorem isOpening_cases {kind : Kind} (opening : isOpening (some kind) = true) :
    kind = .leftParen ∨ kind = .leftBracket ∨ kind = .leftBrace := by
  unfold isOpening at opening
  split at opening <;> simp_all

theorem statementAt_opens (limits : Limits) (nested : StatementRule) {draft : Draft}
    (missed : (statementAt limits nested draft).1 = .nothing) :
    isOpening (some draft.kind) = false := by
  by_contra opening
  have primaryKind := draft.kind_opened
  have placed : (statementAt limits nested draft).1 = .node := by
    rcases isOpening_cases (by simpa using opening) with kindEq | kindEq | kindEq <;>
      (rw [kindEq] at primaryKind
       have begins : (expression limits nested draft).1 = .node := by
         rw [expression_fst, primary?, primaryKind]
         rfl
       unfold statementAt
       rw [kindEq]
       exact begins)
  rw [placed] at missed
  cases missed

theorem regular_statement (limits : Limits) (levels : Nat) :
    Regular (statement limits (levels + 1)) where
  atEnd := by
    intro draft isEnd
    have kindEq : draft.kind = .endOfInput := by simpa [Draft.atEnd] using isEnd
    simp [statement, statementAt, kindEq]
  answers := by
    intro draft notEnd
    have answer : Answer (fun _ _ => True) draft
        (statementAt limits (statement limits levels) draft) :=
      statementAt_answer limits (fun _ => trivial) draft
    cases answerEq : statement limits (levels + 1) draft with
    | mk outcome result =>
        rw [show statementAt limits (statement limits levels) draft = (outcome, result)
          from answerEq] at answer
        cases answer with
        | atEnd isEnd => rw [notEnd] at isEnd; cases isEnd
        | missed _ => exact Or.inl rfl
        | @node kind inside _ _ _ => exact Or.inr ⟨_, kind, _, rfl, rfl⟩
  decided := statementAt_decided limits _
  opens := statementAt_opens limits _

/-! ## Placing an operand -/

section Operands

variable {nested : StatementRule} (regular : Regular nested)

include regular

/-- A waiting draft stays as it is when an operand is offered its place
again. -/
theorem Regular.of_waiting {draft : Draft} (waiting : draft.Waiting nested) :
    nested draft = (.nothing, draft) := by
  cases isEnd : draft.atEnd with
  | true => exact regular.atEnd isEnd
  | false =>
      have missed := waiting.misses isEnd
      rcases regular.answers isEnd with answer | ⟨result, kind, parts, answer, _⟩
      · rw [answer, Draft.settle_eq_self (waiting.settled isEnd)]
      · rw [answer] at missed
        cases missed

/-- A miss before the end leaves a waiting draft that has placed the trivia. -/
theorem Regular.waiting_settle {draft : Draft} (notEnd : draft.atEnd = false)
    (missed : (nested draft).1 = .nothing) : draft.settle.Waiting nested where
  settled _ := draft.settled_settle
  misses _ := by rwa [regular.decided draft.kind_settle]
  clean isEnd := by
    rw [Draft.atEnd_settle, notEnd] at isEnd
    cases isEnd

/-- In a clean draft an operand takes its place, or the draft waits. -/
theorem Regular.place_cases {draft : Draft} (clean : draft.Clean) :
    ((nested draft).1 = .node ∧ (nested.place draft).marks = none :: draft.marks ∧
      (nested.place draft).Clean) ∨
    ((nested draft).1 = .nothing ∧ (nested.place draft).marks = draft.marks ∧
      (nested.place draft).Waiting nested) := by
  unfold StatementRule.place
  cases isEnd : draft.atEnd with
  | true =>
      rw [regular.atEnd isEnd]
      have impossible : draft.atEnd ≠ false := by simp [isEnd]
      exact Or.inr ⟨rfl, rfl, fun notEnd => absurd notEnd impossible,
        fun notEnd => absurd notEnd impossible, fun _ => clean⟩
  | false =>
      rcases regular.answers isEnd with answer | ⟨result, kind, parts, answer, placedEq⟩
      · rw [answer]
        exact Or.inr ⟨rfl, draft.marks_settle,
          regular.waiting_settle isEnd (by rw [answer])⟩
      · rw [answer]
        left
        refine ⟨rfl, ?_, Draft.clean_cons placedEq rfl⟩
        rw [Draft.marks, placedEq, Outline.marks_cons (.node kind parts) _ rfl]
        exact congrArg (none :: ·) draft.marks_settle

/-- The marks of an optional condition, from the front. -/
def conditionMarks : List (List Mark) :=
  [[], [some .leftParen, none], [some .leftParen, some .rightParen],
    [some .leftParen, none, some .rightParen]]

/-- An optional condition is placed as far as it goes; only a parenthesis with
nothing after it leaves the draft waiting. -/
theorem Regular.condition_cases {draft : Draft} (clean : draft.Clean) :
    ∃ added, (condition nested draft).marks = added.reverse ++ draft.marks ∧
      (added ∈ conditionMarks ∧ (condition nested draft).Clean ∨
        added = [some .leftParen] ∧ (condition nested draft).Waiting nested) := by
  unfold condition
  split
  · next inside taken =>
      obtain ⟨insideMarks, insideClean⟩ := Draft.take?_marks (by decide) taken
      by_cases closes : (nested.place inside).kind = .rightParen
      · obtain ⟨closedMarks, closedClean⟩ := Draft.advance_marks (by decide) closes
        rw [Draft.skip_of_kind closes, closedMarks]
        rcases regular.place_cases insideClean with ⟨_, marksEq, _⟩ | ⟨_, marksEq, _⟩
        · exact ⟨[some .leftParen, none, some .rightParen], by rw [marksEq, insideMarks]; rfl,
            Or.inl ⟨by decide, closedClean⟩⟩
        · exact ⟨[some .leftParen, some .rightParen], by rw [marksEq, insideMarks]; rfl,
            Or.inl ⟨by decide, closedClean⟩⟩
      · rw [Draft.skip_of_kind_ne closes]
        rcases regular.place_cases insideClean with ⟨_, marksEq, placed⟩ | ⟨_, marksEq, placed⟩
        · exact ⟨[some .leftParen, none], by rw [marksEq, insideMarks]; rfl,
            Or.inl ⟨by decide, placed⟩⟩
        · exact ⟨[some .leftParen], by rw [marksEq, insideMarks]; rfl, Or.inr ⟨rfl, placed⟩⟩
  · exact ⟨[], rfl, Or.inl ⟨by decide, clean⟩⟩

def filledMarks : List (List Mark) :=
  [[none], [some .leftParen, none, none], [some .leftParen, some .rightParen, none],
    [some .leftParen, none, some .rightParen, none]]

/-- The marks of an optional condition without an operand after it. -/
def unfilledMarks : List (List Mark) := [some .leftParen] :: conditionMarks

theorem Regular.place_condition_cases {draft : Draft} (clean : draft.Clean) :
    ∃ added, (nested.place (condition nested draft)).marks = added.reverse ++ draft.marks ∧
      (added ∈ filledMarks ∧ (nested.place (condition nested draft)).Clean ∨
        added ∈ unfilledMarks ∧ (nested.place (condition nested draft)).Waiting nested) := by
  obtain ⟨added, marksEq, ⟨member, conditionClean⟩ | ⟨rfl, waiting⟩⟩ :=
    regular.condition_cases clean
  · rcases regular.place_cases conditionClean with
      ⟨_, placedMarks, placed⟩ | ⟨_, placedMarks, placed⟩
    · have filled : ∀ marks ∈ conditionMarks, marks ++ [none] ∈ filledMarks := by decide
      exact ⟨added ++ [none], by rw [placedMarks, marksEq]; simp,
        Or.inl ⟨filled added member, placed⟩⟩
    · exact ⟨added, by rw [placedMarks, marksEq],
        Or.inr ⟨List.mem_cons_of_mem _ member, placed⟩⟩
  · have unchanged : nested.place (condition nested draft) = condition nested draft := by
      rw [StatementRule.place, regular.of_waiting waiting]
    rw [unchanged]
    exact ⟨[some .leftParen], marksEq, Or.inr ⟨List.mem_cons_self .., waiting⟩⟩

end Operands

end Grammar

end TemplateFrontend
