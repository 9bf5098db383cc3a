import TemplateFrontend.Proofs.Grammar.Answers
import TemplateFrontend.Proofs.Grammar.Recognition.Expressions

/-!
Contract: lists recover from noise.

Owns:
- `Listing.Items`, the kinds of a list that ends with its closing token or in front of a
  token that neither separates nor closes;
- `Listing.Visits`, the drafts on which a list tries its element, one after the other;
- `lists_recover`, which says that a list tries its element once at the start of each
  item, and places nothing behind its end.
-/

namespace TemplateFrontend

theorem Draft.Onward.pending_suffix {draft after : Draft} (onward : draft.Onward after) :
    after.pending <:+ draft.pending :=
  (onward.rest_suffix.filter _).map _

namespace Grammar

open List (Forall₂)

/-! ## Items -/

/-- An item of a list in front of `rest`: kinds that the element reads up to there, or one
kind before which it waits. -/
inductive Listing.IsItem (listing : Listing) (element : ElementRule) (rest : List Kind) :
    List Kind → Prop
  | whole {kind : Kind} {later : List Kind} (notClosing : kind ≠ listing.closing)
      (notEnd : kind ≠ .endOfInput)
      (reads : ∀ draft : Draft, draft.pending = kind :: (later ++ rest) →
        (element draft).2.pending = rest) :
      listing.IsItem element rest (kind :: later)
  | noise {kind : Kind} (notClosing : kind ≠ listing.closing) (notEnd : kind ≠ .endOfInput)
      (waits : ∀ draft : Draft, draft.pending = kind :: rest →
        (element draft).2.pending = kind :: rest) :
      listing.IsItem element rest [kind]

/-- The kinds of a list behind its opening token, and what is left at the start of each
item. The list leaves the kinds `left`: it ends with its closing token, which may follow a
separator, or behind an item that no separator and no closing token follows. -/
inductive Listing.Items (listing : Listing) (element : ElementRule) (left : List Kind) :
    List (List Kind) → List Kind → Prop
  | closed : listing.Items element left [] (listing.closing :: left)
  | last {item : List Kind} (isItem : listing.IsItem element (listing.closing :: left) item) :
      listing.Items element left [item ++ listing.closing :: left]
        (item ++ listing.closing :: left)
  | stopped {item : List Kind} (isItem : listing.IsItem element left item)
      (stops : ∀ kind, left.head? = some kind →
        listing.separators.contains kind = false ∧ kind ≠ listing.closing) :
      listing.Items element left [item ++ left] (item ++ left)
  | next {item later : List Kind} {separator : Kind} {starts : List (List Kind)}
      (separates : listing.separators.contains separator = true)
      (isItem : listing.IsItem element (separator :: later) item)
      (items : listing.Items element left starts later) :
      listing.Items element left ((item ++ separator :: later) :: starts)
        (item ++ separator :: later)

theorem Listing.IsItem.first {listing : Listing} {element : ElementRule} {rest item : List Kind}
    (isItem : listing.IsItem element rest item) :
    ∃ kind later, item = kind :: later ∧ kind ≠ listing.closing ∧ kind ≠ .endOfInput := by
  cases isItem with
  | whole notClosing notEnd reads => exact ⟨_, _, rfl, notClosing, notEnd⟩
  | noise notClosing notEnd waits => exact ⟨_, _, rfl, notClosing, notEnd⟩

/-! ## Visits -/

/-- What a list makes of a draft on which it tries its element: what the element makes of
it, or, where the element has waited, the draft with the token ahead as a leaf. -/
inductive Tried (element : ElementRule) (draft : Draft) : Draft → Prop
  | item (moved : (element draft).2.pending ≠ draft.pending) :
      Tried element draft (element draft).2
  | noise {token : Token} {later : List Token} (waited : (element draft).2.pending = draft.pending)
      (notEnd : draft.atEnd = false) (next : draft.NextIs token later) :
      Tried element draft
        { draft with
          rest := later
          placed := .leaf token :: (Draft.leaves draft.leading ++ draft.placed) }

/-- The drafts on which a list tries its element, and the draft that it leaves. -/
inductive Listing.Visits (listing : Listing) (element : ElementRule) :
    Draft → List Draft → Draft → Prop
  | closed {draft : Draft} (isClosing : draft.kind = listing.closing) :
      listing.Visits element draft [] draft.advance
  | last {draft between : Draft} (tried : Tried element draft between)
      (isClosing : between.kind = listing.closing) :
      listing.Visits element draft [draft] between.advance
  | stopped {draft between : Draft} (tried : Tried element draft between)
      (notSeparator : listing.separators.contains between.kind = false)
      (notClosing : between.kind ≠ listing.closing) :
      listing.Visits element draft [draft] between
  | next {draft between after : Draft} {visited : List Draft} (tried : Tried element draft between)
      (separates : listing.separators.contains between.kind = true)
      (visits : listing.Visits element between.advance visited after) :
      listing.Visits element draft (draft :: visited) after

/-- A list that has tried its element at the start of an item is at the end of the item. -/
theorem Listing.IsItem.pending_tried {listing : Listing} {element : ElementRule}
    {rest item : List Kind} (isItem : listing.IsItem element rest item) {draft between : Draft}
    (pendingEq : draft.pending = item ++ rest) (tried : Tried element draft between) :
    between.pending = rest := by
  cases isItem with
  | whole notClosing notEnd reads =>
      have readEq := reads draft pendingEq
      cases tried with
      | item moved => exact readEq
      | noise waited notEnd next =>
          rw [readEq, pendingEq] at waited
          have lengthEq := congrArg List.length waited
          rw [List.length_append, List.length_cons] at lengthEq
          omega
  | noise notClosing notEnd waits =>
      cases tried with
      | item moved => exact absurd ((waits draft pendingEq).trans pendingEq.symm) moved
      | noise waited _ next =>
          rw [← next.advance_eq]
          exact (Reads.advance pendingEq).pending_eq

/-! ## Elements that wait -/

/-- Where a significant token is left, a rule has waited if and only if it has left the
same kinds. -/
theorem Proceeds.pending_eq_iff {draft : Draft} {answer : Bool × Draft}
    (proceeds : Proceeds draft answer) (notEnd : draft.atEnd = false) :
    answer.2.pending = draft.pending ↔ answer.1 = false := by
  rcases answer with ⟨_ | _, after⟩
  · have sameRest : after.settle.rest = draft.settle.rest := proceeds.waits rfl
    have same : after.pending = draft.pending := by
      rw [← after.pending_settle, ← draft.pending_settle, Draft.pending, Draft.pending, sameRest]
    simp [same]
  · obtain ⟨token, later, next⟩ := Draft.exists_nextIs notEnd
    have onward := proceeds.moves rfl notEnd
    have shorter := onward.pending_suffix.length_le
    rw [(Reads.advance next.pending_eq).pending_eq] at shorter
    have lengthEq := congrArg List.length next.pending_eq
    rw [List.length_cons] at lengthEq
    simp only [reduceCtorEq, iff_false]
    intro same
    have sameLength := congrArg List.length same
    dsimp only at shorter sameLength
    omega

/-- An element that waits places no more than trivia. -/
theorem Listing.rule_waits {listing : Listing} {limits : Limits} {levels : Nat} {draft : Draft}
    (waited : (listing.rule limits levels draft).1 = false) :
    (listing.rule limits levels draft).2 = draft ∨
      (listing.rule limits levels draft).2 = draft.settle := by
  have missed : ∀ outcome : Outcome, (outcome != .nothing) = false → outcome = .nothing := by
    simp
  cases listing
  case entries =>
    unfold rule entryElement at waited ⊢
    dsimp only at waited ⊢
    split at waited
    · cases waited
    · exact statement_waits (missed _ waited)
  all_goals exact statement_waits (missed _ waited)

theorem ElementRule.placeOrAdvance_of_found {element : ElementRule} {draft : Draft}
    (found : (element draft).1 = true) : element.placeOrAdvance draft = (element draft).2 := by
  unfold placeOrAdvance
  generalize element draft = answer at found
  obtain ⟨_, after⟩ := answer
  cases found
  rfl

theorem ElementRule.placeOrAdvance_of_waited {element : ElementRule} {draft : Draft}
    (waited : (element draft).1 = false) :
    element.placeOrAdvance draft = (element draft).2.advance := by
  unfold placeOrAdvance
  generalize element draft = answer at waited
  obtain ⟨_, after⟩ := answer
  cases waited
  rfl

section Lists

variable {listing : Listing} {limits : Limits} {levels : Nat} {draft : Draft}

theorem tried_placeOrAdvance (listing : Listing) (limits : Limits) (levels : Nat)
    (notEnd : draft.atEnd = false) :
    Tried (listing.rule limits levels) draft
      ((listing.rule limits levels).placeOrAdvance draft) := by
  have same := (listing.rule_proceeds limits levels draft).pending_eq_iff notEnd
  cases answer : (listing.rule limits levels draft).1 with
  | false =>
      have advanceEq : (listing.rule limits levels draft).2.advance = draft.advance := by
        rcases Listing.rule_waits answer with afterEq | afterEq
        · rw [afterEq]
        · rw [afterEq, Draft.advance_settle notEnd]
      obtain ⟨token, later, next⟩ := Draft.exists_nextIs notEnd
      rw [ElementRule.placeOrAdvance_of_waited answer, advanceEq, next.advance_eq]
      exact .noise (same.mpr answer) notEnd next
  | true =>
      rw [ElementRule.placeOrAdvance_of_found answer]
      apply Tried.item
      rw [Ne, same, answer]
      decide

/-! ## Loops -/

/-- The start of an item is one turn of a list, which comes to the end of the item. -/
theorem Listing.IsItem.turn {item rest : List Kind}
    (isItem : listing.IsItem (listing.rule limits levels) rest item)
    (pendingEq : draft.pending = item ++ rest) :
    ∃ between, (listing.rule limits levels).placeOrAdvance draft = between ∧
      (draft.kind != listing.closing && !draft.atEnd) = true ∧
      Tried (listing.rule limits levels) draft between ∧ between.pending = rest := by
  obtain ⟨kind, later, rfl, notClosing, notEnd⟩ := isItem.first
  have kindEq := Draft.kind_of_pending pendingEq
  have atEndEq := Draft.atEnd_eq_false_of_kind kindEq notEnd
  have tried := tried_placeOrAdvance listing limits levels atEndEq
  exact ⟨_, rfl, by simp [kindEq, notClosing, atEndEq], tried, isItem.pending_tried pendingEq tried⟩

/-- A list that begins with an item ends behind it, or goes on behind a separator. -/
theorem Listing.loop_eq {between : Draft}
    (placedEq : (listing.rule limits levels).placeOrAdvance draft = between)
    (wanted : (draft.kind != listing.closing && !draft.atEnd) = true) (turns : Nat) :
    listing.loop limits levels (turns + 1) draft =
      if listing.separators.contains between.kind then
        listing.loop limits levels turns between.advance
      else
        between := by
  split
  · next separates =>
      have taken : between.takeIn? listing.separators = some between.advance :=
        Draft.takeIn?_eq_some_iff.mpr ⟨separates, rfl⟩
      exact repeatWhile_of_again (by exact wanted) (by rw [separatedTurn, placedEq, taken]) turns
  · next stops =>
      have notTaken : between.takeIn? listing.separators = none :=
        Draft.takeIn?_eq_none_iff.mpr (Bool.eq_false_iff.mpr stops)
      exact repeatWhile_of_done (by exact wanted) (by rw [separatedTurn, placedEq, notTaken]) turns

/-- Within its turns a list visits the start of every item. -/
theorem Listing.Items.visits {left kinds : List Kind} {starts : List (List Kind)}
    (items : listing.Items (listing.rule limits levels) left starts kinds) {turns : Nat}
    (few : starts.length ≤ turns) (pendingEq : draft.pending = kinds) :
    ∃ visited, visited.map Draft.pending = starts ∧
      listing.Visits (listing.rule limits levels) draft visited
        ((listing.loop limits levels turns draft).skip listing.closing) ∧
      ((listing.loop limits levels turns draft).skip listing.closing).pending = left := by
  -- On the items, which are the turns of the loop.
  induction items generalizing turns draft with
  | closed =>
      have kindEq := Draft.kind_of_pending pendingEq
      have loopEq : listing.loop limits levels turns draft = draft :=
        repeatWhile_of_unwanted (by simp [kindEq]) turns
      rw [loopEq, Draft.skip_of_kind kindEq]
      exact ⟨[], rfl, .closed kindEq, (Reads.advance pendingEq).pending_eq⟩
  | last isItem =>
      obtain ⟨more, rfl⟩ := Nat.exists_eq_add_of_le' few
      obtain ⟨between, placedEq, wanted, tried, leftEq⟩ := isItem.turn pendingEq
      have kindEq := Draft.kind_of_pending leftEq
      have notSeparator : ¬ listing.separators.contains between.kind = true := by
        rw [kindEq, listing.closing_facts.1]
        decide
      rw [List.length_singleton, loop_eq placedEq wanted, if_neg notSeparator,
        Draft.skip_of_kind kindEq]
      exact ⟨[draft], by simp [pendingEq], .last tried kindEq, (Reads.advance leftEq).pending_eq⟩
  | stopped isItem stops =>
      obtain ⟨more, rfl⟩ := Nat.exists_eq_add_of_le' few
      obtain ⟨between, placedEq, wanted, tried, leftEq⟩ := isItem.turn pendingEq
      have ends : listing.separators.contains between.kind = false ∧
          between.kind ≠ listing.closing := by
        rw [between.kind_eq_head?, leftEq]
        cases head : left.head? with
        | none => cases listing <;> decide
        | some kind => exact stops kind head
      rw [List.length_singleton, loop_eq placedEq wanted, if_neg (by simp [ends.1]),
        Draft.skip_of_kind_ne ends.2]
      exact ⟨[draft], by simp [pendingEq], .stopped tried ends.1 ends.2, leftEq⟩
  | next separates isItem items inductionHypothesis =>
      obtain ⟨more, rfl⟩ := Nat.exists_eq_add_of_le' few
      obtain ⟨between, placedEq, wanted, tried, betweenEq⟩ := isItem.turn pendingEq
      have isSeparator : listing.separators.contains between.kind = true := by
        rwa [Draft.kind_of_pending betweenEq]
      rw [List.length_cons, ← Nat.add_assoc, loop_eq placedEq wanted, if_pos isSeparator]
      obtain ⟨visited, startsEq, visits, leftEq⟩ :=
        inductionHypothesis (Nat.le_add_left _ _) (Reads.advance betweenEq).pending_eq
      exact ⟨draft :: visited, by simp [pendingEq, startsEq], .next tried isSeparator visits,
        leftEq⟩

/-! ## Met ceilings -/

/-- Between two tries a list meets no ceiling. -/
theorem Tried.trips {between : Draft} (tried : Tried (listing.rule limits levels) draft between) :
    between.trips = (listing.rule limits levels draft).2.trips := by
  cases tried with
  | item moved => rfl
  | noise waited notEnd next =>
      have missed := ((listing.rule_proceeds limits levels draft).pending_eq_iff notEnd).mp waited
      rcases Listing.rule_waits missed with afterEq | afterEq <;> rw [afterEq]
      rfl

/-- What the element has met of ceilings is all that a list meets within its turns. -/
theorem Listing.Visits.trips {visited : List Draft} {after : Draft}
    (visits : listing.Visits (listing.rule limits levels) draft visited after) :
    ∃ met : List (List Trip),
      Forall₂ (fun start trips => (listing.rule limits levels start).2.trips = trips ++ start.trips)
        visited met ∧
      after.trips = met.reverse.flatten ++ draft.trips := by
  have tries : ∀ {start between : Draft}, Tried (listing.rule limits levels) start between →
      ∃ trips, (listing.rule limits levels start).2.trips = trips ++ start.trips ∧
        between.trips = trips ++ start.trips := by
    intro start between tried
    obtain ⟨parts, added⟩ := grows_of_path (origin_lasting limits)
      (listing.path_rule limits levels (statement_grows limits levels) start)
    obtain ⟨trips, tripsEq⟩ := added.trips_suffix
    exact ⟨trips, tripsEq.symm, tried.trips.trans tripsEq.symm⟩
  induction visits with
  | closed isClosing => exact ⟨[], .nil, Draft.trips_advance _⟩
  | last tried isClosing =>
      obtain ⟨trips, metEq, betweenEq⟩ := tries tried
      exact ⟨[trips], .cons metEq .nil, by simp [betweenEq]⟩
  | stopped tried notSeparator notClosing =>
      obtain ⟨trips, metEq, betweenEq⟩ := tries tried
      exact ⟨[trips], .cons metEq .nil, by simp [betweenEq]⟩
  | next tried separates visits inductionHypothesis =>
      obtain ⟨trips, metEq, betweenEq⟩ := tries tried
      obtain ⟨met, metsEq, afterEq⟩ := inductionHypothesis
      exact ⟨trips :: met, .cons metEq metsEq, by simp [afterEq, betweenEq]⟩

end Lists

/-! ## Constructs with lists -/

/-- The rule of a construct runs to `after` when its list begins on `inside`, behind its
opening token. -/
inductive Listing.Runs (limits : Limits) (nested : StatementRule) (inside : Draft) :
    Listing → Draft → Prop
  | arguments {draft : Draft}
      (opened : (propertyChain limits draft.advance).take? .leftParen = some inside) :
      Runs limits nested inside .arguments (atomPrimary limits nested draft)
  | entries {draft : Draft} (opened : draft.take? .leftBracket = some inside) :
      Runs limits nested inside .entries (listLiteral limits nested draft)
  | array {draft : Draft} (opened : draft.take? .leftBrace = some inside) :
      Runs limits nested inside .array (arrayLiteral limits nested draft)
  | header {draft : Draft} (opened : draft.take? .leftParen = some inside) :
      Runs limits nested inside .header (loopHeader limits nested draft)

theorem Listing.Runs.eq_skip {listing : Listing} {limits : Limits} {levels : Nat}
    {inside after : Draft}
    (runs : Runs limits (statement limits levels) inside listing after) :
    after = (listing.loop limits levels limits.iterations inside).skip listing.closing := by
  cases runs with
  | arguments opened =>
      rw [atomPrimary, opened]
      rfl
  | entries opened =>
      obtain ⟨_, rfl⟩ := Draft.take?_eq_some_iff.mp opened
      rfl
  | array opened =>
      obtain ⟨_, rfl⟩ := Draft.take?_eq_some_iff.mp opened
      rfl
  | header opened =>
      rw [loopHeader, opened]
      rfl

/-! ## Which kinds are items -/

section Items

variable {listing : Listing} {limits : Limits} {levels : Nat}

/-- A well-formed element is an item in front of what may follow it. -/
theorem Listing.isItem_of_recognized {parts : List Shape}
    (recognized : Recognized limits (.element listing levels) parts) {rest : List Kind}
    (stops : listing.StopsElement rest) :
    listing.IsItem (listing.rule limits levels) rest (Shape.spellingAll parts) := by
  obtain ⟨kind, later, spelled, startsKind⟩ := recognized.1
  obtain ⟨notEnd, notParen, notBracket, notBrace, _⟩ := starts_facts startsKind
  have notClosing : kind ≠ listing.closing := by
    cases listing
    · exact notParen
    · exact notBracket
    · exact notBrace
    · exact notParen
  rw [spelled]
  refine .whole notClosing notEnd ?_
  intro draft pendingEq
  obtain ⟨after, answer, reads⟩ := recognized.2 draft rest (by rw [spelled, pendingEq]; rfl) stops
  rw [answer]
  exact reads.pending_eq

/-- A token with which no statement begins is noise, unless it is a colon in front of a
value. -/
theorem Listing.isItem_of_starts_eq_false {kind : Kind} (notClosing : kind ≠ listing.closing)
    (notEnd : kind ≠ .endOfInput) (startsNone : starts kind = false)
    (notColon : listing = .entries → kind ≠ .colon) (rest : List Kind) :
    listing.IsItem (listing.rule limits (levels + 1)) rest [kind] := by
  refine .noise notClosing notEnd ?_
  intro draft pendingEq
  have outcome := statementAt_outcome limits (statement limits levels) draft
  rw [Draft.kind_of_pending pendingEq, startsNone, if_neg Bool.false_ne_true] at outcome
  have missed : (statement limits (levels + 1) draft).2.pending = kind :: rest := by
    have waited : (statement limits (levels + 1) draft).1 = .nothing := outcome
    rcases statement_waits waited with afterEq | afterEq
    · rw [afterEq, pendingEq]
    · rw [afterEq, draft.pending_settle, pendingEq]
  cases listing with
  | entries =>
      have notTaken : (statement limits (levels + 1) draft).2.take? .colon = none := by
        apply Draft.take?_eq_none_of_pending (by decide)
        rw [missed]
        simpa using notColon rfl
      unfold rule entryElement
      dsimp only
      rw [notTaken]
      exact missed
  | arguments => exact missed
  | array => exact missed
  | header => exact missed

end Items

end Grammar

open Grammar

/-- A list whose items fit its turns tries its element once at the start of each of them and
nowhere else, places each token of noise as a leaf, and meets no ceiling but what its
elements meet. It goes up to its closing token, and takes it; where an item is followed by
neither a separator nor the closing token, it ends in front of what follows. -/
theorem lists_recover (limits : Limits) (levels : Nat) {listing : Listing} {inside after : Draft}
    (runs : Listing.Runs limits (statement limits levels) inside listing after)
    {left : List Kind} {starts : List (List Kind)}
    (items : listing.Items (listing.rule limits levels) left starts inside.pending)
    (few : starts.length ≤ limits.iterations) :
    after.pending = left ∧
      ∃ visited met, visited.map Draft.pending = starts ∧
        listing.Visits (listing.rule limits levels) inside visited after ∧
        List.Forall₂
          (fun start trips => (listing.rule limits levels start).2.trips = trips ++ start.trips)
          visited met ∧
        after.trips = met.reverse.flatten ++ inside.trips := by
  obtain ⟨visited, startsEq, visits, leftEq⟩ := items.visits few rfl
  rw [← runs.eq_skip] at visits leftEq
  obtain ⟨met, metEq, tripsEq⟩ := visits.trips
  exact ⟨leftEq, visited, met, startsEq, visits, metEq, tripsEq⟩

/-- Arguments with noise between two names and a comma behind the last one. -/
theorem lists_recover_from_semicolon :
    ∃ inside after, Listing.Runs ⟨1, 3, 0, 0, 0⟩ (statement ⟨1, 3, 0, 0, 0⟩ 1) inside .arguments
        after ∧
      Listing.arguments.Items (Listing.arguments.rule ⟨1, 3, 0, 0, 0⟩ 1) [.dot]
        [[.identifier, .comma, .semicolon, .comma, .identifier, .comma, .rightParen, .dot],
          [.semicolon, .comma, .identifier, .comma, .rightParen, .dot],
          [.identifier, .comma, .rightParen, .dot]] inside.pending ∧
      after.pending = [.dot] ∧
      ∃ visited met, visited.map Draft.pending =
          [[.identifier, .comma, .semicolon, .comma, .identifier, .comma, .rightParen, .dot],
            [.semicolon, .comma, .identifier, .comma, .rightParen, .dot],
            [.identifier, .comma, .rightParen, .dot]] ∧
        Listing.arguments.Visits (Listing.arguments.rule ⟨1, 3, 0, 0, 0⟩ 1) inside visited after ∧
        List.Forall₂ (fun start trips =>
          (Listing.arguments.rule ⟨1, 3, 0, 0, 0⟩ 1 start).2.trips = trips ++ start.trips)
          visited met ∧
        after.trips = met.reverse.flatten ++ inside.trips := by
  have name : ∀ rest, Stops rest → Listing.arguments.IsItem
      (Listing.arguments.rule ⟨1, 3, 0, 0, 0⟩ 1) rest [.identifier] := by
    intro rest stops
    exact Listing.isItem_of_recognized (recognized_element (recognized_expression
      (recognized_atom (by decide) recognized_noProperties) recognized_noOperators))
      ⟨stops, fun isEntries => by cases isEntries⟩
  have comma : Listing.arguments.separators.contains .comma = true := by decide
  have noise : ∀ rest, Listing.arguments.IsItem
      (Listing.arguments.rule ⟨1, 3, 0, 0, 0⟩ 1) rest [.semicolon] :=
    Listing.isItem_of_starts_eq_false (by decide) (by decide) rfl (by decide)
  have ending : Listing.arguments.Items (Listing.arguments.rule ⟨1, 3, 0, 0, 0⟩ 1) [.dot] _ _ :=
    .closed
  have items := Listing.Items.next comma (name _ (stops_cons _ rfl))
    (.next comma (noise _) (.next comma (name _ (stops_cons _ rfl)) ending))
  have runs : Listing.Runs ⟨1, 3, 0, 0, 0⟩ (statement ⟨1, 3, 0, 0, 0⟩ 1) _ .arguments _ :=
    .arguments (show (propertyChain ⟨1, 3, 0, 0, 0⟩ (Draft.ofTokens
      [⟨.identifier, ⟨0, 1⟩⟩, ⟨.leftParen, ⟨1, 2⟩⟩, ⟨.identifier, ⟨2, 3⟩⟩, ⟨.comma, ⟨3, 4⟩⟩,
        ⟨.whitespace, ⟨4, 5⟩⟩, ⟨.semicolon, ⟨5, 6⟩⟩, ⟨.comma, ⟨6, 7⟩⟩, ⟨.identifier, ⟨7, 8⟩⟩,
        ⟨.comma, ⟨8, 9⟩⟩, ⟨.rightParen, ⟨9, 10⟩⟩, ⟨.dot, ⟨10, 11⟩⟩] 11).advance).take? .leftParen =
      some _ from rfl)
  exact ⟨_, _, runs, items, lists_recover _ _ runs items (by decide)⟩

end TemplateFrontend
