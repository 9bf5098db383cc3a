import TemplateFrontend.Tree.Dump
import Mathlib.Data.List.TakeWhile
import Mathlib.Data.Nat.Digits.Defs

/-!
Contract: what can be read off one line of a dump.

Owns:
- `Text.append_inj_of_stops`, by which every part of a line is cut off: a part ends at the
  first character that does not belong to it;
- the characters of kinds, numbers and quoted texts, of which none is a line feed;
- `Tree.Row.bare_eq_of_line_eq`: a line tells level, kind, span, and whether it shows a
  node or a token.
-/

namespace TemplateFrontend

/-! ## Parts of a line -/

namespace Text

/-- The text is empty or begins with a character that fails the test. -/
def Stops (test : Char → Bool) (text : Text) : Prop := ∀ char ∈ text.head?, test char = false

theorem stops_cons {test : Char → Bool} {char : Char} {later : Text} (fails : test char = false) :
    Stops test (char :: later) := by
  rintro _ ⟨⟩
  exact fails

theorem takeWhile_append_of_stops {test : Char → Bool} {part rest : Text}
    (passes : ∀ char ∈ part, test char = true) (stops : rest.Stops test) :
    (part ++ rest).takeWhile test = part := by
  rw [List.takeWhile_append_of_pos passes]
  cases rest with
  | nil => simp
  | cons char later =>
      rw [List.takeWhile_cons_of_neg (by simp [stops char rfl]), List.append_nil]

/-- Where both parts of a text end at the first character that fails a test, there is only
one way to cut it. -/
theorem append_inj_of_stops {test : Char → Bool} {left right leftRest rightRest : Text}
    (leftPasses : ∀ char ∈ left, test char = true) (leftStops : leftRest.Stops test)
    (rightPasses : ∀ char ∈ right, test char = true) (rightStops : rightRest.Stops test)
    (same : left ++ leftRest = right ++ rightRest) : left = right ∧ leftRest = rightRest := by
  have sameParts : left = right := by
    rw [← takeWhile_append_of_stops leftPasses leftStops, same,
      takeWhile_append_of_stops rightPasses rightStops]
  subst sameParts
  exact ⟨rfl, List.append_cancel_left same⟩

end Text

/-! ## Kinds -/

namespace Kind

theorem ofName?_name (kind : Kind) : ofName? kind.name = some kind := by
  have listed : ∀ kind ∈ all, ofName? kind.name = some kind := by decide +kernel
  exact listed kind kind.mem_all

theorem name_injective : Function.Injective name := by
  intro left right sameName
  have sameKind := ofName?_name left
  rw [sameName, ofName?_name] at sameKind
  exact (Option.some.inj sameKind).symm

/-- Names are written in capitals and underscores. -/
def isNameChar (char : Char) : Bool := char.isUpper || char == '_'

theorem name_chars (kind : Kind) :
    kind.name.toList ≠ [] ∧ ∀ char ∈ kind.name.toList, isNameChar char = true := by
  have listed : (all.all fun kind => !kind.name.toList.isEmpty &&
      kind.name.toList.all isNameChar) = true := by decide +kernel
  have found := List.all_eq_true.mp listed kind kind.mem_all
  simpa using found

end Kind

/-! ## Numbers -/

theorem toDigits_ten_injective : Function.Injective (Nat.toDigits 10) := by
  intro left right sameDigits
  have sameNumber := congrArg (Nat.ofDigitChars 10 · 0) sameDigits
  simpa only [Nat.ofDigitChars_ten_toDigits] using sameNumber

theorem isDigit_of_mem_toDigits_ten {number : Nat} :
    ∀ char ∈ Nat.toDigits 10 number, char.isDigit = true :=
  fun _ member => Nat.isDigit_of_mem_toDigits (by decide) (by decide) member

/-- A number ends at the first character that is no digit. -/
theorem toDigits_append_inj {number number' : Nat} {rest rest' : Text}
    (stops : rest.Stops Char.isDigit) (stops' : rest'.Stops Char.isDigit)
    (same : Nat.toDigits 10 number ++ rest = Nat.toDigits 10 number' ++ rest') :
    number = number' ∧ rest = rest' := by
  obtain ⟨sameDigits, sameRest⟩ := Text.append_inj_of_stops isDigit_of_mem_toDigits_ten stops
    isDigit_of_mem_toDigits_ten stops' same
  exact ⟨toDigits_ten_injective sameDigits, sameRest⟩

theorem Span.toList_description (span : Span) :
    span.description.toList =
      Nat.toDigits 10 span.start ++ '.' :: '.' :: Nat.toDigits 10 span.stop := by
  simp [description, Nat.repr_eq_ofList_toDigits]

/-! ## Headings -/

namespace Tree

theorem heading_append (kind : Kind) (span : Span) (rest : Text) :
    heading kind span ++ rest = kind.name.toList ++ '@' ::
      (Nat.toDigits 10 span.start ++ '.' :: '.' :: (Nat.toDigits 10 span.stop ++ rest)) := by
  simp [heading, Span.toList_description]

/-- A heading tells kind and span, and it ends where a blank follows or nothing. -/
theorem heading_append_inj {kind kind' : Kind} {span span' : Span} {rest rest' : Text}
    (blank : ∀ char ∈ rest.head?, char = ' ') (blank' : ∀ char ∈ rest'.head?, char = ' ')
    (same : heading kind span ++ rest = heading kind' span' ++ rest') :
    kind = kind' ∧ span = span' ∧ rest = rest' := by
  have stops : rest.Stops Char.isDigit := fun char head => by rw [blank char head]; decide
  have stops' : rest'.Stops Char.isDigit := fun char head => by rw [blank' char head]; decide
  rw [heading_append, heading_append] at same
  obtain ⟨sameName, behindName⟩ := Text.append_inj_of_stops kind.name_chars.2
    (Text.stops_cons (by decide)) kind'.name_chars.2 (Text.stops_cons (by decide)) same
  obtain ⟨sameStart, behindStart⟩ := toDigits_append_inj (Text.stops_cons (by decide))
    (Text.stops_cons (by decide)) (List.cons.inj behindName).2
  obtain ⟨sameStop, sameRest⟩ := toDigits_append_inj stops stops'
    (List.cons.inj (List.cons.inj behindStart).2).2
  have sameKind : kind = kind' := Kind.name_injective (String.toList_injective sameName)
  exact ⟨sameKind, congrArg₂ Span.mk sameStart sameStop, sameRest⟩

/-- What follows the heading on the line of an element: nothing for a node, a blank and
the quoted text for a token. -/
inductive Ends : Tree → Text → Prop
  | node (kind : Kind) (span : Span) (children : List Tree) : Ends (.node kind span children) []
  | token (token : Token) (spelling : Text) :
      Ends (.leaf token) (' ' :: Text.Quoted.encode spelling)

theorem Ends.blank {element : Tree} {rest : Text} (ends : element.Ends rest) :
    ∀ char ∈ rest.head?, char = ' ' := by
  cases ends <;> simp

theorem Ends.eq_nil_iff {element : Tree} {rest : Text} (ends : element.Ends rest) :
    rest = [] ↔ element.isNode = true := by
  cases ends <;> simp [isNode]

theorem exists_ending_of_line {element : Tree} {text shown : Text}
    (shownEq : element.line text = .ok shown) :
    ∃ rest, shown = heading element.kind element.span ++ rest ∧ element.Ends rest := by
  cases element with
  | node kind span children =>
      cases shownEq
      exact ⟨[], (List.append_nil _).symm, .node kind span children⟩
  | leaf token =>
      obtain ⟨spelling, _, rest⟩ := exists_of_bind_eq_ok shownEq
      cases rest
      exact ⟨_, rfl, .token token spelling⟩

/-! ## Rows -/

/-- The element without what is below it. -/
def bare : Tree → Tree
  | .leaf token => .leaf token
  | .node kind span _ => .node kind span []

theorem bare_eq_of_parts {left right : Tree} (sameKind : left.kind = right.kind)
    (sameSpan : left.span = right.span) (sameSort : left.isNode = true ↔ right.isNode = true) :
    left.bare = right.bare := by
  cases left with
  | leaf token =>
      cases right with
      | leaf other =>
          have sameToken : token = other := congrArg₂ Token.mk sameKind sameSpan
          rw [sameToken]
      | node kind span children => simp [isNode] at sameSort
  | node kind span children =>
      cases right with
      | leaf other => simp [isNode] at sameSort
      | node kind' span' children' => exact congrArg₂ (Tree.node · · []) sameKind sameSpan

/-- The row of the element without what is below it. -/
def Row.bare (row : Row) : Row := ⟨row.level, row.element.bare⟩

theorem Row.exists_shown_of_line {row : Row} {text line : Text}
    (lineEq : row.line text = .ok line) :
    ∃ shown, row.element.line text = .ok shown ∧
      line = List.replicate (2 * row.level) ' ' ++ shown := by
  obtain ⟨shown, shownEq, rest⟩ := exists_of_bind_eq_ok lineEq
  cases rest
  exact ⟨shown, shownEq, rfl⟩

theorem stops_heading (kind : Kind) (span : Span) (rest : Text) :
    Text.Stops (· == ' ') (heading kind span ++ rest) := by
  obtain ⟨nonempty, chars⟩ := kind.name_chars
  obtain ⟨first, later, nameEq⟩ := List.exists_cons_of_ne_nil nonempty
  rw [heading_append, nameEq]
  apply Text.stops_cons
  have isName := chars first (by simp [nameEq])
  rw [beq_eq_false_iff_ne]
  rintro rfl
  exact absurd isName (by decide)

/-- A line tells the level of its row, the kind and the span of the element, and whether
that is a node. -/
theorem Row.bare_eq_of_line_eq {left right : Row} {text line : Text}
    (leftLine : left.line text = .ok line) (rightLine : right.line text = .ok line) :
    left.bare = right.bare := by
  obtain ⟨leftShown, leftShownEq, leftEq⟩ := exists_shown_of_line leftLine
  obtain ⟨rightShown, rightShownEq, rightEq⟩ := exists_shown_of_line rightLine
  obtain ⟨leftRest, rfl, leftEnds⟩ := exists_ending_of_line leftShownEq
  obtain ⟨rightRest, rfl, rightEnds⟩ := exists_ending_of_line rightShownEq
  have blanks (level : Nat) : ∀ char ∈ List.replicate (2 * level) ' ', (char == ' ') = true := by
    simp
  obtain ⟨sameMargin, sameShown⟩ := Text.append_inj_of_stops (blanks left.level)
    (stops_heading _ _ _) (blanks right.level) (stops_heading _ _ _) (leftEq.symm.trans rightEq)
  obtain ⟨sameKind, sameSpan, sameRest⟩ := heading_append_inj leftEnds.blank rightEnds.blank
    sameShown
  have sameLevel : left.level = right.level := by
    have sameLength := congrArg List.length sameMargin
    simp only [List.length_replicate] at sameLength
    omega
  have sameSort : left.element.isNode = true ↔ right.element.isNode = true := by
    rw [← leftEnds.eq_nil_iff, ← rightEnds.eq_nil_iff, sameRest]
  exact congrArg₂ Row.mk sameLevel (bare_eq_of_parts sameKind sameSpan sameSort)

end Tree

/-! ## Line feeds -/

theorem lineFeed_notMem_toDigits {base number : Nat} (base_gt : 1 < base) (base_le : base ≤ 16) :
    '\n' ∉ Nat.toDigits base number := by
  have digits : ∀ digit < 16, '\n' ≠ Nat.digitChar digit := by decide
  induction number using Nat.strong_induction_on with
  | _ number inductionHypothesis =>
      rw [Nat.toDigits_eq_if base_gt]
      split
      · next small => simp [digits number (Nat.lt_of_lt_of_le small base_le)]
      · next large =>
          have smaller : number / base < number := Nat.div_lt_self (by omega) base_gt
          have last : number % base < 16 :=
            Nat.lt_of_lt_of_le (Nat.mod_lt number (by omega)) base_le
          simp [inductionHypothesis _ smaller, digits _ last]

namespace Text.Quoted

theorem lineFeed_notMem_encodeChar (char : Char) : '\n' ∉ encodeChar char := by
  unfold encodeChar
  split
  case h_7 notFeed _ =>
    split
    · simp [codePoint, lineFeed_notMem_toDigits]
    · simpa using Ne.symm notFeed
  all_goals decide

/-- A quoted text stays on its line. -/
theorem lineFeed_notMem_encode (text : Text) : '\n' ∉ encode text := by
  simp [encode, lineFeed_notMem_encodeChar]

end Text.Quoted

namespace Tree

theorem lineFeed_notMem_heading (kind : Kind) (span : Span) : '\n' ∉ heading kind span := by
  have notInName : '\n' ∉ kind.name.toList := by
    intro member
    exact absurd (kind.name_chars.2 _ member) (by decide)
  rw [← List.append_nil (heading kind span), heading_append]
  simp [notInName, lineFeed_notMem_toDigits]

theorem Ends.lineFeed_notMem {element : Tree} {rest : Text} (ends : element.Ends rest) :
    '\n' ∉ rest := by
  cases ends with
  | node => simp
  | token token spelling => simp [Text.Quoted.lineFeed_notMem_encode]

/-- A row takes one line. -/
theorem Row.lineFeed_notMem_line {row : Row} {text line : Text}
    (lineEq : row.line text = .ok line) : '\n' ∉ line := by
  obtain ⟨shown, shownEq, rfl⟩ := exists_shown_of_line lineEq
  obtain ⟨rest, rfl, ends⟩ := exists_ending_of_line shownEq
  simp [lineFeed_notMem_heading, ends.lineFeed_notMem]

end Tree

end TemplateFrontend
