import TemplateFrontend.Proofs.Lexeme.Classes
import TemplateFrontend.Proofs.Lexeme.Delimited

/-!
Contract: which lexemes stop before a line feed.

Owns:
- `Avoids`, languages in whose words a character does not occur;
- `extra_le_before_feed`, by which no lexeme goes on behind a line feed that follows it,
  other than blanks and what is not closed;
- `munch_on_line`, by which a lexeme that ends its text stays the same when a line feed
  and more text follow, and `munch_blank` for the line feed itself.
-/

namespace TemplateFrontend.Lexeme

open TokenClass (FirstMunches)
open scoped Computability

/-! ## Words without a character -/

/-- The character occurs in no word of the language. -/
def Avoids (char : Char) (words : Language Char) : Prop := ∀ word ∈ words, char ∉ word

section Avoids

variable {char : Char} {words front back : Language Char} {starts continues : Char → Prop}

theorem avoids_oneOf (different : ¬ starts char) : Avoids char (oneOf starts) := by
  rintro word ⟨other, isOther, rfl⟩ member
  exact different (List.mem_singleton.mp member ▸ isOther)

theorem Avoids.mul (first : Avoids char front) (second : Avoids char back) :
    Avoids char (front * back) := by
  rintro _ ⟨left, leftMember, right, rightMember, rfl⟩ member
  rcases List.mem_append.mp member with inLeft | inRight
  · exact first left leftMember inLeft
  · exact second right rightMember inRight

theorem Avoids.add (first : Avoids char front) (second : Avoids char back) :
    Avoids char (front + back) := by
  rintro word (inFront | inBack)
  · exact first word inFront
  · exact second word inBack

theorem Avoids.optional (avoids : Avoids char words) : Avoids char (optional words) := by
  rintro word (rfl | member)
  · exact List.not_mem_nil
  · exact avoids word member

theorem Avoids.kstar (avoids : Avoids char words) : Avoids char words∗ := by
  intro word member inWord
  obtain ⟨pieces, rfl, each⟩ := Language.mem_kstar.mp member
  obtain ⟨piece, listed, inPiece⟩ := List.mem_flatten.mp inWord
  exact avoids piece (each piece listed) inPiece

theorem avoids_run (notStart : ¬ starts char) (notContinue : ¬ continues char) :
    Avoids char (run starts continues) :=
  (avoids_oneOf notStart).mul (avoids_oneOf notContinue).kstar

end Avoids

theorem avoids_numbers : Avoids '\n' numbers := by
  have digit : Avoids '\n' (oneOf IsDigit) := avoids_oneOf (by decide)
  have someDigits : Avoids '\n' digits := avoids_run (by decide) (by decide)
  have dot : Avoids '\n' point := avoids_oneOf (by decide)
  have mark : Avoids '\n' (oneOf exponentMark) := avoids_oneOf (by decide)
  have signed : Avoids '\n' (oneOf sign) := avoids_oneOf (by decide)
  have letter : Avoids '\n' typeLetter := avoids_oneOf (by decide)
  have parts : Avoids '\n' mantissa :=
    (someDigits.mul (dot.mul digit.kstar).optional).add (dot.mul someDigits)
  have power : Avoids '\n' exponent := (mark.mul signed.optional).mul someDigits
  exact parts.mul (power.optional.mul letter.optional)

/-! ## Classes without line feeds -/

theorem TokenClass.FirstMunches.exists_class {classes : List TokenClass} {ahead spelling : Text}
    {kind : Kind} (munches : FirstMunches classes ahead spelling kind) :
    ∃ tokenClass ∈ classes, tokenClass spelling kind := by
  induction classes with
  | nil => cases munches
  | cons tokenClass later inductionHypothesis =>
      rcases munches with now | ⟨_, behind⟩
      · exact ⟨tokenClass, List.mem_cons_self, now.listed⟩
      · obtain ⟨other, member, listed⟩ := inductionHypothesis behind
        exact ⟨other, List.mem_cons_of_mem tokenClass member, listed⟩

theorem not_mem_tail {char : Char} {spelling : Text} (absent : char ∉ spelling) :
    char ∉ spelling.tail :=
  fun member => absent (List.mem_of_mem_tail member)

/-- Only blanks have a line feed behind their first character. -/
theorem feed_notMem_tail : ∀ tokenClass ∈ tokenClasses.tail, ∀ spelling kind,
    tokenClass spelling kind → '\n' ∉ spelling.tail := by
  have openers : ∀ entry ∈ Kind.markupOpeners, '\n' ∉ entry.1 := by decide
  have operators : ∀ entry ∈ operatorSpellings, '\n' ∉ entry.1 := by decide
  have wordPart : ¬ IsWordPart '\n' := by
    rw [← isWordPart_iff]
    decide
  simp only [tokenClasses, List.tail_cons, List.mem_cons, List.not_mem_nil, or_false]
  rintro tokenClass (rfl | rfl | rfl | rfl | rfl | rfl | rfl) spelling kind listed
  · exact not_mem_tail (avoids_numbers spelling listed.1)
  · exact not_mem_tail (avoids_run (fun isStart => wordPart (Or.inl isStart)) wordPart _ listed.1)
  · exact not_mem_tail (openers _ listed)
  · cases List.mem_singleton.mp listed
    decide
  · cases List.mem_singleton.mp listed
    decide
  · exact not_mem_tail (operators _ listed)
  · obtain ⟨_, _, rfl⟩ := listed.1
    exact List.not_mem_nil

/-! ## Lexemes before a line feed -/

theorem runLength_le_of_stop {belongs : Char → Bool} {char : Char}
    (stops : belongs char = false) (front later : Text) :
    runLength belongs (front ++ char :: later) ≤ front.length := by
  induction front with
  | nil => rw [runLength, List.nil_append, List.takeWhile_cons_of_neg (by simp [stops])]
  | cons head front inductionHypothesis =>
      rw [runLength, List.cons_append, List.takeWhile_cons]
      split
      · exact Nat.succ_le_succ inductionHypothesis
      · exact Nat.zero_le _

theorem length_le_of_not_mem_take {char : Char} {front later : Text} {count : Nat}
    (absent : char ∉ (front ++ char :: later).take count) : count ≤ front.length := by
  by_contra further
  obtain ⟨fewer, rfl⟩ : ∃ fewer, count = front.length + (fewer + 1) :=
    ⟨count - front.length - 1, by omega⟩
  rw [List.take_length_add_append, List.take_succ_cons] at absent
  simp at absent

/-- A string that is closed ends where it is closed, whatever follows. -/
theorem string_extra_le {quote : Char} (quoted : isQuote quote = true) {rest : Text}
    (closed : (munch quote rest).kind ≠ .error) (later : Text) :
    (munch quote (rest ++ later)).extra ≤ rest.length := by
  have notBackslash := ne_backslash_of_isQuote quoted
  rw [munch_quote quoted] at closed ⊢
  cases found : stringEnd? quote 0 rest with
  | none =>
      rw [found] at closed
      exact absurd rfl closed
  | some extra =>
      obtain ⟨inside, behind, isInside, rfl⟩ := exists_inside_of_stringEnd? found
      rw [List.append_assoc, List.cons_append, stringEnd?_of_inside isInside notBackslash]
      simp only [List.length_append, List.length_cons]
      omega

/-- A comment that is closed ends where it is closed, whatever follows. -/
theorem comment_extra_le {body : Text} (closed : (munch '/' ('*' :: body)).kind ≠ .error)
    (later : Text) : (munch '/' ('*' :: (body ++ later))).extra ≤ body.length + 1 := by
  rw [munch_slashStar] at closed ⊢
  cases found : commentEnd? 1 body with
  | none =>
      rw [found] at closed
      exact absurd rfl closed
  | some extra =>
      obtain ⟨inside, ⟨⟨behind, rfl⟩, _⟩, _⟩ := closesBehind_of_commentEnd? found
      rw [List.append_assoc, List.cons_append, List.cons_append]
      cases foundLonger : commentEnd? 1 (inside ++ '*' :: '/' :: (behind ++ later)) with
      | none => exact absurd rfl (commentEnd?_eq_none_iff.mp foundLonger inside _)
      | some stop =>
          obtain ⟨first, ⟨_, isFirst⟩, rfl⟩ := closesBehind_of_commentEnd? foundLonger
          have within := isFirst inside _ rfl
          simp only [List.length_append, List.length_cons]
          omega

/-- What begins as a string or a comment does when a line feed follows, does without. -/
theorem isOpen_of_before_feed {first : Char} {rest more : Text}
    (opens : isOpen (first :: (rest ++ '\n' :: more)) = true) : isOpen (first :: rest) = true := by
  rcases Bool.or_eq_true_iff.mp opens with quoted | comment
  · exact Bool.or_eq_true_iff.mpr (Or.inl quoted)
  · obtain ⟨body, textEq⟩ := eq_of_opensComment comment
    obtain ⟨rfl, restEq⟩ := List.cons.inj textEq
    cases rest with
    | nil => exact absurd (List.cons.inj restEq).1 (by decide)
    | cons second rest =>
        obtain ⟨rfl, _⟩ := List.cons.inj restEq
        rfl

theorem slashes_of_before_feed {first : Char} {rest more : Text}
    (slashes : ['/', '/'] <+: first :: (rest ++ '\n' :: more)) : ['/', '/'] <+: first :: rest := by
  cases rest with
  | nil => simp at slashes
  | cons second rest => simpa using slashes

/-- A lexeme other than a string, a comment or blanks does not go on behind a line feed. -/
theorem plain_extra_le {first : Char} {rest more : Text} (notBlank : isBlank first = false)
    (notOpen : isOpen (first :: (rest ++ '\n' :: more)) = false)
    (notLine : ¬ ['/', '/'] <+: first :: (rest ++ '\n' :: more)) :
    (munch first (rest ++ '\n' :: more)).extra ≤ rest.length := by
  rcases firstMunches_munch notOpen notLine with blank | ⟨_, other⟩
  · obtain ⟨char, later, textEq, isBlankChar, _⟩ := mem_run_iff.mp blank.listed.1
    obtain ⟨rfl, _⟩ := List.cons.inj textEq
    exact absurd ((isBlank_iff first).mpr isBlankChar) (by simp [notBlank])
  · obtain ⟨tokenClass, listed, isListed⟩ := FirstMunches.exists_class other
    exact length_le_of_not_mem_take (feed_notMem_tail tokenClass listed _ _ isListed)

/-- No lexeme goes on behind a line feed, other than blanks and what is not closed before. -/
theorem extra_le_before_feed {first : Char} {rest : Text} (notBlank : isBlank first = false)
    (closed : isOpen (first :: rest) = true → (munch first rest).kind ≠ .error) (more : Text) :
    (munch first (rest ++ '\n' :: more)).extra ≤ rest.length := by
  cases opens : isOpen (first :: rest) with
  | true =>
      have isClosed := closed opens
      rcases Bool.or_eq_true_iff.mp opens with quoted | comment
      · exact string_extra_le quoted isClosed _
      · obtain ⟨body, textEq⟩ := eq_of_opensComment comment
        cases textEq
        exact comment_extra_le isClosed _
  | false =>
      by_cases line : ['/', '/'] <+: first :: rest
      · obtain ⟨body, textEq⟩ := line
        obtain ⟨rfl, rfl⟩ := List.cons.inj textEq
        change (munch '/' ('/' :: (body ++ '\n' :: more))).extra ≤ body.length + 1
        rw [munch_slashes]
        exact Nat.succ_le_succ (runLength_le_of_stop (by decide) body more)
      · refine plain_extra_le notBlank ?_ fun slashes => line (slashes_of_before_feed slashes)
        refine Bool.eq_false_iff.mpr fun opensBefore => ?_
        cases opens.symm.trans (isOpen_of_before_feed opensBefore)

/-- A lexeme that ends its text stays the same at the end of a line. -/
theorem munch_on_line {first : Char} {rest later : Text} (notBlank : isBlank first = false)
    (closed : isOpen (first :: rest) = true → (munch first rest).kind ≠ .error)
    (whole : rest.length ≤ (munch first rest).extra) (ended : ∀ char ∈ later.head?, char = '\n') :
    munch first (rest ++ later) = ⟨(munch first rest).kind, rest.length⟩ := by
  have stays : ∀ more, munch first (rest ++ '\n' :: more) = munch first rest := by
    intro more
    have same := munch_take (extra_le_before_feed notBlank closed more)
    rw [List.take_left] at same
    exact same.symm
  have extraEq : (munch first rest).extra = rest.length := by
    have within := extra_le_before_feed notBlank closed []
    rw [stays] at within
    exact Nat.le_antisymm within whole
  rw [← extraEq]
  cases later with
  | nil => rw [List.append_nil]
  | cons char more =>
      obtain rfl := ended char rfl
      exact stays more

theorem munch_blank {first : Char} (blank : isBlank first = true) (rest : Text) :
    munch first rest = ⟨.whitespace, runLength isBlank rest⟩ := by
  have found : blank? first rest = some ⟨.whitespace, runLength isBlank rest⟩ := if_pos blank
  simp only [munch, rules, List.findSome?_cons, found]
  rfl

end TemplateFrontend.Lexeme
