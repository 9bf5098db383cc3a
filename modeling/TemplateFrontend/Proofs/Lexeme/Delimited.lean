import TemplateFrontend.Proofs.Lexeme.Local

/-!
Contract: where strings and comments end.

Owns:
- `Inside`, what may stand between the quotes of a string;
- when the searches for the end of a string and of a comment succeed, and where;
- `munch_quote`, `munch_slashStar` and `munch_slashes`, the lexemes that strings and
  comments begin.

Nothing here depends on what stands behind the delimiter that ends the lexeme.
-/

namespace TemplateFrontend.Lexeme

/-! ## Strings -/

/-- What may stand inside of a string: characters other than the backslash and the
quote, and backslashes each with any one character after it. -/
inductive Inside (quote : Char) : Text → Prop where
  | nil : Inside quote []
  | plain {char : Char} {later : Text} (notBackslash : char ≠ '\\') (notQuote : char ≠ quote)
      (rest : Inside quote later) : Inside quote (char :: later)
  | escaped {char : Char} {later : Text} (rest : Inside quote later) :
      Inside quote ('\\' :: char :: later)

theorem ne_backslash_of_isQuote {quote : Char} (quoted : isQuote quote = true) : quote ≠ '\\' := by
  rintro rfl
  exact absurd quoted (by decide)

/-- A string ends with the quote behind its inside. -/
theorem stringEnd?_of_inside {quote : Char} {inside : Text} (isInside : Inside quote inside)
    (notBackslash : quote ≠ '\\') (passed : Nat) (behind : Text) :
    stringEnd? quote passed (inside ++ quote :: behind) = some (passed + inside.length + 1) := by
  induction isInside generalizing passed with
  | nil =>
      rw [List.nil_append, stringEnd?, if_pos rfl]
      · rfl
      · exact fun _ _ isBackslash _ => notBackslash isBackslash
  | plain charNotBackslash notQuote _ inductionHypothesis =>
      rw [List.cons_append, stringEnd?, if_neg notQuote, inductionHypothesis, List.length_cons]
      · congr 1
        omega
      · exact fun _ _ isBackslash _ => charNotBackslash isBackslash
  | escaped _ inductionHypothesis =>
      rw [List.cons_append, List.cons_append, stringEnd?, inductionHypothesis, List.length_cons,
        List.length_cons]
      congr 1
      omega

/-- Where a string ends, it has an inside up to there. -/
theorem exists_inside_of_stringEnd? {quote : Char} {body : Text} {passed stop : Nat}
    (found : stringEnd? quote passed body = some stop) :
    ∃ inside behind, Inside quote inside ∧ body = inside ++ quote :: behind := by
  fun_induction stringEnd? quote passed body with
  | case1 passed escaped rest inductionHypothesis =>
      obtain ⟨inside, behind, isInside, restEq⟩ := inductionHypothesis found
      exact ⟨'\\' :: escaped :: inside, behind, .escaped isInside, by rw [restEq]; rfl⟩
  | case2 passed rest other => exact ⟨[], rest, .nil, rfl⟩
  | case3 passed char rest other notQuote inductionHypothesis =>
      obtain ⟨inside, behind, isInside, restEq⟩ := inductionHypothesis found
      refine ⟨char :: inside, behind, .plain ?_ notQuote isInside, by rw [restEq]; rfl⟩
      -- A backslash that hides nothing stands at the end, where no quote is found.
      rintro rfl
      cases rest with
      | nil => cases found
      | cons escaped rest => exact other escaped rest rfl rfl
  | case4 => cases found

theorem stringEnd?_eq_none_iff {quote : Char} (notBackslash : quote ≠ '\\') {passed : Nat}
    {body : Text} :
    stringEnd? quote passed body = none ↔
      ∀ inside behind, Inside quote inside → body ≠ inside ++ quote :: behind := by
  constructor
  · rintro missing inside behind isInside rfl
    rw [stringEnd?_of_inside isInside notBackslash] at missing
    cases missing
  · intro noInside
    cases found : stringEnd? quote passed body with
    | none => rfl
    | some stop =>
        obtain ⟨inside, behind, isInside, bodyEq⟩ := exists_inside_of_stringEnd? found
        exact absurd bodyEq (noInside inside behind isInside)

theorem ne_slash_of_isQuote {quote : Char} (quoted : isQuote quote = true) : quote ≠ '/' := by
  rintro rfl
  exact absurd quoted (by decide)

theorem blank?_eq_none {first : Char} (notBlank : isBlank first = false) (rest : Text) :
    blank? first rest = none :=
  if_neg (by simp [notBlank])

theorem isBlank_eq_false_of_isQuote {quote : Char} (quoted : isQuote quote = true) :
    isBlank quote = false := by
  simp only [isQuote, Bool.or_eq_true, decide_eq_true_eq] at quoted
  rcases quoted with rfl | rfl <;> decide

/-- A quote begins a string, or an error up to the end when the string has none. -/
theorem munch_quote {quote : Char} (quoted : isQuote quote = true) (body : Text) :
    munch quote body =
      match stringEnd? quote 0 body with
      | some extra => ⟨.string, extra⟩
      | none => ⟨.error, body.length⟩ := by
  have noBlank := blank?_eq_none (isBlank_eq_false_of_isQuote quoted) body
  have noLine : lineComment? quote body = none :=
    lineComment?_eq_none fun isSlash => absurd isSlash (ne_slash_of_isQuote quoted)
  have noBlock : blockComment? quote body = none :=
    blockComment?_eq_none fun isSlash => absurd isSlash (ne_slash_of_isQuote quoted)
  simp only [munch, rules, List.findSome?_cons, noBlank, noLine, noBlock, string?, if_pos quoted]
  cases stringEnd? quote 0 body <;> rfl

/-! ## Comments -/

/-- The first star and slash in a row stand behind `inside`. -/
def ClosesBehind (inside body : Text) : Prop :=
  (∃ behind, body = inside ++ '*' :: '/' :: behind) ∧
    ∀ front back, body = front ++ '*' :: '/' :: back → inside.length ≤ front.length

/-- Where a comment ends, the first star and slash in a row stand right before. -/
theorem closesBehind_of_commentEnd? {body : Text} {passed stop : Nat}
    (found : commentEnd? passed body = some stop) :
    ∃ inside, ClosesBehind inside body ∧ stop = passed + inside.length + 2 := by
  fun_induction commentEnd? passed body with
  | case1 passed rest =>
      cases found
      exact ⟨[], ⟨⟨rest, rfl⟩, fun _ _ _ => Nat.zero_le _⟩, rfl⟩
  | case2 passed char rest other inductionHypothesis =>
      obtain ⟨inside, ⟨⟨behind, restEq⟩, isFirst⟩, stopEq⟩ := inductionHypothesis found
      refine ⟨char :: inside, ⟨⟨behind, by rw [restEq]; rfl⟩, ?_⟩, ?_⟩
      · intro front back bodyEq
        cases front with
        | nil =>
            obtain ⟨isStar, restSlash⟩ := List.cons.inj bodyEq
            exact absurd restSlash fun same => other back isStar same
        | cons head front =>
            have laterFirst := isFirst front back (List.cons.inj bodyEq).2
            exact Nat.succ_le_succ laterFirst
      · rw [stopEq, List.length_cons]
        omega
  | case3 => cases found

theorem commentEnd?_eq_none_iff {body : Text} {passed : Nat} :
    commentEnd? passed body = none ↔ ∀ front back, body ≠ front ++ '*' :: '/' :: back := by
  constructor
  · intro missing
    fun_induction commentEnd? passed body with
    | case1 => cases missing
    | case2 passed char rest other inductionHypothesis =>
        intro front back bodyEq
        cases front with
        | nil =>
            obtain ⟨isStar, restSlash⟩ := List.cons.inj bodyEq
            exact other back isStar restSlash
        | cons head front =>
            exact inductionHypothesis missing front back (List.cons.inj bodyEq).2
    | case3 => simp
  · intro noClose
    cases found : commentEnd? passed body with
    | none => rfl
    | some stop =>
        obtain ⟨inside, ⟨⟨behind, bodyEq⟩, _⟩, _⟩ := closesBehind_of_commentEnd? found
        exact absurd bodyEq (noClose inside behind)

/-- A comment ends behind the first star and slash in a row. -/
theorem commentEnd?_of_closesBehind {inside body : Text} (closes : ClosesBehind inside body)
    (passed : Nat) : commentEnd? passed body = some (passed + inside.length + 2) := by
  obtain ⟨⟨behind, bodyEq⟩, isFirst⟩ := closes
  cases found : commentEnd? passed body with
  | none => exact absurd bodyEq (commentEnd?_eq_none_iff.mp found inside behind)
  | some stop =>
      obtain ⟨other, ⟨⟨otherBehind, otherEq⟩, otherFirst⟩, stopEq⟩ :=
        closesBehind_of_commentEnd? found
      have sameLength := Nat.le_antisymm (isFirst other otherBehind otherEq)
        (otherFirst inside behind bodyEq)
      rw [stopEq, sameLength]

/-- A slash and a star begin a block comment, or an error up to the end when nothing
closes the comment. -/
theorem munch_slashStar (body : Text) :
    munch '/' ('*' :: body) =
      match commentEnd? 1 body with
      | some extra => ⟨.blockComment, extra⟩
      | none => ⟨.error, body.length + 1⟩ := by
  have noBlank := blank?_eq_none (by decide : isBlank '/' = false) ('*' :: body)
  have noLine : lineComment? '/' ('*' :: body) = none :=
    lineComment?_eq_none fun _ _ restEq => absurd (List.cons.inj restEq).1 (by decide)
  simp only [munch, rules, List.findSome?_cons, noBlank, noLine, blockComment?]
  cases commentEnd? 1 body <;> rfl

/-- Two slashes begin a line comment. -/
theorem munch_slashes (body : Text) :
    munch '/' ('/' :: body) = ⟨.lineComment, runLength (· != '\n') body + 1⟩ := by
  have noBlank := blank?_eq_none (by decide : isBlank '/' = false) ('/' :: body)
  have runEq : runLength (· != '\n') ('/' :: body) = runLength (· != '\n') body + 1 := by
    rw [runLength, List.takeWhile_cons_of_pos (by decide), List.length_cons, runLength]
  simp only [munch, rules, List.findSome?_cons, noBlank, lineComment?, runEq]
  rfl

end TemplateFrontend.Lexeme
