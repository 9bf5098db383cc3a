import TemplateFrontend.Proofs.Lexeme.Placed

/-!
Contract: which spellings make a malformed token.

Owns:
- `opensString`, `opensComment` and `isOpen`, the spellings that begin as a string or
  a comment does;
- `munch_error`, which says that a malformed lexeme is open and goes on to the end, or
  is a single character;
- `spelling_of_error_token`, the same for the malformed tokens of a window.
-/

namespace TemplateFrontend

namespace Lexeme

def opensString : (spelling : Text) → Bool
  | quote :: _ => isQuote quote
  | [] => false

def opensComment : (spelling : Text) → Bool
  | '/' :: '*' :: _ => true
  | _ => false

/-- The spelling begins as a string or as a block comment does. -/
def isOpen (spelling : Text) : Bool := opensString spelling || opensComment spelling

theorem eq_of_opensComment {spelling : Text} (opens : opensComment spelling = true) :
    ∃ body, spelling = '/' :: '*' :: body := by
  unfold opensComment at opens
  split at opens
  · exact ⟨_, rfl⟩
  · cases opens

theorem opensComment_singleton (char : Char) : opensComment [char] = false := by
  simp [opensComment]

/-! ## Rules -/

theorem error_of_blockComment {first : Char} {rest : Text} {munch : Munch}
    (found : blockComment? first rest = some munch) (isError : munch.kind = .error) :
    opensComment (first :: rest) = true ∧ munch.extra = rest.length := by
  unfold blockComment? at found
  split at found
  · split at found
    · cases found
      cases isError
    · cases found
      exact ⟨rfl, rfl⟩
  · cases found

theorem error_of_string {first : Char} {rest : Text} {munch : Munch}
    (found : string? first rest = some munch) (isError : munch.kind = .error) :
    opensString (first :: rest) = true ∧ munch.extra = rest.length := by
  unfold string? at found
  split at found
  · next quoted =>
      split at found
      · cases found
        cases isError
      · cases found
        exact ⟨quoted, rfl⟩
  · cases found

/-- Only the rules for comments and strings give an error, and they give it where the
end is missing. -/
theorem error_of_rule {rule : Char → Text → Option Munch} (listed : rule ∈ rules)
    {first : Char} {rest : Text} {munch : Munch} (found : rule first rest = some munch)
    (isError : munch.kind = .error) :
    isOpen (first :: rest) = true ∧ munch.extra = rest.length := by
  simp only [rules, List.mem_cons, List.not_mem_nil, or_false] at listed
  rcases listed with rfl | rfl | rfl | rfl | rfl | rfl | rfl | rfl
  · unfold blank? at found
    split at found <;> cases found
    cases isError
  · unfold lineComment? at found
    split at found <;> cases found
    cases isError
  · obtain ⟨opens, whole⟩ := error_of_blockComment found isError
    exact ⟨by rw [isOpen, opens, Bool.or_true], whole⟩
  · obtain ⟨opens, whole⟩ := error_of_string found isError
    exact ⟨by rw [isOpen, opens, Bool.true_or], whole⟩
  · obtain ⟨mantissa, _, rfl⟩ := Option.map_eq_some_iff.mp found
    cases isError
  · exact absurd isError (isSoundKind_operator found).2
  · exact absurd isError (isSoundKind_markup found).2
  · exact absurd isError (isSoundKind_word found).2

/-- A lexeme that is an error is open and goes on to the end, or it is one character
that begins neither a string nor a comment. -/
theorem munch_error {first : Char} {rest : Text} (isError : (munch first rest).kind = .error) :
    isOpen (first :: rest) = true ∧ (munch first rest).extra = rest.length ∨
      isOpen [first] = false ∧ (munch first rest).extra = 0 := by
  cases found : rules.findSome? (fun rule => rule first rest) with
  | some lexeme =>
      left
      obtain ⟨rule, listed, matched⟩ := List.exists_of_findSome?_eq_some found
      rw [munch, found] at isError ⊢
      exact error_of_rule listed matched isError
  | none =>
      right
      have noString : string? first rest = none :=
        List.findSome?_eq_none_iff.mp found string? (by simp [rules])
      have notQuoted : isQuote first = false := by
        unfold string? at noString
        split at noString
        · split at noString <;> cases noString
        · next notQuoted => exact Bool.not_eq_true _ ▸ notQuoted
      constructor
      · rw [isOpen, opensComment_singleton, opensString, notQuoted, Bool.or_false]
      · rw [munch, found]
        rfl

end Lexeme

/-! ## Tokens -/

/-- A malformed token is open and runs to the end of the window, or it is a single
character that begins neither a string nor a comment. -/
theorem spelling_of_error_token {text : Text} {window : Span} {tokens : List Token}
    {token : Token} (admitted : text.Admits window)
    (tokenized : tokenize text window = .ok tokens) (member : token ∈ tokens)
    (isError : token.kind = .error) :
    ∃ spelling, text.slice token.span = .ok spelling ∧
      (Lexeme.isOpen spelling = true ∧ token.span.stop = window.stop ∨
        Lexeme.isOpen spelling = false ∧ ∃ char, spelling = [char]) := by
  obtain ⟨first, rest, found⟩ := exists_lexeme_of_token admitted tokenized member
  refine ⟨_, found.spelling, ?_⟩
  rcases Lexeme.munch_error (found.kind_eq ▸ isError) with ⟨opens, whole⟩ | ⟨notOpen, single⟩
  · left
    rw [List.take_of_length_le (Nat.le_of_eq whole.symm)]
    exact ⟨opens, found.stop_eq (Nat.le_of_eq whole.symm)⟩
  · right
    rw [single, List.take_zero]
    exact ⟨notOpen, first, rfl⟩

end TemplateFrontend
