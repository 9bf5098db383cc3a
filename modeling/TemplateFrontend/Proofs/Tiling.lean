import TemplateFrontend.Proofs.Window
import TemplateFrontend.Scanner

/-!
Contract: the tokens of a window tile it.

Owns:
- `Tiles`, rows of non-empty tokens in which each one starts where the one
  before it ends;
- the kinds that the scanner gives to tokens, which exclude the end of the
  window and the kinds of nodes;
- `tokenize_tiles`: scanning an admitted window succeeds with such a row from
  one end of the window to the other.
-/

namespace TemplateFrontend

/-- From `start` to `stop` without gap or overlap, by tokens that are not
empty. -/
def Tiles : (start : Nat) → List Token → (stop : Nat) → Prop
  | start, [], stop => start = stop
  | start, token :: later, stop =>
      token.span.start = start ∧ start < token.span.stop ∧ Tiles token.span.stop later stop

namespace Tiles

@[simp] theorem nil_iff {start stop : Nat} : Tiles start [] stop ↔ start = stop := Iff.rfl

theorem cons_iff {start stop : Nat} {token : Token} {later : List Token} :
    Tiles start (token :: later) stop ↔
      token.span.start = start ∧ start < token.span.stop ∧ Tiles token.span.stop later stop :=
  Iff.rfl

theorem append_iff {start stop : Nat} {left right : List Token} :
    Tiles start (left ++ right) stop ↔ ∃ seam, Tiles start left seam ∧ Tiles seam right stop := by
  induction left generalizing start with
  | nil => simp
  | cons token later inductionHypothesis =>
      simp only [List.cons_append, cons_iff, inductionHypothesis]
      constructor
      · rintro ⟨startEq, positive, seam, front, back⟩
        exact ⟨seam, ⟨startEq, positive, front⟩, back⟩
      · rintro ⟨seam, ⟨startEq, positive, front⟩, back⟩
        exact ⟨startEq, positive, seam, front, back⟩

theorem start_le_stop {start stop : Nat} {tokens : List Token} (tiled : Tiles start tokens stop) :
    start ≤ stop := by
  induction tokens generalizing start with
  | nil => exact Nat.le_of_eq tiled
  | cons token later inductionHypothesis =>
      have rest := inductionHypothesis tiled.2.2
      have positive := tiled.2.1
      omega

theorem start_lt_stop {start stop : Nat} {tokens : List Token} (tiled : Tiles start tokens stop)
    (nonempty : tokens ≠ []) : start < stop := by
  cases tokens with
  | nil => exact absurd rfl nonempty
  | cons token later => exact Nat.lt_of_lt_of_le tiled.2.1 tiled.2.2.start_le_stop

/-- No token is empty, so there are no more tokens than bytes. -/
theorem length_le {start stop : Nat} {tokens : List Token} (tiled : Tiles start tokens stop) :
    start + tokens.length ≤ stop := by
  induction tokens generalizing start with
  | nil => exact Nat.le_of_eq tiled
  | cons token later inductionHypothesis =>
      have rest := inductionHypothesis tiled.2.2
      have positive := tiled.2.1
      rw [List.length_cons]
      omega

/-- Both ends of a token of a row lie between the ends of the row. -/
theorem bounds {start stop : Nat} {tokens : List Token} (tiled : Tiles start tokens stop)
    {token : Token} (member : token ∈ tokens) :
    start ≤ token.span.start ∧ token.span.start < token.span.stop ∧ token.span.stop ≤ stop := by
  obtain ⟨before, after, rfl⟩ := List.append_of_mem member
  obtain ⟨seam, front, back⟩ := append_iff.mp tiled
  have frontOrder := front.start_le_stop
  have backOrder := back.2.2.start_le_stop
  have startEq := back.1
  have positive := back.2.1
  omega

/-- Of two tokens of a row the earlier one ends before the later one starts. -/
theorem pairwise {start stop : Nat} {tokens : List Token} (tiled : Tiles start tokens stop) :
    tokens.Pairwise (fun earlier later => earlier.span.stop ≤ later.span.start) := by
  induction tokens generalizing start with
  | nil => exact List.Pairwise.nil
  | cons token later inductionHypothesis =>
      refine List.Pairwise.cons ?_ (inductionHypothesis tiled.2.2)
      intro other member
      exact (tiled.2.2.bounds member).1

theorem nodup {start stop : Nat} {tokens : List Token} (tiled : Tiles start tokens stop) :
    tokens.Nodup := by
  refine tiled.pairwise.imp_of_mem ?_
  rintro earlier later member _ behind rfl
  have positive := (tiled.bounds member).2.1
  omega

/-- The tokens from a seam on are those that start there or later. -/
theorem filter_from {start seam stop : Nat} {left right : List Token}
    (front : Tiles start left seam) (back : Tiles seam right stop) :
    (left ++ right).filter (fun token => seam ≤ token.span.start) = right := by
  have leftNone : left.filter (fun token => seam ≤ token.span.start) = [] := by
    apply List.filter_eq_nil_iff.mpr
    intro token member
    have tokenBounds := front.bounds member
    simp only [decide_eq_true_eq]
    omega
  have rightAll : right.filter (fun token => seam ≤ token.span.start) = right := by
    apply List.filter_eq_self.mpr
    intro token member
    simpa using (back.bounds member).1
  rw [List.filter_append, leftNone, rightAll, List.nil_append]

end Tiles

/-! ## The kinds of tokens -/

namespace Lexeme

/-- Token kinds stand before the kind of the end in the declaration order, so
the end and the kinds of nodes are none of them. -/
def IsTokenKind (kind : Kind) : Prop := kind.index < Kind.endOfInput.index

instance (kind : Kind) : Decidable (IsTokenKind kind) :=
  inferInstanceAs (Decidable (_ < _))

theorem ne_endOfInput_of_isTokenKind {kind : Kind} (scanned : IsTokenKind kind) :
    kind ≠ .endOfInput := by
  rintro rfl
  exact Nat.lt_irrefl _ scanned

/-- Most rules give the kind of a token that is not malformed. -/
def IsSoundKind (kind : Kind) : Prop := IsTokenKind kind ∧ kind ≠ .error

instance (kind : Kind) : Decidable (IsSoundKind kind) :=
  inferInstanceAs (Decidable (_ ∧ _))

theorem isTokenKind_blockComment {first : Char} {rest : Text} {munch : Munch}
    (found : blockComment? first rest = some munch) : IsTokenKind munch.kind := by
  unfold blockComment? at found
  split at found
  · split at found <;> cases found
    · exact (by decide : IsTokenKind .blockComment)
    · exact (by decide : IsTokenKind .error)
  · cases found

theorem isTokenKind_string {first : Char} {rest : Text} {munch : Munch}
    (found : string? first rest = some munch) : IsTokenKind munch.kind := by
  unfold string? at found
  split at found
  · split at found <;> cases found
    · exact (by decide : IsTokenKind .string)
    · exact (by decide : IsTokenKind .error)
  · cases found

theorem isSoundKind_doubled {first second : Char} {kind : Kind}
    (found : doubled? first second = some kind) : IsSoundKind kind := by
  unfold doubled? at found
  split at found <;> cases found <;> decide

theorem isSoundKind_single {char : Char} {kind : Kind} (found : single? char = some kind) :
    IsSoundKind kind := by
  unfold single? at found
  split at found <;> cases found <;> decide

theorem isSoundKind_operator {first : Char} {rest : Text} {munch : Munch}
    (found : operator? first rest = some munch) : IsSoundKind munch.kind := by
  unfold operator? at found
  split at found
  · next kind twoCharacters =>
      cases found
      obtain ⟨second, _, doubled⟩ := Option.bind_eq_some_iff.mp twoCharacters
      exact isSoundKind_doubled doubled
  · obtain ⟨kind, single, rfl⟩ := Option.map_eq_some_iff.mp found
    exact isSoundKind_single single

theorem isSoundKind_reserved {word : Text} {kind : Kind}
    (found : Kind.ofReservedWord? word = some kind) : IsSoundKind kind := by
  have listed : ∀ entry ∈ Kind.reservedWords, IsSoundKind entry.2 := by decide
  obtain ⟨front, back, split, _⟩ := List.lookup_eq_some_iff.mp found
  exact listed (word, kind) (by rw [split]; simp)

theorem isSoundKind_word {first : Char} {rest : Text} {munch : Munch}
    (found : word? first rest = some munch) : IsSoundKind munch.kind := by
  unfold word? at found
  split at found
  · cases found
    dsimp only
    cases reserved : Kind.ofReservedWord? (first :: rest.take (runLength isWordPart rest)) with
    | none => decide
    | some kind => exact isSoundKind_reserved reserved
  · cases found

/-- Folding for the longest opener only ever keeps an entry of the table. -/
theorem mem_of_foldl_longerOpener {entries : List (List Char × Kind)}
    {best : Option (List Char × Kind)} {chosen : List Char × Kind}
    (found : entries.foldl Kind.longerOpener best = some chosen) :
    chosen ∈ entries ∨ best = some chosen := by
  induction entries generalizing best with
  | nil => exact Or.inr found
  | cons entry later inductionHypothesis =>
      rcases inductionHypothesis found with member | kept
      · exact Or.inl (List.mem_cons_of_mem entry member)
      · unfold Kind.longerOpener at kept
        split at kept
        · split at kept
          · exact Or.inr kept
          · exact Or.inl (by cases kept; simp)
        · exact Or.inl (by cases kept; simp)

theorem isSoundKind_markup {first : Char} {rest : Text} {munch : Munch}
    (found : markup? first rest = some munch) : IsSoundKind munch.kind := by
  have listed : ∀ entry ∈ Kind.markupOpeners, IsSoundKind entry.2 := by decide
  unfold markup? at found
  split at found
  · split at found
    · next spelling kind longest =>
        cases found
        rcases mem_of_foldl_longerOpener longest with member | impossible
        · exact listed (spelling, kind) (List.mem_of_mem_filter member)
        · cases impossible
    · split at found <;> cases found <;> decide
  · cases found

theorem isTokenKind_of_rule {rule : Char → Text → Option Munch} (listed : rule ∈ rules)
    {first : Char} {rest : Text} {munch : Munch} (found : rule first rest = some munch) :
    IsTokenKind munch.kind := by
  simp only [rules, List.mem_cons, List.not_mem_nil, or_false] at listed
  rcases listed with rfl | rfl | rfl | rfl | rfl | rfl | rfl | rfl
  · unfold blank? at found
    split at found <;> cases found
    exact (by decide : IsTokenKind .whitespace)
  · unfold lineComment? at found
    split at found <;> cases found
    exact (by decide : IsTokenKind .lineComment)
  · exact isTokenKind_blockComment found
  · exact isTokenKind_string found
  · obtain ⟨mantissa, _, rfl⟩ := Option.map_eq_some_iff.mp found
    exact (by decide : IsTokenKind .number)
  · exact (isSoundKind_operator found).1
  · exact (isSoundKind_markup found).1
  · exact (isSoundKind_word found).1

/-- Whatever stands at the front of a text, its lexeme has the kind of a
token. -/
theorem isTokenKind_munch (first : Char) (rest : Text) : IsTokenKind (munch first rest).kind := by
  unfold munch
  cases found : rules.findSome? (fun rule => rule first rest) with
  | none => decide
  | some lexeme =>
      obtain ⟨rule, listed, matched⟩ := List.exists_of_findSome?_eq_some found
      exact isTokenKind_of_rule listed matched

end Lexeme

/-! ## Scanning a window -/

namespace Scanner

theorem next?_cons (first : Char) (rest : Text) (offset : Nat) :
    next? ⟨first :: rest, offset⟩ =
      some (⟨(Lexeme.munch first rest).kind, ⟨offset, offset +
          Text.byteLength (first :: rest.take (Lexeme.munch first rest).extra)⟩⟩,
        ⟨rest.drop (Lexeme.munch first rest).extra, offset +
          Text.byteLength (first :: rest.take (Lexeme.munch first rest).extra)⟩) := rfl

/-- What has been read stands in front of what draining still reads. -/
theorem drain_eq (scanner : Scanner) (read : List Token) :
    scanner.drain read = read.reverse ++ scanner.drain [] := by
  rw [drain, drain]
  split
  · simp
  · next token after step =>
      have shorter := rest_length_lt_of_next? step
      rw [drain_eq after (token :: read), drain_eq after [token]]
      simp
termination_by scanner.rest.length

theorem tokens_of_next?_eq_none {scanner : Scanner} (atEnd : scanner.next? = none) :
    scanner.tokens = [] := by
  unfold tokens drain
  split
  · rfl
  · next token after step => cases atEnd.symm.trans step

theorem tokens_of_next?_eq_some {scanner after : Scanner} {token : Token}
    (step : scanner.next? = some (token, after)) : scanner.tokens = token :: after.tokens := by
  unfold tokens
  rw [drain]
  split
  · next atEnd => cases step.symm.trans atEnd
  · next other afterOther otherStep =>
      cases step.symm.trans otherStep
      rw [drain_eq]
      rfl

/-- One step of the scanner: the token starts where the scanner stands, is not
empty, and ends where the scanner goes on; the end of the window stays. -/
theorem next?_step {scanner after : Scanner} {token : Token}
    (step : scanner.next? = some (token, after)) :
    token.span.start = scanner.offset ∧ scanner.offset < token.span.stop ∧
      token.span.stop = after.offset ∧ after.stop = scanner.stop ∧
      Lexeme.IsTokenKind token.kind := by
  unfold next? at step
  split at step
  · cases step
  · next first rest restEq =>
      cases step
      have positive := first.utf8Size_pos
      have split := congrArg Text.byteLength
        (List.take_append_drop (Lexeme.munch first rest).extra rest)
      rw [Text.byteLength_append] at split
      refine ⟨rfl, ?_, rfl, ?_, Lexeme.isTokenKind_munch first rest⟩
      · simp only [Text.byteLength_cons]
        omega
      · simp only [stop, restEq, Text.byteLength_cons]
        omega

/-- The tokens of a scanner tile what is left of its window. -/
theorem tiles_tokens (scanner : Scanner) : Tiles scanner.offset scanner.tokens scanner.stop := by
  cases step : scanner.next? with
  | none =>
      rw [tokens_of_next?_eq_none step]
      unfold next? at step
      split at step
      · next empty => simp [stop, empty]
      · cases step
  | some result =>
      obtain ⟨token, after⟩ := result
      have shorter := rest_length_lt_of_next? step
      obtain ⟨startEq, positive, stopEq, sameStop, _⟩ := next?_step step
      rw [tokens_of_next?_eq_some step]
      refine ⟨startEq, positive, ?_⟩
      rw [stopEq, ← sameStop]
      exact tiles_tokens after
termination_by scanner.rest.length

theorem isTokenKind_of_mem_tokens (scanner : Scanner) :
    ∀ token ∈ scanner.tokens, Lexeme.IsTokenKind token.kind := by
  cases step : scanner.next? with
  | none =>
      rw [tokens_of_next?_eq_none step]
      simp
  | some result =>
      obtain ⟨token, after⟩ := result
      have shorter := rest_length_lt_of_next? step
      rw [tokens_of_next?_eq_some step]
      intro other member
      rcases List.mem_cons.mp member with rfl | later
      · exact (next?_step step).2.2.2.2
      · exact isTokenKind_of_mem_tokens after other later
termination_by scanner.rest.length

end Scanner

/-- Scanning an admitted window gives a row of tokens that tiles it. -/
theorem tokenize_tiles {text : Text} {window : Span} (admitted : text.Admits window) :
    ∃ tokens, tokenize text window = .ok tokens ∧ Tiles window.start tokens window.stop ∧
      ∀ token ∈ tokens, Lexeme.IsTokenKind token.kind := by
  obtain ⟨before, inside, after, rfl, rfl⟩ := admitted.split
  let scanner : Scanner := ⟨inside, Text.byteLength before⟩
  refine ⟨scanner.tokens, ?_, scanner.tiles_tokens, scanner.isTokenKind_of_mem_tokens⟩
  simp only [tokenize, Scanner.ofWindow, Text.slice_append]
  rfl

theorem tiles_of_tokenize {text : Text} {window : Span} {tokens : List Token}
    (admitted : text.Admits window) (tokenized : tokenize text window = .ok tokens) :
    Tiles window.start tokens window.stop := by
  obtain ⟨_, scanned, tiled, _⟩ := tokenize_tiles admitted
  cases scanned.symm.trans tokenized
  exact tiled

end TemplateFrontend
