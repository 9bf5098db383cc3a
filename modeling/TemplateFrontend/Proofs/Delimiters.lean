import TemplateFrontend.Proofs.Lexeme.Delimited
import TemplateFrontend.Proofs.Restarting

/-!
Contract: strings and comments end where their delimiters say.

Owns:
- `Token.ReadsString`, `Token.ReadsBlockComment` and `Token.ReadsLineComment`, what a
  token is when the text from its start to the end of the window begins with a quote, a
  slash and a star, or two slashes;
- `delimited_tokens`, which says that the tokens of a window are so.
-/

namespace TemplateFrontend

open Lexeme (Inside ClosesBehind isQuote munch runLength)

namespace Token

/-- Behind its quote the token has `body` up to the end of the window. It is a string up
to the quote behind its inside; without one it is an error up to the end. -/
structure ReadsString (token : Token) (text : Text) (stop : Nat) (quote : Char) (body : Text) :
    Prop where
  closed : ∀ inside behind, Inside quote inside → body = inside ++ quote :: behind →
    token.kind = .string ∧ text.slice token.span = .ok (quote :: (inside ++ [quote]))
  unclosed : (∀ inside behind, Inside quote inside → body ≠ inside ++ quote :: behind) →
    token.kind = .error ∧ token.span.stop = stop

/-- Behind the slash and the star the token has `body` up to the end of the window. It is
a comment up to the first star and slash in a row; without them it is an error up to the
end. -/
structure ReadsBlockComment (token : Token) (text : Text) (stop : Nat) (body : Text) : Prop where
  closed : ∀ inside, ClosesBehind inside body →
    token.kind = .blockComment ∧
      text.slice token.span = .ok ('/' :: '*' :: (inside ++ ['*', '/']))
  unclosed : (∀ front back, body ≠ front ++ '*' :: '/' :: back) →
    token.kind = .error ∧ token.span.stop = stop

/-- Behind the two slashes the token has `body` up to the end of the window. It is a
comment up to the first line feed, which does not belong to it, or up to the end. -/
structure ReadsLineComment (token : Token) (text : Text) (stop : Nat) (body : Text) : Prop where
  ended : ∀ line behind, '\n' ∉ line → body = line ++ '\n' :: behind →
    token.kind = .lineComment ∧ text.slice token.span = .ok ('/' :: '/' :: line)
  unended : '\n' ∉ body →
    token.kind = .lineComment ∧ text.slice token.span = .ok ('/' :: '/' :: body) ∧
      token.span.stop = stop

namespace IsLexemeAt

variable {token : Token} {text : Text} {stop : Nat} {body : Text}

theorem readsString {quote : Char} (found : token.IsLexemeAt text stop quote body)
    (quoted : isQuote quote = true) : token.ReadsString text stop quote body := by
  have notBackslash := Lexeme.ne_backslash_of_isQuote quoted
  have munchEq := Lexeme.munch_quote quoted body
  have kindEq := found.kind_eq
  have spelling := found.spelling
  constructor
  case closed =>
    rintro inside behind isInside rfl
    rw [Lexeme.stringEnd?_of_inside isInside notBackslash, Nat.zero_add] at munchEq
    rw [munchEq] at kindEq spelling
    refine ⟨kindEq, spelling.trans ?_⟩
    have atQuote : (inside ++ quote :: behind).take (inside.length + 1) = inside ++ [quote] := by
      rw [List.take_append, List.take_of_length_le (Nat.le_succ _), Nat.add_sub_cancel_left]
      rfl
    rw [atQuote]
  case unclosed =>
    intro noInside
    rw [(Lexeme.stringEnd?_eq_none_iff notBackslash).mpr noInside] at munchEq
    rw [munchEq] at kindEq
    exact ⟨kindEq, found.stop_eq (by rw [munchEq])⟩

theorem readsBlockComment (found : token.IsLexemeAt text stop '/' ('*' :: body)) :
    token.ReadsBlockComment text stop body := by
  have munchEq := Lexeme.munch_slashStar body
  have kindEq := found.kind_eq
  have spelling := found.spelling
  constructor
  case closed =>
    intro inside closes
    rw [Lexeme.commentEnd?_of_closesBehind closes] at munchEq
    rw [munchEq] at kindEq spelling
    refine ⟨kindEq, spelling.trans ?_⟩
    obtain ⟨⟨behind, rfl⟩, _⟩ := closes
    have atSlash : ('*' :: (inside ++ '*' :: '/' :: behind)).take (1 + inside.length + 2) =
        '*' :: (inside ++ ['*', '/']) := by
      rw [Nat.add_assoc, Nat.add_comm, List.take_succ_cons, List.take_append,
        List.take_of_length_le (Nat.le_add_right _ _), Nat.add_sub_cancel_left]
      rfl
    rw [atSlash]
  case unclosed =>
    intro noClose
    rw [Lexeme.commentEnd?_eq_none_iff.mpr noClose] at munchEq
    rw [munchEq] at kindEq
    exact ⟨kindEq, found.stop_eq (by rw [munchEq, List.length_cons])⟩

theorem readsLineComment (found : token.IsLexemeAt text stop '/' ('/' :: body)) :
    token.ReadsLineComment text stop body := by
  have kindEq := found.kind_eq
  have spelling := found.spelling
  have stopEq := found.stop_eq
  rw [Lexeme.munch_slashes] at kindEq spelling stopEq
  rw [List.take_succ_cons, Lexeme.take_runLength] at spelling
  have inLine {line : Text} (noFeed : '\n' ∉ line) : ∀ char ∈ line, (char != '\n') = true :=
    fun char member => bne_iff_ne.mpr fun isFeed => noFeed (isFeed ▸ member)
  constructor
  case ended =>
    rintro line behind noFeed rfl
    rw [List.takeWhile_append_of_pos (inLine noFeed), List.takeWhile_cons_of_neg (by simp),
      List.append_nil] at spelling
    exact ⟨kindEq, spelling⟩
  case unended =>
    intro noFeed
    have whole : body.takeWhile (· != '\n') = body := List.takeWhile_eq_self_iff.mpr (inLine noFeed)
    rw [whole] at spelling
    refine ⟨kindEq, spelling, stopEq ?_⟩
    rw [runLength, whole, List.length_cons]

end IsLexemeAt

end Token

/-- Where a token of a window starts with a quote, a slash and a star, or two slashes,
the delimiters in the window say what it is and where it ends. -/
theorem delimited_tokens (text : Text) (window : Span) (admitted : text.Admits window) :
    ∃ tokens, text.HasTokens window tokens ∧ ∀ token ∈ tokens, ∃ ahead,
      text.slice ⟨token.span.start, window.stop⟩ = .ok ahead ∧
      (∀ quote body, ahead = quote :: body → isQuote quote = true →
        token.ReadsString text window.stop quote body) ∧
      (∀ body, ahead = '/' :: '*' :: body → token.ReadsBlockComment text window.stop body) ∧
      (∀ body, ahead = '/' :: '/' :: body → token.ReadsLineComment text window.stop body) := by
  obtain ⟨tokens, has, each⟩ := admitted.exists_lexemes
  refine ⟨tokens, has, ?_⟩
  intro token member
  obtain ⟨first, rest, found⟩ := each token member
  refine ⟨first :: rest, found.ahead, ?_, ?_, ?_⟩
  · rintro quote body aheadEq quoted
    cases aheadEq
    exact found.readsString quoted
  · rintro body aheadEq
    cases aheadEq
    exact found.readsBlockComment
  · rintro body aheadEq
    cases aheadEq
    exact found.readsLineComment

/-- A string with a hidden quote, a comment that a slash behind its star does not close,
and a string whose last quote is hidden. -/
theorem delimited_tokens_around_hidden_quotes :
    Text.Admits "é'\\''/*/*/'\\'".toList ⟨2, 14⟩ ∧
      ∃ string comment unclosed,
        Text.HasTokens "é'\\''/*/*/'\\'".toList ⟨2, 14⟩ [string, comment, unclosed] ∧
        string.kind = .string ∧
        Text.slice "é'\\''/*/*/'\\'".toList string.span = .ok "'\\''".toList ∧
        comment.kind = .blockComment ∧
        Text.slice "é'\\''/*/*/'\\'".toList comment.span = .ok "/*/*/".toList ∧
        unclosed.kind = .error ∧ unclosed.span.stop = 14 := by
  have admitted : Text.Admits "é'\\''/*/*/'\\'".toList ⟨2, 14⟩ :=
    { ordered := by decide
      start_boundary := ⟨"é".toList, "'\\''/*/*/'\\'".toList, by decide, by decide⟩
      stop_boundary := ⟨"é'\\''/*/*/'\\'".toList, [], by decide, by decide⟩ }
  have tokensEq : tokenize "é'\\''/*/*/'\\'".toList ⟨2, 14⟩ = .ok [⟨.string, ⟨2, 6⟩⟩,
      ⟨.blockComment, ⟨6, 11⟩⟩, ⟨.error, ⟨11, 14⟩⟩] := by cbv
  have aheadString : Text.slice "é'\\''/*/*/'\\'".toList ⟨2, 14⟩ =
      .ok ('\'' :: ("\\'".toList ++ '\'' :: "/*/*/'\\'".toList)) := by cbv
  have aheadComment : Text.slice "é'\\''/*/*/'\\'".toList ⟨6, 14⟩ =
      .ok ('/' :: '*' :: "/*/'\\'".toList) := by cbv
  have aheadUnclosed : Text.slice "é'\\''/*/*/'\\'".toList ⟨11, 14⟩ =
      .ok ('\'' :: "\\'".toList) := by cbv
  obtain ⟨tokens, has, each⟩ := delimited_tokens _ _ admitted
  cases has.tokenized.symm.trans tokensEq
  obtain ⟨_, sliced, first, _, _⟩ := each ⟨.string, ⟨2, 6⟩⟩ (by simp)
  cases sliced.symm.trans aheadString
  obtain ⟨_, sliced, _, second, _⟩ := each ⟨.blockComment, ⟨6, 11⟩⟩ (by simp)
  cases sliced.symm.trans aheadComment
  obtain ⟨_, sliced, third, _, _⟩ := each ⟨.error, ⟨11, 14⟩⟩ (by simp)
  cases sliced.symm.trans aheadUnclosed
  have closes : ClosesBehind ['/'] "/*/'\\'".toList := by
    refine ⟨⟨_, rfl⟩, ?_⟩
    intro front back bodyEq
    cases front with
    | nil => exact absurd (List.cons.inj bodyEq).1 (by decide)
    | cons head front => exact Nat.le_add_left 1 front.length
  have hidden := (Lexeme.stringEnd?_eq_none_iff (by decide)).mp
    (by decide : Lexeme.stringEnd? '\'' 0 "\\'".toList = none)
  have isString := (first _ _ rfl rfl).closed "\\'".toList _ (.escaped .nil) rfl
  have isComment := (second _ rfl).closed ['/'] closes
  have isUnclosed := (third _ _ rfl rfl).unclosed hidden
  exact ⟨admitted, _, _, _, has, isString.1, isString.2, isComment.1, isComment.2,
    isUnclosed.1, isUnclosed.2⟩

end TemplateFrontend
