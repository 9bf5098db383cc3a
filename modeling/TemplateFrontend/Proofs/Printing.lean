import TemplateFrontend.Proofs.Lexeme.Feeds
import TemplateFrontend.Proofs.Restarting

/-!
Contract: lexemes that are written one on a line are read back.

Owns:
- `Text.HasLexemes`, the kinds and spellings of the tokens of a text;
- `Scanner.Spells`, the same for what a scanner still has before it;
- `printed_tokens`, which joins texts of one token each by line feeds and finds the
  tokens again, with blanks between them.
-/

namespace TemplateFrontend

open Lexeme (isBlank isOpen munch)

/-- The token has the kind, and the text has the spelling in its place. -/
structure Token.Spells (text : Text) (token : Token) (lexeme : Kind × Text) : Prop where
  kind_eq : token.kind = lexeme.1
  spelling : text.slice token.span = .ok lexeme.2

/-- The tokens of the text have these kinds and spellings. -/
def Text.HasLexemes (text : Text) (lexemes : List (Kind × Text)) : Prop :=
  ∃ tokens, text.HasTokens text.whole tokens ∧ List.Forall₂ (Token.Spells text) tokens lexemes

/-- On its own the text is one token, which is no blank, and no string or comment that is
left open. -/
def Text.IsOneToken (piece : Text) : Prop :=
  ∃ token, tokenize piece piece.whole = .ok [token] ∧ token.kind ≠ .whitespace ∧
    ¬ (token.kind = .error ∧ isOpen piece = true)

theorem tokenize_whole (text : Text) :
    tokenize text text.whole = .ok (Scanner.tokens ⟨text, 0⟩) := by
  simpa [Text.whole] using tokenize_slice [] text []

theorem Text.HasLexemes.kind_eq {text : Text} {lexeme : Kind × Text} {token : Token}
    (has : text.HasLexemes [lexeme]) (tokenized : tokenize text text.whole = .ok [token]) :
    lexeme.1 = token.kind := by
  obtain ⟨tokens, hasTokens, spelled⟩ := has
  cases hasTokens.tokenized.symm.trans tokenized
  cases spelled with
  | cons spells _ => exact spells.kind_eq.symm

/-! ## Lexemes one after the other -/

/-- Scanning goes on behind `before` with `ahead` and reads these kinds and spellings. -/
def Scanner.Spells (before ahead : Text) (lexemes : List (Kind × Text)) : Prop :=
  List.Forall₂ (Token.Spells (before ++ ahead))
    (Scanner.tokens ⟨ahead, Text.byteLength before⟩) lexemes

namespace Scanner.Spells

theorem nil (before : Text) : Spells before [] [] := by
  rw [Spells, tokens_of_next?_eq_none rfl]
  exact .nil

theorem cons {before rest later : Text} {first : Char} {kind : Kind}
    {lexemes : List (Kind × Text)}
    (munchEq : munch first (rest ++ later) = ⟨kind, rest.length⟩)
    (spells : Spells (before ++ first :: rest) later lexemes) :
    Spells before (first :: (rest ++ later)) ((kind, first :: rest) :: lexemes) := by
  have textEq : before ++ first :: rest ++ later = before ++ first :: (rest ++ later) := by simp
  rw [Spells, textEq, Text.byteLength_append] at spells
  rw [Spells, tokens_of_next?_eq_some (next?_cons first (rest ++ later) _), munchEq]
  dsimp only
  rw [List.take_left, List.drop_left]
  exact .cons ⟨rfl, Text.slice_append before (first :: rest) later⟩ spells

theorem hasLexemes {text : Text} {lexemes : List (Kind × Text)} (spells : Spells [] text lexemes) :
    text.HasLexemes lexemes :=
  ⟨_, Text.hasTokens_of_tokenize text.admits_whole (tokenize_whole text), spells⟩

end Scanner.Spells

/-! ## Lexemes on lines -/

/-- The text is one lexeme of the kind, which is no blank and not left open. -/
inductive Lexeme.Solid : Kind × Text → Prop where
  | mk {first : Char} {rest : Text} (notBlank : isBlank first = false)
      (closed : isOpen (first :: rest) = true → (munch first rest).kind ≠ .error)
      (whole : rest.length ≤ (munch first rest).extra) :
      Solid ((munch first rest).kind, first :: rest)

theorem Text.IsOneToken.exists_solid {piece : Text} (single : piece.IsOneToken) :
    ∃ kind, Lexeme.Solid (kind, piece) := by
  obtain ⟨token, tokenized, notBlank, closed⟩ := single
  have tokensEq : Scanner.tokens ⟨piece, 0⟩ = [token] :=
    Except.ok.inj ((tokenize_whole piece).symm.trans tokenized)
  cases piece with
  | nil =>
      rw [Scanner.tokens_of_next?_eq_none rfl] at tokensEq
      cases tokensEq
  | cons first rest =>
      rw [Scanner.tokens_of_next?_eq_some (Scanner.next?_cons first rest 0)] at tokensEq
      obtain ⟨rfl, noMore⟩ := List.cons.inj tokensEq
      refine ⟨_, .mk ?_ ?_ ?_⟩
      · refine Bool.eq_false_iff.mpr fun blank => notBlank ?_
        dsimp only
        rw [Lexeme.munch_blank blank]
      · exact fun opens isError => closed ⟨isError, opens⟩
      · apply List.drop_eq_nil_iff.mp
        cases behind : rest.drop (munch first rest).extra with
        | nil => rfl
        | cons next later =>
            rw [behind, Scanner.tokens_of_next?_eq_some (Scanner.next?_cons next later _)] at noMore
            cases noMore

theorem exists_solid_lexemes {pieces : List Text}
    (single : ∀ piece ∈ pieces, Text.IsOneToken piece) :
    ∃ lexemes : List (Kind × Text), lexemes.map Prod.snd = pieces ∧
      ∀ lexeme ∈ lexemes, Lexeme.Solid lexeme := by
  induction pieces with
  | nil => exact ⟨[], rfl, nofun⟩
  | cons piece later inductionHypothesis =>
      obtain ⟨singlePiece, singleLater⟩ := List.forall_mem_cons.mp single
      obtain ⟨kind, isSolid⟩ := singlePiece.exists_solid
      obtain ⟨lexemes, rfl, solid⟩ := inductionHypothesis singleLater
      exact ⟨(kind, piece) :: lexemes, rfl, List.forall_mem_cons.mpr ⟨isSolid, solid⟩⟩

namespace Scanner.Spells

theorem solid {before later : Text} {lexeme : Kind × Text} {lexemes : List (Kind × Text)}
    (isSolid : Lexeme.Solid lexeme) (ended : ∀ char ∈ later.head?, char = '\n')
    (spells : Spells (before ++ lexeme.2) later lexemes) :
    Spells before (lexeme.2 ++ later) (lexeme :: lexemes) := by
  cases isSolid with
  | mk notBlank closed whole => exact cons (Lexeme.munch_on_line notBlank closed whole ended) spells

theorem alone {lexeme : Kind × Text} (isSolid : Lexeme.Solid lexeme) (before : Text) :
    Spells before lexeme.2 [lexeme] := by
  rw [← List.append_nil lexeme.2]
  exact solid isSolid nofun (nil _)

theorem feed {before ahead : Text} {lexemes : List (Kind × Text)}
    (notBlank : ∀ char ∈ ahead.head?, isBlank char = false)
    (spells : Spells (before ++ ['\n']) ahead lexemes) :
    Spells before ('\n' :: ahead) ((.whitespace, ['\n']) :: lexemes) := by
  have munchEq : munch '\n' ([] ++ ahead) = ⟨.whitespace, 0⟩ := by
    rw [List.nil_append, Lexeme.munch_blank (by decide)]
    cases ahead with
    | nil => rfl
    | cons char ahead =>
        rw [Lexeme.runLength, List.takeWhile_cons_of_neg (by simp [notBlank char rfl])]
        rfl
  exact cons munchEq spells

end Scanner.Spells

/-- Solid lexemes on lines do not begin with a blank. -/
theorem Lexeme.Solid.notBlank_joined {lexemes : List (Kind × Text)}
    (solid : ∀ lexeme ∈ lexemes, Solid lexeme) :
    ∀ char ∈ (List.intercalate ['\n'] (lexemes.map Prod.snd)).head?, isBlank char = false := by
  cases lexemes with
  | nil => nofun
  | cons lexeme later =>
      cases solid lexeme List.mem_cons_self with
      | mk notBlank closed whole =>
          cases later <;> simpa [List.intercalate_cons_cons] using notBlank

/-- Solid lexemes, each on a line of its own, are read one after the other. -/
theorem Scanner.spells_joined {lexemes : List (Kind × Text)}
    (solid : ∀ lexeme ∈ lexemes, Lexeme.Solid lexeme) (before : Text) :
    Spells before (List.intercalate ['\n'] (lexemes.map Prod.snd))
      (lexemes.intersperse (.whitespace, ['\n'])) := by
  induction lexemes generalizing before with
  | nil => exact .nil before
  | cons lexeme later inductionHypothesis =>
      have isSolid := solid lexeme List.mem_cons_self
      have solidLater : ∀ other ∈ later, Lexeme.Solid other :=
        fun other member => solid other (List.mem_cons_of_mem lexeme member)
      cases later with
      | nil =>
          rw [List.map_singleton, List.intercalate_singleton, List.intersperse_singleton]
          exact .alone isSolid before
      | cons next later =>
          rw [List.map_cons, List.map_cons, List.intercalate_cons_cons, List.append_assoc,
            List.intersperse_cons_cons]
          refine .solid isSolid (by simp) (.feed ?_ ?_)
          · exact Lexeme.Solid.notBlank_joined solidLater
          · exact inductionHypothesis solidLater _

/-- Texts of one token each have the same tokens when they are written one on a line,
with blanks between them. -/
theorem printed_tokens (pieces : List Text) (single : ∀ piece ∈ pieces, Text.IsOneToken piece) :
    ∃ lexemes : List (Kind × Text), lexemes.map Prod.snd = pieces ∧
      (∀ lexeme ∈ lexemes, lexeme.2.HasLexemes [lexeme]) ∧
      Text.HasLexemes (List.intercalate ['\n'] pieces)
        (lexemes.intersperse (.whitespace, ['\n'])) := by
  obtain ⟨lexemes, rfl, solid⟩ := exists_solid_lexemes single
  refine ⟨lexemes, rfl, ?_, (Scanner.spells_joined solid []).hasLexemes⟩
  intro lexeme member
  exact (Scanner.Spells.alone (solid lexeme member) []).hasLexemes

/-- A comment, a character that begins nothing, and a string that has a line feed inside. -/
theorem printed_tokens_behind_comment :
    (∀ piece ∈ ["//".toList, "&".toList, "'\n'".toList], Text.IsOneToken piece) ∧
      Text.HasLexemes "//\n&\n'\n'".toList [(.lineComment, "//".toList),
        (.whitespace, "\n".toList), (.error, "&".toList), (.whitespace, "\n".toList),
        (.string, "'\n'".toList)] := by
  have comment : tokenize "//".toList (Text.whole "//".toList) =
      .ok [⟨.lineComment, ⟨0, 2⟩⟩] := by cbv
  have stray : tokenize "&".toList (Text.whole "&".toList) = .ok [⟨.error, ⟨0, 1⟩⟩] := by cbv
  have string : tokenize "'\n'".toList (Text.whole "'\n'".toList) =
      .ok [⟨.string, ⟨0, 3⟩⟩] := by cbv
  have single : ∀ piece ∈ ["//".toList, "&".toList, "'\n'".toList], Text.IsOneToken piece := by
    simp only [List.mem_cons, List.not_mem_nil, or_false]
    rintro piece (rfl | rfl | rfl)
    · exact ⟨_, comment, by decide, by decide⟩
    · exact ⟨_, stray, by decide, by decide⟩
    · exact ⟨_, string, by decide, by decide⟩
  obtain ⟨lexemes, spellings, each, joined⟩ := printed_tokens _ single
  obtain ⟨first, _, rfl, firstEq, spellings⟩ := List.map_eq_cons_iff.mp spellings
  obtain ⟨second, _, rfl, secondEq, spellings⟩ := List.map_eq_cons_iff.mp spellings
  obtain ⟨third, _, rfl, thirdEq, spellings⟩ := List.map_eq_cons_iff.mp spellings
  obtain rfl := List.map_eq_nil_iff.mp spellings
  have hasFirst := each first (by simp)
  have hasSecond := each second (by simp)
  have hasThird := each third (by simp)
  obtain rfl : first = (.lineComment, "//".toList) :=
    Prod.ext (hasFirst.kind_eq (firstEq ▸ comment)) firstEq
  obtain rfl : second = (.error, "&".toList) :=
    Prod.ext (hasSecond.kind_eq (secondEq ▸ stray)) secondEq
  obtain rfl : third = (.string, "'\n'".toList) :=
    Prod.ext (hasThird.kind_eq (thirdEq ▸ string)) thirdEq
  exact ⟨single, joined⟩

end TemplateFrontend
