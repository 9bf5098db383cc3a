import TemplateFrontend.CommandLine.Response
import TemplateFrontend.Proofs.Fault
import TemplateFrontend.Proofs.Lexeme.Malformed
import TemplateFrontend.Proofs.Parsing
import Mathlib

/-!
Contract: diagnostics are a function of the tokens of a window.

Owns:
- one lemma for each problem, which tells the spellings that it is read off;
- `Diagnostic.Explains`, what a diagnostic says of its token;
- `Diagnosed`, one diagnostic for each malformed token of a window, and
  `exists_diagnosed`, which says that every admitted window has such a row;
- `parse_diagnostics`: ceilings have no say in the diagnostics of a parse, nor in the
  response to a check.
-/

namespace TemplateFrontend

open Lexeme (opensString opensComment isOpen)
open CommandLine (Command checked)

/-! ## Problems and spellings -/

namespace Problem

theorem message_injective : Function.Injective message := by
  intro left right sameMessage
  cases left <;> cases right <;> first | rfl | exact absurd sameMessage (by decide)

variable (spelling : Text)

theorem ofSpelling_eq_loneAmpersand_iff :
    ofSpelling spelling = .loneAmpersand ↔ spelling = ['&'] := by
  unfold ofSpelling
  split <;> simp_all

theorem ofSpelling_eq_lonePipe_iff : ofSpelling spelling = .lonePipe ↔ spelling = ['|'] := by
  unfold ofSpelling
  split <;> simp_all

theorem ofSpelling_eq_openString_iff :
    ofSpelling spelling = .openString ↔ opensString spelling = true := by
  unfold ofSpelling
  split
  · decide
  · decide
  · simp [opensString, Lexeme.isQuote]
  · simp [opensString, Lexeme.isQuote]
  · simp [opensString, Lexeme.isQuote]
  · next notDouble notSingle _ =>
      cases spelling with
      | nil => decide
      | cons first rest =>
          have noQuote : Lexeme.isQuote first = false := by
            simp only [Lexeme.isQuote, Bool.or_eq_false_iff, decide_eq_false_iff_not]
            exact ⟨fun same => notDouble rest (by rw [same]),
              fun same => notSingle rest (by rw [same])⟩
          simp [opensString, noQuote]

theorem ofSpelling_eq_openComment_iff :
    ofSpelling spelling = .openComment ↔ opensComment spelling = true := by
  unfold ofSpelling
  split
  · decide
  · decide
  · simp [opensComment]
  · simp [opensComment]
  · simp [opensComment]
  · next notComment =>
      constructor
      · intro same
        cases same
      · intro opens
        obtain ⟨body, rfl⟩ := Lexeme.eq_of_opensComment opens
        exact absurd rfl (notComment body)

/-- What is left over is neither open nor a lone operator. -/
theorem ofSpelling_eq_strayCharacter_iff :
    ofSpelling spelling = .strayCharacter ↔
      isOpen spelling = false ∧ spelling ≠ ['&'] ∧ spelling ≠ ['|'] := by
  rw [isOpen, Bool.or_eq_false_iff, ← Bool.not_eq_true, ← Bool.not_eq_true, Ne, Ne,
    ← ofSpelling_eq_openString_iff, ← ofSpelling_eq_openComment_iff,
    ← ofSpelling_eq_loneAmpersand_iff, ← ofSpelling_eq_lonePipe_iff]
  cases ofSpelling spelling <;> decide

end Problem

/-! ## Diagnostics and tokens -/

/-- What a diagnostic says of a malformed token with a given spelling, in a window that
ends at `stop`. -/
structure Diagnostic.Explains (found : Diagnostic) (stop : Nat) (token : Token)
    (spelling : Text) : Prop where
  span_eq : found.span = token.span
  openString :
    found.problem.message = "unterminated string literal" ↔ opensString spelling = true
  openComment :
    found.problem.message = "unterminated block comment" ↔ opensComment spelling = true
  runs_to_stop : isOpen spelling = true → token.span.stop = stop
  single : isOpen spelling = false → ∃ char, spelling = [char]
  loneAmpersand : found.problem.message = "expected `&&`" ↔ spelling = ['&']
  lonePipe : found.problem.message = "expected `||`" ↔ spelling = ['|']
  strayCharacter :
    found.problem.message = "unexpected character" ↔
      isOpen spelling = false ∧ spelling ≠ ['&'] ∧ spelling ≠ ['|']

/-- The diagnostic explains the token, with the spelling that the text has there. -/
def Diagnostic.IsFor (found : Diagnostic) (text : Text) (stop : Nat) (token : Token) : Prop :=
  ∃ spelling, text.slice token.span = .ok spelling ∧ found.Explains stop token spelling

/-- Every malformed token of a window has a diagnostic that explains it. -/
theorem Diagnostic.exists_isFor {text : Text} {window : Span} {tokens : List Token}
    {token : Token} (admitted : text.Admits window)
    (tokenized : tokenize text window = .ok tokens) (member : token ∈ tokens)
    (isError : token.kind = .error) :
    ∃ found, ofToken text token = .ok found ∧ found.IsFor text window.stop token := by
  obtain ⟨spelling, sliced, shape⟩ := spelling_of_error_token admitted tokenized member isError
  refine ⟨⟨.ofSpelling spelling, token.span⟩, ?_, spelling, sliced, ?_⟩
  · rw [ofToken, sliced]
    rfl
  · have message_iff (problem : Problem) :
        (Problem.ofSpelling spelling).message = problem.message ↔
          Problem.ofSpelling spelling = problem := Problem.message_injective.eq_iff
    exact
      { span_eq := rfl
        openString := (message_iff .openString).trans (Problem.ofSpelling_eq_openString_iff _)
        openComment := (message_iff .openComment).trans (Problem.ofSpelling_eq_openComment_iff _)
        runs_to_stop := by
          intro opens
          rcases shape with ⟨_, atStop⟩ | ⟨notOpen, _⟩
          · exact atStop
          · exact absurd opens (Bool.not_eq_true _ ▸ notOpen)
        single := by
          intro notOpen
          rcases shape with ⟨opens, _⟩ | ⟨_, single⟩
          · exact absurd opens (Bool.not_eq_true _ ▸ notOpen)
          · exact single
        loneAmpersand :=
          (message_iff .loneAmpersand).trans (Problem.ofSpelling_eq_loneAmpersand_iff _)
        lonePipe := (message_iff .lonePipe).trans (Problem.ofSpelling_eq_lonePipe_iff _)
        strayCharacter :=
          (message_iff .strayCharacter).trans (Problem.ofSpelling_eq_strayCharacter_iff _) }

/-! ## Rows of diagnostics -/

def Diagnostic.Unterminated (found : Diagnostic) : Prop :=
  found.problem.message = "unterminated string literal" ∨
    found.problem.message = "unterminated block comment"

/-- A row of diagnostics, one for each malformed token of a window that ends at `stop`. -/
structure Diagnosed (text : Text) (stop : Nat) (tokens : List Token)
    (diagnostics : List Diagnostic) : Prop where
  one_each : List.Forall₂ (fun token found => Diagnostic.IsFor found text stop token)
    (tokens.filter fun token => token.kind = .error) diagnostics
  nonempty : ∀ found ∈ diagnostics, found.span.start < found.span.stop
  disjoint : diagnostics.Pairwise fun earlier later => earlier.span.stop ≤ later.span.start
  unterminated_last : ∀ front found back, diagnostics = front ++ found :: back →
    found.Unterminated → back = []

section Rows

variable {text : Text} {stop : Nat} {tokens : List Token} {diagnostics : List Diagnostic}
  (explained : List.Forall₂ (fun token found => Diagnostic.IsFor found text stop token) tokens
    diagnostics)

include explained

theorem Diagnostic.spans_eq : diagnostics.map (·.span) = tokens.map (·.span) := by
  induction explained with
  | nil => rfl
  | cons first _ inductionHypothesis =>
      obtain ⟨_, _, explains⟩ := first
      rw [List.map_cons, List.map_cons, explains.span_eq, inductionHypothesis]

/-- A diagnostic of a string or a comment without an end reaches the end of the window. -/
theorem Diagnostic.stop_eq_of_unterminated {found : Diagnostic} (member : found ∈ diagnostics)
    (unterminated : found.Unterminated) : found.span.stop = stop := by
  induction explained with
  | nil => cases member
  | cons first _ inductionHypothesis =>
      rcases List.mem_cons.mp member with rfl | later
      · obtain ⟨_, _, explains⟩ := first
        rw [explains.span_eq]
        apply explains.runs_to_stop
        rcases unterminated with isString | isComment
        · rw [isOpen, explains.openString.mp isString, Bool.true_or]
        · rw [isOpen, explains.openComment.mp isComment, Bool.or_true]
      · exact inductionHypothesis later

end Rows

/-- Diagnostics stand in a window as their tokens do: none is empty, they follow each
other, and nothing follows one that reaches the end. -/
theorem Diagnosed.of_tiles {text : Text} {start stop : Nat} {tokens : List Token}
    {diagnostics : List Diagnostic} (tiled : Tiles start tokens stop)
    (explained : List.Forall₂ (fun token found => Diagnostic.IsFor found text stop token)
      (tokens.filter fun token => token.kind = .error) diagnostics) :
    Diagnosed text stop tokens diagnostics := by
  have spansEq := Diagnostic.spans_eq explained
  have bounds : ∀ found ∈ diagnostics,
      found.span.start < found.span.stop ∧ found.span.stop ≤ stop := by
    intro found member
    have listed : found.span ∈ diagnostics.map (·.span) := List.mem_map_of_mem member
    rw [spansEq] at listed
    obtain ⟨token, inside, sameSpan⟩ := List.mem_map.mp listed
    rw [← sameSpan]
    exact (tiled.bounds (List.mem_filter.mp inside).1).2
  have disjoint :
      diagnostics.Pairwise fun earlier later => earlier.span.stop ≤ later.span.start := by
    have spansInOrder : (diagnostics.map (·.span)).Pairwise
        (fun earlier later => earlier.stop ≤ later.start) := by
      rw [spansEq]
      exact List.pairwise_map.mpr (tiled.pairwise.filter _)
    exact List.pairwise_map.mp spansInOrder
  constructor
  case one_each => exact explained
  case nonempty => exact fun found member => (bounds found member).1
  case disjoint => exact disjoint
  case unterminated_last =>
    rintro front found back rfl unterminated
    have stopEq := Diagnostic.stop_eq_of_unterminated explained (by simp) unterminated
    cases back with
    | nil => rfl
    | cons later _ =>
        have behind : found.span.stop ≤ later.span.start :=
          (List.pairwise_cons.mp (List.pairwise_append.mp disjoint).2.1).1 later (by simp)
        have laterBounds := bounds later (by simp)
        omega

/-- The malformed tokens of an admitted window can be diagnosed. -/
theorem exists_diagnosed {text : Text} {window : Span} (admitted : text.Admits window) :
    ∃ tokens diagnostics, tokenize text window = .ok tokens ∧
      (tokens.filter fun token => token.kind = .error).mapM (Diagnostic.ofToken text) =
        .ok diagnostics ∧
      Diagnosed text window.stop tokens diagnostics := by
  obtain ⟨tokens, tokenized, tiled, _⟩ := tokenize_tiles admitted
  have each : ∀ token ∈ tokens.filter fun token => token.kind = .error,
      ∃ found, Diagnostic.ofToken text token = .ok found ∧
        found.IsFor text window.stop token := by
    intro token member
    obtain ⟨inside, isError⟩ := List.mem_filter.mp member
    exact Diagnostic.exists_isFor admitted tokenized inside (of_decide_eq_true isError)
  obtain ⟨diagnostics, collected, explained⟩ := exists_mapM each
  exact ⟨tokens, diagnostics, tokenized, collected, .of_tiles tiled explained⟩

/-- The diagnostics of a parse are those of the tokens of the window, so the ceilings
have no say in them. -/
theorem diagnostics_of_parse {text : Text} {window : Span} {tokens : List Token}
    {diagnostics : List Diagnostic} (admitted : text.Admits window)
    (tokenized : tokenize text window = .ok tokens)
    (collected : (tokens.filter fun token => token.kind = .error).mapM
      (Diagnostic.ofToken text) = .ok diagnostics) (limits : Limits) :
    ∃ parsed, parse text window limits = .ok parsed ∧
      parsed.tree.diagnostics text = .ok diagnostics := by
  obtain ⟨tokens', _, parsed, reading⟩ := exists_reading limits admitted
  obtain rfl : tokens = tokens' := Except.ok.inj (tokenized.symm.trans reading.tokenized)
  refine ⟨parsed, reading.parsed_eq, ?_⟩
  rw [Tree.diagnostics, reading.leaves_eq]
  exact collected

namespace CommandLine

theorem exitCode_checked_eq_zero_iff (renderer : Renderer) (path text : Text)
    (diagnostics : List Diagnostic) :
    (checked renderer path text diagnostics).exitCode = 0 ↔ diagnostics = [] := by
  cases diagnostics with
  | nil => exact ⟨fun _ => rfl, fun _ => rfl⟩
  | cons found later => exact ⟨nofun, nofun⟩

/-- A check whose parse succeeds tells of the diagnostics of the tree. -/
theorem respond_check {text : Text} {limits : Limits} {parsed : Parsed}
    {diagnostics : List Diagnostic} (parses : parse text text.whole limits = .ok parsed)
    (collected : parsed.tree.diagnostics text = .ok diagnostics) (renderer : Renderer)
    (path : Text) :
    Command.respondWith renderer ⟨.check limits, path⟩ (.ok text) =
      .ok (checked renderer path text diagnostics) := by
  have problemsEq : problems limits text = .ok diagnostics := by
    rw [problems, parses]
    exact collected
  dsimp only [Command.respondWith]
  rw [problemsEq]
  rfl

end CommandLine

/-- Under any ceilings a parse has the same diagnostics, one for each malformed token of
the window, and a check of the text has the same response, which tells of each malformed
token of the text, however the reports are drawn. -/
theorem parse_diagnostics (text : Text) (window : Span) (admitted : text.Admits window) :
    (∃ tokens diagnostics, tokenize text window = .ok tokens ∧
      Diagnosed text window.stop tokens diagnostics ∧
      ∀ limits, ∃ parsed, parse text window limits = .ok parsed ∧
        parsed.tree.diagnostics text = .ok diagnostics) ∧
    ∃ tokens diagnostics, tokenize text text.whole = .ok tokens ∧
      Diagnosed text text.whole.stop tokens diagnostics ∧
      diagnostics.length = tokens.countP (·.kind = .error) ∧
      ∀ renderer limits path,
        Command.respondWith renderer ⟨.check limits, path⟩ (.ok text) =
          .ok (checked renderer path text diagnostics) ∧
        ((checked renderer path text diagnostics).exitCode = 0 ↔
          ∀ token ∈ tokens, token.kind ≠ .error) := by
  constructor
  · obtain ⟨tokens, diagnostics, tokenized, collected, diagnosed⟩ := exists_diagnosed admitted
    exact ⟨tokens, diagnostics, tokenized, diagnosed,
      diagnostics_of_parse admitted tokenized collected⟩
  · obtain ⟨tokens, diagnostics, tokenized, collected, diagnosed⟩ :=
      exists_diagnosed text.admits_whole
    have lengthEq : diagnostics.length = tokens.countP (·.kind = .error) := by
      rw [List.countP_eq_length_filter]
      exact diagnosed.one_each.length_eq.symm
    refine ⟨tokens, diagnostics, tokenized, diagnosed, lengthEq, ?_⟩
    intro renderer limits path
    obtain ⟨parsed, parsedEq, collectedEq⟩ :=
      diagnostics_of_parse text.admits_whole tokenized collected limits
    refine ⟨CommandLine.respond_check parsedEq collectedEq renderer path, ?_⟩
    rw [CommandLine.exitCode_checked_eq_zero_iff, ← List.length_eq_zero_iff, lengthEq,
      List.countP_eq_zero]
    simp only [decide_eq_true_eq]

/-- A window with a lone operator, a stray character and a string without an end. -/
theorem parse_diagnostics_of_open_string :
    Text.Admits "é(&#'a b".toList ⟨2, 8⟩ ∧
      ∃ diagnostics,
        diagnostics.map (fun found => (found.problem.message, found.span)) =
          [("expected `&&`", ⟨3, 4⟩), ("unexpected character", ⟨4, 5⟩),
            ("unterminated string literal", ⟨5, 8⟩)] ∧
        ∀ limits, ∃ parsed, parse "é(&#'a b".toList ⟨2, 8⟩ limits = .ok parsed ∧
          parsed.tree.diagnostics "é(&#'a b".toList = .ok diagnostics := by
  have admitted : Text.Admits "é(&#'a b".toList ⟨2, 8⟩ :=
    { ordered := by decide
      start_boundary := ⟨"é".toList, "(&#'a b".toList, by decide, by decide⟩
      stop_boundary := ⟨"é(&#'a ".toList, "b".toList, by decide, by decide⟩ }
  have tokensEq : tokenize "é(&#'a b".toList ⟨2, 8⟩ = .ok [⟨.leftParen, ⟨2, 3⟩⟩,
      ⟨.error, ⟨3, 4⟩⟩, ⟨.error, ⟨4, 5⟩⟩, ⟨.error, ⟨5, 8⟩⟩] := by cbv
  have lone : Text.slice "é(&#'a b".toList ⟨3, 4⟩ = .ok ['&'] := by cbv
  have stray : Text.slice "é(&#'a b".toList ⟨4, 5⟩ = .ok ['#'] := by cbv
  have string : Text.slice "é(&#'a b".toList ⟨5, 8⟩ = .ok ['\'', 'a', ' '] := by cbv
  obtain ⟨⟨tokens, diagnostics, tokenized, diagnosed, same⟩, _⟩ := parse_diagnostics _ _ admitted
  cases tokenized.symm.trans tokensEq
  refine ⟨admitted, diagnostics, ?_, same⟩
  obtain _ | ⟨⟨_, firstSliced, first⟩, _ | ⟨⟨_, secondSliced, second⟩,
    _ | ⟨⟨_, thirdSliced, third⟩, _ | _⟩⟩⟩ := diagnosed.one_each
  cases firstSliced.symm.trans lone
  cases secondSliced.symm.trans stray
  cases thirdSliced.symm.trans string
  rw [List.map_cons, List.map_cons, List.map_cons, first.span_eq, second.span_eq, third.span_eq,
    first.loneAmpersand.mpr rfl, second.strayCharacter.mpr (by decide),
    third.openString.mpr (by decide)]
  rfl

end TemplateFrontend
