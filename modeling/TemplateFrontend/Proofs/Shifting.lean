import TemplateFrontend.Proofs.Grammar.Shifting
import TemplateFrontend.Proofs.Parsing
import TemplateFrontend.Proofs.Recording.Reader
import Mathlib

/-!
Contract: what a window gives depends on nothing but the bytes inside.

Owns:
- `Scanner.tokens_shift`, which says that the place of a window only shifts its
  tokens;
- `Parsed.shift` and `parse_slice`, the same for parses;
- `parse_window`: a window gives what its slice gives as a text of its own, shifted
  by the start of the window.
-/

namespace TemplateFrontend

/-- Tokens are further on by as much as the scanner is. -/
theorem Scanner.tokens_shift (rest : Text) (distance offset : Nat) :
    tokens ⟨rest, distance + offset⟩ = (tokens ⟨rest, offset⟩).map (Token.shift distance) := by
  cases rest with
  | nil =>
      rw [tokens_of_next?_eq_none rfl, tokens_of_next?_eq_none rfl]
      rfl
  | cons first rest =>
      have step := next?_cons first rest offset
      have shorter := rest_length_lt_of_next? step
      rw [tokens_of_next?_eq_some step, tokens_of_next?_eq_some (next?_cons first rest _),
        List.map_cons, Nat.add_assoc, tokens_shift _ distance]
      rfl
termination_by rest.length

/-- The parse in a text that has `distance` more bytes in front. -/
def Parsed.shift (distance : Nat) (parsed : Parsed) : Parsed :=
  ⟨parsed.tree.shift distance, parsed.trips.map (Trip.shift distance)⟩

theorem Text.slice_whole (text : Text) : text.slice text.whole = .ok text := by
  have sliced := slice_append [] text []
  rwa [List.append_nil, List.nil_append, byteLength_nil, Nat.zero_add] at sliced

section Slice

variable {text : Text} {window : Span} {inside : Text} (sliced : text.slice window = .ok inside)

include sliced

/-- The tokens of a window are those of its slice, shifted by the start of the
window. -/
theorem tokenize_slice_shift :
    ∃ tokens, tokenize inside inside.whole = .ok tokens ∧
      tokenize text window = .ok (tokens.map (Token.shift window.start)) := by
  refine ⟨Scanner.tokens ⟨inside, 0⟩, ?_, ?_⟩
  · rw [tokenize, Scanner.ofWindow, Text.slice_whole]
    rfl
  · rw [tokenize, Scanner.ofWindow, sliced, ← Scanner.tokens_shift]
    rfl

/-- The parse of a window is that of its slice, shifted by the start of the
window. -/
theorem parse_slice_shift (limits : Limits) :
    ∃ parsed, parse inside inside.whole limits = .ok parsed ∧
      parse text window limits = .ok (parsed.shift window.start) := by
  have admitted : text.Admits window := Text.admits_iff_slice.mpr ⟨inside, sliced⟩
  obtain ⟨tokens, wholeTokens, windowTokens⟩ := tokenize_slice_shift sliced
  obtain ⟨_, parts, parsed, reading⟩ := exists_reading limits inside.admits_whole
  obtain ⟨_, parts', parsed', reading'⟩ := exists_reading limits admitted
  cases wholeTokens.symm.trans reading.tokenized
  cases windowTokens.symm.trans reading'.tokenized
  have stopEq : window.stop = window.start + inside.whole.stop := by
    obtain ⟨before, after, _, rfl⟩ := Text.slice_eq_ok_iff.mp sliced
    rfl
  have shifted := Grammar.program_shift limits window.start tokens inside.whole.stop
  rw [← stopEq] at shifted
  have outlineEq : Outline.node .root parts' = (Outline.node .root parts).shift window.start := by
    rw [← reading'.outline_eq, shifted, reading.outline_eq]
  have treeEq : parsed'.tree = parsed.tree.shift window.start := by
    rw [reading'.tree_eq, reading.tree_eq, ← Outline.measure_shift, outlineEq]
    rfl
  have tripsEq : parsed'.trips = parsed.trips.map (Trip.shift window.start) := by
    rw [← reading'.trips_eq, ← reading.trips_eq, shifted]
  refine ⟨parsed, reading.parsed_eq, ?_⟩
  rw [reading'.parsed_eq, Parsed.shift, ← treeEq, ← tripsEq]

end Slice

/-- A window depends only on its own bytes: its tokens, also when they are read off
the whole text, and its parse are those of its slice, shifted by its start. So two
texts that agree inside of a window have the same tokens and the same parse there. -/
theorem parse_window (text : Text) (window : Span) (limits : Limits)
    (admitted : text.Admits window) :
    ∃ inside tokens parsed, text.slice window = .ok inside ∧
      tokenize inside inside.whole = .ok tokens ∧ readTokens inside inside.whole = .ok tokens ∧
      parse inside inside.whole limits = .ok parsed ∧
      tokenize text window = .ok (tokens.map (Token.shift window.start)) ∧
      readTokens text window = .ok (tokens.map (Token.shift window.start)) ∧
      parse text window limits = .ok (parsed.shift window.start) ∧
      ∀ text' : Text, text'.slice window = text.slice window →
        tokenize text' window = tokenize text window ∧
          readTokens text' window = readTokens text window ∧
          parse text' window limits = parse text window limits := by
  obtain ⟨inside, sliced⟩ := Text.admits_iff_slice.mp admitted
  obtain ⟨tokens, tokenized, windowTokens⟩ := tokenize_slice_shift sliced
  obtain ⟨parsed, parsedEq, windowParsed⟩ := parse_slice_shift sliced limits
  have wholeRead := readTokens_of_tokenize inside.admits_whole tokenized
  have windowRead := readTokens_of_tokenize admitted windowTokens
  refine ⟨inside, tokens, parsed, sliced, tokenized, wholeRead, parsedEq, windowTokens, windowRead,
    windowParsed, ?_⟩
  intro text' agrees
  have sliced' : text'.slice window = .ok inside := agrees.trans sliced
  obtain ⟨_, sameTokens, windowTokens'⟩ := tokenize_slice_shift sliced'
  cases tokenized.symm.trans sameTokens
  obtain ⟨_, sameParsed, windowParsed'⟩ := parse_slice_shift sliced' limits
  cases parsedEq.symm.trans sameParsed
  have windowRead' :=
    readTokens_of_tokenize (Text.admits_iff_slice.mpr ⟨inside, sliced'⟩) windowTokens'
  exact ⟨windowTokens'.trans windowTokens.symm, windowRead'.trans windowRead.symm,
    windowParsed'.trans windowParsed.symm⟩

/-- A keyword and an opener that are cut by the ends of a window, in two texts that
differ outside of it. -/
theorem parse_window_of_cut_tokens :
    Text.Admits "return 'x' @code\x7b".toList ⟨2, 15⟩ ∧
      Text.slice "éturn 'x' @coded".toList ⟨2, 15⟩ =
        Text.slice "return 'x' @code\x7b".toList ⟨2, 15⟩ ∧
      ∃ tokens parsed, tokenize "turn 'x' @cod".toList ⟨0, 13⟩ = .ok tokens ∧
        readTokens "turn 'x' @cod".toList ⟨0, 13⟩ = .ok tokens ∧
        parse "turn 'x' @cod".toList ⟨0, 13⟩ ⟨3, 3, 3, 3, 3⟩ = .ok parsed ∧
        tokenize "return 'x' @code\x7b".toList ⟨2, 15⟩ = .ok (tokens.map (Token.shift 2)) ∧
        readTokens "return 'x' @code\x7b".toList ⟨2, 15⟩ = .ok (tokens.map (Token.shift 2)) ∧
        parse "return 'x' @code\x7b".toList ⟨2, 15⟩ ⟨3, 3, 3, 3, 3⟩ = .ok (parsed.shift 2) ∧
        readTokens "éturn 'x' @coded".toList ⟨2, 15⟩ =
          readTokens "return 'x' @code\x7b".toList ⟨2, 15⟩ ∧
        parse "éturn 'x' @coded".toList ⟨2, 15⟩ ⟨3, 3, 3, 3, 3⟩ =
          parse "return 'x' @code\x7b".toList ⟨2, 15⟩ ⟨3, 3, 3, 3, 3⟩ := by
  have sliced : Text.slice "return 'x' @code\x7b".toList ⟨2, 15⟩ =
      .ok "turn 'x' @cod".toList := by cbv
  have agrees : Text.slice "éturn 'x' @coded".toList ⟨2, 15⟩ =
      Text.slice "return 'x' @code\x7b".toList ⟨2, 15⟩ := by
    rw [sliced]
    cbv
  have admitted : Text.Admits "return 'x' @code\x7b".toList ⟨2, 15⟩ :=
    Text.admits_iff_slice.mpr ⟨_, sliced⟩
  obtain ⟨inside, tokens, parsed, insideEq, tokenized, wholeRead, parsedEq, windowTokens,
    windowRead, windowParsed, blind⟩ := parse_window _ _ ⟨3, 3, 3, 3, 3⟩ admitted
  cases insideEq.symm.trans sliced
  obtain ⟨_, sameRead, sameParsed⟩ := blind _ agrees
  exact ⟨admitted, agrees, tokens, parsed, tokenized, wholeRead, parsedEq, windowTokens,
    windowRead, windowParsed, sameRead, sameParsed⟩

end TemplateFrontend
