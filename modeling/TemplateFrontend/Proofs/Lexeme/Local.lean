import TemplateFrontend.Lexeme
import Mathlib.Data.List.TakeWhile

/-!
Contract: a lexeme does not depend on what stands behind it.

Owns:
- `Lexeme.Local`, rules that answer alike when the text is cut anywhere behind
  the lexeme they find, and one lemma for each rule;
- `munch_take`, the same for all rules together.

A rule may look at characters behind its lexeme, as numbers and operators do;
what it sees there only ever keeps the lexeme from being longer.
-/

namespace TemplateFrontend.Lexeme

/-- A rule answers alike on every front of the text that holds the lexeme it
finds, and finds none in a front when it finds none in the text. -/
def Local (rule : Char → Text → Option Munch) : Prop :=
  ∀ first rest count, (∀ lexeme ∈ rule first rest, lexeme.extra ≤ count) →
    rule first (rest.take count) = rule first rest

/-- The same for a length that is measured from the front of a text. -/
def LocalLength (length : Text → Nat) : Prop :=
  ∀ text count, length text ≤ count → length (text.take count) = length text

theorem runLength_take (belongs : Char → Bool) (text : Text) (count : Nat) :
    runLength belongs (text.take count) = min count (runLength belongs text) := by
  rw [runLength, ← List.take_takeWhile, List.length_take, runLength]

/-- As many characters as a run has are the run. -/
theorem take_runLength (belongs : Char → Bool) (text : Text) :
    text.take (runLength belongs text) = text.takeWhile belongs :=
  (List.prefix_iff_eq_take.mp (List.takeWhile_prefix belongs)).symm

theorem localLength_runLength (belongs : Char → Bool) : LocalLength (runLength belongs) := by
  intro text count fits
  rw [runLength_take, Nat.min_eq_right fits]

/-- What a front begins with, its text begins with. -/
theorem exists_cons_of_take_eq_cons {text body : Text} {count : Nat} {char : Char}
    (front : text.take count = char :: body) : ∃ more, text = char :: more := by
  cases text with
  | nil => simp at front
  | cons head more =>
      cases count with
      | zero => simp at front
      | succ count =>
          rw [List.take_succ_cons, List.cons.injEq] at front
          exact ⟨more, by rw [front.1]⟩

/-! ## Blanks and comments -/

theorem local_blank : Local blank? := by
  intro first rest count fits
  unfold blank? at fits ⊢
  split
  · next isBlankFirst =>
      rw [if_pos isBlankFirst] at fits
      rw [localLength_runLength isBlank rest count (fits _ rfl)]
  · rfl

theorem lineComment?_eq_none {first : Char} {rest : Text}
    (noSlashes : first = '/' → ∀ body, rest ≠ '/' :: body) : lineComment? first rest = none := by
  unfold lineComment?
  split
  · next body => exact absurd rfl (noSlashes rfl body)
  · rfl

theorem local_lineComment : Local lineComment? := by
  intro first rest count fits
  by_cases slashes : first = '/' ∧ ∃ body, rest = '/' :: body
  · obtain ⟨rfl, body, rfl⟩ := slashes
    have within := fits _ rfl
    have same := localLength_runLength (· != '\n') ('/' :: body) count within
    -- The second slash belongs to the run, so the front is not empty.
    cases count with
    | zero => simp [runLength] at within
    | succ count =>
        rw [List.take_succ_cons] at same ⊢
        simp only [lineComment?, same]
  · rw [lineComment?_eq_none, lineComment?_eq_none]
    · exact fun isSlash body restEq => slashes ⟨isSlash, body, restEq⟩
    · exact fun isSlash _ front => slashes ⟨isSlash, exists_cons_of_take_eq_cons front⟩

theorem lt_of_commentEnd?_eq_some {body : Text} {passed stop : Nat}
    (found : commentEnd? passed body = some stop) : passed + 1 < stop := by
  fun_induction commentEnd? passed body with
  | case1 passed rest =>
      cases found
      omega
  | case2 passed char rest other inductionHypothesis =>
      have behind := inductionHypothesis found
      omega
  | case3 => cases found

/-- The end of a comment is found in every front that holds it. -/
theorem commentEnd?_take {body : Text} {passed stop : Nat} (count : Nat)
    (found : commentEnd? passed body = some stop) (within : stop ≤ passed + count) :
    commentEnd? passed (body.take count) = some stop := by
  fun_induction commentEnd? passed body generalizing count with
  | case1 passed rest =>
      cases found
      obtain ⟨fewer, rfl⟩ : ∃ fewer, count = fewer + 2 := ⟨count - 2, by omega⟩
      rfl
  | case2 passed char rest other inductionHypothesis =>
      have behind := lt_of_commentEnd?_eq_some found
      obtain ⟨fewer, rfl⟩ : ∃ fewer, count = fewer + 1 := ⟨count - 1, by omega⟩
      rw [List.take_succ_cons, commentEnd?]
      · exact inductionHypothesis fewer found (by omega)
      · intro body isStar front
        obtain ⟨more, restEq⟩ := exists_cons_of_take_eq_cons front
        exact other more isStar restEq
  | case3 => cases found

theorem blockComment?_eq_none {first : Char} {rest : Text}
    (notOpen : first = '/' → ∀ body, rest ≠ '*' :: body) : blockComment? first rest = none := by
  unfold blockComment?
  split
  · next body => exact absurd rfl (notOpen rfl body)
  · rfl

theorem local_blockComment : Local blockComment? := by
  intro first rest count fits
  by_cases opens : first = '/' ∧ ∃ body, rest = '*' :: body
  · obtain ⟨rfl, body, rfl⟩ := opens
    cases ending : commentEnd? 1 body with
    | none =>
        -- A comment that is not closed goes on to the end, which no front leaves out.
        have whole := fits ⟨.error, ('*' :: body).length⟩ (by simp [blockComment?, ending])
        rw [List.take_of_length_le whole]
    | some extra =>
        have within : extra ≤ count :=
          fits ⟨.blockComment, extra⟩ (by simp [blockComment?, ending])
        have behind := lt_of_commentEnd?_eq_some ending
        obtain ⟨fewer, rfl⟩ : ∃ fewer, count = fewer + 1 := ⟨count - 1, by omega⟩
        have sameEnd := commentEnd?_take fewer ending (by omega)
        simp only [List.take_succ_cons, blockComment?, ending, sameEnd]
  · rw [blockComment?_eq_none, blockComment?_eq_none]
    · exact fun isSlash body restEq => opens ⟨isSlash, body, restEq⟩
    · exact fun isSlash _ front => opens ⟨isSlash, exists_cons_of_take_eq_cons front⟩

/-! ## Strings -/

theorem lt_of_stringEnd?_eq_some {quote : Char} {body : Text} {passed stop : Nat}
    (found : stringEnd? quote passed body = some stop) : passed < stop := by
  fun_induction stringEnd? quote passed body with
  | case1 passed escaped rest inductionHypothesis =>
      have behind := inductionHypothesis found
      omega
  | case2 passed rest other =>
      cases found
      omega
  | case3 passed char rest other notQuote inductionHypothesis =>
      have behind := inductionHypothesis found
      omega
  | case4 => cases found

/-- The end of a string is found in every front that holds it. -/
theorem stringEnd?_take {quote : Char} {body : Text} {passed stop : Nat} (count : Nat)
    (found : stringEnd? quote passed body = some stop) (within : stop ≤ passed + count) :
    stringEnd? quote passed (body.take count) = some stop := by
  have behind := lt_of_stringEnd?_eq_some found
  fun_induction stringEnd? quote passed body generalizing count with
  | case1 passed escaped rest inductionHypothesis =>
      have farBehind := lt_of_stringEnd?_eq_some found
      obtain ⟨fewer, rfl⟩ : ∃ fewer, count = fewer + 2 := ⟨count - 2, by omega⟩
      rw [List.take_succ_cons, List.take_succ_cons, stringEnd?]
      exact inductionHypothesis fewer found (by omega) farBehind
  | case2 passed rest other =>
      obtain ⟨fewer, rfl⟩ : ∃ fewer, count = fewer + 1 := ⟨count - 1, by omega⟩
      rw [List.take_succ_cons, stringEnd?, if_pos rfl]
      · exact found
      · intro escaped body isBackslash front
        obtain ⟨more, restEq⟩ := exists_cons_of_take_eq_cons front
        exact other escaped more isBackslash restEq
  | case3 passed char rest other notQuote inductionHypothesis =>
      have farBehind := lt_of_stringEnd?_eq_some found
      obtain ⟨fewer, rfl⟩ : ∃ fewer, count = fewer + 1 := ⟨count - 1, by omega⟩
      rw [List.take_succ_cons, stringEnd?, if_neg notQuote]
      · exact inductionHypothesis fewer found (by omega) farBehind
      · intro escaped body isBackslash front
        obtain ⟨more, restEq⟩ := exists_cons_of_take_eq_cons front
        exact other escaped more isBackslash restEq
  | case4 => cases found

theorem local_string : Local string? := by
  intro first rest count fits
  unfold string? at fits ⊢
  split
  · next isQuoteFirst =>
      rw [if_pos isQuoteFirst] at fits
      cases ending : stringEnd? first 0 rest with
      | none =>
          have whole := fits ⟨.error, rest.length⟩ (by simp [ending])
          rw [List.take_of_length_le whole, ending]
      | some extra =>
          have within := fits ⟨.string, extra⟩ (by simp [ending])
          rw [stringEnd?_take count ending (by simpa using within)]
  · rfl

/-! ## Numbers -/

theorem fractionLength_eq_zero {text : Text} (noDot : ∀ body, text ≠ '.' :: body) :
    fractionLength text = 0 := by
  unfold fractionLength
  split
  · next body => exact absurd rfl (noDot body)
  · rfl

theorem localLength_fractionLength : LocalLength fractionLength := by
  intro text count fits
  by_cases dot : ∃ body, text = '.' :: body
  · obtain ⟨body, rfl⟩ := dot
    rw [fractionLength] at fits
    obtain ⟨fewer, rfl⟩ : ∃ fewer, count = fewer + 1 := ⟨count - 1, by omega⟩
    have sameDigits := localLength_runLength Char.isDigit body fewer (by rw [← digitRun]; omega)
    rw [List.take_succ_cons, fractionLength, fractionLength, digitRun, sameDigits, digitRun]
  · rw [fractionLength_eq_zero, fractionLength_eq_zero]
    · exact fun body textEq => dot ⟨body, textEq⟩
    · exact fun _ front => dot (exists_cons_of_take_eq_cons front)

theorem signLength_take (text : Text) (count : Nat) :
    signLength (text.take (count + 1)) = signLength text := by
  cases text <;> rfl

/-- The digits behind an optional sign are the same in every front that holds
them; where there are none, no front has any. -/
theorem signedDigits_take (text : Text) (count : Nat)
    (fits : digitRun (text.drop (signLength text)) ≠ 0 →
      signLength text + digitRun (text.drop (signLength text)) ≤ count) :
    digitRun ((text.take count).drop (signLength (text.take count))) =
      digitRun (text.drop (signLength text)) := by
  cases count with
  | zero =>
      have noDigits : digitRun (text.drop (signLength text)) = 0 := by
        by_contra someDigits
        have within := fits someDigits
        omega
      rw [noDigits]
      rfl
  | succ count =>
      rw [signLength_take, List.drop_take, digitRun, runLength_take, ← digitRun]
      by_cases noDigits : digitRun (text.drop (signLength text)) = 0
      · rw [noDigits, Nat.min_zero]
      · have within := fits noDigits
        rw [Nat.min_eq_right (by omega)]

theorem localLength_exponentLength : LocalLength exponentLength := by
  intro text count fits
  cases count with
  | zero => exact (Nat.le_zero.mp fits).symm
  | succ count =>
      cases text with
      | nil => rfl
      | cons mark rest =>
          simp only [List.take_succ_cons, exponentLength] at fits ⊢
          split
          · next isMark =>
              rw [if_pos isMark] at fits
              by_cases noDigits : digitRun (rest.drop (signLength rest)) = 0
              · rw [signedDigits_take rest count (absurd noDigits), noDigits]
                rfl
              · rw [if_neg noDigits] at fits
                obtain ⟨fewer, rfl⟩ : ∃ fewer, count = fewer + 1 := ⟨count - 1, by omega⟩
                rw [signedDigits_take rest (fewer + 1) (by omega), signLength_take]
          · rfl

theorem localLength_suffixLength : LocalLength suffixLength := by
  intro text count fits
  cases count with
  | zero => exact (Nat.le_zero.mp fits).symm
  | succ count => cases text <;> rfl

theorem localLength_numberTailLength : LocalLength numberTailLength := by
  intro text count fits
  rw [numberTailLength] at fits
  have exponentEq := localLength_exponentLength text count (by omega)
  have suffixEq := localLength_suffixLength (text.drop (exponentLength text))
    (count - exponentLength text) (by omega)
  rw [numberTailLength, numberTailLength, exponentEq, List.drop_take, suffixEq]

/-- A mantissa is the same in every front that holds it, and a front of a text
that begins none begins none. -/
theorem mantissa?_take (first : Char) (rest : Text) (count : Nat)
    (fits : ∀ length ∈ mantissa? first rest, length ≤ count) :
    mantissa? first (rest.take count) = mantissa? first rest := by
  unfold mantissa? at fits ⊢
  split
  · next isDigit =>
      rw [if_pos isDigit] at fits
      have within := fits _ rfl
      have wholeEq := localLength_runLength Char.isDigit rest count
        (by rw [← digitRun]; omega)
      have fractionEq := localLength_fractionLength (rest.drop (digitRun rest))
        (count - digitRun rest) (by omega)
      simp only [digitRun] at wholeEq fractionEq ⊢
      rw [wholeEq, List.drop_take, fractionEq]
  · next notDigit =>
      rw [if_neg notDigit] at fits
      rw [digitRun, runLength_take, ← digitRun]
      by_cases noDigits : digitRun rest = 0
      · simp [noDigits]
      · by_cases isDot : first = '.'
        · have within := fits (digitRun rest) (by simp [isDot, noDigits])
          rw [Nat.min_eq_right within]
        · simp [isDot]

theorem local_number : Local number? := by
  intro first rest count fits
  have parts : ∀ mantissa ∈ mantissa? first rest,
      mantissa + numberTailLength (rest.drop mantissa) ≤ count := by
    intro mantissa found
    exact fits _ (Option.mem_map_of_mem _ found)
  rw [number?, number?, mantissa?_take first rest count fun mantissa found => by
    have within := parts mantissa found
    omega]
  cases found : mantissa? first rest with
  | none => rfl
  | some mantissa =>
      have within := parts mantissa found
      rw [Option.map_some, Option.map_some, List.drop_take,
        localLength_numberTailLength _ _ (by omega)]

/-! ## Operators, markup and words -/

theorem local_operator : Local operator? := by
  intro first rest count fits
  cases count with
  | succ count =>
      have sameSecond : (rest.take (count + 1)).head? = rest.head? := by cases rest <;> rfl
      rw [operator?, operator?, sameSecond]
  | zero =>
      -- A doubled operator does not fit here.
      unfold operator? at fits ⊢
      cases doubled : rest.head?.bind (doubled? first) with
      | none => rfl
      | some kind =>
          rw [doubled] at fits
          exact absurd (fits _ rfl) (by simp)

theorem longerOpener_spec (best : Option (List Char × Kind)) (entry : List Char × Kind) :
    ∃ longer, Kind.longerOpener best entry = some longer ∧ entry.1.length ≤ longer.1.length ∧
      ∀ kept ∈ best, kept.1.length ≤ longer.1.length := by
  cases best with
  | none => exact ⟨entry, rfl, Nat.le_refl _, nofun⟩
  | some kept =>
      rw [Kind.longerOpener]
      split
      · next shorter => exact ⟨kept, rfl, Nat.le_of_lt shorter, by simp⟩
      · next notShorter => exact ⟨entry, rfl, Nat.le_refl _, by simpa using notShorter⟩

/-- Folding for the longest opener ends with one that is no shorter than any. -/
theorem foldl_longerOpener_spec {entries : List (List Char × Kind)}
    {best : Option (List Char × Kind)} {entry : List Char × Kind}
    (considered : entry ∈ entries ∨ entry ∈ best) :
    ∃ chosen, entries.foldl Kind.longerOpener best = some chosen ∧
      entry.1.length ≤ chosen.1.length := by
  induction entries generalizing best entry with
  | nil => exact ⟨entry, by simpa using considered, Nat.le_refl _⟩
  | cons head later inductionHypothesis =>
      obtain ⟨longer, longerEq, headLe, bestLe⟩ := longerOpener_spec best head
      rw [List.foldl_cons, longerEq]
      have throughLonger : entry.1.length ≤ longer.1.length → ∃ chosen,
          later.foldl Kind.longerOpener (some longer) = some chosen ∧
            entry.1.length ≤ chosen.1.length := by
        intro entryLe
        have throughLater : ∃ chosen, later.foldl Kind.longerOpener (some longer) = some chosen ∧
            longer.1.length ≤ chosen.1.length := inductionHypothesis (Or.inr rfl)
        obtain ⟨chosen, chosenEq, longerLe⟩ := throughLater
        exact ⟨chosen, chosenEq, Nat.le_trans entryLe longerLe⟩
      rcases considered with listed | isBest
      · rcases List.mem_cons.mp listed with rfl | inLater
        · exact throughLonger headLe
        · exact inductionHypothesis (Or.inl inLater)
      · exact throughLonger (bestLe entry isBest)

/-- An entry that opens the text is no longer than the chosen one. -/
theorem exists_longestOpener {text : Text} {entry : List Char × Kind}
    (listed : entry ∈ Kind.markupOpeners) (opens : entry.1 <+: text) :
    ∃ chosen, Kind.longestOpener? text = some chosen ∧ entry.1.length ≤ chosen.1.length := by
  have matched : entry ∈ Kind.markupOpeners.filter fun other => other.1.isPrefixOf text :=
    List.mem_filter.mpr ⟨listed, List.isPrefixOf_iff_prefix.mpr opens⟩
  exact foldl_longerOpener_spec (Or.inl matched)

/-- Openers that fit into a front open the front as they open the text. -/
theorem longestOpener?_take (first : Char) (rest : Text) (count : Nat)
    (fits : ∀ entry ∈ Kind.longestOpener? (first :: rest), entry.1.length ≤ count + 1) :
    Kind.longestOpener? (first :: rest.take count) = Kind.longestOpener? (first :: rest) := by
  -- No entry is longer than the chosen one, so the same entries open the front.
  have sameEntries : ∀ entry ∈ Kind.markupOpeners,
      entry.1.isPrefixOf (first :: rest.take count) = entry.1.isPrefixOf (first :: rest) := by
    intro entry listed
    rw [← List.take_succ_cons, Bool.eq_iff_iff, List.isPrefixOf_iff_prefix,
      List.isPrefixOf_iff_prefix, List.prefix_take_iff]
    constructor
    · exact And.left
    · intro opens
      obtain ⟨chosen, chosenEq, entryLe⟩ := exists_longestOpener listed opens
      exact ⟨opens, Nat.le_trans entryLe (fits chosen chosenEq)⟩
  rw [Kind.longestOpener?, Kind.longestOpener?, List.filter_congr sameEntries]

theorem local_markup : Local markup? := by
  intro first rest count fits
  unfold markup? at fits ⊢
  split
  · next isSign =>
      rw [if_pos isSign] at fits
      have openersFit : ∀ entry ∈ Kind.longestOpener? (first :: rest),
          entry.1.length ≤ count + 1 := by
        intro entry found
        rw [show Kind.longestOpener? (first :: rest) = some entry from found] at fits
        have within : entry.1.length - 1 ≤ count := fits _ rfl
        omega
      rw [longestOpener?_take first rest count openersFit]
      cases found : Kind.longestOpener? (first :: rest) with
      | some entry => rfl
      | none =>
          rw [found] at fits
          dsimp only at fits ⊢
          by_cases brace : ∃ body, rest = '\x7b' :: body
          · obtain ⟨body, rfl⟩ := brace
            cases count with
            | zero => exact absurd (fits _ rfl) (by simp)
            | succ count => rfl
          · split
            · next body front => exact absurd (exists_cons_of_take_eq_cons front) brace
            · split
              · next body _ => exact absurd ⟨body, rfl⟩ brace
              · rfl
  · rfl

theorem local_word : Local word? := by
  intro first rest count fits
  unfold word? at fits ⊢
  split
  · next isStart =>
      rw [if_pos isStart] at fits
      have within : runLength isWordPart rest ≤ count := fits _ rfl
      rw [localLength_runLength isWordPart rest count within]
      simp only [List.take_take, Nat.min_eq_left within]
  · rfl

/-! ## All rules -/

theorem local_of_mem_rules : ∀ rule ∈ rules, Local rule := by
  simp only [rules, List.mem_cons, List.not_mem_nil, or_false]
  rintro rule (rfl | rfl | rfl | rfl | rfl | rfl | rfl | rfl)
  · exact local_blank
  · exact local_lineComment
  · exact local_blockComment
  · exact local_string
  · exact local_number
  · exact local_operator
  · exact local_markup
  · exact local_word

/-- Trying local rules in order is local. -/
theorem local_findSome? {tried : List (Char → Text → Option Munch)}
    (eachLocal : ∀ rule ∈ tried, Local rule) :
    Local fun first rest => tried.findSome? fun rule => rule first rest := by
  intro first rest count fits
  induction tried with
  | nil => rfl
  | cons rule later inductionHypothesis =>
      have ruleLocal := eachLocal rule (List.mem_cons_self ..)
      have laterLocal := fun other member => eachLocal other (List.mem_cons_of_mem rule member)
      simp only [List.findSome?_cons] at fits ⊢
      cases found : rule first rest with
      | some lexeme =>
          rw [found] at fits
          rw [ruleLocal first rest count (by rw [found]; exact fits), found]
      | none =>
          rw [found] at fits
          rw [ruleLocal first rest count (by simp [found]), found]
          exact inductionHypothesis laterLocal fits

/-- A lexeme is the same in every front of the text that holds it. -/
theorem munch_take {first : Char} {rest : Text} {count : Nat}
    (fits : (munch first rest).extra ≤ count) :
    munch first (rest.take count) = munch first rest := by
  have sameAnswer : rules.findSome? (fun rule => rule first (rest.take count)) =
      rules.findSome? fun rule => rule first rest := by
    apply local_findSome? local_of_mem_rules
    intro lexeme found
    rw [munch, show rules.findSome? (fun rule => rule first rest) = some lexeme from found] at fits
    exact fits
  rw [munch, munch, sameAnswer]

end TemplateFrontend.Lexeme
