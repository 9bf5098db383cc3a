import TemplateFrontend.Proofs.Lexeme.Malformed
import TemplateFrontend.Proofs.Lexeme.Numbers

/-!
Contract: tokens other than strings and comments are the longest ones of their class.

Owns:
- `TokenClass`, spellings with their kinds, and the classes in the order in which they
  are looked for;
- `FirstMunches`, the longest spelling of the first class that has one at the front;
- `Recognizes`, a rule that finds the longest spelling of a class, with one lemma for
  each rule;
- `firstMunches_munch`, which puts the rules together.

The rules look for operators before words and markup. The three have no first character
in common, so that their order does not matter.
-/

namespace TemplateFrontend.Lexeme

/-! ## Classes -/

/-- The spellings of a class, each with its kind. -/
abbrev TokenClass := Text → Kind → Prop

namespace TokenClass

def ofWords (words : Language Char) (kind : Kind) : TokenClass :=
  fun spelling found => spelling ∈ words ∧ found = kind

def ofTable (table : List (Text × Kind)) : TokenClass :=
  fun spelling kind => (spelling, kind) ∈ table

/-- A spelling of the class stands at the front. -/
def Opens (tokenClass : TokenClass) (ahead : Text) : Prop :=
  ∃ spelling kind, tokenClass spelling kind ∧ spelling <+: ahead

/-- The longest spelling of the class that stands at the front. -/
structure Munches (tokenClass : TokenClass) (ahead spelling : Text) (kind : Kind) : Prop where
  listed : tokenClass spelling kind
  front : spelling <+: ahead
  longest : ∀ other otherKind, tokenClass other otherKind → other <+: ahead →
    other.length ≤ spelling.length

/-- The longest spelling of the first class of a row that has one at the front. -/
def FirstMunches : List TokenClass → (ahead spelling : Text) → Kind → Prop
  | [], _, _, _ => False
  | tokenClass :: later, ahead, spelling, kind =>
      tokenClass.Munches ahead spelling kind ∨
        ¬ tokenClass.Opens ahead ∧ FirstMunches later ahead spelling kind

end TokenClass

open TokenClass (ofWords ofTable FirstMunches)

def blankCharacters : List Char := [' ', '\t', '\n', '\r', '\x0b', '\x0c']

def IsWordStart (char : Char) : Prop :=
  ('A' ≤ char ∧ char ≤ 'Z') ∨ ('a' ≤ char ∧ char ≤ 'z') ∨ char = '_' ∨ char = '$'

def IsWordPart (char : Char) : Prop := IsWordStart char ∨ IsDigit char

def operatorSpellings : List (Text × Kind) :=
  [(['=', '='], .equal), (['!', '='], .notEqual), (['<', '='], .lessEqual),
   (['>', '='], .greaterEqual), (['&', '&'], .ampAmp), (['|', '|'], .pipePipe),
   (['='], .assign), (['!'], .bang), (['<'], .less), (['>'], .greater), (['+'], .plus),
   (['-'], .minus), (['*'], .star), (['/'], .slash), (['%'], .percent), (['.'], .dot),
   ([','], .comma), ([';'], .semicolon), (['('], .leftParen), ([')'], .rightParen),
   (['['], .leftBracket), ([']'], .rightBracket), (['\x7b'], .leftBrace),
   (['\x7d'], .rightBrace), ([':'], .colon), (['?'], .question)]

def blanks : TokenClass := ofWords (run (· ∈ blankCharacters) (· ∈ blankCharacters)) .whitespace

/-- Words are reserved as a whole, or they are names. -/
def words : TokenClass := fun spelling kind =>
  spelling ∈ run IsWordStart IsWordPart ∧
    ((spelling, kind) ∈ Kind.reservedWords ∨
      (∀ reserved, (spelling, reserved) ∉ Kind.reservedWords) ∧ kind = .identifier)

/-- The classes in the order in which they are looked for. Any one character is left for
the last of them. -/
def tokenClasses : List TokenClass :=
  [blanks, ofWords numbers .number, words, ofTable Kind.markupOpeners,
   ofTable [(['@', '\x7b'], .markupOpen)], ofTable [(['@'], .atSign)],
   ofTable operatorSpellings, ofWords (oneOf fun _ => True) .error]

theorem isBlank_iff (char : Char) : isBlank char = true ↔ char ∈ blankCharacters := by
  simp [isBlank, blankCharacters, or_assoc]

theorem isAlpha_iff (char : Char) :
    char.isAlpha = true ↔ ('A' ≤ char ∧ char ≤ 'Z') ∨ ('a' ≤ char ∧ char ≤ 'z') := by
  have alphaEq : char.isAlpha = (decide ('A'.val ≤ char.val ∧ char.val ≤ 'Z'.val) ||
      (decide ('a'.val ≤ char.val) && decide (char.val ≤ 'z'.val))) := rfl
  rw [alphaEq]
  simp [Char.le_def]

theorem isWordStart_iff (char : Char) : isWordStart char = true ↔ IsWordStart char := by
  simp [isWordStart, IsWordStart, isAlpha_iff, or_assoc]

theorem isWordPart_iff (char : Char) : isWordPart char = true ↔ IsWordPart char := by
  rw [IsWordPart, ← isWordStart_iff, ← isDigit_iff]
  simp only [isWordPart, isWordStart, Char.isAlphanum, Bool.or_eq_true]
  tauto

/-! ## Rules and classes -/

/-- The rule finds the longest spelling of the class, and none only where there is none. -/
structure Recognizes (rule : Char → Text → Option Munch) (tokenClass : TokenClass) : Prop where
  munches : ∀ {first rest lexeme}, rule first rest = some lexeme →
    tokenClass.Munches (first :: rest) (first :: rest.take lexeme.extra) lexeme.kind
  opens : ∀ {first rest}, rule first rest = none → ¬ tokenClass.Opens (first :: rest)

/-- Trying rules in order finds the longest spelling of the first class that has one. -/
theorem firstMunches_of_findSome? {rules : List (Char → Text → Option Munch)}
    {classes : List TokenClass} (each : List.Forall₂ Recognizes rules classes) {first : Char}
    {rest : Text} {lexeme : Munch}
    (found : (rules.findSome? fun rule => rule first rest) = some lexeme) :
    FirstMunches classes (first :: rest) (first :: rest.take lexeme.extra) lexeme.kind := by
  induction each with
  | nil => cases found
  | @cons rule tokenClass later laterClasses recognizes _ inductionHypothesis =>
      rw [List.findSome?_cons] at found
      cases ruleEq : rule first rest with
      | some other =>
          rw [ruleEq] at found
          cases found
          exact Or.inl (recognizes.munches ruleEq)
      | none =>
          rw [ruleEq] at found
          exact Or.inr ⟨recognizes.opens ruleEq, inductionHypothesis found⟩

section Greedy

variable {tokenClass : TokenClass} {words : Language Char} {inner : Char → Prop} {first : Char}
  {rest : Text}

theorem Greedy.spelling_mem {extra : Nat}
    (greedy : Greedy words inner (first :: rest) (1 + extra)) :
    first :: rest.take extra ∈ words := by
  have belongs := greedy.belongs
  rwa [Nat.add_comm, List.take_succ_cons] at belongs

/-- The longest word of a language is the longest spelling of a class of such words. -/
theorem Greedy.munches {extra : Nat} {kind : Kind}
    (greedy : Greedy words inner (first :: rest) (1 + extra))
    (listed : tokenClass (first :: rest.take extra) kind)
    (each : ∀ spelling found, tokenClass spelling found → spelling ∈ words) :
    tokenClass.Munches (first :: rest) (first :: rest.take extra) kind where
  listed := listed
  front := List.cons_prefix_cons.mpr ⟨rfl, List.take_prefix extra rest⟩
  longest := by
    intro other otherKind otherListed isFront
    have within := greedy.length_le (each other otherKind otherListed) isFront
    have fits := greedy.fits
    rw [List.length_cons] at fits
    rw [List.length_cons, List.length_take]
    omega

theorem NoFront.not_opens (nothing : NoFront words (first :: rest))
    (each : ∀ spelling found, tokenClass spelling found → spelling ∈ words) :
    ¬ tokenClass.Opens (first :: rest) := by
  rintro ⟨spelling, kind, listed, later, textEq⟩
  exact nothing spelling later (each spelling kind listed) textEq.symm

end Greedy

/-! ## Blanks, numbers and words -/

theorem recognizes_blank : Recognizes blank? blanks where
  munches := by
    intro first rest lexeme found
    unfold blank? at found
    split at found
    · next isBlankFirst =>
        cases found
        have greedy : Greedy (run (· ∈ blankCharacters) (· ∈ blankCharacters)) (· ∈ blankCharacters)
            (first :: rest) (1 + runLength isBlank rest) :=
          greedy_run isBlank_iff ((isBlank_iff first).mp isBlankFirst)
        exact greedy.munches ⟨greedy.spelling_mem, rfl⟩ fun _ _ => And.left
    · cases found
  opens := by
    intro first rest missing
    unfold blank? at missing
    split at missing
    · cases missing
    · next notBlank =>
        rw [isBlank_iff] at notBlank
        exact NoFront.not_opens (noFront_oneOf notBlank).mul fun _ _ => And.left

theorem recognizes_number : Recognizes number? (ofWords numbers .number) where
  munches := by
    intro first rest lexeme found
    obtain ⟨length, lengthEq, rfl⟩ := Option.map_eq_some_iff.mp found
    have greedy := greedy_numbers lengthEq
    exact greedy.munches ⟨greedy.spelling_mem, rfl⟩ fun _ _ => And.left
  opens := by
    intro first rest missing
    exact (noFront_numbers (Option.map_eq_none_iff.mp missing)).not_opens fun _ _ => And.left

theorem recognizes_word : Recognizes word? words where
  munches := by
    intro first rest lexeme found
    unfold word? at found
    split at found
    · next isStart =>
        cases found
        have greedy : Greedy (run IsWordStart IsWordPart) IsWordPart (first :: rest)
            (1 + runLength isWordPart rest) :=
          greedy_run isWordPart_iff ((isWordStart_iff first).mp isStart)
        refine greedy.munches ⟨greedy.spelling_mem, ?_⟩ fun _ _ => And.left
        dsimp only
        cases reserved : Kind.ofReservedWord? (first :: rest.take (runLength isWordPart rest)) with
        | some kind =>
            left
            obtain ⟨front, back, tableEq, _⟩ := List.lookup_eq_some_iff.mp reserved
            rw [tableEq]
            simp
        | none =>
            right
            refine ⟨fun kind listed => ?_, rfl⟩
            have different := List.lookup_eq_none_iff.mp reserved _ listed
            simp at different
    · cases found
  opens := by
    intro first rest missing
    unfold word? at missing
    split at missing
    · cases missing
    · next notStart =>
        rw [isWordStart_iff] at notStart
        exact NoFront.not_opens (noFront_oneOf notStart).mul fun _ _ => And.left

/-! ## Markup, operators and strays -/

/-- A spelling of a table that is no shorter than any other one at the front. -/
theorem munches_of_prefix {table : List (Text × Kind)} {spelling : Text} {kind : Kind}
    {first : Char} {rest : Text} (listed : (spelling, kind) ∈ table) (nonempty : spelling ≠ [])
    (isFront : spelling <+: first :: rest)
    (longest : ∀ other otherKind, (other, otherKind) ∈ table → other <+: first :: rest →
      other.length ≤ spelling.length) :
    (ofTable table).Munches (first :: rest) (first :: rest.take (spelling.length - 1)) kind := by
  cases spelling with
  | nil => exact absurd rfl nonempty
  | cons head tail =>
      obtain ⟨rfl, tailFront⟩ := List.cons_prefix_cons.mp isFront
      have tailEq : rest.take tail.length = tail := (List.prefix_iff_eq_take.mp tailFront).symm
      rw [List.length_cons, Nat.add_sub_cancel, tailEq]
      exact { listed, front := isFront, longest }

theorem longestOpener?_eq_some {ahead : Text} {entry : Text × Kind}
    (found : Kind.longestOpener? ahead = some entry) :
    entry ∈ Kind.markupOpeners ∧ entry.1 <+: ahead ∧
      ∀ other ∈ Kind.markupOpeners, other.1 <+: ahead → other.1.length ≤ entry.1.length := by
  rcases mem_of_foldl_longerOpener found with member | impossible
  · obtain ⟨listed, isFront⟩ := List.mem_filter.mp member
    refine ⟨listed, List.isPrefixOf_iff_prefix.mp isFront, ?_⟩
    intro other otherListed otherFront
    obtain ⟨chosen, chosenEq, within⟩ := exists_longestOpener otherListed otherFront
    cases chosenEq.symm.trans found
    exact within
  · cases impossible

theorem longestOpener?_eq_none {ahead : Text} (missing : Kind.longestOpener? ahead = none) :
    ∀ entry ∈ Kind.markupOpeners, ¬ entry.1 <+: ahead := by
  intro entry listed isFront
  obtain ⟨chosen, chosenEq, _⟩ := exists_longestOpener listed isFront
  cases missing.symm.trans chosenEq

/-- No spelling of the table is the front of another one. -/
theorem markupOpener_unique {ahead : Text} {entry other : Text × Kind}
    (listed : entry ∈ Kind.markupOpeners) (otherListed : other ∈ Kind.markupOpeners)
    (isFront : entry.1 <+: ahead) (otherFront : other.1 <+: ahead) : entry = other := by
  have apart : ∀ left ∈ Kind.markupOpeners, ∀ right ∈ Kind.markupOpeners,
      left.1.isPrefixOf right.1 = true → left = right := by decide
  rcases List.prefix_or_prefix_of_prefix isFront otherFront with shorter | longer
  · exact apart entry listed other otherListed (List.isPrefixOf_iff_prefix.mpr shorter)
  · exact (apart other otherListed entry listed (List.isPrefixOf_iff_prefix.mpr longer)).symm

def namedOpener? (first : Char) (rest : Text) : Option Munch :=
  (Kind.longestOpener? (first :: rest)).map fun entry => ⟨entry.2, entry.1.length - 1⟩

def literal? (spelling : Text) (kind : Kind) (first : Char) (rest : Text) : Option Munch :=
  if spelling.isPrefixOf (first :: rest) then some ⟨kind, spelling.length - 1⟩ else none

/-- A single character that nothing else begins. -/
def stray? (_first : Char) (_rest : Text) : Option Munch := some ⟨.error, 0⟩

theorem recognizes_namedOpener : Recognizes namedOpener? (ofTable Kind.markupOpeners) where
  munches := by
    intro first rest lexeme found
    have nonempty : ∀ entry ∈ Kind.markupOpeners, entry.1 ≠ [] := by decide
    obtain ⟨entry, entryEq, rfl⟩ := Option.map_eq_some_iff.mp found
    obtain ⟨listed, isFront, longest⟩ := longestOpener?_eq_some entryEq
    exact munches_of_prefix listed (nonempty entry listed) isFront
      fun other otherKind otherListed => longest (other, otherKind) otherListed
  opens := by
    rintro first rest missing ⟨spelling, kind, listed, isFront⟩
    exact longestOpener?_eq_none (Option.map_eq_none_iff.mp missing) _ listed isFront

theorem recognizes_literal {spelling : Text} (kind : Kind) (nonempty : spelling ≠ []) :
    Recognizes (literal? spelling kind) (ofTable [(spelling, kind)]) where
  munches := by
    intro first rest lexeme found
    unfold literal? at found
    split at found
    · next isFront =>
        cases found
        refine munches_of_prefix (List.mem_singleton.mpr rfl) nonempty
          (List.isPrefixOf_iff_prefix.mp isFront) ?_
        intro other otherKind otherListed _
        cases List.mem_singleton.mp otherListed
        exact Nat.le_refl _
    · cases found
  opens := by
    rintro first rest missing ⟨other, otherKind, listed, isFront⟩
    cases List.mem_singleton.mp listed
    unfold literal? at missing
    rw [if_pos (List.isPrefixOf_iff_prefix.mpr isFront)] at missing
    cases missing

theorem mem_of_doubled? {first second : Char} {kind : Kind}
    (found : doubled? first second = some kind) : ([first, second], kind) ∈ operatorSpellings := by
  unfold doubled? at found
  split at found <;> cases found <;> decide

theorem mem_of_single? {char : Char} {kind : Kind} (found : single? char = some kind) :
    ([char], kind) ∈ operatorSpellings := by
  unfold single? at found
  split at found <;> cases found <;> decide

/-- The rules for one character and for two find the entry. -/
def findsEntry : Text × Kind → Bool
  | ([char], kind) => single? char = some kind
  | ([first, second], kind) => doubled? first second = some kind
  | _ => false

theorem findsEntry_of_mem : ∀ entry ∈ operatorSpellings, findsEntry entry = true := by decide

/-- An operator at the front is one character or two. -/
theorem operator_cases {spelling : Text} {kind : Kind} {first : Char} {rest : Text}
    (listed : (spelling, kind) ∈ operatorSpellings) (isFront : spelling <+: first :: rest) :
    spelling = [first] ∧ single? first = some kind ∨
      ∃ second later, rest = second :: later ∧ spelling = [first, second] ∧
        doubled? first second = some kind := by
  have finds := findsEntry_of_mem _ listed
  unfold findsEntry at finds
  split at finds
  · next char found entryEq =>
      cases entryEq
      obtain ⟨rfl, _⟩ := List.cons_prefix_cons.mp isFront
      exact Or.inl ⟨rfl, of_decide_eq_true finds⟩
  · next head second found entryEq =>
      cases entryEq
      obtain ⟨rfl, later, restEq⟩ := List.cons_prefix_cons.mp isFront
      exact Or.inr ⟨second, later, restEq.symm, rfl, of_decide_eq_true finds⟩
  · cases finds

theorem recognizes_operator : Recognizes operator? (ofTable operatorSpellings) where
  munches := by
    intro first rest lexeme found
    unfold operator? at found
    split at found
    · next kind both =>
        cases found
        obtain ⟨second, isSecond, doubled⟩ := Option.bind_eq_some_iff.mp both
        obtain ⟨later, rfl⟩ := List.head?_eq_some_iff.mp isSecond
        refine munches_of_prefix (mem_of_doubled? doubled) (List.cons_ne_nil _ _) ⟨later, rfl⟩ ?_
        intro other otherKind listed isFront
        rcases operator_cases listed isFront with ⟨rfl, _⟩ | ⟨_, _, _, rfl, _⟩
        · exact Nat.le_succ 1
        · exact Nat.le_refl 2
    · next notBoth =>
        obtain ⟨kind, single, rfl⟩ := Option.map_eq_some_iff.mp found
        refine munches_of_prefix (mem_of_single? single) (List.cons_ne_nil _ _) ⟨rest, rfl⟩ ?_
        intro other otherKind listed isFront
        rcases operator_cases listed isFront with ⟨rfl, _⟩ | ⟨_, _, rfl, rfl, doubled⟩
        · exact Nat.le_refl 1
        · cases notBoth.symm.trans doubled
  opens := by
    rintro first rest missing ⟨spelling, kind, listed, isFront⟩
    unfold operator? at missing
    split at missing
    · cases missing
    · next notBoth =>
        rcases operator_cases listed isFront with ⟨_, single⟩ | ⟨_, _, rfl, _, doubled⟩
        · cases single.symm.trans (Option.map_eq_none_iff.mp missing)
        · cases notBoth.symm.trans doubled

theorem recognizes_stray : Recognizes stray? (ofWords (oneOf fun _ => True) .error) where
  munches := by
    intro first rest lexeme found
    cases found
    have greedy : Greedy (oneOf fun _ => True) (fun _ => False) (first :: rest) (1 + 0) :=
      greedy_oneOf trivial
    exact greedy.munches ⟨greedy.spelling_mem, rfl⟩ fun _ _ => And.left
  opens := nofun

/-! ## All classes together -/

/-- One rule for each of `tokenClasses`. -/
def classRules : List (Char → Text → Option Munch) :=
  [blank?, number?, word?, namedOpener?, literal? ['@', '\x7b'] .markupOpen,
   literal? ['@'] .atSign, operator?, stray?]

theorem recognizes_classes : List.Forall₂ Recognizes classRules tokenClasses :=
  .cons recognizes_blank <| .cons recognizes_number <| .cons recognizes_word <|
  .cons recognizes_namedOpener <|
  .cons (recognizes_literal .markupOpen (List.cons_ne_nil _ _)) <|
  .cons (recognizes_literal .atSign (List.cons_ne_nil _ _)) <|
  .cons recognizes_operator <| .cons recognizes_stray .nil

/-- Operators have no first character in common with words and markup. -/
theorem operator?_eq_none {first : Char} (other : isWordStart first = true ∨ first = '@')
    (rest : Text) : operator? first rest = none := by
  have apart : ∀ entry ∈ operatorSpellings,
      (entry.1.head?.all fun head => !isWordStart head && head != '@') = true := by decide
  cases found : operator? first rest with
  | none => rfl
  | some lexeme =>
      have isApart := apart _ (recognizes_operator.munches found).listed
      rcases other with isStart | rfl
      · simp [isStart] at isApart
      · simp at isApart

theorem namedOpener?_eq_none {first : Char} (notSign : first ≠ '@') (rest : Text) :
    namedOpener? first rest = none := by
  have signed : ∀ entry ∈ Kind.markupOpeners, entry.1.head? = some '@' := by decide
  cases found : namedOpener? first rest with
  | none => rfl
  | some lexeme =>
      have isSigned := signed _ (recognizes_namedOpener.munches found).listed
      exact absurd (Option.some.inj isSigned) notSign

theorem literal?_eq_none {first head : Char} (different : first ≠ head) (rest tail : Text)
    (kind : Kind) : literal? (head :: tail) kind first rest = none :=
  if_neg fun isFront =>
    different (List.cons_prefix_cons.mp (List.isPrefixOf_iff_prefix.mp isFront)).1.symm

theorem literal?_brace {rest : Text} (noBrace : ∀ later, rest ≠ '\x7b' :: later) (kind : Kind) :
    literal? ['@', '\x7b'] kind '@' rest = none := by
  refine if_neg fun isFront => ?_
  obtain ⟨_, later, restEq⟩ := List.cons_prefix_cons.mp (List.isPrefixOf_iff_prefix.mp isFront)
  exact noBrace later restEq.symm

/-- The rule for markup tries the named openers, the anonymous one and the plain sign. -/
theorem markup?_sign (rest : Text) :
    markup? '@' rest = [namedOpener?, literal? ['@', '\x7b'] .markupOpen,
      literal? ['@'] .atSign].findSome? fun rule => rule '@' rest := by
  simp only [markup?, if_pos, List.findSome?_cons, namedOpener?]
  cases Kind.longestOpener? ('@' :: rest) with
  | some entry => rfl
  | none =>
      dsimp only [Option.map_none]
      split
      · rfl
      · next noBrace =>
          rw [literal?_brace noBrace]
          rfl

/-- Where no string and no comment begins, the rules for the classes find the lexeme. -/
theorem findSome?_classRules {first : Char} {rest : Text}
    (noLine : lineComment? first rest = none) (noBlock : blockComment? first rest = none)
    (noString : string? first rest = none) :
    (classRules.findSome? fun rule => rule first rest) = some (munch first rest) := by
  simp only [munch, rules, classRules, List.findSome?_cons, noLine, noBlock, noString]
  cases blank? first rest with
  | some lexeme => rfl
  | none =>
      cases number? first rest with
      | some lexeme => rfl
      | none =>
          by_cases isSign : first = '@'
          · subst isSign
            rw [operator?_eq_none (Or.inr rfl), markup?_sign, show word? '@' rest = none from rfl]
            simp only [List.findSome?_cons]
            cases namedOpener? '@' rest with
            | some lexeme => rfl
            | none => cases literal? ['@', '\x7b'] .markupOpen '@' rest <;> rfl
          · have noMarkup : markup? first rest = none := if_neg isSign
            rw [namedOpener?_eq_none isSign, literal?_eq_none isSign, literal?_eq_none isSign,
              noMarkup]
            by_cases isStart : isWordStart first = true
            · rw [operator?_eq_none (Or.inl isStart), word?, if_pos isStart]
              rfl
            · rw [word?, if_neg isStart]
              cases operator? first rest <;> rfl

/-- Where no string and no comment begins, the lexeme is the longest one of its class. -/
theorem firstMunches_munch {first : Char} {rest : Text} (notOpen : isOpen (first :: rest) = false)
    (notLine : ¬ ['/', '/'] <+: first :: rest) :
    FirstMunches tokenClasses (first :: rest) (first :: rest.take (munch first rest).extra)
      (munch first rest).kind := by
  obtain ⟨notQuote, notComment⟩ := Bool.or_eq_false_iff.mp notOpen
  have noString : string? first rest = none := if_neg (Bool.eq_false_iff.mp notQuote)
  have noBlock : blockComment? first rest = none := by
    apply blockComment?_eq_none
    rintro rfl body rfl
    cases notComment
  have noLine : lineComment? first rest = none := by
    apply lineComment?_eq_none
    rintro rfl body rfl
    exact notLine ⟨body, rfl⟩
  exact firstMunches_of_findSome? recognizes_classes (findSome?_classRules noLine noBlock noString)

end TemplateFrontend.Lexeme
