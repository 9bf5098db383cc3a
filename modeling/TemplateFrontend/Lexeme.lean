import TemplateFrontend.Kind.Opener
import TemplateFrontend.Kind.Reserved
import TemplateFrontend.Text.Slice

/-!
Contract: where the token that starts at a given character ends, and its kind.

Owns:
- one rule per class of token: blanks, comments, strings, numbers, operators,
  markup openers and words;
- `Lexeme.munch`, which applies the first rule that matches and otherwise
  makes one character an error.

A rule sees the first character apart from the text after it and answers with
a kind and the number of further characters. So a lexeme is never empty, and
no rule can answer with a character that is not there.

Only ASCII characters begin or continue a class; every other character is
content of a string or comment, or an error of its own.
-/

namespace TemplateFrontend.Lexeme

/-- A kind and how many characters after the first one belong to the lexeme. -/
structure Munch where
  kind : Kind
  extra : Nat
deriving DecidableEq, Repr

def isBlank (char : Char) : Bool :=
  char = ' ' || char = '\t' || char = '\n' || char = '\r' || char = '\x0b' || char = '\x0c'

def isQuote (char : Char) : Bool := char = '"' || char = '\''

def isWordStart (char : Char) : Bool := char.isAlpha || char = '_' || char = '$'

def isWordPart (char : Char) : Bool := char.isAlphanum || char = '_' || char = '$'

/-- Number of characters before the first one that fails the test. -/
def runLength (belongs : Char → Bool) (text : Text) : Nat := (text.takeWhile belongs).length

/-! ## Blanks and comments -/

def blank? (first : Char) (rest : Text) : Option Munch :=
  if isBlank first then some ⟨.whitespace, runLength isBlank rest⟩ else none

/-- A line comment stops before the line feed. -/
def lineComment? (first : Char) (rest : Text) : Option Munch :=
  match first, rest with
  | '/', '/' :: _ => some ⟨.lineComment, runLength (· != '\n') rest⟩
  | _, _ => none

/-- Number of characters up to and including the first star and slash in a
row, counted on from `passed`. -/
def commentEnd? : (passed : Nat) → (body : Text) → Option Nat
  | passed, '*' :: '/' :: _ => some (passed + 2)
  | passed, _ :: body => commentEnd? (passed + 1) body
  | _, [] => none

/-- A block comment that is not closed is an error up to the end. -/
def blockComment? (first : Char) (rest : Text) : Option Munch :=
  match first, rest with
  | '/', '*' :: body =>
      match commentEnd? 1 body with
      | some extra => some ⟨.blockComment, extra⟩
      | none => some ⟨.error, rest.length⟩
  | _, _ => none

/-! ## Strings -/

/-- Number of characters up to and including the closing quote, counted on
from `passed`. A backslash hides the character after it. -/
def stringEnd? (quote : Char) : (passed : Nat) → (body : Text) → Option Nat
  | passed, '\\' :: _ :: body => stringEnd? quote (passed + 2) body
  | passed, char :: body =>
      if char = quote then some (passed + 1) else stringEnd? quote (passed + 1) body
  | _, [] => none

/-- A string that is not closed is an error up to the end. -/
def string? (first : Char) (rest : Text) : Option Munch :=
  if isQuote first then
    match stringEnd? first 0 rest with
    | some extra => some ⟨.string, extra⟩
    | none => some ⟨.error, rest.length⟩
  else
    none

/-! ## Numbers -/

def digitRun (text : Text) : Nat := runLength Char.isDigit text

/-- A dot and any digits after it; zero when there is no dot. -/
def fractionLength : Text → Nat
  | '.' :: rest => 1 + digitRun rest
  | _ => 0

def signLength : Text → Nat
  | char :: _ => if char = '+' || char = '-' then 1 else 0
  | [] => 0

/-- The exponent mark, an optional sign and digits; zero when no digit
follows, since the mark then begins a word. -/
def exponentLength : Text → Nat
  | mark :: rest =>
      if mark = 'e' || mark = 'E' then
        let sign := signLength rest
        let digits := digitRun (rest.drop sign)
        if digits = 0 then 0 else 1 + sign + digits
      else
        0
  | [] => 0

/-- One letter may name the type of a number. -/
def suffixLength : Text → Nat
  | char :: _ => if "fFdDlL".toList.contains char then 1 else 0
  | [] => 0

/-- What may follow the mantissa of a number: an exponent, then a type. -/
def numberTailLength (text : Text) : Nat :=
  let exponent := exponentLength text
  exponent + suffixLength (text.drop exponent)

/-- The further characters of the mantissa when `first` begins a number: a
digit does, and so does a dot before a digit. -/
def mantissa? (first : Char) (rest : Text) : Option Nat :=
  if first.isDigit then
    let whole := digitRun rest
    some (whole + fractionLength (rest.drop whole))
  else if first = '.' && digitRun rest != 0 then
    some (digitRun rest)
  else
    none

def number? (first : Char) (rest : Text) : Option Munch :=
  (mantissa? first rest).map fun mantissa =>
    ⟨.number, mantissa + numberTailLength (rest.drop mantissa)⟩

/-! ## Operators and punctuation -/

def doubled? : (first second : Char) → Option Kind
  | '=', '=' => some .equal
  | '!', '=' => some .notEqual
  | '<', '=' => some .lessEqual
  | '>', '=' => some .greaterEqual
  | '&', '&' => some .ampAmp
  | '|', '|' => some .pipePipe
  | _, _ => none

def single? : Char → Option Kind
  | '=' => some .assign
  | '!' => some .bang
  | '<' => some .less
  | '>' => some .greater
  | '+' => some .plus
  | '-' => some .minus
  | '*' => some .star
  | '/' => some .slash
  | '%' => some .percent
  | '.' => some .dot
  | ',' => some .comma
  | ';' => some .semicolon
  | '(' => some .leftParen
  | ')' => some .rightParen
  | '[' => some .leftBracket
  | ']' => some .rightBracket
  | '\x7b' => some .leftBrace
  | '\x7d' => some .rightBrace
  | ':' => some .colon
  | '?' => some .question
  | _ => none

/-- Two characters win over one. -/
def operator? (first : Char) (rest : Text) : Option Munch :=
  match rest.head?.bind (doubled? first) with
  | some kind => some ⟨kind, 1⟩
  | none => (single? first).map fun kind => ⟨kind, 0⟩

/-! ## Markup and words -/

/-- An at sign begins a named opener, the anonymous opener, or stands alone. -/
def markup? (first : Char) (rest : Text) : Option Munch :=
  if first = '@' then
    match Kind.longestOpener? (first :: rest) with
    | some (spelling, kind) => some ⟨kind, spelling.length - 1⟩
    | none =>
        match rest with
        | '\x7b' :: _ => some ⟨.markupOpen, 1⟩
        | _ => some ⟨.atSign, 0⟩
  else
    none

/-- A word is reserved as a whole or a plain name. -/
def word? (first : Char) (rest : Text) : Option Munch :=
  if isWordStart first then
    let extra := runLength isWordPart rest
    let kind := (Kind.ofReservedWord? (first :: rest.take extra)).getD .identifier
    some ⟨kind, extra⟩
  else
    none

/-! ## All classes together -/

/-- The rules in the order in which they are tried. -/
def rules : List (Char → Text → Option Munch) :=
  [blank?, lineComment?, blockComment?, string?, number?, operator?, markup?, word?]

/-- The lexeme that starts at `first`; one character that fits no rule is an
error. -/
def munch (first : Char) (rest : Text) : Munch :=
  (rules.findSome? fun rule => rule first rest).getD ⟨.error, 0⟩

end TemplateFrontend.Lexeme
