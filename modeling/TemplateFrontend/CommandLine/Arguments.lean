import TemplateFrontend.Limits
import TemplateFrontend.Text.Slice

/-!
Contract: what a list of command-line arguments asks for.

The first argument names a command or asks for the version. The arguments of a
command are one path and, where the command parses, the two primary ceilings,
in any order and each at most once. A double dash ends the options. Every
other list of arguments is a usage error.
-/

namespace TemplateFrontend.CommandLine

inductive Action where
  | tokens
  | parse (limits : Limits)
  | check (limits : Limits)
deriving DecidableEq, Repr

structure Command where
  action : Action
  path : Text
deriving DecidableEq, Repr

/-- What the program is asked to do. -/
inductive Invocation where
  | version
  | run (command : Command)
  | usageError
deriving DecidableEq, Repr

/-! ## Numbers -/

/-- The value of decimal digits; `none` where another character occurs. -/
def digitsValue? (value : Nat) : Text → Option Nat
  | [] => some value
  | digit :: later =>
      if digit.isDigit then digitsValue? (10 * value + (digit.toNat - '0'.toNat)) later
      else none

/-- A ceiling is written with digits, leading zeros allowed, after an optional
plus sign, and is a word of 32 bits. -/
def ceiling? (written : Text) : Option Nat :=
  let digits := if written.head? = some '+' then written.tail else written
  match digits with
  | [] => none
  | _ => (digitsValue? 0 digits).filter (· ≤ Limits.greatest)

/-! ## Options -/

inductive Primary where
  | depth
  | iterations
deriving DecidableEq, Repr

def Primary.optionName : Primary → Text
  | .depth => "--max-depth".toList
  | .iterations => "--max-iterations".toList

def attachedValue? (name argument : Text) : Option Text :=
  if (name ++ ['=']).isPrefixOf argument then
    some (argument.drop (name.length + 1))
  else
    none

/-- The ceiling that an argument names as an option, with the value attached to
it, if any. -/
def optionOf? (argument : Text) : Option (Primary × Option Text) :=
  [Primary.depth, Primary.iterations].findSome? fun primary =>
    if argument = primary.optionName then
      some (primary, none)
    else
      (attachedValue? primary.optionName argument).map fun value => (primary, some value)

/-- A lone dash is a path; every longer argument that starts with a dash is an
option. -/
def isOption : Text → Bool
  | '-' :: _ :: _ => true
  | _ => false

/-! ## Arguments of a command -/

structure Given where
  path : Option Text
  depth : Option Nat
  iterations : Option Nat
deriving Repr

namespace Given

def nothing : Given := ⟨none, none, none⟩

/-- A second path is refused. -/
def withPath? (given : Given) (path : Text) : Option Given :=
  match given.path with
  | some _ => none
  | none => some { given with path := some path }

/-- A second value and a value that is no ceiling are refused. -/
def withCeiling? (given : Given) (primary : Primary) (written : Text) : Option Given :=
  match primary, given.depth, given.iterations, ceiling? written with
  | .depth, none, _, some value => some { given with depth := some value }
  | .iterations, _, none, some value => some { given with iterations := some value }
  | _, _, _, _ => none

def limits (given : Given) : Limits :=
  .ofPrimary (given.depth.getD Limits.standard.depth)
    (given.iterations.getD Limits.standard.iterations)

end Given

inductive Expected where
  | anything
  | value (primary : Primary)
  /-- A path; options have ended. -/
  | pathOnly
deriving DecidableEq, Repr

structure Reading where
  given : Given
  expected : Expected
deriving Repr

namespace Reading

def after? (given : Option Given) (expected : Expected) : Option Reading :=
  given.map fun given => ⟨given, expected⟩

/-- Reads an argument where anything can come. `limited` says whether the
command takes options. -/
def readAny? (limited : Bool) (given : Given) (argument : Text) : Option Reading :=
  if argument = "--".toList then
    some ⟨given, .pathOnly⟩
  else if isOption argument then
    match limited, optionOf? argument with
    | true, some (primary, some value) => after? (given.withCeiling? primary value) .anything
    | true, some (primary, none) => some ⟨given, .value primary⟩
    | _, _ => none
  else
    after? (given.withPath? argument) .anything

/-- Reads one argument. A value of its own does not start with a dash. -/
def read? (limited : Bool) (reading : Reading) (argument : Text) : Option Reading :=
  match reading.expected with
  | .anything => readAny? limited reading.given argument
  | .value primary =>
      if argument.head? = some '-' then none
      else after? (reading.given.withCeiling? primary argument) .anything
  | .pathOnly => after? (reading.given.withPath? argument) .pathOnly

def complete? (reading : Reading) : Option Given :=
  match reading.expected with
  | .value _ => none
  | .anything | .pathOnly => some reading.given

end Reading

def given? (limited : Bool) (arguments : List Text) : Option Given := do
  let reading ← arguments.foldlM (Reading.read? limited) ⟨.nothing, .anything⟩
  reading.complete?

def command (limited : Bool) (action : Limits → Action) (arguments : List Text) : Invocation :=
  match given? limited arguments with
  | some given =>
      match given.path with
      | some path => .run ⟨action given.limits, path⟩
      | none => .usageError
  | none => .usageError

/-- The short form of the version option is recognised as soon as it is read,
whatever is attached to it. -/
def asksVersion (argument : Text) : Bool :=
  argument = "--version".toList || "-V".toList.isPrefixOf argument

def Invocation.ofArguments : List Text → Invocation
  | [] => .usageError
  | first :: later =>
      if asksVersion first then .version
      else if first = "tokens".toList then command false (fun _ => .tokens) later
      else if first = "parse".toList then command true .parse later
      else if first = "check".toList then command true .check later
      else .usageError

end TemplateFrontend.CommandLine
