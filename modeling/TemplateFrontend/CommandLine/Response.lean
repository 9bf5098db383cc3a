import TemplateFrontend.CommandLine.Arguments
import TemplateFrontend.Parsing
import TemplateFrontend.Report.Rendering
import TemplateFrontend.Tree.Dump

/-!
Contract: what the program prints, and the code it exits with.

A response is computed from the command and the content of its file. Listings
go to the standard output; reports and failures go to the standard error, and
then the exit code is one. A usage error exits with two. How a report is drawn
is up to a renderer; the program draws its reports for a terminal.
-/

namespace TemplateFrontend.CommandLine

inductive ReadFailure where
  | missing
  | directory
  | invalidEncoding
  | other (reason : Text)
deriving DecidableEq, Repr

def ReadFailure.reason : ReadFailure → Text
  | .missing => "No such file or directory (os error 2)".toList
  | .directory => "Is a directory (os error 21)".toList
  | .invalidEncoding => "stream did not contain valid UTF-8".toList
  | .other reason => reason

def decoded (bytes : ByteArray) : Except ReadFailure Text :=
  match String.fromUTF8? bytes with
  | some text => .ok text.toList
  | none => .error .invalidEncoding

structure Response where
  exitCode : Nat
  output : List Text
  errors : List Text
deriving DecidableEq, Repr

namespace Response

def listing (output : List Text) : Response := ⟨0, output, []⟩

def failure (reports : List Text) (message : Text) : Response :=
  ⟨1, [], reports ++ ["Error: ".toList ++ message]⟩

/-- Lines as they are written, each with a line feed after it. -/
def written (lines : List Text) : Text := lines.flatMap (· ++ ['\n'])

end Response

def ticked (text : Text) : Text := "`".toList ++ text ++ "`".toList

def unreadable (path : Text) (failure : ReadFailure) : Response where
  exitCode := 1
  output := []
  errors :=
    ["Error: failed to read ".toList ++ ticked path,
     [],
     "Caused by:".toList,
     "    ".toList ++ failure.reason]

def tokenLines (text : Text) : Except Fault (List Text) := do
  let tokens ← tokenize text text.whole
  tokens.mapM (·.line text)

def treeLines (limits : Limits) (text : Text) : Except Fault (List Text) := do
  let parsed ← parse text text.whole limits
  parsed.tree.dump text

def problems (limits : Limits) (text : Text) : Except Fault (List Diagnostic) := do
  let parsed ← parse text text.whole limits
  parsed.tree.diagnostics text

/-- Draws the lines of the report of a diagnostic of a text, which was read from a
path. -/
abbrev Renderer := (path text : Text) → Diagnostic → List Text

/-- Reports for a terminal, with colours. -/
def styledRenderer : Renderer := fun path text diagnostic => diagnostic.render .styled path text

/-- The response to a check: silence, or every report and their number. -/
def checked (renderer : Renderer) (path text : Text) (diagnostics : List Diagnostic) : Response :=
  match diagnostics with
  | [] => .listing []
  | _ =>
      .failure (diagnostics.flatMap (renderer path text))
        ("found ".toList ++ Nat.toDigits 10 diagnostics.length ++ " problem(s) in ".toList ++
          ticked path)

/-- The response with the reports of a renderer. -/
def Command.respondWith (renderer : Renderer) (command : Command)
    (content : Except ReadFailure Text) : Except Fault Response :=
  match content with
  | .error failure => .ok (unreadable command.path failure)
  | .ok text =>
      match command.action with
      | .tokens => (tokenLines text).map .listing
      | .parse limits => (treeLines limits text).map .listing
      | .check limits => (problems limits text).map (checked renderer command.path text)

def Command.respond : Command → Except ReadFailure Text → Except Fault Response :=
  Command.respondWith styledRenderer

def versionResponse : Response := .listing ["mvel 0.1.0".toList]

def usageResponse : Response :=
  ⟨2, [], ["usage: (tokens | parse | check) PATH".toList]⟩

end TemplateFrontend.CommandLine
