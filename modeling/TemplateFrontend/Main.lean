import TemplateFrontend.CommandLine.Response

/-!
Contract: the program. It reads the file that the arguments name and prints
the response; everything else is decided by `TemplateFrontend.CommandLine`.
-/

namespace TemplateFrontend.CommandLine

/-- The content of the file at a path, or why it could not be read. -/
def readContent (path : Text) : IO (Except ReadFailure Text) := do
  try
    return decoded (← IO.FS.readBinFile (String.ofList path))
  catch failure =>
    match failure with
    | .noFileOrDirectory .. => return .error .missing
    | .inappropriateType .. => return .error .directory
    | other => return .error (.other other.toString.toList)

def Response.print (response : Response) : IO UInt32 := do
  (← IO.getStdout).putStr (String.ofList (written response.output))
  (← IO.getStderr).putStr (String.ofList (written response.errors))
  return response.exitCode.toUInt32

def runProgram (arguments : List String) : IO UInt32 := do
  match Invocation.ofArguments (arguments.map String.toList) with
  | .version => versionResponse.print
  | .usageError => usageResponse.print
  | .run command =>
      let content ← readContent command.path
      match command.respond content with
      | .ok response => response.print
      | .error fault => throw (IO.userError (reprStr fault))

end TemplateFrontend.CommandLine

def main (arguments : List String) : IO UInt32 :=
  TemplateFrontend.CommandLine.runProgram arguments
