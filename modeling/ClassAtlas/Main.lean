import ClassAtlas.Command.Run

/-!
The program: it reads the snapshot from the disk, prints what the command line asks for, and ends with
the exit code of the outcome. It has no listener of its own, so serving fails when it comes to that.
-/

namespace ClassAtlas

/-- Why the system could not read a file. A path through a file fails to open; a directory opens and
fails to be read, which is reported without its name. -/
def readFailure : IO.Error → ReadFailure
  | .inappropriateType (some _) _ _ => .notDirectory
  | .inappropriateType none _ _ => .isDirectory
  | _ => .notFound

def readText (path : String) : IO FileText := do
  try
    return FileText.ofBytes (← IO.FS.readBinFile path).toList
  catch e => return .error (readFailure e)

/-- Without a listener, an address to listen on is a failure. -/
def withoutListener : Outcome → Outcome
  | .listening _ host port => .failed ["cannot listen on " ++ host ++ ":" ++ toString port]
  | outcome => outcome

def runProgram (arguments : List String) : IO UInt32 := do
  match Invocation.ofArguments? arguments with
  | none =>
    (← IO.getStderr).putStr "error: bad arguments\n"
    return UInt32.ofNat Outcome.misused.exitCode
  | some i =>
    let outcome := withoutListener (i.run (← readText i.snapshot))
    (← IO.getStdout).putStr outcome.standardOutput
    (← IO.getStderr).putStr outcome.standardError
    return UInt32.ofNat outcome.exitCode

end ClassAtlas

def main (arguments : List String) : IO UInt32 := ClassAtlas.runProgram arguments
