import RuleBlocks.CommandLine.Run

/-!
# The program

Looks files up, runs the library and writes what it gives back. A registry that is to be kept up to
date is served until the program is stopped: its fragment file is looked at again and again.
-/

namespace RuleBlocks

/-- What stands at a path. -/
def findFile (path : String) : IO FileState := do
  try
    return .content (← IO.FS.readBinFile path)
  catch
    | .noFileOrDirectory .. => return .missing
    | _ => return .unreadable

/-- Keep a registry up to date. -/
partial def serve (live : LiveRegistry) (path : String) (before : FileState) : IO Unit := do
  IO.sleep 250
  let now ← findFile path
  let live := if now == before then live else live.fileChanged path
  serve (live.elapse fun _ => now) path now

end RuleBlocks

def main (arguments : List String) : IO UInt32 := do
  let outcome ← RuleBlocks.runProgram RuleBlocks.findFile arguments
  (← IO.getStdout).putStr outcome.output
  (← IO.getStderr).putStr outcome.errors
  match outcome.serving with
  | none => return outcome.exit.toUInt32
  | some live =>
    match live.system.store with
    | .file path => RuleBlocks.serve live path (← RuleBlocks.findFile path)
    | _ => pure ()
    return outcome.exit.toUInt32
