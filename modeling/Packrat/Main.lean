import Packrat.CommandLine.Run

namespace Packrat

/-!
# The program

The outer layer reads the files that the command line names and prints the outcome.
-/

def entryOf? (name : String) : IO (Option (String × FileEntry)) := do
  try
    return some (name, .content (← IO.FS.readBinFile name))
  catch error =>
    match error with
    | .noFileOrDirectory .. => return none
    | _ => return some (name, .directory)

/-- The files that a command line may read. -/
def filesFor (words : List String) : IO Files := do
  match CommandLine.Request.ofWords? words with
  | some (.run invocation) => return ⟨← invocation.fileNames.filterMapM entryOf?⟩
  | _ => return {}

end Packrat

open Packrat in
def main (words : List String) : IO UInt32 := do
  let files ← filesFor words
  match CommandLine.run words files with
  | .ok output =>
    IO.print output
    return 0
  | .error failure =>
    IO.eprintln failure.message
    return failure.exitCode.toUInt32
