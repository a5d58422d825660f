import PropDocs.CommandLine

/-!
# The program

Puts together a file system with the files that a request wants to see, runs the request over it,
and prints the outcome.
-/

namespace PropDocs.CommandLine

/-- Adds to a file system what a path leads to on disk, if it leads to anything. -/
def fetch (fs : FileSystem) (path : Path) : IO FileSystem := do
  try
    let place ← IO.FS.realPath path
    if ← place.isDir then return { fs with directories := fs.directories ++ [path] }
    return { fs with files := fs.files ++ [(path, ← IO.FS.readBinFile place)] }
  catch _ =>
    return fs

/-- Adds what a request wants to see, until it wants no more. -/
partial def gather (r : Request) (asked : List Path) (fs : FileSystem) : IO FileSystem := do
  let missing := ((wanted fs r).filter fun p => !asked.contains p).eraseDups
  if missing.isEmpty then return fs
  gather r (asked ++ missing) (← missing.foldlM fetch fs)

/-- The file system a command runs over. -/
def diskFor (command : Command) : IO FileSystem := do
  let fs : FileSystem := { cwd := (← IO.currentDir).toString }
  match command with
  | .extract r => gather r [] fs
  | _ => return fs

/-- Prints an outcome and gives the exit code. -/
def report (outcome : Outcome) : IO UInt32 := do
  match outcome with
  | .printed text => IO.print text
  | .failed step cause =>
    IO.eprintln ("Error: " ++ step.message ++ "\n\nCaused by:\n    " ++ cause.message)
  | .misused => IO.eprintln "Usage: prop-etch [OPTIONS] <FILES>..."
  return outcome.exitCode.toUInt32

end PropDocs.CommandLine

open PropDocs.CommandLine in
/-- The command line program. -/
def main (args : List String) : IO UInt32 := do
  let command := parse args
  report (run (← diskFor command) command)
