import PropDocs.Path

/-!
# Errors

Only loading can fail: reading a file, parsing a root source file, and reading a configuration.
Each error is its cause; `LoadError.message` gives the wording, and `LoadError.path?` the path the
error is about.
-/

namespace PropDocs

/-- **Read failure.** Why the text of a file could not be had. -/
inductive ReadFailure where
  | notFound
  | isDirectory
  | notDirectory
  | notText
  deriving DecidableEq, Repr, Inhabited

/-- The wording of a read failure. -/
def ReadFailure.message : ReadFailure → String
  | .notFound => "No such file or directory (os error 2)"
  | .isDirectory => "Is a directory (os error 21)"
  | .notDirectory => "Not a directory (os error 20)"
  | .notText => "stream did not contain valid UTF-8"

/-- **Configuration fault.** What is wrong with a configuration or options file. -/
inductive ConfigFault where
  /-- The chain of `extends` returns to a configuration it has passed. -/
  | circular
  /-- The configuration cannot be read. -/
  | unreadable (cause : ReadFailure)
  /-- The options file cannot be read. -/
  | optionsUnreadable (cause : ReadFailure)
  /-- The text is not of the form the configuration has to have. -/
  | malformed
  deriving DecidableEq, Repr, Inhabited

/-- The wording of a configuration fault. -/
def ConfigFault.message : ConfigFault → String
  | .circular => "circular `extends` chain"
  | .unreadable cause => cause.message
  | .optionsUnreadable cause => "cannot read options file: " ++ cause.message
  | .malformed => "malformed configuration"

/-- **Error** of an extraction. -/
inductive LoadError where
  /-- A root source file does not exist. -/
  | fileNotFound (path : Path)
  /-- A path that cannot name a source file. -/
  | invalidPath (path : Path)
  /-- A root source file exists but cannot be read. -/
  | io (cause : ReadFailure)
  /-- A root source file is not a source text. -/
  | sourceSyntax (path : Path)
  /-- A configuration or options file cannot be used. -/
  | config (path : Path) (fault : ConfigFault)
  deriving DecidableEq, Repr, Inhabited

namespace LoadError

/-- The wording of an error. -/
def message : LoadError → String
  | .fileNotFound path => "File not found: " ++ path
  | .invalidPath path => "Invalid path: " ++ path
  | .io cause => "IO error: " ++ cause.message
  | .sourceSyntax path => "TypeScript parse error in " ++ path
  | .config path fault => "Configuration error in " ++ path ++ ": " ++ fault.message

/-- The path an error is about. -/
def path? : LoadError → Option Path
  | .fileNotFound path | .sourceSyntax path | .config path _ => some path
  | .invalidPath _ | .io _ => none

end LoadError

end PropDocs
