import PropDocs.Error

/-!
# File systems

A file system is a value: a current directory and a list of files with their bytes.  Directories
exist where files lie below them, or where they are listed.  Paths are walked segment by segment, so
that a double dot behind a directory that does not exist leads nowhere.
-/

namespace PropDocs

/-- **File system.** `files` holds normalised absolute paths, each with the bytes of its file, and
`directories` those of directories, which may be empty. -/
structure FileSystem where
  cwd : Path := "/"
  files : List (Path × ByteArray) := []
  directories : List Path := []
  deriving Inhabited

namespace FileSystem

/-- **Entry.** What a path leads to. -/
inductive Entry where
  | file (bytes : ByteArray)
  | directory
  deriving Inhabited

/-- The path made of the given segments, the last one first. -/
def pathOf (stack : List String) : Path :=
  "/" ++ "/".intercalate stack.reverse

/-- The bytes of the file at a normalised absolute path. -/
def fileAt? (fs : FileSystem) (p : Path) : Option ByteArray :=
  (fs.files.find? fun f => f.1 == p).map Prod.snd

/-- A directory: the root, the current directory and what lies above it, everything above a file,
and what is listed as one. -/
def isDirectory (fs : FileSystem) (stack : List String) : Bool :=
  stack.isEmpty || stack.reverse.isPrefixOf (Path.segments fs.cwd) ||
    fs.directories.contains (pathOf stack) ||
    fs.files.any fun f => f.1 != pathOf stack && stack.reverse.isPrefixOf (Path.segments f.1)

/-- Walks the remaining segments from a directory. -/
def walk (fs : FileSystem) : (stack segments : List String) → Except ReadFailure Entry
  | _, [] => .ok .directory
  | stack, s :: rest =>
    if s = ".." then walk fs stack.tail rest
    else
      match fs.fileAt? (pathOf (s :: stack)) with
      | some bytes => if rest.isEmpty then .ok (.file bytes) else .error .notDirectory
      | none => if fs.isDirectory (s :: stack) then walk fs (s :: stack) rest else .error .notFound

/-- The places that walking a path passes, each as a normalised absolute path. -/
def places (fs : FileSystem) (p : Path) : List Path :=
  let segments := Path.segments (Path.join fs.cwd p)
  (List.range (segments.length + 1)).map fun n =>
    Path.normalize ("/" ++ "/".intercalate (segments.take n))

/-- **Lookup.** What a path, seen from the current directory, leads to. -/
def lookup (fs : FileSystem) (p : Path) : Except ReadFailure Entry :=
  if p = "" then .error .notFound
  else
    match walk fs [] (Path.segments (Path.join fs.cwd p)) with
    | .ok (.file bytes) =>
      if p.toList.getLast? = some '/' then .error .notDirectory else .ok (.file bytes)
    | r => r

/-- A path leads to a file. -/
def isFile (fs : FileSystem) (p : Path) : Bool :=
  match fs.lookup p with
  | .ok (.file _) => true
  | _ => false

/-- **Reading.** The text of the file a path leads to. -/
def read (fs : FileSystem) (p : Path) : Except ReadFailure String :=
  match fs.lookup p with
  | .ok (.file bytes) =>
    match String.fromUTF8? bytes with
    | some text => .ok text
    | none => .error .notText
  | .ok .directory => .error .isDirectory
  | .error e => .error e

end FileSystem

end PropDocs
