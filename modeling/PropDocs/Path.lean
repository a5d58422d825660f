/-!
# Lexical paths

A path is a text with slashes.  Everything here works on the text alone and never asks a file
system:

* `Path.components`: whether the path starts at the root, and its segments.  Repeated slashes and
  single dots count for nothing, except for a dot in front of a relative path;
* `Path.normalize`: dots dropped and double dots folded; a double dot never climbs above the root;
* `Path.join`, `Path.parent?`, `Path.fileName?`, `Path.extension?`: the usual pieces.
-/

namespace PropDocs

/-- A path is its text. -/
abbrev Path := String

namespace Path

/-! ### Components -/

/-- **Components.** Whether a path starts at the root, and its segments. -/
structure Components where
  rooted : Bool
  segments : List String
  deriving DecidableEq, Repr, Inhabited

/-- A path that starts at the root. -/
def isAbsolute (p : Path) : Bool :=
  match p.toList with
  | '/' :: _ => true
  | _ => false

/-- The segments that count: neither empty nor a single dot. -/
def segments (p : Path) : List String :=
  ((p.toList.splitOn '/').map String.ofList).filter fun s => s != "" && s != "."

/-- The path starts with a segment that is a single dot. -/
def startsWithDot (p : Path) : Bool :=
  match p.toList.splitOn '/' with
  | ['.'] :: _ => true
  | _ => false

/-- The components of a path. -/
def components (p : Path) : Components :=
  { rooted := isAbsolute p
    segments := if startsWithDot p then "." :: segments p else segments p }

/-- The text of components. -/
def ofComponents (c : Components) : Path :=
  if c.rooted then "/" ++ "/".intercalate c.segments else "/".intercalate c.segments

/-- **Same place.** Two paths with the same components. -/
def same (p q : Path) : Bool :=
  components p == components q

/-! ### Normal form -/

/-- One step of folding: `stack` holds the segments so far, the last one first. -/
def foldSegment (rooted : Bool) (stack : List String) (segment : String) : List String :=
  if segment = ".." then
    match stack with
    | [] => if rooted then [] else [".."]
    | top :: rest => if top = ".." then ".." :: top :: rest else rest
  else segment :: stack

/-- The segments of the normal form. -/
def foldSegments (rooted : Bool) (ss : List String) : List String :=
  (ss.foldl (foldSegment rooted) []).reverse

/-- **Normal form.** Dots dropped, double dots folded, no slash at the end; the path to nowhere is
a single dot. -/
def normalize (p : Path) : Path :=
  let ss := foldSegments (isAbsolute p) (segments p)
  if isAbsolute p then "/" ++ "/".intercalate ss
  else if ss.isEmpty then "." else "/".intercalate ss

/-! ### Pieces of a path -/

/-- **Join.** `q` seen from `p`; an absolute `q` stands for itself. -/
def join (p q : Path) : Path :=
  if isAbsolute q then q
  else if p = "" then q
  else if p.toList.getLast? = some '/' then p ++ q
  else p ++ "/" ++ q

/-- **Parent.** The path without its last component; the root and the empty path have none. -/
def parent? (p : Path) : Option Path :=
  let c := components p
  if c.segments.isEmpty then none
  else some (ofComponents { c with segments := c.segments.dropLast })

/-- The last segment, unless it is a dot or a double dot. -/
def fileName? (p : Path) : Option String :=
  match (components p).segments.getLast? with
  | some s => if s = "." ∨ s = ".." then none else some s
  | none => none

/-- A file name divided at its last dot.  A name whose only dot is its first character is not
divided. -/
def splitName (name : List Char) : List Char × Option (List Char) :=
  let back := name.reverse
  let ext := back.takeWhile (· != '.')
  match back.dropWhile (· != '.') with
  | _ :: stem => if stem.isEmpty then (name, none) else (stem.reverse, some ext.reverse)
  | [] => (name, none)

/-- **Extension.** What follows the last dot of the file name. -/
def extension? (p : Path) : Option String := do
  let name ← fileName? p
  let ext ← (splitName name.toList).2
  return String.ofList ext

/-- The path with another extension in place of its own; an empty one takes the dot away too.  A
path without a file name stays as it is. -/
def withExtension (p : Path) (ext : String) : Path :=
  match fileName? p with
  | none => p
  | some name =>
    let stem := String.ofList (splitName name.toList).1
    let name := if ext = "" then stem else stem ++ "." ++ ext
    let c := components p
    ofComponents { c with segments := c.segments.dropLast ++ [name] }

/-- **Absolute form** of a path seen from the directory `cwd`, normalised. -/
def absolute (cwd p : Path) : Path :=
  if isAbsolute p then normalize p else normalize (join cwd p)

end Path

end PropDocs
