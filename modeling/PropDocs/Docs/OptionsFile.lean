import PropDocs.Docs.Filter
import PropDocs.FileSystem
import PropDocs.Json.Reader
import PropDocs.Json.Record
import PropDocs.Toml.Reader

/-!
# Options files

Extraction options in a file, in TOML or JSON by the file's extension.  Of filters only rules can be
written in a file.
-/

namespace PropDocs

/-- Reads names to skip: a text, or a list of texts. -/
def SkippedNames.ofJson? : Json → Option SkippedNames
  | .string s => s.map .one
  | v => (v.asList? Json.asText?).map .many

/-- Reads a filter rule. -/
def PropRule.ofJson? (v : Json) : Option PropRule :=
  match v.slots? ["skipPropsWithName", "skipPropsWithoutDoc"] false with
  | some [names, undocumented] => do
    return { skipNames := ← names.optional SkippedNames.ofJson?
             skipUndocumented := ← undocumented.withDefault Json.asBool? false }
  | _ => none

/-- **Options file.** -/
structure OptionsFile where
  extractEnums : Bool := false
  rule : Option PropRule := none
  deriving DecidableEq, Repr, Inhabited

namespace OptionsFile

/-- Reads the options in a value.  There are no options but these. -/
def ofJson? (v : Json) : Option OptionsFile :=
  match v.slots? ["shouldExtractLiteralValuesFromEnum", "propFilter"] true with
  | some [enums, filter] => do
    return { extractEnums := ← enums.withDefault Json.asBool? false
             rule := ← filter.optional PropRule.ofJson? }
  | _ => none

/-- A file with the extension `toml`, in either case, is TOML. -/
def isToml (path : Path) : Bool :=
  match Path.extension? path with
  | some e => String.ofList (e.toList.map Char.toLower) == "toml"
  | none => false

/-- **Reading.** The options in the text of a file. -/
def read? (path : Path) (text : String) : Option OptionsFile := do
  ofJson? (← if isToml path then Toml.read? text else Json.read? text)

/-- **Loading.** The options in the file at a path. -/
def load (fs : FileSystem) (path : Path) : Except LoadError OptionsFile :=
  match fs.read path with
  | .error cause => .error (.config path (.optionsUnreadable cause))
  | .ok text =>
    match read? path text with
    | some options => .ok options
    | none => .error (.config path .malformed)

/-- The extraction options of a file. -/
def options (f : OptionsFile) : ExtractionOptions :=
  { filter := f.rule.map .rule, extractEnums := f.extractEnums }

end OptionsFile

end PropDocs
