import PropDocs.Compiler.Config
import PropDocs.Docs.Encoding
import PropDocs.Docs.OptionsFile
import PropDocs.Extraction

/-!
# The command line

The command `[options] files` prints the documents of source files as JSON.

* `CommandLine.parse`: what the arguments ask for, or that they are wrong;
* `CommandLine.run`: the answer to a request over a file system: the text printed and the exit code,
  or the step that failed and why;
* `CommandLine.wanted`: the paths a request wants to see, so that a file system with just these
  files can be put together.
-/

namespace PropDocs

/-- **Request** to extract documents. -/
structure Request where
  files : List Path := []
  tsconfig : Option Path := none
  config : Option Path := none
  extractEnums : Bool := false
  skipProps : List String := []
  skipUndocumented : Bool := false
  compact : Bool := false
  deriving DecidableEq, Repr, Inhabited

/-- **Command.** -/
inductive Command where
  | extract (request : Request)
  | version
  | help
  /-- The arguments are wrong. -/
  | misuse
  deriving DecidableEq, Repr, Inhabited

/-- **Step** of a run that can fail. -/
inductive RunStep where
  | loadOptions (path : Path)
  | loadCompiler (path : Path)
  | extraction
  deriving DecidableEq, Repr, Inhabited

/-- The wording of a failed step. -/
def RunStep.message : RunStep → String
  | .loadOptions path => "failed to load options from " ++ path
  | .loadCompiler path => "failed to load " ++ path
  | .extraction => "failed to extract documentation"

/-- **Outcome** of a command. -/
inductive Outcome where
  | printed (text : String)
  | failed (step : RunStep) (cause : LoadError)
  | misused
  deriving DecidableEq, Repr, Inhabited

/-- The exit code of an outcome. -/
def Outcome.exitCode : Outcome → Nat
  | .printed _ => 0
  | .failed _ _ => 1
  | .misused => 2

namespace CommandLine

/-! ### Arguments -/

/-- **Option** of the command line: a flag, or one that takes a value. -/
inductive Switch where
  | tsconfig | config | extractEnums | skipProp | skipUndocumented | compact | help | version
  deriving DecidableEq, Repr, Inhabited

/-- The option with the given long name. -/
def Switch.ofName? : String → Option Switch
  | "tsconfig" => some .tsconfig
  | "config" => some .config
  | "extract-enums" => some .extractEnums
  | "skip-prop" => some .skipProp
  | "skip-undocumented" => some .skipUndocumented
  | "compact" => some .compact
  | "help" => some .help
  | "version" => some .version
  | _ => none

/-- The option with the given letter. -/
def Switch.ofLetter? : Char → Option Switch
  | 'h' => some .help
  | 'V' => some .version
  | _ => none

/-- **Argument**: `--`, an option by its long name, perhaps with a value, an option by its letter,
or anything else.  A single dash is no option. -/
inductive Argument where
  | separator
  | long (name : String) (value : Option String)
  | letters (letter : Char)
  | plain (text : String)
  deriving DecidableEq, Repr, Inhabited

/-- The form of an argument. -/
def Argument.ofText (s : String) : Argument :=
  match s.toList with
  | ['-', '-'] => .separator
  | '-' :: '-' :: rest =>
    match rest.dropWhile (· != '=') with
    | _ :: value => .long (String.ofList (rest.takeWhile (· != '='))) (some (String.ofList value))
    | [] => .long (String.ofList rest) none
  | '-' :: c :: _ => .letters c
  | _ => .plain s

/-- An option that takes a path, which may not be empty, and was not given before. -/
def pathValue (before : Option Path) (value : String) : Option (Option Path) :=
  if before.isSome || value.isEmpty then none else some (some value)

/-- Gives a value to an option that takes one. -/
def giveValue (r : Request) (value : String) : Switch → Option Request
  | .tsconfig => do return { r with tsconfig := ← pathValue r.tsconfig value }
  | .config => do return { r with config := ← pathValue r.config value }
  | .skipProp => some { r with skipProps := r.skipProps ++ [value] }
  | _ => none

/-- Raises a flag that was not raised before. -/
def raiseFlag (r : Request) : Switch → Option Request
  | .extractEnums => if r.extractEnums then none else some { r with extractEnums := true }
  | .skipUndocumented =>
    if r.skipUndocumented then none else some { r with skipUndocumented := true }
  | .compact => if r.compact then none else some { r with compact := true }
  | _ => none

/-- The option takes a value. -/
def Switch.takesValue : Switch → Bool
  | .tsconfig | .config | .skipProp => true
  | _ => false

/-- Adds a file; its name may not be empty. -/
def addFile (r : Request) (file : String) : Option Request :=
  if file.isEmpty then none else some { r with files := r.files ++ [file] }

/-- Adds all remaining arguments as files. -/
def addFiles (r : Request) : List String → Option Request
  | [] => some r
  | file :: files => do addFiles (← addFile r file) files

/-- A request is complete when it has files. -/
def finish : Option Request → Command
  | some r => if r.files.isEmpty then .misuse else .extract r
  | none => .misuse

/-- **Arguments in order.** Asking for help or the version ends the reading at once. -/
def parseFrom (r : Request) : List String → Command
  | [] => finish (some r)
  | arg :: args =>
    match Argument.ofText arg with
    | .separator => finish (addFiles r args)
    | .plain file =>
      match addFile r file with
      | some r => parseFrom r args
      | none => .misuse
    | .letters c =>
      match Switch.ofLetter? c with
      | some .help => .help
      | some .version => .version
      | _ => .misuse
    | .long name value =>
      match Switch.ofName? name, value with
      | none, _ => .misuse
      | some s, some value =>
        match giveValue r value s with
        | some r => parseFrom r args
        | none => .misuse
      | some .help, none => .help
      | some .version, none => .version
      | some s, none =>
        if s.takesValue then
          match args with
          | [] => .misuse
          | value :: args =>
            match Argument.ofText value with
            | .plain value =>
              match giveValue r value s with
              | some r => parseFrom r args
              | none => .misuse
            | _ => .misuse
        else
          match raiseFlag r s with
          | some r => parseFrom r args
          | none => .misuse

/-- **Parsing** the arguments of the command line. -/
def parse (args : List String) : Command :=
  parseFrom {} args

/-! ### Running -/

/-- The rule that the flags of a request give. -/
def ruleOf (r : Request) : Option PropRule :=
  if r.skipProps.isEmpty && !r.skipUndocumented then none
  else
    some { skipNames := if r.skipProps.isEmpty then none else some (.many r.skipProps)
           skipUndocumented := r.skipUndocumented }

/-- **Options of a request.** Its flags add to those of the options file, and its rule takes the
place of the file's. -/
def optionsOf (r : Request) (file : OptionsFile) : ExtractionOptions :=
  let merged : OptionsFile :=
    { extractEnums := file.extractEnums || r.extractEnums
      rule := (ruleOf r).or file.rule }
  merged.options

/-- The options file a request names. -/
def loadOptions (fs : FileSystem) (r : Request) : Except (RunStep × LoadError) OptionsFile :=
  match r.config with
  | none => .ok {}
  | some path => (OptionsFile.load fs path).mapError fun e => (.loadOptions path, e)

/-- The compiler options a request names. -/
def loadCompiler (fs : FileSystem) (r : Request) : Except (RunStep × LoadError) CompilerOptions :=
  match r.tsconfig with
  | none => .ok {}
  | some path => (CompilerOptions.load fs path).mapError fun e => (.loadCompiler path, e)

/-- **Extraction** for a request. -/
def extract (fs : FileSystem) (r : Request) : Except (RunStep × LoadError) (List ComponentDoc) := do
  let options := optionsOf r (← loadOptions fs r)
  let compiler ← loadCompiler fs r
  (extractFiles fs compiler options r.files).mapError fun e => (.extraction, e)

/-- The text that `--version` prints. -/
def versionText : String := "prop-etch 0.1.0\n"

/-- The text that `--help` prints. -/
def helpText : String :=
  "Extract component prop documentation from TypeScript sources\n" ++
  "\n" ++
  "Usage: prop-etch [OPTIONS] <FILES>...\n" ++
  "\n" ++
  "Arguments:\n" ++
  "  <FILES>...  Source files to document\n" ++
  "\n" ++
  "Options:\n" ++
  "      --tsconfig <TSCONFIG>  tsconfig.json providing compiler options\n" ++
  "      --config <CONFIG>      Options file (TOML or JSON) with propFilter and enum settings\n" ++
  "      --extract-enums        Render string-literal unions as enums\n" ++
  "      --skip-prop <NAME>     Skip props with this name. Can be specified multiple times\n" ++
  "      --skip-undocumented    Skip props without a description\n" ++
  "      --compact              Print JSON on one line\n" ++
  "  -h, --help                 Print help\n" ++
  "  -V, --version              Print version\n"

/-- **Running** a command over a file system. -/
def run (fs : FileSystem) : Command → Outcome
  | .misuse => .misused
  | .version => .printed versionText
  | .help => .printed helpText
  | .extract r =>
    match extract fs r with
    | .ok docs => .printed (ComponentDoc.render r.compact docs ++ "\n")
    | .error (step, cause) => .failed step cause

/-! ### What a run reads -/

/-- The files that the modules of a program may import. -/
def importCandidates (p : Program) : List Path :=
  p.files.flatMap fun f =>
    f.module.specifiers.flatMap (Specifier.lookupOrder p.options f.path)

/-- **Wanted paths.** What a run over `fs` asks for: the files the request names, the configuration
that is missing in a chain, and the files that modules found so far may import. -/
def wanted (fs : FileSystem) (r : Request) : List Path :=
  let named := r.config.toList.flatMap fs.places ++ r.tsconfig.toList ++ r.files
  let found :=
    match loadCompiler fs r with
    | .error (_, cause) => cause.path?.toList
    | .ok compiler =>
      match Program.build { disk := fs } compiler r.files with
      | .ok p => importCandidates p
      | .error _ => []
  (named ++ found).map (Path.absolute fs.cwd)

end CommandLine

end PropDocs
