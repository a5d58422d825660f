import PropDocs.Docs.Prop

/-!
# Prop filters

A filter decides which props stay in a document.  It is a rule that can be written down, or any
test on a prop and the name of its component.
-/

namespace PropDocs

/-- **Names to skip**: one name, or a list of names. -/
inductive SkippedNames where
  | one (name : String)
  | many (names : List String)
  deriving DecidableEq, Repr, Inhabited

/-- A name is skipped. -/
def SkippedNames.contains : SkippedNames → String → Bool
  | .one skipped, name => skipped == name
  | .many skipped, name => skipped.contains name

/-- **Filter rule.** -/
structure PropRule where
  skipNames : Option SkippedNames := none
  /-- Props without a description are skipped. -/
  skipUndocumented : Bool := false
  deriving DecidableEq, Repr, Inhabited

namespace PropRule

/-- The rule skips a name. -/
def skipsName (r : PropRule) (name : String) : Bool :=
  match r.skipNames with
  | some names => names.contains name
  | none => false

/-- The rule keeps a prop. -/
def keeps (r : PropRule) (prop : PropDoc) : Bool :=
  !r.skipsName prop.name && !(r.skipUndocumented && prop.description.isEmpty)

end PropRule

/-- **Prop filter.** A test sees the prop and the name of the component. -/
inductive PropFilter where
  | test (keep : PropDoc → String → Bool)
  | rule (rule : PropRule)

/-- The filter keeps a prop of the named component. -/
def PropFilter.keeps : PropFilter → PropDoc → String → Bool
  | .test keep, prop, component => keep prop component
  | .rule r, prop, _ => r.keeps prop

/-- **Extraction options.** Without a filter every prop stays. -/
structure ExtractionOptions where
  filter : Option PropFilter := none
  /-- Unions of string literals become enumerations. -/
  extractEnums : Bool := false

/-- The options keep a prop of the named component. -/
def ExtractionOptions.keeps (o : ExtractionOptions) (prop : PropDoc) (component : String) : Bool :=
  match o.filter with
  | some f => f.keeps prop component
  | none => true

end PropDocs
