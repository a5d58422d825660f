import PropDocs.Path

/-!
# Compiler options

The few options of a project that change what is extracted from its sources.
-/

namespace PropDocs

/-- **Compiler options.** -/
structure CompilerOptions where
  strict : Bool := false
  /-- Null checks when set explicitly; otherwise they follow `strict`. -/
  strictNullChecks : Option Bool := none
  /-- Directory against which specifiers that are neither relative nor absolute are resolved. -/
  baseUrl : Option Path := none
  /-- Script files without types may be imported. -/
  allowJs : Bool := false
  deriving DecidableEq, Repr, Inhabited

/-- **Null checks.** Whether the missing values are types of their own. -/
def CompilerOptions.nullChecks (o : CompilerOptions) : Bool :=
  o.strictNullChecks.getD o.strict

end PropDocs
