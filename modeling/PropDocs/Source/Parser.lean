import PropDocs.Source.Statements
import PropDocs.Path

/-!
# Reading a source text

The grammar's rules are tied together by levels: a rule at level `n + 1` reads what it finds inside
brackets with the rules at level `n`, and no rule reads anything at level zero.  A text is read at
a level no nesting in it can reach, its own length.

* `Dialect.ofPath`: the dialect a file is written in, by its name;
* `parseModule?`: the items of a module, or nothing when the text is not a source text.
-/

namespace PropDocs.Source

/-- **Levels of the grammar.** -/
def Grammar.level (dialect : Dialect) (bound : Nat) : Nat → Grammar
  | 0 =>
    { dialect, bound
      type := fun _ => failure
      assign := fun _ => failure
      lhs := failure
      pattern := failure
      statement := failure
      item := failure
      markup := fun _ => none }
  | n + 1 =>
    { dialect, bound
      type := fun noConditional c => typeRule (level dialect bound n) noConditional c
      assign := fun allowIn c => assignRule (level dialect bound n) allowIn c
      lhs := fun c => lhsRule (level dialect bound n) c
      pattern := fun c => patternRule (level dialect bound n) c
      statement := fun c => statementRule (level dialect bound n) c
      item := fun c => (itemRule (level dialect bound n) c).map fun r => ((), r.2)
      markup := fun cs => markupRule (level dialect bound n) cs }

/-- The items of a module up to the end of the text. -/
def moduleItems (g : Grammar) : Parse (List Item) :=
  many (do
    if (← token) == .eof then return none
    else return some (← itemRule g)) g.bound

/-- **Reading.** The items of a source text in the given dialect. -/
def parseModule? (dialect : Dialect) (text : String) : Option (List Item) :=
  let size := text.length + 2
  (moduleItems (Grammar.level dialect size size) (Cursor.ofText text)).map Prod.fst

/-! ### Dialects by file name -/

/-- A character in lower case, for the letters of file extensions. -/
def lowerText (s : String) : String :=
  String.ofList (s.toList.map Char.toLower)

/-- **Dialect of a file.** A known extension without types is read without them; every other file
is read with types. -/
def Dialect.ofPath (p : Path) : Dialect :=
  match (Path.extension? p).map lowerText with
  | some "tsx" => { markup := true }
  | some "jsx" => { types := false, markup := true }
  | some e =>
    if ["js", "mjs", "cjs", "json", "css"].contains e then { types := false } else {}
  | none => {}

end PropDocs.Source
