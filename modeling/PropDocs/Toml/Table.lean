import PropDocs.Json.Value
import PropDocs.OrderedMap

/-!
# TOML tables

The tree that a TOML document builds.  Every table remembers how it came to be, since that decides
what may still be added to it:

* a table opened by its header may not be opened again, nor be extended by dotted keys;
* a table implied by the header of a table inside it may still get a header of its own;
* a table made by dotted keys may be extended by dotted keys only.
-/

namespace PropDocs.Toml

/-- **Origin of a table.** -/
inductive Origin where
  | header
  | implied
  | dotted
  deriving DecidableEq, Repr, Inhabited

/-- **Node.** A value, a table, or an array of tables that headers add to. -/
inductive Node where
  | value (value : Json)
  | table (origin : Origin) (entries : List (String × Node))
  | tables (tables : List (List (String × Node)))

/-- **Table.** Nodes by key, in order. -/
abbrev Table := List (String × Node)

/-! ### Values -/

mutual

/-- The value of a node. -/
def Node.toJson : Node → Json
  | .value v => v
  | .table _ entries => .object (fieldsOf entries)
  | .tables ts => .array (itemsOf ts)

/-- The fields of a table. -/
def fieldsOf : List (String × Node) → List (Option String × Json)
  | [] => []
  | (key, n) :: rest => (some key, n.toJson) :: fieldsOf rest

/-- The items of an array of tables. -/
def itemsOf : List (List (String × Node)) → List Json
  | [] => []
  | t :: ts => .object (fieldsOf t) :: itemsOf ts

end

/-- The value of a table. -/
def Table.toJson (t : Table) : Json :=
  .object (fieldsOf t)

/-! ### Changing a table -/

/-- A change of a table, which may depend on how the table came to be and may be refused. -/
abbrev Change := Origin → Table → Option Table

/-- Changes the last table of an array. -/
def changeLast (change : Table → Option Table) : List Table → Option (List Table)
  | [] => none
  | [t] => (change t).map ([·])
  | t :: ts => (changeLast change ts).map (t :: ·)

/-- **Descending** along keys to the table that is changed.  Missing tables are made on the way;
dotted keys do not enter a table that has a header. -/
def descend (dotted : Bool) (change : Change) : (path : List String) → Change
  | [], origin, t => change origin t
  | key :: path, _, t =>
    match Entries.get? key t with
    | none =>
      let origin := if dotted then Origin.dotted else Origin.implied
      (descend dotted change path origin []).map fun sub => t ++ [(key, .table origin sub)]
    | some (.value _) => none
    | some (.tables ts) =>
      (changeLast (descend dotted change path .header) ts).map fun ts =>
        Entries.alter key (fun _ => .tables ts) t
    | some (.table origin sub) =>
      if dotted ∧ origin = .header then none
      else
        (descend dotted change path origin sub).map fun sub =>
          Entries.alter key (fun _ => .table origin sub) t

/-- Adds a value under a new key. -/
def addValue (key : String) (v : Json) (t : Table) : Option Table :=
  if (Entries.get? key t).isSome then none else some (t ++ [(key, .value v)])

/-- **Key and value.** A value behind dotted keys belongs to a table made by dotted keys. -/
def setValue (path : List String) (key : String) (v : Json) : Change :=
  descend true (fun origin t =>
    if path.isEmpty ∨ origin = .dotted then addValue key v t else none) path

/-- **Table header.** -/
def openTable (path : List String) (key : String) : Change :=
  descend false (fun _ t =>
    match Entries.get? key t with
    | none => some (t ++ [(key, .table .header [])])
    | some (.table .implied sub) => some (Entries.alter key (fun _ => .table .header sub) t)
    | some _ => none) path

/-- **Header of an array of tables**: one more table at its end. -/
def openTables (path : List String) (key : String) : Change :=
  descend false (fun _ t =>
    match Entries.get? key t with
    | none => some (t ++ [(key, .tables [[]])])
    | some (.tables ts) => some (Entries.alter key (fun _ => .tables (ts ++ [[]])) t)
    | some _ => none) path

end PropDocs.Toml
