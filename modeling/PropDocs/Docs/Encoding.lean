import PropDocs.Docs.Component
import PropDocs.Json.Reader
import PropDocs.Json.Record
import PropDocs.Json.Writer

/-!
# Documents as JSON

The JSON form of documents, and reading it back.  Maps are objects with their entries in order; a
field that is absent in a document is left out.
-/

namespace PropDocs

/-! ### Tags -/

/-- A text, or a list of texts. -/
def TagValue.toJson : TagValue → Json
  | .single content => .text content
  | .multiple contents => .array (contents.map .text)

/-- Reads a text or a list of texts. -/
def TagValue.ofJson? : Json → Option TagValue
  | .string s => s.map .single
  | v => (v.asList? Json.asText?).map .multiple

/-- An ordered map as an object. -/
def OrderedMap.toJson {α : Type} (write : α → Json) (m : OrderedMap α) : Json :=
  .record (m.entries.map fun e => (e.1, write e.2))

/-- Reads an object as an ordered map. -/
def OrderedMap.ofJson? {α : Type} (read : Json → Option α) (v : Json) : Option (OrderedMap α) :=
  (v.asEntries? read).map OrderedMap.ofList

/-- A field that is left out when it has no value. -/
def Json.fieldOf (name : String) (value : Option Json) : List (String × Json) :=
  match value with
  | some v => [(name, v)]
  | none => []

/-! ### Types -/

namespace TypeDoc

/-- A value of an enumeration is an object of its own. -/
def toJson (d : TypeDoc) : Json :=
  .record <|
    [("name", .text d.name)] ++ Json.fieldOf "raw" (d.raw.map .text) ++
      Json.fieldOf "value"
        (d.values.map fun vs => .array (vs.map fun v => .record [("value", .text v)]))

/-- Reads a value of an enumeration. -/
def valueOfJson? (v : Json) : Option String :=
  match v.slots? ["value"] false with
  | some [value] => value.required Json.asText?
  | _ => none

/-- Reads the type of a prop. -/
def ofJson? (v : Json) : Option TypeDoc :=
  match v.slots? ["name", "raw", "value"] false with
  | some [name, raw, value] => do
    return { name := ← name.required Json.asText?
             raw := ← raw.optional Json.asText?
             values := ← value.optional (Json.asList? valueOfJson?) }
  | _ => none

end TypeDoc

/-! ### Props -/

namespace PropDoc

/-- The documented default is an object of its own. -/
def defaultToJson (value : Option String) : Json :=
  .record (Json.fieldOf "value" (value.map .text))

/-- Reads a documented default. -/
def defaultOfJson? (v : Json) : Option (Option String) :=
  match v.slots? ["value"] false with
  | some [value] => value.optional Json.asText?
  | _ => none

/-- A prop as an object. -/
def toJson (p : PropDoc) : Json :=
  .record
    [("name", .text p.name), ("required", .bool p.required), ("type", p.type.toJson),
      ("description", .text p.description), ("defaultValue", defaultToJson p.defaultValue),
      ("tags", p.tags.toJson TagValue.toJson)]

/-- Reads a prop. -/
def ofJson? (v : Json) : Option PropDoc :=
  match v.slots? ["name", "required", "type", "description", "defaultValue", "tags"] false with
  | some [name, required, type, description, defaultValue, tags] => do
    return { name := ← name.required Json.asText?
             required := ← required.required Json.asBool?
             type := ← type.required TypeDoc.ofJson?
             description := ← description.required Json.asText?
             defaultValue := ← defaultValue.required defaultOfJson?
             tags := ← tags.required (OrderedMap.ofJson? TagValue.ofJson?) }
  | _ => none

end PropDoc

/-! ### Components -/

/-- A method as an object. -/
def MethodDoc.toJson (m : MethodDoc) : Json :=
  .record [("name", .text m.name), ("description", .text m.description)]

/-- Reads a method. -/
def MethodDoc.ofJson? (v : Json) : Option MethodDoc :=
  match v.slots? ["name", "description"] false with
  | some [name, description] => do
    return { name := ← name.required Json.asText?
             description := ← description.required Json.asText? }
  | _ => none

namespace ComponentDoc

/-- A document as an object. -/
def toJson (d : ComponentDoc) : Json :=
  .record
    [("exportName", .text d.exportName), ("description", .text d.description),
      ("props", d.props.toJson PropDoc.toJson),
      ("methods", .array (d.methods.map MethodDoc.toJson)),
      ("tags", d.tags.toJson TagValue.toJson)]

/-- Reads a document. -/
def ofJson? (v : Json) : Option ComponentDoc :=
  match v.slots? ["exportName", "description", "props", "methods", "tags"] false with
  | some [exportName, description, props, methods, tags] => do
    return { exportName := ← exportName.required Json.asText?
             description := ← description.required Json.asText?
             props := ← props.required (OrderedMap.ofJson? PropDoc.ofJson?)
             methods := ← methods.required (Json.asList? MethodDoc.ofJson?)
             tags := ← tags.required (OrderedMap.ofJson? TagValue.ofJson?) }
  | _ => none

/-- **Rendering.** The JSON text of a list of documents, on one line or indented. -/
def render (compact : Bool) (docs : List ComponentDoc) : String :=
  let value := Json.array (docs.map toJson)
  if compact then value.compact else value.pretty

/-- **Reading.** The documents in a JSON text. -/
def readAll? (text : String) : Option (List ComponentDoc) := do
  (← Json.read? text).asList? ofJson?

end ComponentDoc

end PropDocs
