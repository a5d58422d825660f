import PropDocs.Json.Value

/-!
# Records in JSON

A record may be written in two forms: as an object, its fields in any order, or as an array of
its fields in declaration order.  `slots?` finds what a value gives for each field of a record,
and the readers on `Slot` say what a field makes of it.

* In an object a known field may occur only once; unknown fields are ignored or, where the record
  is `closed`, refused.
* In an array fields may be left out at the end only, and there may be no more items than fields.
-/

namespace PropDocs.Json

/-- **Slot.** What a record gives for one of its fields: a value, nothing because the object lacks
the field, or nothing because the array ended before it. -/
inductive Slot where
  | present (value : Json)
  | missing
  | cut
  deriving Repr, Inhabited

namespace Slot

/-- A field that has to be there. -/
def required {α : Type} (read : Json → Option α) : Slot → Option α
  | .present v => read v
  | .missing | .cut => none

/-- A field with a value for its absence. -/
def withDefault {α : Type} (read : Json → Option α) (absent : α) : Slot → Option α
  | .present v => read v
  | .missing | .cut => some absent

/-- A field that may be `null`, and may be left out of an object but not of an array. -/
def nullable {α : Type} (read : Json → Option α) : Slot → Option (Option α)
  | .present .null => some none
  | .present v => (read v).map some
  | .missing => some none
  | .cut => none

/-- A field that may be `null` and may be left out. -/
def optional {α : Type} (read : Json → Option α) : Slot → Option (Option α)
  | .present .null => some none
  | .present v => (read v).map some
  | .missing | .cut => some none

end Slot

/-- The values an object gives for a name. -/
def valuesOf (name : String) (fields : List (Option String × Json)) : List Json :=
  (fields.filter fun f => f.1 == some name).map Prod.snd

/-- The slot of one field of an object; a repeated field has none. -/
def objectSlot? (fields : List (Option String × Json)) (name : String) : Option Slot :=
  match valuesOf name fields with
  | [] => some .missing
  | [v] => some (.present v)
  | _ => none

/-- The slots of an array's items, filled up to the number of fields. -/
def arraySlots? : (names : List String) → (items : List Json) → Option (List Slot)
  | [], [] => some []
  | [], _ :: _ => none
  | _ :: names, [] => (arraySlots? names []).map (.cut :: ·)
  | _ :: names, v :: items => (arraySlots? names items).map (.present v :: ·)

/-- **Slots of a record** with the given field names, in the order of the names.  Every name of an
object's field has to be a text, and has to be known when the record is `closed`. -/
def slots? (names : List String) (closed : Bool) : Json → Option (List Slot)
  | .object fields =>
    if fields.any (fun f => f.1.isNone) then none
    else if closed && fields.any (fun f => !names.any fun n => f.1 == some n) then none
    else names.mapM (objectSlot? fields)
  | .array items => arraySlots? names items
  | _ => none

/-! ### Plain values -/

/-- A truth value. -/
def asBool? : Json → Option Bool
  | .bool b => some b
  | _ => none

/-- A text. -/
def asText? : Json → Option String
  | .string s => s
  | _ => none

/-- A list, every item of it read alike. -/
def asList? {α : Type} (read : Json → Option α) : Json → Option (List α)
  | .array items => items.mapM read
  | _ => none

/-- The named values of an object, every value read alike. -/
def asEntries? {α : Type} (read : Json → Option α) : Json → Option (List (String × α))
  | .object fields => fields.mapM fun f => do return (← f.1, ← read f.2)
  | _ => none

end PropDocs.Json
