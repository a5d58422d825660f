import PropDocs.Docs.Encoding
import PropDocs.Proofs.JsonRoundTrip

/-!
# Documents are read back as they were rendered

Rendering loses nothing: the documents read from a rendered text are the documents that were rendered,
in both layouts, with the entries of every map in their order.

* `slots?_record`: the fields of an object with distinct names are found **by name**, and a field that
  was left out is found missing;
* `Faithful`: a reader gives back what a writer wrote.  It carries over to lists, to ordered maps and to
  fields that may be left out, so that each kind of document needs only its own fields looked up;
* `readAll?_render`: the round trip of a list of documents.
-/

namespace PropDocs

/-! ### Ordered maps from their entries -/

theorem Entries.alter_of_notMem {α : Type} {key : String} (f : Option α → α)
    {l : List (String × α)} (h : key ∉ keys l) : alter key f l = l ++ [(key, f none)] := by
  induction l with
  | nil => rfl
  | cons e rest ih =>
    obtain ⟨k, v⟩ := e
    rw [keys, List.map_cons, List.mem_cons, not_or] at h
    rw [alter, if_neg fun hk => h.1 hk.symm, ih h.2, List.cons_append]

/-- Entries with new and distinct keys are appended in their order. -/
theorem OrderedMap.entries_foldl_insert {α : Type} (l : List (String × α)) :
    ∀ m : OrderedMap α, (Entries.keys (m.entries ++ l)).Nodup →
      (l.foldl (fun m e => m.insert e.1 e.2) m).entries = m.entries ++ l := by
  induction l with
  | nil =>
    intro m _
    exact (List.append_nil m.entries).symm
  | cons e l ih =>
    intro m hnodup
    have hnew : e.1 ∉ Entries.keys m.entries := by
      intro hmem
      rw [Entries.keys, List.map_append, List.map_cons] at hnodup
      exact (List.nodup_append.1 hnodup).2.2 e.1 hmem e.1 List.mem_cons_self rfl
    have hinsert : (m.insert e.1 e.2).entries = m.entries ++ [e] :=
      Entries.alter_of_notMem (fun _ => e.2) hnew
    have hsplit : m.entries ++ e :: l = (m.insert e.1 e.2).entries ++ l := by
      rw [hinsert, List.append_assoc, List.singleton_append]
    rw [hsplit] at hnodup ⊢
    exact ih (m.insert e.1 e.2) hnodup

theorem OrderedMap.ofList_entries {α : Type} (m : OrderedMap α) : ofList m.entries = m := by
  apply ext_entries
  exact entries_foldl_insert m.entries empty m.nodup

namespace Json

/-! ### Fields by name -/

/-- The slot of a field that an object has or leaves out. -/
def Slot.ofOption : Option Json → Slot
  | some v => .present v
  | none => .missing

theorem valuesOf_cons (name key : String) (v : Json) (fields : List (Option String × Json)) :
    valuesOf name ((some key, v) :: fields) =
      if key = name then v :: valuesOf name fields else valuesOf name fields := by
  by_cases h : key = name
  · simp [valuesOf, h]
  · simp [valuesOf, h]

theorem valuesOf_of_notMem {name : String} {fields : List (String × Json)}
    (h : name ∉ Entries.keys fields) :
    valuesOf name (fields.map fun f => (some f.1, f.2)) = [] := by
  rw [valuesOf, List.map_eq_nil_iff, List.filter_eq_nil_iff]
  intro f hf hname
  obtain ⟨field, hfield, rfl⟩ := List.mem_map.1 hf
  exact h (List.mem_map.2 ⟨field, hfield, Option.some.inj (beq_iff_eq.1 hname)⟩)

/-- Where names are distinct, a field has one value or none. -/
theorem valuesOf_record (name : String) {fields : List (String × Json)}
    (h : (Entries.keys fields).Nodup) :
    valuesOf name (fields.map fun f => (some f.1, f.2)) = (Entries.get? name fields).toList := by
  induction fields with
  | nil => rfl
  | cons f fields ih =>
    obtain ⟨key, v⟩ := f
    obtain ⟨hnew, hrest⟩ := List.nodup_cons.1 h
    rw [List.map_cons, valuesOf_cons, Entries.get?]
    by_cases hkey : key = name
    · rw [if_pos hkey, if_pos hkey, valuesOf_of_notMem (hkey ▸ hnew)]
      rfl
    · rw [if_neg hkey, if_neg hkey, ih hrest]

theorem objectSlot?_record (name : String) {fields : List (String × Json)}
    (h : (Entries.keys fields).Nodup) :
    objectSlot? (fields.map fun f => (some f.1, f.2)) name =
      some (Slot.ofOption (Entries.get? name fields)) := by
  rw [objectSlot?, valuesOf_record name h]
  cases Entries.get? name fields with
  | none => rfl
  | some v => rfl

/-- **Fields by name.** Each field of a record is found by its name, wherever it stands; what is left
out is missing. -/
theorem slots?_record (names : List String) {fields : List (String × Json)}
    (h : (Entries.keys fields).Nodup) :
    (record fields).slots? names false =
      some (names.map fun name => Slot.ofOption (Entries.get? name fields)) := by
  have htexts : ((fields.map fun f => (some f.1, f.2)).any fun f => f.1.isNone) = false := by
    rw [List.any_map, List.any_eq_false]
    intro f _ hnone
    cases hnone
  have hslots : objectSlot? (fields.map fun f => (some f.1, f.2)) =
      fun name => pure (Slot.ofOption (Entries.get? name fields)) :=
    funext fun name => objectSlot?_record name h
  rw [record, slots?, htexts, if_neg Bool.false_ne_true, Bool.false_and, if_neg Bool.false_ne_true,
    hslots, List.mapM_pure]
  rfl

theorem get?_append (key : String) (fields fields' : List (String × Json)) :
    Entries.get? key (fields ++ fields') =
      (Entries.get? key fields).or (Entries.get? key fields') := by
  induction fields with
  | nil => rfl
  | cons f fields ih =>
    rw [List.cons_append, Entries.get?, Entries.get?, ih]
    by_cases hkey : f.1 = key
    · rw [if_pos hkey, if_pos hkey, Option.some_or]
    · rw [if_neg hkey, if_neg hkey]

theorem get?_fieldOf (name key : String) (value : Option Json) :
    Entries.get? key (fieldOf name value) = if name = key then value else none := by
  cases value with
  | none => simp [fieldOf, Entries.get?]
  | some v => rfl

/-! ### Readers that give back what was written -/

/-- **Faithful.** What is written as a value is read back from it. -/
def Faithful {α : Type} (write : α → Json) (read : Json → Option α) : Prop :=
  ∀ a, read (write a) = some a

theorem faithful_text : Faithful text asText? :=
  fun _ => rfl

theorem faithful_bool : Faithful bool asBool? :=
  fun _ => rfl

section

variable {α : Type} {write : α → Json} {read : Json → Option α}

theorem Faithful.list (h : Faithful write read) :
    Faithful (fun l => array (l.map write)) (asList? read) := by
  intro l
  have hpure : read ∘ write = fun a => pure a := funext h
  rw [asList?, List.mapM_map, hpure, List.mapM_pure, List.map_id']
  rfl

theorem Faithful.entries (h : Faithful write read) :
    Faithful (fun l : List (String × α) => record (l.map fun e => (e.1, write e.2)))
      (asEntries? read) := by
  intro l
  show ((l.map fun e => (e.1, write e.2)).map fun f => (some f.1, f.2)).mapM _ = some l
  rw [List.map_map, List.mapM_map]
  have hpure : (fun f : Option String × Json => do return (← f.1, ← read f.2)) ∘
      ((fun f : String × Json => (some f.1, f.2)) ∘ fun e : String × α => (e.1, write e.2)) =
        fun e => pure e := by
    funext e
    show (do return (e.1, ← read (write e.2))) = some e
    rw [h e.2]
    rfl
  rw [hpure, List.mapM_pure, List.map_id']
  rfl

/-- **Ordered maps.** Their keys are distinct, so that the order of the entries is the order in which
they are read. -/
theorem Faithful.orderedMap (h : Faithful write read) :
    Faithful (OrderedMap.toJson write) (OrderedMap.ofJson? read) := by
  intro m
  rw [OrderedMap.ofJson?, OrderedMap.toJson, h.entries m.entries, Option.map_some,
    OrderedMap.ofList_entries]

/-- A field that is left out when it has no value.  A value written as `null` would be read as
none. -/
theorem Faithful.optional (h : Faithful write read) (hnull : ∀ a, write a ≠ null) (o : Option α) :
    (Slot.ofOption (o.map write)).optional read = some o := by
  cases o with
  | none => rfl
  | some a =>
    rw [Option.map_some, Slot.ofOption, Slot.optional, h a]
    · rfl
    · exact hnull a

end

end Json

open Json

/-! ### Tags -/

theorem TagValue.faithful : Faithful TagValue.toJson TagValue.ofJson? := by
  intro v
  cases v with
  | single content => rfl
  | multiple contents =>
    show ((array (contents.map text)).asList? asText?).map multiple = _
    rw [faithful_text.list contents]
    rfl

theorem faithful_tags : Faithful (OrderedMap.toJson TagValue.toJson)
    (OrderedMap.ofJson? TagValue.ofJson?) :=
  TagValue.faithful.orderedMap

/-! ### Types and defaults -/

namespace TypeDoc

theorem faithful_value : Faithful (fun v => record [("value", text v)]) valueOfJson? := by
  intro v
  have hslots : (record [("value", text v)]).slots? ["value"] false = some [.present (text v)] :=
    slots?_record ["value"] (List.pairwise_singleton _ _)
  rw [valueOfJson?, hslots]
  rfl

theorem faithful_values :
    Faithful (fun vs => array (vs.map fun v => record [("value", text v)]))
      (asList? valueOfJson?) :=
  faithful_value.list

theorem slots?_toJson (d : TypeDoc) :
    d.toJson.slots? ["name", "raw", "value"] false =
      some [.present (text d.name), .ofOption (d.raw.map text),
        .ofOption (d.values.map fun vs => array (vs.map fun v => record [("value", text v)]))] := by
  have hnodup : ∀ raw values : Option Json, (Entries.keys
      ([("name", text d.name)] ++ fieldOf "raw" raw ++ fieldOf "value" values)).Nodup := by
    intro raw values
    cases raw <;> cases values <;> simp [Entries.keys, fieldOf]
  rw [toJson, slots?_record _ (hnodup _ _)]
  simp [Entries.get?, get?_append, get?_fieldOf, Slot.ofOption]

theorem faithful : Faithful toJson ofJson? := by
  intro d
  have hraw := faithful_text.optional (fun _ => Json.noConfusion) d.raw
  have hvalues := faithful_values.optional (fun _ => Json.noConfusion) d.values
  rw [ofJson?, slots?_toJson]
  simp only [hraw, hvalues]
  rfl

end TypeDoc

namespace PropDoc

theorem faithful_default : Faithful defaultToJson defaultOfJson? := by
  intro value
  have hnodup : (Entries.keys (fieldOf "value" (value.map text))).Nodup := by
    cases value <;> simp [Entries.keys, fieldOf]
  have hvalue := faithful_text.optional (fun _ => Json.noConfusion) value
  rw [defaultOfJson?, defaultToJson, slots?_record _ hnodup, List.map_singleton, get?_fieldOf,
    if_pos rfl]
  exact hvalue

theorem slots?_toJson (p : PropDoc) :
    p.toJson.slots? ["name", "required", "type", "description", "defaultValue", "tags"] false =
      some [.present (text p.name), .present (bool p.required), .present p.type.toJson,
        .present (text p.description), .present (defaultToJson p.defaultValue),
        .present (p.tags.toJson TagValue.toJson)] := by
  rw [toJson, slots?_record _ (by simp [Entries.keys])]
  rfl

theorem faithful : Faithful toJson ofJson? := by
  intro p
  rw [ofJson?, slots?_toJson]
  simp only [Slot.required, faithful_text _, faithful_bool _, TypeDoc.faithful _, faithful_default _,
    faithful_tags _]
  rfl

end PropDoc

/-! ### Documents -/

theorem MethodDoc.faithful : Faithful toJson ofJson? := by
  intro m
  have hslots : m.toJson.slots? ["name", "description"] false =
      some [.present (text m.name), .present (text m.description)] :=
    slots?_record _ (by simp [Entries.keys])
  rw [ofJson?, hslots]
  rfl

namespace ComponentDoc

theorem slots?_toJson (d : ComponentDoc) :
    d.toJson.slots? ["exportName", "description", "props", "methods", "tags"] false =
      some [.present (text d.exportName), .present (text d.description),
        .present (d.props.toJson PropDoc.toJson), .present (array (d.methods.map MethodDoc.toJson)),
        .present (d.tags.toJson TagValue.toJson)] := by
  rw [toJson, slots?_record _ (by simp [Entries.keys])]
  rfl

theorem faithful : Faithful toJson ofJson? := by
  intro d
  have hprops := PropDoc.faithful.orderedMap d.props
  have hmethods := MethodDoc.faithful.list d.methods
  rw [ofJson?, slots?_toJson]
  simp only [Slot.required, faithful_text _, hprops, hmethods, faithful_tags _]
  rfl

/-- **Round trip.** The documents read from a rendered text are those that were rendered, in both
layouts: no order, no absence and no form of a tag is lost. -/
theorem readAll?_render (compact : Bool) (docs : List ComponentDoc) :
    readAll? (render compact docs) = some docs := by
  have hread : Json.read? (render compact docs) = some (array (docs.map toJson)) := by
    cases compact with
    | true => exact read?_compact _
    | false => exact read?_pretty _
  rw [readAll?, hread]
  exact faithful.list docs

end ComponentDoc

end PropDocs
