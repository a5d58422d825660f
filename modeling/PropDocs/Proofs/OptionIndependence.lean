import PropDocs.Proofs.FirstOccurrences

/-!
# Options are independent

Extraction has two options: a filter on props, and whether unions of string literals become
enumerations.  Both act on the documents one by one, before repeats are left out, so neither can
change which documents there are.

* `OrderedMap.Similar`: maps with the same keys in the same order and with related values.  Props
  are collected by insertion, and insertion keeps similarity;
* `Engine.forall₂_extract`: **two runs side by side**.  A relation between documents of one name that
  holds export by export holds between all documents of the files, because leaving out repeats
  looks at names only;
* `ComponentDoc.restrict`: what a filter does to a document, whatever the filter looks at;
* `ComponentDoc.SameButTypes`: what enumerations may do to a document.  A rule looks at names and
  descriptions, so it keeps the same props on both sides; a test may look at types, and then it
  need not;
* `Engine.extract_options_independent`: both together, for every engine and every list of files.
-/

namespace PropDocs

/-! ### Maps side by side -/

section

variable {α β : Type} {R : α → β → Prop}

/-- Entries with the same key and related values. -/
def Entries.Alike (R : α → β → Prop) (e : String × α) (e' : String × β) : Prop :=
  e.1 = e'.1 ∧ R e.2 e'.2

/-- **Similar maps** have the same keys in the same order, and related values. -/
def OrderedMap.Similar (R : α → β → Prop) (m : OrderedMap α) (m' : OrderedMap β) : Prop :=
  List.Forall₂ (Entries.Alike R) m.entries m'.entries

theorem Entries.forall₂_alter {l : List (String × α)} {l' : List (String × β)} {v : α} {v' : β}
    (key : String) (h : List.Forall₂ (Alike R) l l') (hv : R v v') :
    List.Forall₂ (Alike R) (alter key (fun _ => v) l) (alter key (fun _ => v') l') := by
  induction h with
  | nil => exact .cons ⟨rfl, hv⟩ .nil
  | @cons e e' l l' he hl ih =>
    obtain ⟨k, a⟩ := e
    obtain ⟨k', a'⟩ := e'
    obtain ⟨hk, ha⟩ : k = k' ∧ R a a' := he
    subst hk
    rw [alter, alter]
    by_cases hkey : k = key
    · rw [if_pos hkey, if_pos hkey]
      exact .cons ⟨rfl, hv⟩ hl
    · rw [if_neg hkey, if_neg hkey]
      exact .cons ⟨rfl, ha⟩ ih

namespace OrderedMap

theorem Similar.insert {m : OrderedMap α} {m' : OrderedMap β} {v : α} {v' : β}
    (h : Similar R m m') (key : String) (hv : R v v') :
    Similar R (m.insert key v) (m'.insert key v') :=
  Entries.forall₂_alter key h hv

theorem similar_ofList {l : List (String × α)} {l' : List (String × β)}
    (h : List.Forall₂ (Entries.Alike R) l l') : Similar R (ofList l) (ofList l') := by
  refine List.rel_foldl (P := Similar R) (R := Entries.Alike R) ?_ ?_ h
  · intro m m' hm e e' he
    show Similar R (m.insert e.1 e.2) (m'.insert e'.1 e'.2)
    rw [he.1]
    exact hm.insert e'.1 he.2
  · exact List.Forall₂.nil

theorem Similar.filter {m : OrderedMap α} {m' : OrderedMap β} (h : Similar R m m')
    {p : String → α → Bool} {p' : String → β → Bool}
    (hp : ∀ key v v', R v v' → p key v = p' key v') :
    Similar R (m.filter p) (m'.filter p') := by
  refine List.rel_filter ?_ h
  intro e e' he
  show p e.1 e.2 = true ↔ p' e'.1 e'.2 = true
  rw [he.1, hp _ _ _ he.2]

end OrderedMap

end

/-! ### Documents side by side -/

namespace ComponentDoc

/-- **Restriction** of a document to the props that a filter keeps. -/
def restrict (f : PropFilter) (d : ComponentDoc) : ComponentDoc :=
  { d with props := d.props.filter fun _ prop => f.keeps prop d.exportName }

end ComponentDoc

/-- **Types up to enumeration.** The type is the same, or it has become an enumeration that keeps the
text of the type. -/
def TypeDoc.SameOrEnum (plain enums : TypeDoc) : Prop :=
  enums = plain ∨
    enums.isEnum = true ∧ enums.name = "enum" ∧ enums.raw = some plain.name

/-- **Props up to type.** Nothing differs but the type. -/
structure PropDoc.SameButType (plain enums : PropDoc) : Prop where
  rest_eq : enums = { plain with type := enums.type }
  type : TypeDoc.SameOrEnum plain.type enums.type

/-- **Documents up to types.** Nothing differs but the types of props; the props are the same in the
same order. -/
structure ComponentDoc.SameButTypes (plain enums : ComponentDoc) : Prop where
  rest_eq : enums = { plain with props := enums.props }
  props : OrderedMap.Similar PropDoc.SameButType plain.props enums.props

theorem PropRule.keeps_eq (r : PropRule) {plain enums : PropDoc}
    (h : PropDoc.SameButType plain enums) : r.keeps plain = r.keeps enums := by
  rw [h.rest_eq]
  rfl

namespace Engine

variable {σ τ δ : Type}

/-- **Two runs side by side.** -/
theorem forall₂_extract {R : ComponentDoc → ComponentDoc → Prop}
    (hname : ∀ d d', R d d' → d.exportName = d'.exportName) (e : Engine σ τ δ)
    {o o' : ExtractionOptions} (h : ∀ s, Option.Rel R (e.describe? o s) (e.describe? o' s))
    (files : List Path) : List.Forall₂ R (e.extract o files) (e.extract o' files) := by
  have hfile : ∀ file, List.Forall₂ R (e.extractFile o file) (e.extractFile o' file) := by
    intro file
    rw [extractFile, extractFile]
    cases e.module? file with
    | none => exact .nil
    | some m =>
      refine List.rel_filterMap (R := Eq) ?_ (List.forall₂_refl (e.exports m))
      rintro s _ rfl
      exact h s
  have hall : List.Forall₂ R (files.flatMap (e.extractFile o)) (files.flatMap (e.extractFile o')) := by
    refine List.rel_flatMap (R := Eq) (List.forall₂_refl files) ?_
    rintro file _ rfl
    exact hfile file
  rw [extract, extract, ComponentDoc.dedupe_eq_firstsFrom, ComponentDoc.dedupe_eq_firstsFrom]
  exact forall₂_firstsFrom hname hall []

/-! ### Filters -/

theorem describe?_filter (e : Engine σ τ δ) (f : PropFilter) (enums : Bool) (s : σ) :
    e.describe? { filter := some f, extractEnums := enums } s =
      (e.describe? { filter := none, extractEnums := enums } s).map (ComponentDoc.restrict f) := by
  rw [describe?, describe?]
  split
  · -- without a filter every entry stays, so that restricting looks at the same entries
    have hall : (e.propsOf enums s).filter (fun _ _ => true) = e.propsOf enums s :=
      OrderedMap.ext_entries (List.filter_eq_self.2 fun _ _ => rfl)
    show _ = some (ComponentDoc.restrict f
      { exportName := e.name s
        description := (e.documentation s).description
        props := (e.propsOf enums s).filter fun _ _ => true
        methods := []
        tags := (e.documentation s).tags })
    rw [hall]
    rfl
  · rfl

/-! ### Enumerations -/

theorem sameOrEnum_describeType (e : Engine σ τ δ) (t : τ) :
    TypeDoc.SameOrEnum (e.describeType false t) (e.describeType true t) := by
  rw [describeType, describeType, if_neg Bool.false_ne_true, if_pos rfl]
  cases e.literalUnion? t with
  | none => exact .inl rfl
  | some values => exact .inr ⟨rfl, rfl, rfl⟩

theorem sameButType_propOf? (e : Engine σ τ δ) (s : σ) :
    Option.Rel PropDoc.SameButType (e.propOf? false s) (e.propOf? true s) := by
  rw [propOf?, propOf?]
  cases e.descriptionSite? s with
  | none => exact .none
  | some site => exact .some ⟨rfl, e.sameOrEnum_describeType _⟩

theorem similar_propsOf (e : Engine σ τ δ) (contract : σ) :
    OrderedMap.Similar PropDoc.SameButType (e.propsOf false contract) (e.propsOf true contract) := by
  apply OrderedMap.similar_ofList
  refine List.rel_filterMap (R := Eq) ?_ (List.forall₂_refl _)
  rintro s _ rfl
  show Option.Rel _ ((e.propOf? false s).map _) ((e.propOf? true s).map _)
  have hprop := e.sameButType_propOf? s
  generalize e.propOf? false s = plain at hprop
  generalize e.propOf? true s = enums at hprop
  cases hprop with
  | none => exact .none
  | some h =>
    refine .some ⟨?_, h⟩
    rw [h.rest_eq]

theorem sameButTypes_describe? (e : Engine σ τ δ) (rule : Option PropRule) (s : σ) :
    Option.Rel ComponentDoc.SameButTypes
      (e.describe? { filter := rule.map .rule, extractEnums := false } s)
      (e.describe? { filter := rule.map .rule, extractEnums := true } s) := by
  rw [describe?, describe?]
  split
  · refine .some ⟨rfl, (e.similar_propsOf s).filter ?_⟩
    intro _ plain enums h
    cases rule with
    | none => rfl
    | some r => exact r.keeps_eq h
  · exact .none

/-! ### Both options -/

/-- **Options are independent.** With a filter, the documents are those without one, restricted one
by one to the props the filter keeps.  Without a filter or with a rule, enumerations change nothing
but the types of props. -/
theorem extract_options_independent (e : Engine σ τ δ) (files : List Path) :
    (∀ (f : PropFilter) (enums : Bool),
      e.extract { filter := some f, extractEnums := enums } files =
        (e.extract { filter := none, extractEnums := enums } files).map
          (ComponentDoc.restrict f)) ∧
      ∀ rule : Option PropRule,
        List.Forall₂ ComponentDoc.SameButTypes
          (e.extract { filter := rule.map .rule, extractEnums := false } files)
          (e.extract { filter := rule.map .rule, extractEnums := true } files) := by
  constructor
  · intro f enums
    rw [← List.forall₂_eq_eq_eq, List.forall₂_map_right_iff]
    refine e.forall₂_extract ?_ ?_ files
    · rintro d d' rfl
      rfl
    · intro s
      rw [e.describe?_filter f enums s]
      cases e.describe? { filter := none, extractEnums := enums } s with
      | none => exact .none
      | some d => exact .some rfl
  · intro rule
    refine e.forall₂_extract ?_ (e.sameButTypes_describe? rule) files
    intro plain enums h
    rw [h.rest_eq]

end Engine

end PropDocs
