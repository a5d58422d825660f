import PropDocs.Engine.SymbolTable
import PropDocs.Proofs.DocumentedDefaults
import PropDocs.Proofs.FirstOccurrences

/-!
# Prop maps

The props of a contract are written into a map one after another, so that a name which comes again
keeps its place and gets the later prop.  This file says what the map is, for every engine, without
the writing.

* `OrderedMap.keys_ofList` and `OrderedMap.get?_ofList`: each key of a written map stands where it was
  written first, and its value is the one written last;
* `CandidatesOf`: where the candidates for the props of a type come from, and `isDescribed`: which of
  them become props;
* `contributed`: what the tags of a symbol give to a key;
* `Describes`: what a prop says about its symbol, field by field;
* `first_place_last_content`: the keys of a prop map are the names of the described candidates, in
  order of first occurrence, and each stands for the last of them that has this name.
-/

namespace PropDocs

/-! ### Maps that are written step by step -/

namespace OrderedMap

variable {α : Type}

theorem keys_ofList (l : List (String × α)) : (ofList l).keys = (l.map Prod.fst).eraseDups :=
  keys_foldl_alter Prod.fst (fun e _ => e.2) l

/-- **The last write counts.** A key has the value of the last pair in which it occurs. -/
theorem get?_ofList (l : List (String × α)) (key : String) :
    (ofList l).get? key = ((l.filter fun e => e.1 == key).getLast?).map Prod.snd := by
  induction l using List.reverseRecOn with
  | nil => rfl
  | append_singleton l e ih =>
    have hlast : ofList (l ++ [e]) = (ofList l).insert e.1 e.2 := by
      simp only [ofList, List.foldl_append, List.foldl_cons, List.foldl_nil]
    rw [hlast, insert, get?_alter, List.filter_append]
    by_cases he : key = e.1
    · rw [if_pos he, List.filter_cons_of_pos (by simpa using he.symm), List.filter_nil,
        List.getLast?_concat, Option.map_some]
    · rw [if_neg he, List.filter_cons_of_neg (by simpa using Ne.symm he), List.filter_nil,
        List.append_nil, ih]

example : (ofList [("a", 1), ("b", 2), ("a", 3)]).entries = [("a", 3), ("b", 2)] := by decide

/-- The entries of a map are what its keys read as. -/
theorem get?_eq_some_of_mem {m : OrderedMap α} {e : String × α} (h : e ∈ m.entries) :
    m.get? e.1 = some e.2 := by
  rw [← m.ofList_entries, get?_ofList]
  obtain ⟨before, after, hsplit⟩ := List.append_of_mem h
  have hnodup := m.nodup
  rw [hsplit, Entries.keys, List.map_append, List.map_cons, List.nodup_append] at hnodup
  have hafter : after.filter (fun e' => e'.1 == e.1) = [] := by
    rw [List.filter_eq_nil_iff]
    intro e' he' hkey
    refine (List.nodup_cons.1 hnodup.2.1).1 ?_
    rw [← beq_iff_eq.1 hkey]
    exact List.mem_map_of_mem he'
  have hat : (e :: after).filter (fun e' => e'.1 == e.1) = [e] := by
    rw [List.filter_cons_of_pos (by simp), hafter]
  rw [hsplit, List.filter_append, hat, List.getLast?_concat, Option.map_some]

end OrderedMap

/-- Lists that are related item by item have related last items. -/
theorem rel_getLast? {α β : Type} {R : α → β → Prop} {xs : List α} {ys : List β}
    (h : List.Forall₂ R xs ys) : Option.Rel R xs.getLast? ys.getLast? := by
  have hreverse := List.rel_reverse h
  rw [← List.head?_reverse, ← List.head?_reverse]
  generalize xs.reverse = xs' at hreverse
  generalize ys.reverse = ys' at hreverse
  cases hreverse with
  | nil => exact .none
  | cons hab _ => exact .some hab

namespace Engine

variable {σ τ δ : Type} (e : Engine σ τ δ)

/-! ### Candidates -/

/-- **Where candidates come from.** A type with properties gives these.  A type without any gives
the properties of the members of a union, or else of an intersection, and any other type gives
nothing. -/
inductive CandidatesOf (t : τ) : List σ → Prop
  | own (h : e.properties t ≠ []) : CandidatesOf t (e.properties t)
  | union {parts : List τ} (h : e.properties t = []) (hparts : e.unionParts? t = some parts) :
      CandidatesOf t (parts.flatMap e.properties)
  | intersection {parts : List τ} (h : e.properties t = []) (hunion : e.unionParts? t = none)
      (hparts : e.intersectionParts? t = some parts) :
      CandidatesOf t (parts.flatMap e.properties)
  | nothing (h : e.properties t = []) (hunion : e.unionParts? t = none)
      (hintersection : e.intersectionParts? t = none) : CandidatesOf t []

theorem candidatesOf_candidates (contract : σ) :
    e.CandidatesOf (e.declaredType contract) (e.candidates contract) := by
  rw [candidates]
  generalize e.declaredType contract = t
  cases hown : e.properties t with
  | cons s rest =>
    show e.CandidatesOf t (s :: rest)
    rw [← hown]
    exact .own (by rw [hown]; exact List.cons_ne_nil s rest)
  | nil =>
    cases hunion : e.unionParts? t with
    | some parts => exact .union hown hunion
    | none =>
      cases hintersection : e.intersectionParts? t with
      | some parts => exact .intersection hown hunion hintersection
      | none => exact .nothing hown hunion hintersection

/-- **Described candidates**: the data properties that have a declaration, be it that of their value
or another one. -/
def isDescribed (s : σ) : Bool :=
  (e.flags s).property && ((e.valueDeclaration? s).isSome || !(e.declarations s).isEmpty)

/-! ### Descriptions -/

/-- **Contributed contents.** What the tags of a symbol give to a key, in order.  Those of a symbol
without a documentation comment are not read, and give nothing. -/
def contributed (s : σ) (key : String) : List String :=
  match e.documentation? s with
  | none => []
  | some _ => (e.tags s).filterMap fun tag => contentUnder? key tag.format

theorem values_tags_documentation (s : σ) (key : String) :
    ((e.documentation s).tags.get? key).map TagValue.values =
      if e.contributed s key = [] then none else some (e.contributed s key) := by
  rw [documentation, contributed]
  cases e.documentation? s with
  | none => rfl
  | some text =>
    rw [← Function.comp_def (contentUnder? key), ← List.filterMap_map]
    exact TagMap.values_ofLines _ key

/-- The first content of a key is the first one that the tags give to it. -/
theorem first_tags_documentation (s : σ) (key : String) :
    ((e.documentation s).tags.get? key).map TagValue.first = (e.contributed s key).head? := by
  rw [documentation, contributed]
  cases e.documentation? s with
  | none => rfl
  | some text =>
    rw [← Function.comp_def (contentUnder? key), ← List.filterMap_map, List.head?_filterMap]
    exact TagMap.first_ofLines _ key

/-- **A prop describes a symbol**: its name, whether it may be missing, its type as seen from the
declaration of its value or else from its first declaration, and its documentation.  The default is
the first content that its tags give to the key `default`. -/
structure Describes (enums : Bool) (s : σ) (prop : PropDoc) : Prop where
  name : prop.name = e.name s
  required : prop.required = !(e.flags s).optional
  type : ∃ site, (e.valueDeclaration? s).or (e.declarations s).head? = some site ∧
    prop.type = e.describeType enums (e.typeAt s site)
  description : prop.description = ((e.documentation? s).map Text.unifyString).getD ""
  tags : ∀ key, (prop.tags.get? key).map TagValue.values =
    if e.contributed s key = [] then none else some (e.contributed s key)
  defaultValue : prop.defaultValue = (e.contributed s "default").head?

theorem describes_of_propOf? {enums : Bool} {s : σ} {prop : PropDoc}
    (h : e.propOf? enums s = some prop) : e.Describes enums s prop := by
  rw [propOf?] at h
  split at h
  · cases h
  · rename_i site hsite
    obtain rfl := Option.some.inj h
    exact
      { name := rfl
        required := rfl
        type := ⟨site, hsite, rfl⟩
        description := by
          dsimp only
          rw [documentation]
          cases e.documentation? s <;> rfl
        tags := e.values_tags_documentation s
        defaultValue := e.first_tags_documentation s "default" }

theorem isSome_propOf? (enums : Bool) (s : σ) :
    (e.propOf? enums s).isSome =
      ((e.valueDeclaration? s).isSome || !(e.declarations s).isEmpty) := by
  rw [propOf?, descriptionSite?]
  cases e.valueDeclaration? s with
  | some site => rfl
  | none => cases e.declarations s <;> rfl

/-! ### The map -/

/-- The pairs that are written into a prop map describe the described candidates, one by one. -/
theorem forall₂_described (enums : Bool) (candidates : List σ) :
    List.Forall₂ (fun s entry => entry.1 = e.name s ∧ e.Describes enums s entry.2)
      (candidates.filter e.isDescribed)
      ((candidates.filter fun s => (e.flags s).property).filterMap fun s =>
        (e.propOf? enums s).map fun prop => (prop.name, prop)) := by
  rw [List.filterMap_filter, ← List.filterMap_eq_filter]
  refine List.rel_filterMap (R := Eq) ?_ (List.forall₂_refl candidates)
  rintro s _ rfl
  dsimp only
  rw [Option.guard, isDescribed]
  cases hproperty : (e.flags s).property with
  | false => exact Option.Rel.none
  | true =>
    rw [Bool.true_and, ← e.isSome_propOf? enums s, if_pos rfl]
    cases hprop : e.propOf? enums s with
    | none => exact Option.Rel.none
    | some prop =>
      have hdescribes := e.describes_of_propOf? hprop
      exact Option.Rel.some ⟨hdescribes.name, hdescribes⟩

/-- **First place, last content.** The keys of a contract's prop map are the names of its described
candidates in order of first occurrence.  Each name stands for a prop that describes the last of the
described candidates with this name, and every prop stands under its own name. -/
theorem first_place_last_content (enums : Bool) (contract : σ) :
    e.CandidatesOf (e.declaredType contract) (e.candidates contract) ∧
      (e.propsOf enums contract).keys =
        (((e.candidates contract).filter e.isDescribed).map e.name).eraseDups ∧
      (∀ name, Option.Rel (e.Describes enums)
        ((((e.candidates contract).filter e.isDescribed).filter fun s => e.name s == name).getLast?)
        ((e.propsOf enums contract).get? name)) ∧
      ∀ entry ∈ (e.propsOf enums contract).entries, entry.2.name = entry.1 := by
  have hpairs := e.forall₂_described enums (e.candidates contract)
  have hlookup : ∀ name, Option.Rel (e.Describes enums)
      ((((e.candidates contract).filter e.isDescribed).filter fun s => e.name s == name).getLast?)
      ((e.propsOf enums contract).get? name) := by
    intro name
    rw [propsOf, OrderedMap.get?_ofList]
    have hnamed := rel_getLast? <| List.rel_filter (p := fun s => e.name s == name)
      (q := fun entry : String × PropDoc => entry.1 == name) (fun s entry h => by simp [h.1]) hpairs
    generalize List.getLast? _ = last at hnamed
    generalize List.getLast? _ = entry at hnamed
    cases hnamed with
    | none => exact .none
    | some h => exact .some h.2
  refine ⟨e.candidatesOf_candidates contract, ?_, hlookup, ?_⟩
  · rw [propsOf, OrderedMap.keys_ofList]
    congr 1
    rw [← List.forall₂_eq_eq_eq, List.forall₂_map_left_iff, List.forall₂_map_right_iff]
    exact hpairs.flip.imp fun entry s h => h.1
  · intro entry hentry
    have hget := OrderedMap.get?_eq_some_of_mem hentry
    have hrel := hlookup entry.1
    rw [hget] at hrel
    generalize hlast : List.getLast? _ = last at hrel
    cases hrel with
    | some h =>
      have hname := List.of_mem_filter (List.mem_of_getLast? hlast)
      rw [h.name, beq_iff_eq.1 hname]

/-- **Stairs.** A contract with two forms that share the name `step`.  One form has a method, too, and
the other one a `rise` that is declared nowhere. -/
def stairs : SymbolTable where
  symbols :=
    [{ name := "step", flags := { property := true, optional := true }, type := .named "string" },
      { name := "climb", flags := { method := true } },
      { name := "rise", flags := { property := true }, doc := "Height" },
      { name := "rise", flags := { property := true }, hasDeclaration := false },
      { name := "step", flags := { property := true }, type := .named "number",
        tags := [{ name := "see" }, { name := "default", text := some (.plain "12") }] },
      { name := "Stairs", type := .union [.object [0, 1, 2], .object [3, 4]] }]

/-- The step keeps its place in front of the rise and is described as in the second form; the rise is
described as in the first form. -/
theorem stairs_first_place_last_content :
    (stairs.engine.propsOf false 5).keys = ["step", "rise"] ∧
      (∃ prop, (stairs.engine.propsOf false 5).get? "step" = some prop ∧
        prop.required = true ∧ prop.defaultValue = some "12") ∧
      ∃ prop, (stairs.engine.propsOf false 5).get? "rise" = some prop ∧
        prop.description = "Height" ∧ prop.defaultValue = none := by
  obtain ⟨-, hkeys, hlookup, -⟩ := first_place_last_content stairs.engine false 5
  refine ⟨hkeys.trans (by decide), ?_, ?_⟩
  · have hstep := hlookup "step"
    rw [show List.getLast? _ = some 4 by decide] at hstep
    generalize (stairs.engine.propsOf false 5).get? "step" = found at hstep ⊢
    cases hstep with
    | some h => exact ⟨_, rfl, h.required, h.defaultValue.trans (by decide +kernel)⟩
  · have hrise := hlookup "rise"
    rw [show List.getLast? _ = some 2 by decide] at hrise
    generalize (stairs.engine.propsOf false 5).get? "rise" = found at hrise ⊢
    cases hrise with
    | some h =>
      exact ⟨_, rfl, h.description.trans (by decide +kernel), h.defaultValue.trans (by decide +kernel)⟩

/-- **Ledge.** A contract with a width that cannot be documented and has a default all the same. -/
def ledge : SymbolTable where
  symbols :=
    [{ name := "width", flags := { property := true }, documentable := false,
        tags := [{ name := "default", text := some (.plain "12") }] },
      { name := "Ledge", type := .object [0] }]

/-- The default of the width is lost: what its tags say is not read without a comment. -/
theorem ledge_default_lost :
    ledge.engine.candidates 1 = [0] ∧ ledge.engine.isDescribed 0 = true ∧
      ((ledge.engine.tags 0).filterMap fun tag => contentUnder? "default" tag.format).head? =
        some "12" ∧
      ((ledge.engine.propsOf false 1).get? "width").map PropDoc.defaultValue = some none :=
  ⟨by decide, by decide, by decide +kernel, by decide +kernel⟩

end Engine

end PropDocs
