import PropDocs.Docs.Component
import PropDocs.Program.Build
import PropDocs.Program.Symbols
import PropDocs.Proofs.DocumentRoundTrip

/-!
# Props of a contract in a program

A contract's props are collected from candidates: the members of its declared type or, when it has
none at all, those of the constituents of a union or an intersection.  Only data properties become
props.  The two tests are not the same: the members that keep the constituents out of sight need not
be data properties.

* `memberProp`: in a program every member has a prop, so that collecting props is a `map`
  (`propsOf_engine`);
* `isEmpty_propsOf_iff`: a contract has no props exactly when no candidate is a data property;
* `Masked`: a type has members, but no data property among them;
* `lost_iff_masked`: where a constituent has a data property, the contract is without props exactly
  when its declared type is masked;
* `runners_lost`: two constituents with a method in common, and with data properties of their own, of
  which none is left.
-/

namespace PropDocs

/-- What is seen of a run that succeeds is seen of its result. -/
theorem exists_ok_of_toOption_map {ε α β : Type} {run : Except ε α} {f : α → β} {b : β}
    (h : run.toOption.map f = some b) : ∃ a, run = .ok a ∧ f a = b := by
  cases run with
  | error e => cases h
  | ok a => exact ⟨a, rfl, Option.some.inj h⟩

/-! ### Ordered maps from pairs -/

namespace OrderedMap

variable {α : Type}

/-- Pairs with distinct keys are the entries of their map, in their order. -/
theorem entries_ofList {l : List (String × α)} (h : (Entries.keys l).Nodup) :
    (ofList l).entries = l :=
  entries_foldl_insert l empty h

theorem entries_insert_ne_nil (m : OrderedMap α) (key : String) (value : α) :
    (m.insert key value).entries ≠ [] := by
  show Entries.alter key (fun _ => value) m.entries ≠ []
  cases m.entries with
  | nil => exact List.cons_ne_nil _ _
  | cons e rest =>
    rw [Entries.alter]
    split <;> exact List.cons_ne_nil _ _

theorem isEmpty_ofList (l : List (String × α)) : (ofList l).isEmpty = l.isEmpty := by
  induction l using List.reverseRecOn with
  | nil => rfl
  | append_singleton l e _ =>
    have hlast : ofList (l ++ [e]) = (ofList l).insert e.1 e.2 := by
      simp only [ofList, List.foldl_append, List.foldl_cons, List.foldl_nil]
    have hne := entries_insert_ne_nil (ofList l) e.1 e.2
    rw [hlast, isEmpty, List.isEmpty_eq_false_iff.2 hne, List.isEmpty_eq_false_iff.2 (by simp)]

end OrderedMap

namespace Program

variable {p : Program} {cwd : Path} {enums : Bool}

/-! ### Props of members -/

theorem isSome_propOf?_member (p : Program) (cwd : Path) (enums : Bool) (m : ScopedMember) :
    ((p.engine cwd).propOf? enums (.member m)).isSome = true :=
  rfl

/-- **Prop of a member.** A member is its own declaration, so that it always has one. -/
def memberProp (p : Program) (cwd : Path) (enums : Bool) (m : ScopedMember) : PropDoc :=
  ((p.engine cwd).propOf? enums (.member m)).get (p.isSome_propOf?_member cwd enums m)

@[simp] theorem propOf?_member (m : ScopedMember) :
    (p.engine cwd).propOf? enums (.member m) = some (p.memberProp cwd enums m) :=
  (Option.some_get _).symm

@[simp] theorem name_memberProp (m : ScopedMember) : (p.memberProp cwd enums m).name = m.name :=
  rfl

/-! ### Candidates -/

/-- **Constituents** of a union or, failing that, of an intersection. -/
def constituents? (p : Program) (t : TypeHandle) : Option (List TypeHandle) :=
  (p.unionParts? t).or (p.intersectionParts? t)

/-- **Candidates** for the props of a type: its members or, when it has none at all, those of its
constituents. -/
def candidateMembers (p : Program) (t : TypeHandle) : List ScopedMember :=
  if p.properties t = [] then ((p.constituents? t).getD []).flatMap p.properties
  else p.properties t

theorem candidates_engine (s : ProgramSymbol) :
    (p.engine cwd).candidates s = (p.candidateMembers (p.declaredType s)).map .member := by
  have hown : (p.engine cwd).properties ((p.engine cwd).declaredType s) =
      (p.properties (p.declaredType s)).map .member := rfl
  rw [Engine.candidates, hown, candidateMembers]
  cases p.properties (p.declaredType s) with
  | nil =>
    rw [if_pos rfl, List.map_flatMap]
    rfl
  | cons m ms =>
    rw [if_neg (List.cons_ne_nil m ms)]
    rfl

/-- **Collecting props** is a map over the candidates that are data properties. -/
theorem propsOf_engine (s : ProgramSymbol) :
    (p.engine cwd).propsOf enums s =
      .ofList (((p.candidateMembers (p.declaredType s)).filter fun m => m.flags.property).map
        fun m => (m.name, p.memberProp cwd enums m)) := by
  rw [Engine.propsOf, candidates_engine, List.filter_map, List.filterMap_map]
  congr 1
  rw [← List.filterMap_eq_map]
  refine List.filterMap_congr fun m _ => ?_
  show ((p.engine cwd).propOf? enums (.member m)).map (fun prop => (prop.name, prop)) = _
  rw [propOf?_member, Option.map_some, name_memberProp]
  rfl

/-! ### Contracts without props -/

/-- A type has a member that is a data property. -/
def HasDataProperty (p : Program) (t : TypeHandle) : Prop :=
  ∃ m ∈ p.properties t, m.member.kind = .property

/-- **Masked.** A type has members, but no data property among them. -/
def Masked (p : Program) (t : TypeHandle) : Prop :=
  p.properties t ≠ [] ∧ ¬ p.HasDataProperty t

/-- A contract has no props exactly when no candidate is a data property. -/
theorem isEmpty_propsOf_iff (s : ProgramSymbol) :
    ((p.engine cwd).propsOf enums s).isEmpty = true ↔
      ∀ m ∈ p.candidateMembers (p.declaredType s), m.member.kind ≠ .property := by
  rw [propsOf_engine, OrderedMap.isEmpty_ofList, List.isEmpty_iff, List.map_eq_nil_iff,
    List.filter_eq_nil_iff]
  refine forall_congr' fun m => imp_congr_right fun _ => not_congr ?_
  show (m.member.kind == .property) = true ↔ _
  rw [beq_iff_eq]

/-- **Lost contracts.** Let the declared type of a symbol be a union or an intersection behind its
aliases, and let a constituent have a data property.  The symbol has no props exactly when its
declared type has members without a data property among them. -/
theorem lost_iff_masked (p : Program) (cwd : Path) (enums : Bool) (s : ProgramSymbol)
    (parts : List TypeHandle) (hparts : p.constituents? (p.declaredType s) = some parts)
    (hprop : ∃ t ∈ parts, p.HasDataProperty t) :
    ((p.engine cwd).propsOf enums s).isEmpty = true ↔ p.Masked (p.declaredType s) := by
  rw [isEmpty_propsOf_iff, candidateMembers, hparts, Option.getD_some]
  by_cases hown : p.properties (p.declaredType s) = []
  · -- the constituents are looked at, and one of them has a data property
    rw [if_pos hown]
    constructor
    · intro hnone
      obtain ⟨t, ht, m, hm, hkind⟩ := hprop
      exact absurd hkind (hnone m (List.mem_flatMap.2 ⟨t, ht, hm⟩))
    · intro hmasked
      exact absurd hown hmasked.1
  · -- they are not, whatever they have
    rw [if_neg hown]
    constructor
    · intro hnone
      refine ⟨hown, ?_⟩
      rintro ⟨m, hm, hkind⟩
      exact hnone m hm hkind
    · intro hmasked m hm hkind
      exact hmasked.2 ⟨m, hm, hkind⟩

/-- **Runners.** A contract with two forms, each with a data property of its own; both can run. -/
def runners : Workspace where
  overlays := OrderedMap.empty.insert "/runners.ts" <|
    "export type Runner = { pace: number; run(): void } | { goal: string; run(): void }"

/-- The symbol that the file exports. -/
def runner : ProgramSymbol :=
  .exported "/runners.ts" "Runner" (some { file := "/runners.ts", name := "Runner" })

/-- **The runner is lost.** What both forms have is the method, which is no prop, but keeps their data
properties from being looked at. -/
theorem runners_lost :
    ∃ p, build runners {} ["/runners.ts"] = .ok p ∧ runner ∈ p.exports (.module "/runners.ts") ∧
      (p.engine "/").isContract runner = true ∧
      (∃ parts, p.constituents? (p.declaredType runner) = some parts ∧
        ∃ t ∈ parts, p.HasDataProperty t) ∧
      p.Masked (p.declaredType runner) ∧ ((p.engine "/").propsOf false runner).isEmpty = true := by
  have hrun : (build runners {} ["/runners.ts"]).toOption.map
      (fun p => (p.exportedNames "/runners.ts", p.exportTarget? (maxDepth + 1) "/runners.ts" "Runner",
        (p.engine "/").isContract runner,
        (p.constituents? (p.declaredType runner)).map
          (List.any · fun t => (p.properties t).any fun m => m.member.kind == .property),
        (p.properties (p.declaredType runner)).map fun m => m.member.kind)) =
      some (["Runner"], some { file := "/runners.ts", name := "Runner" }, true, some true,
        [.method]) := by
    decide +kernel
  obtain ⟨p, hbuild, hseen⟩ := exists_ok_of_toOption_map hrun
  obtain ⟨hnames, hrest⟩ := Prod.mk.inj hseen
  obtain ⟨htarget, hrest⟩ := Prod.mk.inj hrest
  obtain ⟨hcontract, hrest⟩ := Prod.mk.inj hrest
  obtain ⟨hany, hkinds⟩ := Prod.mk.inj hrest
  obtain ⟨parts, hparts, hprop⟩ := Option.map_eq_some_iff.1 hany
  have hprop' : ∃ t ∈ parts, p.HasDataProperty t := by
    simpa [HasDataProperty] using hprop
  have hmasked : p.Masked (p.declaredType runner) := by
    constructor
    · intro hnil
      rw [hnil] at hkinds
      cases hkinds
    · rintro ⟨m, hm, hkind⟩
      have hmem := List.mem_map_of_mem (f := fun m : ScopedMember => m.member.kind) hm
      rw [hkinds, hkind] at hmem
      cases List.mem_singleton.1 hmem
  refine ⟨p, hbuild, ?_, hcontract, ⟨parts, hparts, hprop'⟩, hmasked, ?_⟩
  · rw [exports, hnames, runner, ← htarget]
    exact List.mem_singleton_self _
  · exact (lost_iff_masked p "/" false runner parts hparts hprop').2 hmasked

end Program

end PropDocs
