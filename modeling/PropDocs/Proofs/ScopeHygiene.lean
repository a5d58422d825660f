import PropDocs.Program.Build
import PropDocs.Program.Symbols
import PropDocs.Proofs.Agreement
import PropDocs.TypeExpr.Occurrence

/-!
# Scope hygiene

A type handle and a scoped member carry the file in which their names are looked up.  Answers about
types go through aliases, re-exports, bases and utility types, from file to file; this file shows
that what comes out is always paired with the file in which it was written.

* `WrittenIn`: a type stands in a declaration of the file it is paired with, at any depth;
  `WrittenMember`: so does a member, in an interface, a class or an object type;
* `Scoped`: what is needed of a type for its answers to be hygienic.  It holds of written types and
  of the types that symbols declare;
* `HasOrigin`: a member is a written one, but for its marks.  `hasOrigin_of_mem_membersWithin` shows
  it for members at every depth, by one lemma for each step of the walk;
* `unaliasFor_written`, `unionLeaves_written`: the same for types found behind aliases and in unions;
* `answers_written`: all answers about a type taken together.
-/

namespace PropDocs

/-- The types written in a declaration. -/
def Decl.types (d : Decl) : List TypeExpr :=
  match d.body with
  | .interface bases members => bases ++ members.flatMap Member.types
  | .typeAlias type => [type]
  | .classDecl base members => base.toList ++ members.flatMap Member.types
  | .variable type => type.toList
  | _ => []

namespace Decl

theorem mem_types_of_aliased? {d : Decl} {t : TypeExpr} (h : d.aliased? = some t) :
    t ∈ d.types := by
  rw [aliased?] at h
  split at h
  · rename_i type hbody
    obtain rfl : type = t := Option.some.inj h
    rw [types, hbody]
    exact List.mem_singleton_self type
  · cases h

theorem mem_types_of_mem_bases {d : Decl} {t : TypeExpr} (h : t ∈ d.bases) : t ∈ d.types := by
  rw [bases] at h
  rw [types]
  cases hbody : d.body with
  | interface bases members =>
    rw [hbody] at h
    exact List.mem_append_left _ h
  | classDecl base members =>
    rw [hbody] at h
    exact List.mem_append_left _ h
  | _ =>
    rw [hbody] at h
    cases h

theorem mem_types_of_mem_ownMembers {d : Decl} {m : Member} {t : TypeExpr} (hm : m ∈ d.ownMembers)
    (ht : t ∈ m.types) : t ∈ d.types := by
  rw [ownMembers] at hm
  rw [types]
  cases hbody : d.body with
  | interface bases members =>
    rw [hbody] at hm
    exact List.mem_append_right _ (List.mem_flatMap.2 ⟨m, hm, ht⟩)
  | classDecl base members =>
    rw [hbody] at hm
    exact List.mem_append_right _ (List.mem_flatMap.2 ⟨m, hm, ht⟩)
  | _ =>
    rw [hbody] at hm
    cases hm

end Decl

namespace Program

/-! ### What is written in a file -/

/-- **Written types.** The type of a handle occurs in a type that a declaration of its file writes:
the body of an alias, a base, the annotation of a member or of a variable. -/
def WrittenIn (p : Program) (t : TypeHandle) : Prop :=
  ∃ name, ∃ d ∈ p.group { file := t.file, name }, ∃ u ∈ d.types, t.type.Occurs u

/-- **Written members.** A file writes the member in an interface, a class or an object type. -/
def WrittenMember (p : Program) (file : Path) (m : Member) : Prop :=
  (∃ name, ∃ d ∈ p.group { file, name }, m ∈ d.ownMembers) ∨
    ∃ members, p.WrittenIn { file, type := .object members } ∧ m ∈ members

/-- **Origin.** A member is one that its file writes, but for the marks of optional and readonly
members. -/
def HasOrigin (p : Program) (m : ScopedMember) : Prop :=
  ∃ m₀, p.WrittenMember m.file m₀ ∧
    m.member = { m₀ with optional := m.member.optional, readonly := m.member.readonly }

/-- **Declared types.** A handle is the declared type of a symbol that some module exports. -/
def DeclaredType (p : Program) (t : TypeHandle) : Prop :=
  ∃ file, ∃ s ∈ p.exports (.module file), t = p.declaredType s

section

variable {p : Program}

theorem WrittenIn.of_occurs {file : Path} {t u : TypeExpr} (h : p.WrittenIn { file, type := t })
    (hu : u.Occurs t) : p.WrittenIn { file, type := u } := by
  obtain ⟨name, d, hd, s, hs, hocc⟩ := h
  exact ⟨name, d, hd, s, hs, hu.trans hocc⟩

theorem writtenIn_of_mem_types {r : GroupRef} {d : Decl} {t : TypeExpr} (hd : d ∈ p.group r)
    (ht : t ∈ d.types) : p.WrittenIn { file := r.file, type := t } :=
  ⟨r.name, d, hd, t, ht, .refl t⟩

theorem WrittenMember.writtenIn {file : Path} {m : Member} (h : p.WrittenMember file m)
    {u : TypeExpr} (hu : u ∈ m.types) : p.WrittenIn { file, type := u } := by
  rcases h with ⟨name, d, hd, hm⟩ | ⟨members, hwritten, hm⟩
  · exact writtenIn_of_mem_types hd (Decl.mem_types_of_mem_ownMembers hm hu)
  · exact hwritten.of_occurs (.of_mem_parts (List.mem_flatMap.2 ⟨m, hm, hu⟩))

theorem WrittenMember.hasOrigin {file : Path} {m : Member} (h : p.WrittenMember file m) :
    p.HasOrigin { file, member := m } := by
  refine ⟨m, h, ?_⟩
  cases m
  rfl

/-- The types of a member with an origin are written in its file: marks are no types. -/
theorem HasOrigin.writtenIn {m : ScopedMember} (h : p.HasOrigin m) {u : TypeExpr}
    (hu : u ∈ m.member.types) : p.WrittenIn { file := m.file, type := u } := by
  obtain ⟨m₀, hwritten, heq⟩ := h
  rw [heq] at hu
  exact hwritten.writtenIn hu

theorem HasOrigin.setOptional {m : ScopedMember} (h : p.HasOrigin m) (optional : Bool) :
    p.HasOrigin (m.setOptional optional) := by
  obtain ⟨m₀, hwritten, heq⟩ := h
  refine ⟨m₀, hwritten, ?_⟩
  rw [ScopedMember.setOptional, heq]

theorem HasOrigin.setReadonly {m : ScopedMember} (h : p.HasOrigin m) :
    p.HasOrigin m.setReadonly := by
  obtain ⟨m₀, hwritten, heq⟩ := h
  refine ⟨m₀, hwritten, ?_⟩
  rw [ScopedMember.setReadonly, heq]

/-! ### Handles whose answers are hygienic -/

/-- **Scoped handles.** The parts of the type are written in the file, and so are its members, if it
is an object type.  The type itself need not be: a symbol declares a name that nobody has written. -/
structure Scoped (p : Program) (t : TypeHandle) : Prop where
  parts : ∀ u ∈ t.type.parts, p.WrittenIn { file := t.file, type := u }
  members : ∀ members, t.type = .object members → ∀ m ∈ members, p.WrittenMember t.file m

theorem WrittenIn.scoped {t : TypeHandle} (h : p.WrittenIn t) : p.Scoped t :=
  { parts := fun _ hu => h.of_occurs (.of_mem_parts hu)
    members := by
      intro members htype m hm
      refine .inr ⟨members, ?_, hm⟩
      rw [← htype]
      exact h }

theorem scoped_any (file : Path) : p.Scoped { file, type := .any } :=
  { parts := fun u hu => by cases hu
    members := fun members htype => by cases htype }

theorem scoped_named (file : Path) (name : String) : p.Scoped { file, type := .named name } :=
  { parts := fun u hu => by cases hu
    members := fun members htype => by cases htype }

/-- An exported symbol declares a name, or anything when it leads nowhere. -/
theorem DeclaredType.scoped {t : TypeHandle} (h : p.DeclaredType t) : p.Scoped t := by
  obtain ⟨file, s, hs, rfl⟩ := h
  obtain ⟨name, -, rfl⟩ := List.mem_map.1 hs
  cases p.exportTarget? (maxDepth + 1) file name with
  | none => exact scoped_any file
  | some r => exact scoped_named r.file r.name

/-! ### Members -/

/-- A walk that pairs members with the files that write them. -/
def HygienicWalk (p : Program) (walk : MemberWalk) : Prop :=
  ∀ t : TypeHandle, p.Scoped t → ∀ m ∈ walk t.file t.type, p.HasOrigin m

theorem mem_of_mem_commonMembers {sets : List (List ScopedMember)} {m : ScopedMember}
    (h : m ∈ commonMembers sets) : ∃ set ∈ sets, m ∈ set := by
  cases sets with
  | nil => cases h
  | cons first others =>
    rw [commonMembers] at h
    exact ⟨first, List.mem_cons_self, (List.mem_filter.1 h).1⟩

variable {walk : MemberWalk}

theorem HygienicWalk.ownMembers (hwalk : p.HygienicWalk walk) {r : GroupRef} {d : Decl}
    (hd : d ∈ p.group r) {m : ScopedMember} (hm : m ∈ ownMembers walk r.file d) :
    p.HasOrigin m := by
  have hscoped : ∀ member ∈ d.ownMembers, p.HasOrigin { file := r.file, member } :=
    fun member hmember => WrittenMember.hasOrigin (.inl ⟨r.name, d, hd, hmember⟩)
  rw [Program.ownMembers] at hm
  rw [Decl.ownMembers] at hscoped
  cases hbody : d.body with
  | interface bases members =>
    rw [hbody] at hm hscoped
    obtain ⟨member, hmember, rfl⟩ := List.mem_map.1 hm
    exact hscoped member hmember
  | classDecl base members =>
    rw [hbody] at hm hscoped
    obtain ⟨member, hmember, rfl⟩ := List.mem_map.1 hm
    exact hscoped member hmember
  | typeAlias type =>
    rw [hbody] at hm
    have halias : d.aliased? = some type := by rw [Decl.aliased?, hbody]
    have hwritten := writtenIn_of_mem_types hd (Decl.mem_types_of_aliased? halias)
    exact hwalk { file := r.file, type } hwritten.scoped m hm
  | _ =>
    rw [hbody] at hm
    cases hm

theorem HygienicWalk.groupMembers (hwalk : p.HygienicWalk walk) {r : GroupRef} {m : ScopedMember}
    (hm : m ∈ p.groupMembers walk r) : p.HasOrigin m := by
  rw [Program.groupMembers] at hm
  rcases List.mem_append.1 ((firstOfEachName_sublist [] _).subset hm) with hm | hm
  · obtain ⟨d, hd, hm⟩ := List.mem_flatMap.1 hm
    exact hwalk.ownMembers hd hm
  · obtain ⟨d, hd, hm⟩ := List.mem_flatMap.1 hm
    obtain ⟨t, ht, hm⟩ := List.mem_flatMap.1 hm
    have hwritten := writtenIn_of_mem_types hd (Decl.mem_types_of_mem_bases ht)
    exact hwalk { file := r.file, type := t } hwritten.scoped m hm

/-- A utility type has the members of its first argument, which is written where the type is. -/
theorem HygienicWalk.builtinMembers (hwalk : p.HygienicWalk walk) {file : Path} {name : String}
    {args : List TypeExpr} (hargs : ∀ u ∈ args, p.WrittenIn { file, type := u }) {m : ScopedMember}
    (hm : m ∈ p.builtinMembers walk file name args) : p.HasOrigin m := by
  have harg : ∀ m ∈ argMembers walk file args, p.HasOrigin m := by
    intro m hm
    cases args with
    | nil => cases hm
    | cons t rest => exact hwalk { file, type := t } (hargs t List.mem_cons_self).scoped m hm
  have hselect : ∀ pick, ∀ m ∈ p.selectMembers walk file pick args, p.HasOrigin m := by
    intro pick m hm
    match args with
    | [] => cases hm
    | [_] => cases hm
    | t :: keys :: rest =>
      rw [selectMembers] at hm
      split at hm
      · exact harg m (List.mem_filter.1 hm).1
      · cases hm
  unfold Program.builtinMembers at hm
  split at hm
  · obtain ⟨m', hm', rfl⟩ := List.mem_map.1 hm
    exact (harg m' hm').setOptional true
  · obtain ⟨m', hm', rfl⟩ := List.mem_map.1 hm
    exact (harg m' hm').setOptional false
  · obtain ⟨m', hm', rfl⟩ := List.mem_map.1 hm
    exact (harg m' hm').setReadonly
  · exact hselect true m hm
  · exact hselect false m hm
  · cases hm

/-- **Members have an origin** at every depth: one step for each form of type that has members. -/
theorem hygienicWalk_membersWithin (p : Program) (depth : Nat) :
    p.HygienicWalk (p.membersWithin depth) := by
  induction depth with
  | zero =>
    intro t _ m hm
    cases hm
  | succ depth ih =>
    intro t ht m hm
    obtain ⟨file, type⟩ := t
    have hpart : ∀ u ∈ type.parts, ∀ m ∈ p.membersWithin depth file u, p.HasOrigin m :=
      fun u hu => ih { file, type := u } (ht.parts u hu).scoped
    cases type with
    | reference name args =>
      rw [membersWithin] at hm
      cases hr : p.typeTarget? file name with
      | some r =>
        rw [hr] at hm
        exact ih.groupMembers hm
      | none =>
        rw [hr] at hm
        exact ih.builtinMembers ht.parts hm
    | object members =>
      rw [membersWithin] at hm
      obtain ⟨member, hmember, rfl⟩ := List.mem_map.1 hm
      exact (ht.members members rfl member hmember).hasOrigin
    | intersection types =>
      rw [membersWithin] at hm
      obtain ⟨u, hu, hm⟩ := List.mem_flatMap.1 ((firstOfEachName_sublist [] _).subset hm)
      exact hpart u hu m hm
    | union types =>
      rw [membersWithin] at hm
      obtain ⟨set, hset, hm⟩ := mem_of_mem_commonMembers hm
      obtain ⟨u, hu, rfl⟩ := List.mem_map.1 hset
      exact hpart u (List.mem_filter.1 hu).1 m hm
    | _ => cases hm

/-! ### Types behind aliases, and their members -/

/-- **One alias step** leads to the body of an alias, in the file that writes it. -/
theorem aliased?_written {t u : TypeHandle} (h : p.aliased? t = some u) : p.WrittenIn u := by
  rw [Program.aliased?] at h
  split at h
  · obtain ⟨r, -, h⟩ := Option.bind_eq_some_iff.1 h
    obtain ⟨body, hbody, h⟩ := Option.bind_eq_some_iff.1 h
    obtain ⟨d, hd, halias⟩ := List.exists_of_findSome?_eq_some hbody
    obtain rfl := Option.some.inj h
    exact writtenIn_of_mem_types hd (Decl.mem_types_of_aliased? halias)
  · cases h

theorem unaliasFor_written (p : Program) (steps : Nat) :
    ∀ t : TypeHandle, p.unaliasFor steps t = t ∨ p.WrittenIn (p.unaliasFor steps t) := by
  induction steps with
  | zero => exact fun t => .inl rfl
  | succ steps ih =>
    intro t
    rw [unaliasFor]
    cases hnext : p.aliased? t with
    | none => exact .inl rfl
    | some next =>
      dsimp only
      rcases ih next with heq | hwritten
      · rw [heq]
        exact .inr (aliased?_written hnext)
      · exact .inr hwritten

theorem unalias_written (p : Program) (t : TypeHandle) :
    p.unalias t = t ∨ p.WrittenIn (p.unalias t) :=
  p.unaliasFor_written maxDepth t

/-- Looking through aliases keeps handles scoped, so the parts of what is found are written. -/
theorem Scoped.unalias {t : TypeHandle} (h : p.Scoped t) : p.Scoped (p.unalias t) := by
  rcases p.unalias_written t with heq | hwritten
  · rwa [heq]
  · exact hwritten.scoped

theorem unionLeaves_written {depth : Nat} :
    ∀ {t u : TypeHandle}, p.Scoped t → u ∈ p.unionLeaves depth t → u = t ∨ p.WrittenIn u := by
  induction depth with
  | zero =>
    intro t u _ hu
    exact .inl (List.mem_singleton.1 hu)
  | succ depth ih =>
    intro t u ht hu
    rw [unionLeaves] at hu
    split at hu
    · rename_i file types hunion
      obtain ⟨m, hm, hu⟩ := List.mem_flatMap.1 hu
      have hscoped := ht.unalias
      rw [hunion] at hscoped
      have hwritten : p.WrittenIn { file, type := m } := hscoped.parts m hm
      rcases ih hwritten.scoped hu with rfl | hu
      · exact .inr hwritten
      · exact .inr hu
    · exact .inl (List.mem_singleton.1 hu)

theorem unionParts?_written {t u : TypeHandle} (ht : p.Scoped t) {parts : List TypeHandle}
    (h : p.unionParts? t = some parts) (hu : u ∈ parts) : u = t ∨ p.WrittenIn u := by
  have hscoped := ht.unalias
  have hwritten := p.unalias_written t
  rw [unionParts?] at h
  split at h
  · rename_i file types hunion
    rw [hunion] at hscoped hwritten
    obtain rfl := Option.some.inj h
    rcases unionLeaves_written hscoped hu with rfl | hu
    · exact hwritten
    · exact .inr hu
  · cases h

theorem intersectionParts?_written {t u : TypeHandle} (ht : p.Scoped t) {parts : List TypeHandle}
    (h : p.intersectionParts? t = some parts) (hu : u ∈ parts) : p.WrittenIn u := by
  have hscoped := ht.unalias
  rw [intersectionParts?] at h
  split at h
  · rename_i file types hinter
    rw [hinter] at hscoped
    obtain rfl := Option.some.inj h
    obtain ⟨type, htype, rfl⟩ := List.mem_map.1 hu
    exact hscoped.parts type htype
  · cases h

/-! ### All answers -/

/-- **Scope hygiene.** Of a type that an exported symbol declares or that its file writes: every
property is a member that the file it is paired with writes, but for its marks, and its types are
written there too; and every type found behind its aliases, in its union or in its intersection is the
type itself or written in the file it is paired with. -/
theorem answers_written (p : Program) (t : TypeHandle) (ht : p.DeclaredType t ∨ p.WrittenIn t) :
    (∀ m ∈ p.properties t, p.HasOrigin m ∧
      ∀ u ∈ m.member.types, p.WrittenIn { file := m.file, type := u }) ∧
    (p.unalias t = t ∨ p.WrittenIn (p.unalias t)) ∧
    (∀ parts, p.unionParts? t = some parts → ∀ u ∈ parts, u = t ∨ p.WrittenIn u) ∧
    ∀ parts, p.intersectionParts? t = some parts → ∀ u ∈ parts, u = t ∨ p.WrittenIn u := by
  have hscoped : p.Scoped t := ht.elim DeclaredType.scoped WrittenIn.scoped
  refine ⟨?_, p.unalias_written t, ?_, ?_⟩
  · intro m hm
    have horigin := p.hygienicWalk_membersWithin (maxDepth + 1) t hscoped m hm
    exact ⟨horigin, fun u hu => horigin.writtenIn hu⟩
  · intro parts hparts u hu
    exact unionParts?_written hscoped hparts hu
  · intro parts hparts u hu
    exact .inr (intersectionParts?_written hscoped hparts hu)

/-- **Namesakes.** Two files that each declare an item of their own; the card of the first one has
properties of both files, through an import, a utility type and a base. -/
def namesakes : Workspace where
  overlays := OrderedMap.empty
    |>.insert "/card.ts"
      ("import { Base } from './base';\ninterface Item { here: 1 }\n" ++
        "export interface Card extends Partial<Pick<Base, 'item'>> { own: Item }")
    |>.insert "/base.ts"
      "interface Item { there: 1 }\nexport type Base = { item: Item; other: Item } & { last: Item }"

/-- The card as its symbol declares it. -/
def card : TypeHandle :=
  { file := "/card.ts", type := .named "Card" }

/-- The item that is picked from the base belongs to the base's file, although the card's file has an
item too, and it is optional although no file writes it so. -/
theorem namesakes_written :
    ∃ p, build namesakes {} ["/card.ts"] = .ok p ∧ p.DeclaredType card ∧
      (p.properties card).map (fun m => (m.file, m.name, m.member.optional)) =
        [("/card.ts", "own", false), ("/base.ts", "item", true)] ∧
      (∀ m ∈ p.properties card, p.HasOrigin m) ∧
      ∀ m ∈ p.properties card, ∀ u ∈ m.member.types,
        p.WrittenIn { file := m.file, type := u } := by
  have hrun : (build namesakes {} ["/card.ts"]).toOption.map
      (fun p => (p.exportedNames "/card.ts", p.exportTarget? (maxDepth + 1) "/card.ts" "Card",
        (p.properties card).map fun m => (m.file, m.name, m.member.optional))) =
      some (["Card"], some { file := "/card.ts", name := "Card" },
        [("/card.ts", "own", false), ("/base.ts", "item", true)]) := by decide +kernel
  cases hbuild : build namesakes {} ["/card.ts"] with
  | error e =>
    rw [hbuild] at hrun
    cases hrun
  | ok p =>
    rw [hbuild] at hrun
    obtain ⟨hnames, hrest⟩ := Prod.mk.inj (Option.some.inj hrun)
    obtain ⟨htarget, hproperties⟩ := Prod.mk.inj hrest
    have hdeclared : p.DeclaredType card := by
      refine ⟨"/card.ts", .exported "/card.ts" "Card" (some { file := "/card.ts", name := "Card" }),
        ?_, rfl⟩
      rw [exports, hnames, ← htarget]
      exact List.mem_singleton_self _
    obtain ⟨hmembers, -⟩ := answers_written p card (.inl hdeclared)
    exact ⟨p, rfl, hdeclared, hproperties, fun m hm => (hmembers m hm).1,
      fun m hm => (hmembers m hm).2⟩

end

end Program

end PropDocs
