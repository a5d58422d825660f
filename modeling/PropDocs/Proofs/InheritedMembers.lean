import PropDocs.Proofs.ContractProps
import PropDocs.Proofs.ExportResolution
import PropDocs.Proofs.MemberNames

/-!
# Members by inheritance

The members of an interface or a class are its own and those of its bases.  The collection leaves out
repeated names on every level of the hierarchy, for the group of each base and again for the group
that extends it.  This file shows that leaving them out once, at the top, gives the same list.

* `lineage`: the members that a hierarchy writes, in depth-first pre-order, with all repeats; and
  `inherited`: the first of each name among them;
* `IsHierarchy`: a type names a group of declarations, and so does each base, down to a height.
  Interfaces and classes of one name are one group, and a group may be reached in several ways;
* `IsHierarchy.membersWithin_eq`: the members of a hierarchy are the inherited ones, because what each
  base leaves out is interchangeable with what it had (`SameFirsts`);
* `own_before_inherited`: the statement for exported symbols and for their props.
-/

namespace PropDocs

/-! ### First of each name -/

/-- A list of members without those whose name a member in front of them has. -/
def firstsByName (ms : List ScopedMember) : List ScopedMember :=
  ms.eraseDupsBy fun a b => a.name == b.name

theorem firstOfEachName_nil (ms : List ScopedMember) : firstOfEachName [] ms = firstsByName ms := by
  rw [firstOfEachName_eq_firstsFrom, firstsFrom_nil, firstsByName]

namespace Program

/-! ### Hierarchies -/

/-- The group of declarations that a type names. -/
def groupOf? (p : Program) (t : TypeHandle) : Option GroupRef :=
  match t.type with
  | .reference name _ => p.typeTarget? t.file name
  | _ => none

/-- The members that the declarations of a group write themselves, in order. -/
def writtenMembers (p : Program) (r : GroupRef) : List ScopedMember :=
  (p.group r).flatMap fun d => d.ownMembers.map fun member => { file := r.file, member }

/-- The types that the declarations of a group extend, in order. -/
def basesOf (p : Program) (r : GroupRef) : List TypeHandle :=
  (p.group r).flatMap fun d => d.bases.map fun type => { file := r.file, type }

/-- No declaration of a group is an alias.  It holds of interfaces and classes, also where functions,
variables or namespaces share their name. -/
def AliasFree (p : Program) (r : GroupRef) : Prop :=
  ∀ d ∈ p.group r, d.aliased? = none

instance decidableAliasFree (p : Program) (r : GroupRef) : Decidable (p.AliasFree r) :=
  decidable_of_iff (((p.group r).all fun d => d.aliased?.isNone) = true)
    (by simp [AliasFree, Option.isNone_iff_eq_none])

/-- **Hierarchy.** The type names a group of interfaces and classes whose bases, if any, name such
groups in turn, and so on for at most `h` steps. -/
def IsHierarchy (p : Program) : (h : Nat) → TypeHandle → Prop
  | 0, t => ∃ r ∈ p.groupOf? t, p.AliasFree r ∧ (p.basesOf r).isEmpty = true
  | h + 1, t => ∃ r ∈ p.groupOf? t, p.AliasFree r ∧ ∀ b ∈ p.basesOf r, p.IsHierarchy h b

instance decidableIsHierarchy (p : Program) :
    ∀ (h : Nat) (t : TypeHandle), Decidable (p.IsHierarchy h t)
  | 0, t => inferInstanceAs
      (Decidable (∃ r ∈ p.groupOf? t, p.AliasFree r ∧ (p.basesOf r).isEmpty = true))
  | h + 1, t =>
    have : DecidablePred (p.IsHierarchy h) := decidableIsHierarchy p h
    inferInstanceAs
      (Decidable (∃ r ∈ p.groupOf? t, p.AliasFree r ∧ ∀ b ∈ p.basesOf r, p.IsHierarchy h b))

/-- **Lineage.** The members that a hierarchy of height `h` writes: those of the group itself, then
the lineage of each base. -/
def lineage (p : Program) : (h : Nat) → TypeHandle → List ScopedMember
  | 0, t => (p.groupOf? t).toList.flatMap p.writtenMembers
  | h + 1, t =>
    (p.groupOf? t).toList.flatMap fun r =>
      p.writtenMembers r ++ (p.basesOf r).flatMap (p.lineage h)

/-- **Inherited members.** Of the members of a lineage the first one of each name. -/
def inherited (p : Program) (h : Nat) (t : TypeHandle) : List ScopedMember :=
  firstsByName (p.lineage h t)

section

variable {p : Program} {t : TypeHandle} {r : GroupRef} {h : Nat}

/-- One step into a hierarchy: the bases are lower. -/
theorem IsHierarchy.exists_group (hh : p.IsHierarchy h t) :
    ∃ r, p.groupOf? t = some r ∧ p.AliasFree r ∧
      ∀ b ∈ p.basesOf r, ∃ h', h = h' + 1 ∧ p.IsHierarchy h' b := by
  cases h with
  | zero =>
    obtain ⟨r, hr, hfree, hnil⟩ := hh
    refine ⟨r, hr, hfree, fun b hb => ?_⟩
    rw [List.isEmpty_iff.1 hnil] at hb
    cases hb
  | succ h' =>
    obtain ⟨r, hr, hfree, hbases⟩ := hh
    exact ⟨r, hr, hfree, fun b hb => ⟨h', rfl, hbases b hb⟩⟩

/-! ### Members of a hierarchy -/

theorem membersWithin_of_groupOf? {depth : Nat} (hr : p.groupOf? t = some r) :
    p.membersWithin (depth + 1) t.file t.type = p.groupMembers (p.membersWithin depth) r := by
  obtain ⟨file, type⟩ := t
  cases type with
  | reference name args =>
    have hr' : p.typeTarget? file name = some r := hr
    rw [membersWithin, hr']
  | _ => cases hr

theorem ownMembers_of_aliased? {d : Decl} (walk : MemberWalk) (file : Path)
    (hd : d.aliased? = none) :
    ownMembers walk file d = d.ownMembers.map fun member => { file, member } := by
  rw [Decl.aliased?] at hd
  rw [ownMembers, Decl.ownMembers]
  cases hbody : d.body with
  | typeAlias type =>
    rw [hbody] at hd
    cases hd
  | _ => rfl

theorem AliasFree.groupMembers_eq (hfree : p.AliasFree r) (walk : MemberWalk) :
    p.groupMembers walk r = firstOfEachName []
      (p.writtenMembers r ++ (p.basesOf r).flatMap fun b => walk b.file b.type) := by
  have hown : (p.group r).flatMap (ownMembers walk r.file) = p.writtenMembers r :=
    List.flatMap_congr fun d hd => ownMembers_of_aliased? walk r.file (hfree d hd)
  have hbases : ((p.group r).flatMap fun d => d.bases.flatMap (walk r.file)) =
      (p.basesOf r).flatMap fun b => walk b.file b.type := by
    simp only [basesOf, List.flatMap_assoc, List.flatMap_map]
  rw [groupMembers, hown, hbases]

/-- **Members of a hierarchy.** At every depth that exceeds the height, they are the first of each
name in the lineage.  The repeats that each base has left out already make no difference. -/
theorem IsHierarchy.membersWithin_eq (hh : p.IsHierarchy h t) :
    ∀ {depth : Nat}, h < depth →
      p.membersWithin depth t.file t.type = firstOfEachName [] (p.lineage h t) := by
  induction h generalizing t with
  | zero =>
    intro depth hdepth
    obtain ⟨depth, rfl⟩ := Nat.exists_eq_add_one_of_ne_zero (Nat.ne_zero_of_lt hdepth)
    obtain ⟨r, hr, hfree, hbases⟩ := hh
    rw [membersWithin_of_groupOf? hr, hfree.groupMembers_eq, List.isEmpty_iff.1 hbases, lineage,
      Option.mem_def.1 hr]
    simp
  | succ h ih =>
    intro depth hdepth
    obtain ⟨depth, rfl⟩ := Nat.exists_eq_add_one_of_ne_zero (Nat.ne_zero_of_lt hdepth)
    obtain ⟨r, hr, hfree, hbases⟩ := hh
    have hlower : SameFirsts ScopedMember.name
        ((p.basesOf r).flatMap fun b => p.membersWithin depth b.file b.type)
        ((p.basesOf r).flatMap (p.lineage h)) := by
      apply SameFirsts.flatMap
      intro b hb
      rw [ih (hbases b hb) (by omega), firstOfEachName_eq_firstsFrom]
      exact .firsts _
    rw [membersWithin_of_groupOf? hr, hfree.groupMembers_eq, lineage, Option.mem_def.1 hr,
      firstOfEachName_eq_firstsFrom, firstOfEachName_eq_firstsFrom]
    simp only [Option.toList_some, List.flatMap_cons, List.flatMap_nil, List.append_nil]
    exact ((SameFirsts.refl (p.writtenMembers r)).append hlower) []

theorem IsHierarchy.properties_eq (hh : p.IsHierarchy h t) (hmax : h ≤ maxDepth) :
    p.properties t = p.inherited h t := by
  rw [properties, hh.membersWithin_eq (by omega), firstOfEachName_nil, inherited]

/-! ### Props of a hierarchy -/

theorem AliasFree.aliased?_eq (hr : p.groupOf? t = some r) (hfree : p.AliasFree r) :
    p.aliased? t = none := by
  rw [groupOf?] at hr
  split at hr
  · rename_i name args htype
    rw [aliased?, htype]
    dsimp only
    rw [hr, Option.bind_eq_bind, Option.bind_some, List.findSome?_eq_none_iff.2 hfree]
    rfl
  · cases hr

theorem unaliasFor_of_aliased? (ha : p.aliased? t = none) (steps : Nat) :
    p.unaliasFor steps t = t := by
  cases steps with
  | zero => rfl
  | succ steps => rw [unaliasFor, ha]

/-- A group of interfaces and classes has no constituents. -/
theorem AliasFree.constituents?_eq (hr : p.groupOf? t = some r) (hfree : p.AliasFree r) :
    p.constituents? t = none := by
  have hsame : p.unalias t = t := unaliasFor_of_aliased? (hfree.aliased?_eq hr) maxDepth
  rw [constituents?, unionParts?, intersectionParts?, hsame]
  obtain ⟨file, type⟩ := t
  cases type with
  | reference name args => rfl
  | _ => cases hr

theorem IsHierarchy.candidateMembers_eq (hh : p.IsHierarchy h t) :
    p.candidateMembers t = p.properties t := by
  obtain ⟨r, hr, hfree, -⟩ := hh.exists_group
  rw [candidateMembers, hfree.constituents?_eq hr]
  split
  · rename_i hnil
    rw [hnil]
    rfl
  · rfl

/-- The names of inherited members are distinct, so that none of their props replaces another. -/
theorem nodup_keys_inherited (p : Program) (h : Nat) (t : TypeHandle) (keep : ScopedMember → Bool)
    (prop : ScopedMember → PropDoc) :
    (Entries.keys (((p.inherited h t).filter keep).map fun m => (m.name, prop m))).Nodup := by
  have hnames : (namesOf (p.inherited h t)).Nodup := by
    rw [inherited, firstsByName, ← firstsFrom_nil]
    exact nodup_map_firstsFrom ScopedMember.name [] _
  rw [Entries.keys, List.map_map]
  exact hnames.sublist (List.filter_sublist.map ScopedMember.name)

/-! ### Exported symbols -/

/-- The declared type of an exported symbol names the group that the symbol leads to. -/
theorem groupOf?_declaredType {file : Path} {name : String}
    (hs : .exported file name (some r) ∈ p.exports (.module file))
    (hdot : splitDot? r.name = none) :
    p.groupOf? (p.declaredType (.exported file name (some r))) = some r := by
  rw [exports] at hs
  obtain ⟨n, -, hn⟩ := List.mem_map.1 hs
  obtain ⟨-, -, htarget⟩ := ProgramSymbol.exported.inj hn
  obtain ⟨cost, -, hresolves⟩ := resolves_of_exportTarget? htarget
  obtain ⟨f, hf, hd⟩ := hresolves.exists_declared
  show p.typeTarget? r.file r.name = some r
  rw [typeTarget?, hdot]
  show p.targetIn? _ r.file r.name = some r
  rw [targetIn?, hf, Option.bind_eq_bind, Option.bind_some, if_pos hd]
  rfl

/-- **Own members come first.** Let the declared type of an exported symbol be a hierarchy no higher
than the bound.  Its properties are the members of the lineage, the first of each name; its props are
the data properties among them, in their order, each under its name.  The hierarchy is that of the
group which the symbol leads to, as long as this group is named by a single word. -/
theorem own_before_inherited (p : Program) (cwd file : Path) (enums : Bool) (s : ProgramSymbol)
    (hs : s ∈ p.exports (.module file)) (h : Nat) (hmax : h ≤ maxDepth)
    (hh : p.IsHierarchy h (p.declaredType s)) :
    p.properties (p.declaredType s) = p.inherited h (p.declaredType s) ∧
      ((p.engine cwd).propsOf enums s).entries =
        ((p.inherited h (p.declaredType s)).filter fun m => m.member.kind == .property).map
          (fun m => (m.name, p.memberProp cwd enums m)) ∧
      ∀ name r, s = .exported file name (some r) → splitDot? r.name = none →
        p.groupOf? (p.declaredType s) = some r := by
  have hproperties := hh.properties_eq hmax
  refine ⟨hproperties, ?_, ?_⟩
  · rw [propsOf_engine, hh.candidateMembers_eq, hproperties]
    exact OrderedMap.entries_ofList (nodup_keys_inherited p h _ _ _)
  · rintro name r rfl hdot
    exact groupOf?_declaredType hs hdot

/-- **Panel.** Two declarations of one interface, over a diamond whose top is in another file.  The
method `size` hides a data property of the top, and two of the four groups declare an `id`. -/
def panels : Workspace where
  overlays := OrderedMap.empty
    |>.insert "/base.ts" "export interface Base { id: 5; size: 6 }"
    |>.insert "/panel.ts"
      ("import { Base } from './base'\n" ++
        "interface Left extends Base { left: 1 }\n" ++
        "interface Right extends Base { id: 2 }\n" ++
        "export interface Panel extends Left, Right { size(): 3 }\n" ++
        "interface Panel { note: 4 }")

/-- The symbol of the panel. -/
def panel : ProgramSymbol :=
  .exported "/panel.ts" "Panel" (some { file := "/panel.ts", name := "Panel" })

/-- The `id` is the one that the first way up to the top finds.  The size of the top is not among the
props, because a method has its name. -/
theorem panel_inherits :
    ∃ p, build panels {} ["/panel.ts"] = .ok p ∧ panel ∈ p.exports (.module "/panel.ts") ∧
      p.IsHierarchy 2 (p.declaredType panel) ∧
      (p.properties (p.declaredType panel)).map
          (fun m => (m.file, m.name, m.member.kind == .property)) =
        [("/panel.ts", "size", false), ("/panel.ts", "note", true), ("/panel.ts", "left", true),
          ("/base.ts", "id", true)] ∧
      ((p.engine "/").propsOf false panel).keys = ["note", "left", "id"] := by
  have hrun : (build panels {} ["/panel.ts"]).toOption.map
      (fun p => (p.exportedNames "/panel.ts",
        decide (p.exportTarget? (maxDepth + 1) "/panel.ts" "Panel" =
            some { file := "/panel.ts", name := "Panel" } ∧
          p.IsHierarchy 2 (p.declaredType panel)),
        (p.inherited 2 (p.declaredType panel)).map
          fun m => (m.file, m.name, m.member.kind == .property))) =
      some (["Panel"], true,
        [("/panel.ts", "size", false), ("/panel.ts", "note", true), ("/panel.ts", "left", true),
          ("/base.ts", "id", true)]) := by
    decide +kernel
  obtain ⟨p, hbuild, hseen⟩ := exists_ok_of_toOption_map hrun
  obtain ⟨hnames, hrest⟩ := Prod.mk.inj hseen
  obtain ⟨hdecide, hmembers⟩ := Prod.mk.inj hrest
  obtain ⟨htarget, hh⟩ := of_decide_eq_true hdecide
  have hexport : panel ∈ p.exports (.module "/panel.ts") := by
    rw [exports, hnames, panel, ← htarget]
    exact List.mem_singleton_self _
  obtain ⟨hproperties, hentries, -⟩ :=
    own_before_inherited p "/" "/panel.ts" false panel hexport 2 (by decide) hh
  refine ⟨p, hbuild, hexport, hh, ?_, ?_⟩
  · rw [hproperties, hmembers]
  · have hkeys := congrArg (fun l => (l.filter fun x => x.2.2).map fun x => x.2.1) hmembers
    rw [List.filter_map, List.map_map] at hkeys
    rw [OrderedMap.keys, Entries.keys, hentries, List.map_map]
    exact hkeys

end

end Program

end PropDocs
