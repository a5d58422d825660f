import PropDocs.Program.Exports
import PropDocs.Proofs.Loading

/-!
# Resolving exports

`exportTarget?` follows an exported name through re-exports, imports and star exports, over a graph
of modules that may have cycles; a number of hops is all that stops it.  This file compares it with
what a name means.

* `Resolves`: an exported name leads to a group of declarations, by rules that know of no hops.  A
  derivation has a cost, what its steps would take in hops;
* `exportTarget?_cases`: what one step of following a name can do;
* `resolves_of_exportTarget?`: what is found is what the name means, at a cost below the hops;
* `Resolves.isSome_exportTarget?`: a derivation that costs less than the hops is enough for a name
  to be found.  The group found may be another one: a star export in front may lead there first;
* `groupsNonempty_ofItems`: a module has no group without declarations, by what each item keeps.

Together they give `exportTarget?_sound_and_complete` for every program that is built.
-/

namespace PropDocs

open Source

/-! ### Groups of a module -/

namespace SourceModule

/-- **No empty groups.** Every name that a module declares has a declaration. -/
def GroupsNonempty (m : SourceModule) : Prop :=
  ∀ name, m.declarations.contains name = true → m.group name ≠ []

theorem groupsNonempty_empty (path : Path) : GroupsNonempty { path } := by
  intro name h
  cases h

/-- Operations that leave the declarations alone keep groups as they are. -/
theorem GroupsNonempty.of_declarations_eq {m m' : SourceModule} (h : m.GroupsNonempty)
    (heq : m'.declarations = m.declarations) : m'.GroupsNonempty := by
  intro name hname
  rw [heq] at hname
  rw [group, heq]
  exact h name hname

theorem GroupsNonempty.declare {m : SourceModule} (h : m.GroupsNonempty) (d : Decl) :
    (m.declare d).GroupsNonempty := by
  intro name hname
  rw [SourceModule.declare, OrderedMap.contains, OrderedMap.get?_alter] at hname
  rw [SourceModule.declare, group, OrderedMap.get?_alter]
  by_cases hd : name = d.name
  · rw [if_pos hd]
    simp
  · rw [if_neg hd] at hname ⊢
    exact h name hname

theorem GroupsNonempty.addExport {m : SourceModule} (h : m.GroupsNonempty) (e : ExportEntry) :
    (m.addExport e).GroupsNonempty :=
  h.of_declarations_eq rfl

theorem declarations_addSpecifier (m : SourceModule) (s : String) :
    (m.addSpecifier s).declarations = m.declarations := by
  rw [addSpecifier]
  split <;> rfl

/-- **One item** keeps groups from being empty. -/
theorem GroupsNonempty.addItem {m : SourceModule} (h : m.GroupsNonempty) (item : Item) :
    (m.addItem item).GroupsNonempty := by
  have hmark : m.markModule.GroupsNonempty := h.of_declarations_eq rfl
  cases item with
  | importFrom specifier bindings =>
    refine foldl_keeps GroupsNonempty (addImport specifier) ?_ bindings
      (hmark.of_declarations_eq (declarations_addSpecifier _ specifier))
    intro m b hm
    cases b with
    | named localName imported => exact hm.of_declarations_eq rfl
    | all localName => exact hm.of_declarations_eq rfl
  | exportDecl doc decl =>
    exact foldl_keeps GroupsNonempty exportDecl (fun m d hm => (hm.addExport _).declare d) _ hmark
  | exportDefaultDecl doc decl =>
    exact foldl_keeps GroupsNonempty exportDefault (fun m d hm => (hm.addExport _).declare d) _
      hmark
  | exportDefaultExpr doc value =>
    cases value with
    | name n => exact hmark.addExport _
    | _ => exact (hmark.declare _).addExport _
  | exportNames specifier names =>
    refine foldl_keeps GroupsNonempty (addExportNode specifier) ?_ names ?_
    · intro m e hm
      cases specifier <;> cases e <;> exact hm.of_declarations_eq rfl
    · cases specifier with
      | none => exact hmark
      | some s => exact hmark.of_declarations_eq (declarations_addSpecifier _ s)
  | exportAll specifier =>
    exact hmark.of_declarations_eq (declarations_addSpecifier m.markModule specifier)
  | marker => exact hmark
  | decl decl =>
    exact foldl_keeps GroupsNonempty SourceModule.declare (fun m d hm => hm.declare d) _ h
  | statement => exact h

theorem groupsNonempty_ofItems (path : Path) (items : List Item) :
    (ofItems path items).GroupsNonempty :=
  foldl_keeps GroupsNonempty SourceModule.addItem (fun _ item hm => hm.addItem item) items
    (groupsNonempty_empty path)

end SourceModule

/-- A module that loads comes from a list of items. -/
theorem Workspace.exists_items_of_load {w : Workspace} {path : Path} {m : SourceModule}
    (h : w.load path = .ok m) : ∃ items, m = .ofItems path items := by
  rw [load] at h
  cases htext : w.text path with
  | error e =>
    rw [htext] at h
    cases h
  | ok text =>
    rw [htext] at h
    change SourceModule.ofText path text = .ok m at h
    rw [SourceModule.ofText] at h
    split at h
    · split at h
      · rename_i items _
        exact ⟨items, (Except.ok.inj h).symm⟩
      · cases h
    · cases h

/-- So does a module that stands in for one that cannot be loaded, from no items. -/
theorem Workspace.exists_items_loadOrEmpty (w : Workspace) (path : Path) :
    ∃ items, w.loadOrEmpty path = .ofItems path items := by
  rw [loadOrEmpty]
  split
  · rename_i m h
    exact exists_items_of_load h
  · exact ⟨[], rfl⟩

namespace Program

/-! ### What an exported name means -/

/-- The first entry for a name in a table of exports. -/
def firstExport? (f : SourceFile) (name : String) : Option ExportEntry :=
  f.module.exports.find? fun e => e.exported == name

/-- **Resolution.** `p.Resolves cost path name r`: the name, exported by the module at the path, leads
to the group `r`.  A step through another module's table costs one, and a step through a local import
two: one for the entry, one for the import. -/
inductive Resolves (p : Program) : (cost : Nat) → Path → String → GroupRef → Prop
  /-- The entry is a name that the file declares. -/
  | declared {path : Path} {name exported localName : String} {f : SourceFile}
      (hf : p.file? path = some f) (he : firstExport? f name = some (.own exported localName))
      (hd : f.module.declarations.contains localName = true) :
      Resolves p 0 path name { file := path, name := localName }
  /-- The entry is a name that the file imports by name from a module where it resolves. -/
  | imported {cost : Nat} {path target : Path} {name exported localName specifier origin : String}
      {f : SourceFile} {r : GroupRef} (hf : p.file? path = some f)
      (he : firstExport? f name = some (.own exported localName))
      (hi : f.module.imports.get? localName = some (.named specifier origin))
      (hl : p.linked? path specifier = some target) (hr : Resolves p cost target origin r) :
      Resolves p (cost + 2) path name r
  /-- The entry is a name of another module, where it resolves. -/
  | reexport {cost : Nat} {path target : Path} {name exported specifier origin : String}
      {f : SourceFile} {r : GroupRef} (hf : p.file? path = some f)
      (he : firstExport? f name = some (.reexport exported specifier origin))
      (hl : p.linked? path specifier = some target) (hr : Resolves p cost target origin r) :
      Resolves p (cost + 1) path name r
  /-- There is no entry, and the name resolves in a module whose exports are all exported again;
  the default export is never among these. -/
  | star {cost : Nat} {path target : Path} {name specifier : String} {f : SourceFile} {r : GroupRef}
      (hf : p.file? path = some f) (he : firstExport? f name = none) (hn : name ≠ "default")
      (hs : specifier ∈ f.module.starExports) (hl : p.linked? path specifier = some target)
      (hr : Resolves p cost target name r) :
      Resolves p (cost + 1) path name r

section

variable {p : Program} {path : Path} {name : String} {r : GroupRef}

/-- A name that resolves leads to a name that a file of the program declares. -/
theorem Resolves.exists_declared {cost : Nat} (h : p.Resolves cost path name r) :
    ∃ f, p.file? r.file = some f ∧ f.module.declarations.contains r.name = true := by
  induction h with
  | declared hf _ hd => exact ⟨_, hf, hd⟩
  | imported _ _ _ _ _ ih => exact ih
  | reexport _ _ _ _ ih => exact ih
  | star _ _ _ _ _ _ ih => exact ih

/-! ### What one step can do -/

/-- A name in scope that is found is declared, or imported by name and found by following. -/
theorem targetIn?_cases {follow : Path → String → Option GroupRef} {f : SourceFile}
    (hf : p.file? path = some f) (h : p.targetIn? follow path name = some r) :
    (f.module.declarations.contains name = true ∧ r = { file := path, name }) ∨
    ∃ specifier origin target, f.module.imports.get? name = some (.named specifier origin) ∧
      p.linked? path specifier = some target ∧ follow target origin = some r := by
  rw [targetIn?, hf, Option.bind_eq_bind, Option.bind_some] at h
  split at h
  · rename_i hd
    exact .inl ⟨hd, (Option.some.inj h).symm⟩
  · obtain ⟨b, hb, hr⟩ := Option.bind_eq_some_iff.1 h
    cases b with
    | named specifier origin =>
      obtain ⟨target, hl, hfollow⟩ := Option.bind_eq_some_iff.1 hr
      exact .inr ⟨specifier, origin, target, hb, hl, hfollow⟩
    | wholeModule specifier => cases hr

/-- **One step.** What a name that is found with `hops + 1` hops stands for in its own module. -/
theorem exportTarget?_cases {hops : Nat} (h : p.exportTarget? (hops + 1) path name = some r) :
    ∃ f, p.file? path = some f ∧
      ((∃ exported localName, firstExport? f name = some (.own exported localName) ∧
          p.targetIn? (p.exportTarget? (hops - 1)) path localName = some r) ∨
        (∃ exported specifier origin target,
          firstExport? f name = some (.reexport exported specifier origin) ∧
          p.linked? path specifier = some target ∧ p.exportTarget? hops target origin = some r) ∨
        (firstExport? f name = none ∧ name ≠ "default" ∧
          ∃ specifier ∈ f.module.starExports, ∃ target, p.linked? path specifier = some target ∧
            p.exportTarget? hops target name = some r)) := by
  rw [exportTarget?] at h
  obtain ⟨f, hf, h⟩ := Option.bind_eq_some_iff.1 h
  refine ⟨f, hf, ?_⟩
  rw [← firstExport?] at h
  cases he : firstExport? f name with
  | some e =>
    rw [he] at h
    cases e with
    | own exported localName =>
      refine .inl ⟨exported, localName, rfl, ?_⟩
      cases hops with
      | zero =>
        have hzero : p.exportTarget? (0 - 1) = fun _ _ => none := by
          funext path' name'
          rw [Nat.zero_sub, exportTarget?]
        rw [hzero]
        exact h
      | succ rest => exact h
    | reexport exported specifier origin =>
      obtain ⟨target, hl, hr⟩ := Option.bind_eq_some_iff.1 h
      exact .inr (.inl ⟨exported, specifier, origin, target, rfl, hl, hr⟩)
    | wholeModule exported specifier => cases h
  | none =>
    rw [he] at h
    dsimp only at h
    split at h
    · cases h
    · rename_i hn
      obtain ⟨specifier, hs, hr⟩ := List.exists_of_findSome?_eq_some h
      split at hr
      · rename_i target hl
        exact .inr (.inr ⟨rfl, hn, specifier, hs, target, hl, hr⟩)
      · cases hr

/-! ### Soundness -/

/-- **What is found is meant.** The hops bound the cost of the derivation. -/
theorem resolves_of_exportTarget? {hops : Nat} :
    ∀ {path : Path} {name : String} {r : GroupRef}, p.exportTarget? hops path name = some r →
      ∃ cost, cost < hops ∧ p.Resolves cost path name r := by
  induction hops using Nat.strongRecOn with
  | ind hops ih =>
    intro path name r h
    cases hops with
    | zero =>
      rw [exportTarget?] at h
      cases h
    | succ hops =>
      obtain ⟨f, hf, ⟨exported, localName, he, ht⟩ | ⟨exported, specifier, origin, target, he, hl, hr⟩ |
        ⟨he, hn, specifier, hs, target, hl, hr⟩⟩ := exportTarget?_cases h
      · obtain ⟨hd, rfl⟩ | ⟨specifier, origin, target, hi, hl, hr⟩ := targetIn?_cases hf ht
        · exact ⟨0, Nat.succ_pos hops, .declared hf he hd⟩
        · obtain ⟨cost, hcost, hres⟩ := ih (hops - 1) (by omega) hr
          exact ⟨cost + 2, by omega, .imported hf he hi hl hres⟩
      · obtain ⟨cost, hcost, hres⟩ := ih hops (Nat.lt_succ_self hops) hr
        exact ⟨cost + 1, by omega, .reexport hf he hl hres⟩
      · obtain ⟨cost, hcost, hres⟩ := ih hops (Nat.lt_succ_self hops) hr
        exact ⟨cost + 1, by omega, .star hf he hn hs hl hres⟩

/-! ### Completeness -/

theorem isSome_targetIn?_of_declared {follow : Path → String → Option GroupRef} {f : SourceFile}
    (hf : p.file? path = some f) (hd : f.module.declarations.contains name = true) :
    (p.targetIn? follow path name).isSome := by
  rw [targetIn?, hf, Option.bind_eq_bind, Option.bind_some, if_pos hd]
  rfl

/-- An import is followed, unless the name is declared as well: then it is found at once. -/
theorem isSome_targetIn?_of_imported {follow : Path → String → Option GroupRef} {f : SourceFile}
    {specifier origin : String} {target : Path} (hf : p.file? path = some f)
    (hi : f.module.imports.get? name = some (.named specifier origin))
    (hl : p.linked? path specifier = some target) (hfollow : (follow target origin).isSome) :
    (p.targetIn? follow path name).isSome := by
  by_cases hd : f.module.declarations.contains name = true
  · exact isSome_targetIn?_of_declared hf hd
  · rw [targetIn?, hf, Option.bind_eq_bind, Option.bind_some, if_neg hd]
    simp only [hi, hl, Option.bind_eq_bind, Option.bind_some]
    exact hfollow

theorem exportTarget?_of_own {hops : Nat} {f : SourceFile} {exported localName : String}
    (hf : p.file? path = some f) (he : firstExport? f name = some (.own exported localName)) :
    p.exportTarget? (hops + 2) path name = p.targetIn? (p.exportTarget? hops) path localName := by
  rw [firstExport?] at he
  rw [exportTarget?, hf, Option.bind_eq_bind, Option.bind_some, he]

theorem exportTarget?_of_reexport {hops : Nat} {f : SourceFile} {exported specifier origin : String}
    {target : Path} (hf : p.file? path = some f)
    (he : firstExport? f name = some (.reexport exported specifier origin))
    (hl : p.linked? path specifier = some target) :
    p.exportTarget? (hops + 1) path name = p.exportTarget? hops target origin := by
  rw [firstExport?] at he
  rw [exportTarget?, hf, Option.bind_eq_bind, Option.bind_some, he]
  simp only [hl, Option.bind_eq_bind, Option.bind_some]

/-- A star target in which the name is found is enough, though one in front of it may answer. -/
theorem isSome_exportTarget?_of_star {hops : Nat} {f : SourceFile} {specifier : String}
    {target : Path} (hf : p.file? path = some f) (he : firstExport? f name = none)
    (hn : name ≠ "default") (hs : specifier ∈ f.module.starExports)
    (hl : p.linked? path specifier = some target)
    (hfound : (p.exportTarget? hops target name).isSome) :
    (p.exportTarget? (hops + 1) path name).isSome := by
  rw [firstExport?] at he
  rw [exportTarget?, hf, Option.bind_eq_bind, Option.bind_some, he]
  dsimp only
  rw [if_neg hn, List.findSome?_isSome_iff]
  refine ⟨specifier, hs, ?_⟩
  rw [hl]
  exact hfound

/-- **What is meant is found**, when the hops exceed the cost of a derivation. -/
theorem Resolves.isSome_exportTarget? {cost : Nat} (h : p.Resolves cost path name r) :
    ∀ {hops : Nat}, cost < hops → (p.exportTarget? hops path name).isSome := by
  induction h with
  | declared hf he hd =>
    intro hops hcost
    -- With a single hop left nothing can be followed, but the entry is still looked up.
    match hops with
    | 0 => omega
    | 1 =>
      rw [firstExport?] at he
      rw [exportTarget?, hf, Option.bind_eq_bind, Option.bind_some, he]
      exact isSome_targetIn?_of_declared hf hd
    | hops + 2 =>
      rw [exportTarget?_of_own hf he]
      exact isSome_targetIn?_of_declared hf hd
  | imported hf he hi hl _ ih =>
    intro hops hcost
    obtain ⟨hops, rfl⟩ : ∃ k, hops = k + 2 := ⟨hops - 2, by omega⟩
    rw [exportTarget?_of_own hf he]
    exact isSome_targetIn?_of_imported hf hi hl (ih (by omega))
  | reexport hf he hl _ ih =>
    intro hops hcost
    obtain ⟨hops, rfl⟩ : ∃ k, hops = k + 1 := ⟨hops - 1, by omega⟩
    rw [exportTarget?_of_reexport hf he hl]
    exact ih (by omega)
  | star hf he hn hs hl _ ih =>
    intro hops hcost
    obtain ⟨hops, rfl⟩ : ∃ k, hops = k + 1 := ⟨hops - 1, by omega⟩
    exact isSome_exportTarget?_of_star hf he hn hs hl (ih (by omega))

/-! ### Built programs -/

/-- Files of a program that is built have no empty groups. -/
theorem BuiltFrom.group_ne_nil {w : Workspace} {options : CompilerOptions} {roots : List Path}
    (h : BuiltFrom w options roots p) {f : SourceFile} (hf : p.file? r.file = some f)
    (hd : f.module.declarations.contains r.name = true) : p.group r ≠ [] := by
  obtain ⟨hmem, -⟩ := mem_of_file? hf
  have hgroups : f.module.GroupsNonempty := by
    obtain ⟨items, hitems⟩ := w.exists_items_loadOrEmpty f.path
    rw [h.file_eq f hmem, fileAt, hitems]
    exact SourceModule.groupsNonempty_ofItems _ items
  rw [group, hf]
  exact hgroups r.name hd

/-- **Resolution is sound, and complete up to the bound.** Looked up from depth `d`, a name that is
found resolves by meaning to the group found, which is a group with declarations in a file of the
program; and a name that resolves by meaning, at a cost that fits between `d` and the bound, is
found. -/
theorem exportTarget?_sound_and_complete (w : Workspace) (options : CompilerOptions)
    (roots : List Path) (p : Program) (hbuild : build w options roots = .ok p) (path : Path)
    (name : String) (d : Nat) :
    (∀ r, p.exportTarget? (maxDepth + 1 - d) path name = some r →
      (∃ cost, cost + d ≤ maxDepth ∧ p.Resolves cost path name r) ∧
        r.file ∈ p.paths ∧ p.group r ≠ []) ∧
    ∀ cost r, p.Resolves cost path name r → cost + d ≤ maxDepth →
      (p.exportTarget? (maxDepth + 1 - d) path name).isSome := by
  constructor
  · intro r hr
    obtain ⟨cost, hcost, hres⟩ := resolves_of_exportTarget? hr
    obtain ⟨f, hf, hd⟩ := hres.exists_declared
    exact ⟨⟨cost, by omega, hres⟩, mem_paths_of_file? hf,
      (builtFrom_of_build hbuild).group_ne_nil hf hd⟩
  · intro cost r hres hcost
    exact hres.isSome_exportTarget? (by omega)

/-- **Shop.** An index that exports itself again and all of a file that does the same with the index;
behind both stands the file with the declarations. -/
def shop : Workspace where
  overlays := OrderedMap.empty
    |>.insert "/index.ts" "export * from './index';\nexport * from './parts';"
    |>.insert "/parts.ts"
      ("export * from './index';\nimport { Cart } from './cart';\nexport { Cart as Basket };\n" ++
        "export { Item } from './cart';")
    |>.insert "/cart.ts" "export interface Cart { items: Item[] }\nexport interface Item { id: string }"

/-- From the index, the item is a star step and a re-export away, and the basket a star step and an
import: costs of two and three.  From depth 30 only the item is found, and the basket has no
derivation that is cheap enough. -/
theorem shop_resolution :
    ∃ p, build shop {} ["/index.ts"] = .ok p ∧
      (∃ cost, cost + 30 ≤ maxDepth ∧
        p.Resolves cost "/index.ts" "Item" { file := "/cart.ts", name := "Item" }) ∧
      p.group { file := "/cart.ts", name := "Item" } ≠ [] ∧
      (∃ cost, cost + 29 ≤ maxDepth ∧
        p.Resolves cost "/index.ts" "Basket" { file := "/cart.ts", name := "Cart" }) ∧
      ¬ ∃ cost r, cost + 30 ≤ maxDepth ∧ p.Resolves cost "/index.ts" "Basket" r := by
  have hrun : (build shop {} ["/index.ts"]).toOption.map
      (fun p => (p.exportTarget? (maxDepth + 1 - 30) "/index.ts" "Item",
        p.exportTarget? (maxDepth + 1 - 29) "/index.ts" "Basket",
        p.exportTarget? (maxDepth + 1 - 30) "/index.ts" "Basket")) =
      some (some { file := "/cart.ts", name := "Item" },
        some { file := "/cart.ts", name := "Cart" }, none) := by decide +kernel
  cases hbuild : build shop {} ["/index.ts"] with
  | error e =>
    rw [hbuild] at hrun
    cases hrun
  | ok p =>
    rw [hbuild] at hrun
    obtain ⟨hitem, hrest⟩ := Prod.mk.inj (Option.some.inj hrun)
    obtain ⟨hbasket, hnone⟩ := Prod.mk.inj hrest
    obtain ⟨hitemRes, -, hgroup⟩ :=
      (exportTarget?_sound_and_complete _ _ _ p hbuild "/index.ts" "Item" 30).1 _ hitem
    obtain ⟨hbasketRes, -⟩ :=
      (exportTarget?_sound_and_complete _ _ _ p hbuild "/index.ts" "Basket" 29).1 _ hbasket
    refine ⟨p, rfl, hitemRes, hgroup, hbasketRes, ?_⟩
    rintro ⟨cost, r, hcost, hres⟩
    have hsome := (exportTarget?_sound_and_complete _ _ _ p hbuild "/index.ts" "Basket" 30).2
      cost r hres hcost
    rw [hnone] at hsome
    cases hsome

end

end Program

end PropDocs
