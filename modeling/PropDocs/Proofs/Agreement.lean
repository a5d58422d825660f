import Mathlib.Data.List.Basic
import PropDocs.Program.Members

/-!
# Programs that agree

A question about a program that starts in one file is answered from the files that can be reached
through links.  Two programs that hold the same files in a scope which no link leaves
(`Program.AgreeOn`) therefore give the same answers to every question asked inside the scope.

* `SameWithin`: two answers are the same **and** lie in a scope.  The second half is what the next
  question needs, so every lemma carries both, and the lemmas of this namespace pass them through
  `bind`, `map`, `flatMap` and the like;
* `AgreeOn.exportTarget?`, `AgreeOn.typeTarget?`: names; `AgreeOn.exportedNames`: their lists;
* `AgreeOn.unalias`, `AgreeOn.unionParts?`, `AgreeOn.keyNames?`: types behind aliases;
* `AgreeOn.membersWithin`, `AgreeOn.properties`: members.

Each lemma has the name of the definition it is about.  None of them looks at the other files of the
programs, at their order or at their number.
-/

namespace PropDocs

/-! ### Answers within a scope -/

/-- **Same answer within a scope.** Two lists or options are the same, and all they hold lies in the
scope. -/
def SameWithin {α γ : Type} [Membership α γ] (scope : α → Prop) (a b : γ) : Prop :=
  a = b ∧ ∀ x ∈ a, scope x

namespace SameWithin

section

variable {α β : Type} {scope : α → Prop} {scope' : β → Prop}

theorem none : SameWithin scope (none : Option α) none :=
  ⟨rfl, by simp⟩

theorem some {x : α} (hx : scope x) : SameWithin scope (some x) (some x) :=
  ⟨rfl, by simpa using hx⟩

theorem bind {a b : Option α} {f g : α → Option β} (h : SameWithin scope a b)
    (hf : ∀ x, scope x → SameWithin scope' (f x) (g x)) :
    SameWithin scope' (a.bind f) (b.bind g) := by
  obtain ⟨rfl, ha⟩ := h
  cases a with
  | none => exact .none
  | some x => exact hf x (ha x rfl)

/-- The first answer is the same whatever the scope. -/
theorem bind_self {a : Option α} {f g : α → Option β}
    (hf : ∀ x, a = Option.some x → SameWithin scope' (f x) (g x)) :
    SameWithin scope' (a.bind f) (a.bind g) := by
  cases a with
  | none => exact .none
  | some x => exact hf x rfl

theorem findSome? {l : List α} {f g : α → Option β}
    (hf : ∀ x ∈ l, SameWithin scope' (f x) (g x)) :
    SameWithin scope' (l.findSome? f) (l.findSome? g) := by
  induction l with
  | nil => exact .none
  | cons x l ih =>
    obtain ⟨heq, hx⟩ := hf x List.mem_cons_self
    rw [List.findSome?_cons, List.findSome?_cons, ← heq]
    cases hfx : f x with
    | some y => exact .some (hx y hfx)
    | none => exact ih fun y hy => hf y (List.mem_cons_of_mem x hy)

theorem nil : SameWithin scope ([] : List α) [] :=
  ⟨rfl, by simp⟩

theorem map {a b : List α} {f g : α → β} (h : SameWithin scope a b)
    (hf : ∀ x, scope x → f x = g x ∧ scope' (f x)) : SameWithin scope' (a.map f) (b.map g) := by
  obtain ⟨rfl, ha⟩ := h
  refine ⟨List.map_congr_left fun x hx => (hf x (ha x hx)).1, ?_⟩
  intro y hy
  obtain ⟨x, hx, rfl⟩ := List.mem_map.1 hy
  exact (hf x (ha x hx)).2

/-- The list is the same whatever the scope. -/
theorem flatMap_self {l : List α} {f g : α → List β}
    (hf : ∀ x ∈ l, SameWithin scope' (f x) (g x)) :
    SameWithin scope' (l.flatMap f) (l.flatMap g) := by
  refine ⟨List.flatMap_congr fun x hx => (hf x hx).1, ?_⟩
  intro y hy
  obtain ⟨x, hx, hy⟩ := List.mem_flatMap.1 hy
  exact (hf x hx).2 y hy

theorem filter {a b : List α} (h : SameWithin scope a b) (keep : α → Bool) :
    SameWithin scope (a.filter keep) (b.filter keep) := by
  obtain ⟨rfl, ha⟩ := h
  exact ⟨rfl, fun x hx => ha x (List.mem_filter.1 hx).1⟩

theorem append {a b a' b' : List α} (h : SameWithin scope a b) (h' : SameWithin scope a' b') :
    SameWithin scope (a ++ a') (b ++ b') := by
  obtain ⟨rfl, ha⟩ := h
  obtain ⟨rfl, ha'⟩ := h'
  refine ⟨rfl, ?_⟩
  intro x hx
  rcases List.mem_append.1 hx with hx | hx
  · exact ha x hx
  · exact ha' x hx

end

end SameWithin

theorem mapM_congr_of_mem {α β : Type} {f g : α → Option β} {l : List α}
    (h : ∀ x ∈ l, f x = g x) : l.mapM f = l.mapM g := by
  induction l with
  | nil => rfl
  | cons x l ih =>
    rw [List.mapM_cons, List.mapM_cons, h x List.mem_cons_self,
      ih fun y hy => h y (List.mem_cons_of_mem x hy)]

theorem firstOfEachName_sublist (seen : List String) (ms : List ScopedMember) :
    (firstOfEachName seen ms).Sublist ms := by
  induction ms generalizing seen with
  | nil => exact List.Sublist.slnil
  | cons m ms ih =>
    rw [firstOfEachName]
    split
    · exact (ih seen).cons m
    · exact (ih _).cons_cons m

theorem SameWithin.firstOfEachName {scope : ScopedMember → Prop} {ms ms' : List ScopedMember}
    (h : SameWithin scope ms ms') :
    SameWithin scope (PropDocs.firstOfEachName [] ms) (PropDocs.firstOfEachName [] ms') := by
  obtain ⟨rfl, hscope⟩ := h
  exact ⟨rfl, fun m hm => hscope m ((firstOfEachName_sublist [] ms).subset hm)⟩

namespace Program

/-! ### Walks -/

/-- **Same walk.** Two walks find the same members from every file of the scope, all of them members
of files in the scope. -/
def SameWalk (scope : Path → Prop) (walk walk' : MemberWalk) : Prop :=
  ∀ file t, scope file → SameWithin (fun m => scope m.file) (walk file t) (walk' file t)

namespace SameWalk

variable {scope : Path → Prop} {walk walk' : MemberWalk} {file : Path}

theorem commonMembers (hwalk : SameWalk scope walk walk') (hfile : scope file)
    (types : List TypeExpr) :
    SameWithin (fun m => scope m.file) (Program.commonMembers (types.map (walk file)))
      (Program.commonMembers (types.map (walk' file))) := by
  have hsets : types.map (walk file) = types.map (walk' file) :=
    List.map_congr_left fun t _ => (hwalk file t hfile).1
  rw [← hsets]
  cases types with
  | nil => exact .nil
  | cons t types =>
    exact ⟨rfl, fun m hm => (hwalk file t hfile).2 m (List.mem_filter.1 hm).1⟩

theorem ownMembers (hwalk : SameWalk scope walk walk') (hfile : scope file) (d : Decl) :
    SameWithin (fun m => scope m.file) (Program.ownMembers walk file d)
      (Program.ownMembers walk' file d) := by
  rw [Program.ownMembers, Program.ownMembers]
  cases d.body with
  | interface bases members => exact ⟨rfl, by simp [hfile]⟩
  | classDecl bases members => exact ⟨rfl, by simp [hfile]⟩
  | typeAlias type => exact hwalk file type hfile
  | _ => exact .nil

theorem argMembers (hwalk : SameWalk scope walk walk') (hfile : scope file)
    (args : List TypeExpr) :
    SameWithin (fun m => scope m.file) (Program.argMembers walk file args)
      (Program.argMembers walk' file args) := by
  cases args with
  | nil => exact .nil
  | cons t args => exact hwalk file t hfile

end SameWalk

/-! ### Agreement -/

/-- **Agreement.** Two programs have the same files in a scope that no link leaves. -/
structure AgreeOn (p q : Program) (scope : Path → Prop) : Prop where
  options_eq : p.options = q.options
  /-- A path of the scope has the same file in both, or in neither. -/
  file_eq : ∀ path, scope path → p.file? path = q.file? path
  /-- Links do not leave the scope. -/
  closed : ∀ path, scope path → ∀ s t, p.linked? path s = some t → scope t

namespace AgreeOn

variable {p q : Program} {scope : Path → Prop}

theorem linked? (h : AgreeOn p q scope) {path : Path} (hpath : scope path) (s : String) :
    SameWithin scope (p.linked? path s) (q.linked? path s) := by
  refine ⟨?_, fun t ht => h.closed path hpath s t ht⟩
  rw [Program.linked?, Program.linked?, h.file_eq path hpath]

theorem group (h : AgreeOn p q scope) {r : GroupRef} (hr : scope r.file) :
    p.group r = q.group r := by
  rw [Program.group, Program.group, h.file_eq r.file hr]

/-- Names in a file's scope agree as far as the ways to follow an import do. -/
theorem targetIn? (h : AgreeOn p q scope) {follow follow' : Path → String → Option GroupRef}
    (hfollow : ∀ path name, scope path →
      SameWithin (fun r => scope r.file) (follow path name) (follow' path name))
    {path : Path} (hpath : scope path) (name : String) :
    SameWithin (fun r => scope r.file) (p.targetIn? follow path name)
      (q.targetIn? follow' path name) := by
  rw [Program.targetIn?, Program.targetIn?, h.file_eq path hpath]
  refine .bind_self fun f _ => ?_
  split
  · exact .some hpath
  · refine .bind_self fun b _ => ?_
    cases b with
    | named specifier imported =>
      exact .bind (h.linked? hpath specifier) fun t ht => hfollow t imported ht
    | wholeModule specifier => exact .none

/-- **Exported names agree**, by induction on the hops: one through a local import takes two. -/
theorem exportTarget? (h : AgreeOn p q scope) (hops : Nat) :
    ∀ path name, scope path →
      SameWithin (fun r => scope r.file) (p.exportTarget? hops path name)
        (q.exportTarget? hops path name) := by
  induction hops using Nat.strongRecOn with
  | ind hops ih =>
    intro path name hpath
    cases hops with
    | zero => exact .none
    | succ hops =>
      rw [Program.exportTarget?, Program.exportTarget?, h.file_eq path hpath]
      refine .bind_self fun f _ => ?_
      cases f.module.exports.find? fun e => e.exported == name with
      | none =>
        dsimp only
        split
        · exact .none
        · refine .findSome? fun s _ => ?_
          obtain ⟨heq, hscope⟩ := h.linked? hpath s
          rw [← heq]
          cases ht : p.linked? path s with
          | none => exact .none
          | some t => exact ih hops (Nat.lt_succ_self hops) t name (hscope t ht)
      | some e =>
        cases e with
        | own exported localName =>
          cases hops with
          | zero => exact h.targetIn? (fun _ _ _ => .none) hpath localName
          | succ rest => exact h.targetIn? (ih rest (by omega)) hpath localName
        | reexport exported specifier imported =>
          exact .bind (h.linked? hpath specifier) fun t ht =>
            ih hops (Nat.lt_succ_self hops) t imported ht
        | wholeModule exported specifier => exact .none

theorem scopeTarget? (h : AgreeOn p q scope) {path : Path} (hpath : scope path) (name : String) :
    SameWithin (fun r => scope r.file) (p.scopeTarget? path name) (q.scopeTarget? path name) :=
  h.targetIn? (h.exportTarget? maxDepth) hpath name

theorem typeTarget? (h : AgreeOn p q scope) {path : Path} (hpath : scope path) (name : String) :
    SameWithin (fun r => scope r.file) (p.typeTarget? path name) (q.typeTarget? path name) := by
  rw [Program.typeTarget?, Program.typeTarget?]
  cases splitDot? name with
  | none => exact h.scopeTarget? hpath name
  | some parts =>
    dsimp only
    split
    · exact .none
    · rw [h.file_eq path hpath]
      refine .bind_self fun f _ => .bind_self fun b _ => ?_
      cases b with
      | named specifier imported => exact .none
      | wholeModule specifier =>
        exact .bind (h.linked? hpath specifier) fun t ht =>
          h.exportTarget? (maxDepth + 1) t parts.2 ht

/-! ### Exports -/

theorem starTargets (h : AgreeOn p q scope) {path : Path} (hpath : scope path) :
    SameWithin scope (p.starTargets path) (q.starTargets path) := by
  have hlinked : p.linked? path = q.linked? path := funext fun s => (h.linked? hpath s).1
  rw [Program.starTargets, Program.starTargets, h.file_eq path hpath, ← hlinked]
  cases q.file? path with
  | none => exact .nil
  | some f =>
    refine ⟨rfl, ?_⟩
    intro t ht
    obtain ⟨s, -, hs⟩ := List.mem_filterMap.1 ht
    exact h.closed path hpath s t hs

/-- A step that agrees on one file agrees on a list of files. -/
theorem foldl_sameWithin {step step' : List Path → Path → List Path}
    (hstep : ∀ visited path, (∀ v ∈ visited, scope v) → scope path →
      SameWithin scope (step visited path) (step' visited path)) :
    ∀ (l visited : List Path), (∀ v ∈ visited, scope v) → (∀ t ∈ l, scope t) →
      SameWithin scope (l.foldl step visited) (l.foldl step' visited) := by
  intro l
  induction l with
  | nil => exact fun visited hv _ => ⟨rfl, hv⟩
  | cons t l ih =>
    intro visited hv hl
    obtain ⟨heq, hscope⟩ := hstep visited t hv (hl t List.mem_cons_self)
    rw [List.foldl_cons, List.foldl_cons, ← heq]
    exact ih _ hscope fun t' ht' => hl t' (List.mem_cons_of_mem t ht')

theorem starClosure (h : AgreeOn p q scope) (fuel : Nat) :
    ∀ visited path, (∀ v ∈ visited, scope v) → scope path →
      SameWithin scope (p.starClosure fuel visited path) (q.starClosure fuel visited path) := by
  induction fuel with
  | zero => exact fun visited path hv _ => ⟨rfl, hv⟩
  | succ fuel ih =>
    intro visited path hv hpath
    have hv' : ∀ v ∈ visited ++ [path], scope v := by
      intro v hmem
      rcases List.mem_append.1 hmem with hmem | hmem
      · exact hv v hmem
      · rwa [List.mem_singleton.1 hmem]
    rw [Program.starClosure, Program.starClosure]
    split
    · exact ⟨rfl, hv⟩
    · split
      · obtain ⟨heq, hscope⟩ := h.starTargets hpath
        rw [← heq]
        exact foldl_sameWithin ih _ _ hv' hscope
      · exact ⟨rfl, hv'⟩

theorem ownExportNames (h : AgreeOn p q scope) {path : Path} (hpath : scope path) :
    p.ownExportNames path = q.ownExportNames path := by
  rw [Program.ownExportNames, Program.ownExportNames, h.file_eq path hpath]

theorem exportedNames (h : AgreeOn p q scope) {path : Path} (hpath : scope path) :
    p.exportedNames path = q.exportedNames path := by
  obtain ⟨heq, hscope⟩ := h.starClosure (maxDepth + 1) [] path (by simp) hpath
  rw [Program.exportedNames, Program.exportedNames, ← heq]
  have htake : ∀ f ∈ (p.starClosure (maxDepth + 1) [] path).take maxDepth, scope f :=
    fun f hf => hscope f (List.mem_of_mem_take hf)
  cases hfiles : (p.starClosure (maxDepth + 1) [] path).take maxDepth with
  | nil => rfl
  | cons own others =>
    rw [hfiles] at htake
    have hothers : (others.flatMap fun f => (p.ownExportNames f).filter (· != "default")) =
        others.flatMap fun f => (q.ownExportNames f).filter (· != "default") :=
      List.flatMap_congr fun f hf => by
        rw [h.ownExportNames (htake f (List.mem_cons_of_mem own hf))]
    dsimp only
    rw [h.ownExportNames (htake own List.mem_cons_self), hothers]

/-! ### Types -/

theorem aliased? (h : AgreeOn p q scope) {t : TypeHandle} (ht : scope t.file) :
    SameWithin (fun u => scope u.file) (p.aliased? t) (q.aliased? t) := by
  rw [Program.aliased?, Program.aliased?]
  split
  · refine .bind (h.typeTarget? ht _) fun r hr => ?_
    rw [h.group hr]
    exact .bind_self fun body _ => .some hr
  · exact .none

theorem unaliasFor (h : AgreeOn p q scope) (steps : Nat) :
    ∀ t : TypeHandle, scope t.file →
      p.unaliasFor steps t = q.unaliasFor steps t ∧ scope (p.unaliasFor steps t).file := by
  induction steps with
  | zero => exact fun t ht => ⟨rfl, ht⟩
  | succ steps ih =>
    intro t ht
    obtain ⟨heq, hscope⟩ := h.aliased? ht
    rw [Program.unaliasFor, Program.unaliasFor, ← heq]
    cases hnext : p.aliased? t with
    | none => exact ⟨rfl, ht⟩
    | some next => exact ih next (hscope next hnext)

theorem unalias (h : AgreeOn p q scope) {t : TypeHandle} (ht : scope t.file) :
    p.unalias t = q.unalias t ∧ scope (p.unalias t).file :=
  h.unaliasFor maxDepth t ht

theorem unionLeaves (h : AgreeOn p q scope) (depth : Nat) :
    ∀ t : TypeHandle, scope t.file →
      SameWithin (fun u => scope u.file) (p.unionLeaves depth t) (q.unionLeaves depth t) := by
  induction depth with
  | zero => exact fun t ht => ⟨rfl, by simpa [Program.unionLeaves] using ht⟩
  | succ depth ih =>
    intro t ht
    obtain ⟨heq, hscope⟩ := h.unalias ht
    rw [Program.unionLeaves, Program.unionLeaves, ← heq]
    split
    · rename_i file types hu
      rw [hu] at hscope
      exact .flatMap_self fun m _ => ih { file, type := m } hscope
    · exact ⟨rfl, by simpa using ht⟩

theorem unionParts? (h : AgreeOn p q scope) {t : TypeHandle} (ht : scope t.file) :
    SameWithin (fun parts => ∀ u ∈ parts, scope u.file) (p.unionParts? t) (q.unionParts? t) := by
  obtain ⟨heq, hscope⟩ := h.unalias ht
  rw [Program.unionParts?, Program.unionParts?, ← heq]
  split
  · rename_i file types hu
    rw [hu] at hscope
    obtain ⟨heq', hscope'⟩ := h.unionLeaves maxDepth { file, type := .union types } hscope
    rw [← heq']
    exact .some hscope'
  · exact .none

theorem intersectionParts? (h : AgreeOn p q scope) {t : TypeHandle} (ht : scope t.file) :
    SameWithin (fun parts => ∀ u ∈ parts, scope u.file) (p.intersectionParts? t)
      (q.intersectionParts? t) := by
  obtain ⟨heq, hscope⟩ := h.unalias ht
  rw [Program.intersectionParts?, Program.intersectionParts?, ← heq]
  split
  · rename_i file types hu
    rw [hu] at hscope
    refine .some fun u hmem => ?_
    obtain ⟨type, -, rfl⟩ := List.mem_map.1 hmem
    exact hscope
  · exact .none

theorem stringLiteral? (h : AgreeOn p q scope) {t : TypeHandle} (ht : scope t.file) :
    p.stringLiteral? t = q.stringLiteral? t := by
  rw [Program.stringLiteral?, Program.stringLiteral?, (h.unalias ht).1]

theorem keyNames? (h : AgreeOn p q scope) {t : TypeHandle} (ht : scope t.file) :
    p.keyNames? t = q.keyNames? t := by
  obtain ⟨heq, hscope⟩ := h.unionParts? ht
  rw [Program.keyNames?, Program.keyNames?, h.stringLiteral? ht, ← heq]
  cases hparts : p.unionParts? t with
  | none => rfl
  | some parts =>
    have hkeys : parts.mapM p.stringLiteral? = parts.mapM q.stringLiteral? :=
      mapM_congr_of_mem fun u hu => h.stringLiteral? (hscope parts hparts u hu)
    cases q.stringLiteral? t with
    | none => exact hkeys
    | some key => rfl

/-! ### Members -/

theorem groupMembers (h : AgreeOn p q scope) {walk walk' : MemberWalk}
    (hwalk : SameWalk scope walk walk') {r : GroupRef} (hr : scope r.file) :
    SameWithin (fun m => scope m.file) (p.groupMembers walk r) (q.groupMembers walk' r) := by
  rw [Program.groupMembers, Program.groupMembers, h.group hr]
  refine .firstOfEachName (.append ?_ ?_)
  · exact .flatMap_self fun d _ => hwalk.ownMembers hr d
  · exact .flatMap_self fun d _ => .flatMap_self fun t _ => hwalk r.file t hr

theorem selectMembers (h : AgreeOn p q scope) {walk walk' : MemberWalk}
    (hwalk : SameWalk scope walk walk') {file : Path} (hfile : scope file) (pick : Bool)
    (args : List TypeExpr) :
    SameWithin (fun m => scope m.file) (p.selectMembers walk file pick args)
      (q.selectMembers walk' file pick args) := by
  match args with
  | [] => exact .nil
  | [_] => exact .nil
  | t :: keys :: _ =>
    have hkeys : p.keyNames? { file, type := keys } = q.keyNames? { file, type := keys } :=
      h.keyNames? hfile
    rw [Program.selectMembers, Program.selectMembers, ← hkeys]
    cases p.keyNames? { file, type := keys } with
    | none => exact .nil
    | some names => exact (hwalk file t hfile).filter _

theorem builtinMembers (h : AgreeOn p q scope) {walk walk' : MemberWalk}
    (hwalk : SameWalk scope walk walk') {file : Path} (hfile : scope file) (name : String)
    (args : List TypeExpr) :
    SameWithin (fun m => scope m.file) (p.builtinMembers walk file name args)
      (q.builtinMembers walk' file name args) := by
  have hargs := hwalk.argMembers hfile args
  unfold Program.builtinMembers
  split
  · exact hargs.map fun m hm => ⟨rfl, hm⟩
  · exact hargs.map fun m hm => ⟨rfl, hm⟩
  · exact hargs.map fun m hm => ⟨rfl, hm⟩
  · exact h.selectMembers hwalk hfile true args
  · exact h.selectMembers hwalk hfile false args
  · exact .nil

/-- **Members agree** at every depth: one step for each form of type that has members. -/
theorem membersWithin (h : AgreeOn p q scope) (depth : Nat) :
    SameWalk scope (p.membersWithin depth) (q.membersWithin depth) := by
  induction depth with
  | zero => exact fun file t _ => .nil
  | succ depth ih =>
    intro file t hfile
    cases t with
    | reference name args =>
      obtain ⟨heq, hscope⟩ := h.typeTarget? hfile name
      rw [Program.membersWithin, Program.membersWithin, ← heq]
      cases hr : p.typeTarget? file name with
      | some r => exact h.groupMembers ih (hscope r hr)
      | none => exact h.builtinMembers ih hfile name args
    | object members =>
      rw [Program.membersWithin, Program.membersWithin]
      exact ⟨rfl, by simp [hfile]⟩
    | intersection types =>
      rw [Program.membersWithin, Program.membersWithin]
      exact .firstOfEachName (.flatMap_self fun t _ => ih file t hfile)
    | union types =>
      rw [Program.membersWithin, Program.membersWithin, h.options_eq]
      exact ih.commonMembers hfile _
    | _ => exact .nil

theorem properties (h : AgreeOn p q scope) {t : TypeHandle} (ht : scope t.file) :
    SameWithin (fun m => scope m.file) (p.properties t) (q.properties t) :=
  h.membersWithin (maxDepth + 1) t.file t.type ht

theorem typeOfMember (h : AgreeOn p q scope) (m : ScopedMember) :
    p.typeOfMember m = q.typeOfMember m := by
  rw [Program.typeOfMember, Program.typeOfMember, h.options_eq]

end AgreeOn

end Program

end PropDocs
