import Mathlib.Data.List.Basic
import PropDocs.Program.Build
import PropDocs.Proofs.FirstOccurrences

/-!
# Names of members

`membersWithin` collects members down to a depth, through names, alias bodies, bases, utility types,
unions and intersections.  This file gives types a meaning that knows of no depth, and shows that the
collection computes it.

* `HasName`: the names of a type's members, by the form of the type;
* `expansion`: the types that the members of a type come from in one step, and `HeightAtMost`: how
  many steps it takes until nothing is left to expand.  An expansion that ends has a height
  (`acc_iff_exists_heightAtMost`);
* `mem_namesOf_step`, `membersWithin_step_congr`: one level of the collection is right, and does not
  depend on the depth, as far as this holds of the types in the expansion;
* `membersWithin_eq_and_names`: hence a collection that starts at depth `d` is right for all types of
  a height up to `maxDepth - d`.
-/

namespace PropDocs.Program

/-! ### Names of members by meaning -/

/-- The types of a union that count: all of them, or those of values that are not missing. -/
def keptTypes (p : Program) (types : List TypeExpr) : List TypeExpr :=
  types.filter fun t => p.options.nullChecks || !t.isNullish

/-- **Names of members by meaning.** `p.HasName t n`: the type `t` has a member named `n`. -/
inductive HasName (p : Program) : TypeHandle → String → Prop
  /-- An object type has the members written in it. -/
  | object {file : Path} {members : List Member} {m : Member} (hm : m ∈ members) :
      HasName p { file, type := .object members } m.name
  /-- A name has the members written in the interfaces and classes it leads to. -/
  | own {file : Path} {name : String} {args : List TypeExpr} {r : GroupRef} {d : Decl} {m : Member}
      (hr : p.typeTarget? file name = some r) (hd : d ∈ p.group r) (hm : m ∈ d.ownMembers) :
      HasName p { file, type := .reference name args } m.name
  /-- The name of an alias has the members of the type it stands for. -/
  | aliasBody {file : Path} {name : String} {args : List TypeExpr} {r : GroupRef} {d : Decl}
      {t : TypeExpr} {n : String}
      (hr : p.typeTarget? file name = some r) (hd : d ∈ p.group r) (ht : d.aliased? = some t)
      (hn : HasName p { file := r.file, type := t } n) :
      HasName p { file, type := .reference name args } n
  /-- A name has the members of the types that its declarations extend. -/
  | base {file : Path} {name : String} {args : List TypeExpr} {r : GroupRef} {d : Decl}
      {t : TypeExpr} {n : String}
      (hr : p.typeTarget? file name = some r) (hd : d ∈ p.group r) (ht : t ∈ d.bases)
      (hn : HasName p { file := r.file, type := t } n) :
      HasName p { file, type := .reference name args } n
  /-- The utility types that change members keep their names. -/
  | changed {file : Path} {name : String} {t : TypeExpr} {args : List TypeExpr} {n : String}
      (hr : p.typeTarget? file name = none) (hname : name ∈ ["Partial", "Required", "Readonly"])
      (hn : HasName p { file, type := t } n) :
      HasName p { file, type := .reference name (t :: args) } n
  /-- `Pick` has the names among its literal keys, and `Omit` those that are not among them. -/
  | selected {file : Path} {name : String} {t keys : TypeExpr} {args : List TypeExpr}
      {names : List String} {n : String} (hr : p.typeTarget? file name = none)
      (hkeys : p.keyNames? { file, type := keys } = some names)
      (hname : name = "Pick" ∧ n ∈ names ∨ name = "Omit" ∧ n ∉ names)
      (hn : HasName p { file, type := t } n) :
      HasName p { file, type := .reference name (t :: keys :: args) } n
  /-- An intersection has the names of each of its types. -/
  | intersection {file : Path} {types : List TypeExpr} {t : TypeExpr} {n : String}
      (ht : t ∈ types) (hn : HasName p { file, type := t } n) :
      HasName p { file, type := .intersection types } n
  /-- A union has the names that all of its types have, if any type counts. -/
  | union {file : Path} {types : List TypeExpr} {n : String} (hne : p.keptTypes types ≠ [])
      (hn : ∀ t ∈ p.keptTypes types, HasName p { file, type := t } n) :
      HasName p { file, type := .union types } n

/-! ### Expansion -/

/-- The argument whose members a utility type has: the first one, and for `Pick` and `Omit` only
when the second one has literal keys. -/
def utilityArg? (p : Program) (file : Path) (name : String) (args : List TypeExpr) :
    Option TypeExpr :=
  if name ∈ ["Partial", "Required", "Readonly"] then args.head?
  else if name ∈ ["Pick", "Omit"] then
    match args with
    | t :: keys :: _ => (p.keyNames? { file, type := keys }).map fun _ => t
    | _ => none
  else none

/-- **Expansion.** The types whose members enter those of a type in one step. -/
def expansion (p : Program) (t : TypeHandle) : List TypeHandle :=
  match t.type with
  | .reference name args =>
    match p.typeTarget? t.file name with
    | some r =>
      (p.group r).flatMap fun d =>
        (d.aliased?.toList ++ d.bases).map fun type => { file := r.file, type }
    | none => (p.utilityArg? t.file name args).toList.map fun type => { file := t.file, type }
  | .intersection types => types.map fun type => { file := t.file, type }
  | .union types => (p.keptTypes types).map fun type => { file := t.file, type }
  | _ => []

/-- **Height.** The expansion of a type, step after step, ends after at most `h` steps. -/
def HeightAtMost (p : Program) : (h : Nat) → TypeHandle → Prop
  | 0, t => p.expansion t = []
  | h + 1, t => ∀ u ∈ p.expansion t, p.HeightAtMost h u

instance decidableHeightAtMost (p : Program) :
    ∀ (h : Nat) (t : TypeHandle), Decidable (p.HeightAtMost h t)
  | 0, t => decidable_of_iff ((p.expansion t).isEmpty = true) List.isEmpty_iff
  | h + 1, t =>
    have : DecidablePred (p.HeightAtMost h) := decidableHeightAtMost p h
    inferInstanceAs (Decidable (∀ u ∈ p.expansion t, p.HeightAtMost h u))

/-- The types in an expansion are lower. -/
theorem HeightAtMost.of_mem_expansion {p : Program} {h : Nat} {t u : TypeHandle}
    (hh : p.HeightAtMost h t) (hu : u ∈ p.expansion t) : ∃ h', h = h' + 1 ∧ p.HeightAtMost h' u := by
  cases h with
  | zero =>
    rw [HeightAtMost] at hh
    rw [hh] at hu
    cases hu
  | succ h' => exact ⟨h', rfl, hh u hu⟩

theorem HeightAtMost.mono {p : Program} {h k : Nat} {t : TypeHandle} (hh : p.HeightAtMost h t)
    (hk : h ≤ k) : p.HeightAtMost k t := by
  induction k generalizing h t with
  | zero =>
    obtain rfl : h = 0 := Nat.le_zero.1 hk
    exact hh
  | succ k ih =>
    intro u hu
    obtain ⟨h', rfl, hh'⟩ := hh.of_mem_expansion hu
    exact ih hh' (by omega)

/-- **Expansions that end** are those with a height: a type has finitely many types in its expansion,
and their heights have a bound. -/
theorem acc_iff_exists_heightAtMost {p : Program} {t : TypeHandle} :
    Acc (fun u t => u ∈ p.expansion t) t ↔ ∃ h, p.HeightAtMost h t := by
  constructor
  · intro hacc
    induction hacc with
    | intro t _ ih =>
      have hbound : ∀ l : List TypeHandle, (∀ u ∈ l, ∃ h, p.HeightAtMost h u) →
          ∃ k, ∀ u ∈ l, p.HeightAtMost k u := by
        intro l
        induction l with
        | nil => exact fun _ => ⟨0, by simp⟩
        | cons u l ihl =>
          intro hl
          obtain ⟨h, hh⟩ := hl u List.mem_cons_self
          obtain ⟨k, hk⟩ := ihl fun v hv => hl v (List.mem_cons_of_mem u hv)
          refine ⟨max h k, ?_⟩
          rw [List.forall_mem_cons]
          exact ⟨hh.mono (Nat.le_max_left h k), fun v hv => (hk v hv).mono (Nat.le_max_right h k)⟩
      obtain ⟨k, hk⟩ := hbound (p.expansion t) ih
      exact ⟨k + 1, hk⟩
  · rintro ⟨h, hh⟩
    induction h using Nat.strongRecOn generalizing t with
    | ind h ih =>
      refine Acc.intro t fun u hu => ?_
      obtain ⟨h', rfl, hh'⟩ := hh.of_mem_expansion hu
      exact ih h' (by omega) hh'

/-! ### Names in lists of members -/

/-- The names of a list of members. -/
def namesOf (ms : List ScopedMember) : List String :=
  ms.map ScopedMember.name

theorem mem_namesOf_firstOfEachName {ms : List ScopedMember} {n : String} (seen : List String) :
    n ∈ namesOf (firstOfEachName seen ms) ↔ n ∈ namesOf ms ∧ n ∉ seen := by
  rw [firstOfEachName_eq_firstsFrom]
  exact mem_map_firstsFrom

theorem mem_namesOf_flatMap {α : Type} {l : List α} {f : α → List ScopedMember} {n : String} :
    n ∈ namesOf (l.flatMap f) ↔ ∃ x ∈ l, n ∈ namesOf (f x) := by
  simp only [namesOf, List.map_flatMap, List.mem_flatMap]

theorem mem_namesOf_append {ms ms' : List ScopedMember} {n : String} :
    n ∈ namesOf (ms ++ ms') ↔ n ∈ namesOf ms ∨ n ∈ namesOf ms' := by
  rw [namesOf, List.map_append, List.mem_append]
  rfl

theorem namesOf_scoped (file : Path) (members : List Member) :
    namesOf (members.map fun member => { file, member }) = members.map Member.name := by
  simp [namesOf, ScopedMember.name, Function.comp_def]

theorem namesOf_map (f : ScopedMember → ScopedMember) (hf : ∀ m, (f m).name = m.name)
    (ms : List ScopedMember) : namesOf (ms.map f) = namesOf ms := by
  simp [namesOf, Function.comp_def, hf]

theorem mem_namesOf_filter (keep : String → Bool) {ms : List ScopedMember} {n : String} :
    n ∈ namesOf (ms.filter fun m => keep m.name) ↔ n ∈ namesOf ms ∧ keep n = true := by
  simp only [namesOf, List.mem_map, List.mem_filter]
  grind

theorem mem_namesOf_commonMembers {sets : List (List ScopedMember)} {n : String} :
    n ∈ namesOf (commonMembers sets) ↔ sets ≠ [] ∧ ∀ set ∈ sets, n ∈ namesOf set := by
  cases sets with
  | nil => simp [commonMembers, namesOf]
  | cons first others =>
    rw [commonMembers]
    refine (mem_namesOf_filter fun name =>
      others.all fun set => set.any fun o => o.name == name).trans ?_
    simp [namesOf]

/-! ### What each form of type has -/

section

variable {p : Program} {file : Path} {name n : String} {args types : List TypeExpr}

theorem hasName_object_iff {members : List Member} :
    p.HasName { file, type := .object members } n ↔ n ∈ members.map Member.name := by
  rw [List.mem_map]
  constructor
  · intro h
    cases h with
    | object hm => exact ⟨_, hm, rfl⟩
  · rintro ⟨m, hm, rfl⟩
    exact .object hm

theorem hasName_group_iff {r : GroupRef} (hr : p.typeTarget? file name = some r) :
    p.HasName { file, type := .reference name args } n ↔
      ∃ d ∈ p.group r, n ∈ d.ownMembers.map Member.name ∨
        ∃ t ∈ d.aliased?.toList ++ d.bases, p.HasName { file := r.file, type := t } n := by
  constructor
  · intro h
    cases h with
    | own hr' hd hm =>
      obtain rfl : r = _ := Option.some.inj (hr.symm.trans hr')
      exact ⟨_, hd, .inl (List.mem_map_of_mem hm)⟩
    | aliasBody hr' hd ht hn =>
      obtain rfl : r = _ := Option.some.inj (hr.symm.trans hr')
      exact ⟨_, hd, .inr ⟨_, List.mem_append_left _ (by simpa using ht), hn⟩⟩
    | base hr' hd ht hn =>
      obtain rfl : r = _ := Option.some.inj (hr.symm.trans hr')
      exact ⟨_, hd, .inr ⟨_, List.mem_append_right _ ht, hn⟩⟩
    | changed hr' => cases hr.symm.trans hr'
    | selected hr' => cases hr.symm.trans hr'
  · rintro ⟨d, hd, hm | ⟨t, ht, hn⟩⟩
    · obtain ⟨m, hown, rfl⟩ := List.mem_map.1 hm
      exact .own hr hd hown
    · rcases List.mem_append.1 ht with ht | ht
      · exact .aliasBody hr hd (by simpa using ht) hn
      · exact .base hr hd ht hn

/-- **Selection.** A utility type with the arguments `rest` behind its first one lets a name through:
every name, or for `Pick` and `Omit` those that the literal keys allow. -/
def Selects (p : Program) (file : Path) (name : String) (rest : List TypeExpr) (n : String) : Prop :=
  name ∈ ["Partial", "Required", "Readonly"] ∨
    ∃ keys rest' names, rest = keys :: rest' ∧ p.keyNames? { file, type := keys } = some names ∧
      (name = "Pick" ∧ n ∈ names ∨ name = "Omit" ∧ n ∉ names)

theorem hasName_utility_iff (hr : p.typeTarget? file name = none) :
    p.HasName { file, type := .reference name args } n ↔
      ∃ t rest, args = t :: rest ∧ p.Selects file name rest n ∧ p.HasName { file, type := t } n := by
  constructor
  · intro h
    cases h with
    | own hr' => cases hr.symm.trans hr'
    | aliasBody hr' => cases hr.symm.trans hr'
    | base hr' => cases hr.symm.trans hr'
    | changed _ hname hn => exact ⟨_, _, rfl, .inl hname, hn⟩
    | selected _ hkeys hname hn => exact ⟨_, _, rfl, .inr ⟨_, _, _, rfl, hkeys, hname⟩, hn⟩
  · rintro ⟨t, rest, rfl, hname | ⟨keys, rest', names, rfl, hkeys, hname⟩, hn⟩
    · exact .changed hr hname hn
    · exact .selected hr hkeys hname hn

theorem hasName_intersection_iff :
    p.HasName { file, type := .intersection types } n ↔
      ∃ t ∈ types, p.HasName { file, type := t } n := by
  constructor
  · intro h
    cases h with
    | intersection ht hn => exact ⟨_, ht, hn⟩
  · rintro ⟨t, ht, hn⟩
    exact .intersection ht hn

theorem hasName_union_iff :
    p.HasName { file, type := .union types } n ↔
      p.keptTypes types ≠ [] ∧ ∀ t ∈ p.keptTypes types, p.HasName { file, type := t } n := by
  constructor
  · intro h
    cases h with
    | union hne hn => exact ⟨hne, hn⟩
  · rintro ⟨hne, hn⟩
    exact .union hne hn

end

/-! ### What one step of the walk finds -/

section

variable {p : Program} {file : Path} {name n : String} {args : List TypeExpr} {walk : MemberWalk}

theorem mem_namesOf_ownMembers {d : Decl} :
    n ∈ namesOf (ownMembers walk file d) ↔
      n ∈ d.ownMembers.map Member.name ∨ ∃ t ∈ d.aliased?.toList, n ∈ namesOf (walk file t) := by
  rw [ownMembers, Decl.ownMembers, Decl.aliased?]
  cases d.body with
  | interface bases members => simp [namesOf_scoped]
  | classDecl base members => simp [namesOf_scoped]
  | typeAlias type => simp
  | _ => simp [namesOf]

theorem mem_namesOf_groupMembers {r : GroupRef} :
    n ∈ namesOf (p.groupMembers walk r) ↔
      ∃ d ∈ p.group r, n ∈ d.ownMembers.map Member.name ∨
        ∃ t ∈ d.aliased?.toList ++ d.bases, n ∈ namesOf (walk r.file t) := by
  rw [groupMembers, mem_namesOf_firstOfEachName, mem_namesOf_append, mem_namesOf_flatMap,
    mem_namesOf_flatMap]
  simp only [mem_namesOf_ownMembers, mem_namesOf_flatMap, List.mem_append]
  grind

theorem mem_namesOf_argMembers :
    n ∈ namesOf (argMembers walk file args) ↔
      ∃ t rest, args = t :: rest ∧ n ∈ namesOf (walk file t) := by
  cases args with
  | nil => simp [argMembers, namesOf]
  | cons t rest =>
    constructor
    · intro h
      exact ⟨t, rest, rfl, h⟩
    · rintro ⟨t', rest', heq, h⟩
      obtain ⟨rfl, rfl⟩ := List.cons.inj heq
      exact h

theorem mem_namesOf_selectMembers {pick : Bool} :
    n ∈ namesOf (p.selectMembers walk file pick args) ↔
      ∃ t keys rest names, args = t :: keys :: rest ∧
        p.keyNames? { file, type := keys } = some names ∧ (n ∈ names ↔ pick = true) ∧
        n ∈ namesOf (walk file t) := by
  match args with
  | [] => simp [selectMembers, namesOf]
  | [_] => simp [selectMembers, namesOf]
  | t :: keys :: rest =>
    rw [selectMembers]
    cases hkeys : p.keyNames? { file, type := keys } with
    | none =>
      constructor
      · intro h
        cases h
      · rintro ⟨t', keys', rest', names, heq, hkeys', -⟩
        simp only [List.cons.injEq] at heq
        obtain ⟨-, rfl, -⟩ := heq
        cases hkeys.symm.trans hkeys'
    | some names =>
      have hkeep : (names.contains n == pick) = true ↔ (n ∈ names ↔ pick = true) := by
        rw [beq_iff_eq, Bool.eq_iff_iff, List.contains_iff_mem]
      refine (mem_namesOf_filter fun name => names.contains name == pick).trans ?_
      rw [hkeep]
      constructor
      · rintro ⟨hn, hpick⟩
        exact ⟨t, keys, rest, names, rfl, hkeys, hpick, hn⟩
      · rintro ⟨t', keys', rest', names', heq, hkeys', hpick, hn⟩
        simp only [List.cons.injEq] at heq
        obtain ⟨rfl, rfl, rfl⟩ := heq
        obtain rfl : names = names' := Option.some.inj (hkeys.symm.trans hkeys')
        exact ⟨hn, hpick⟩

theorem mem_namesOf_builtinMembers :
    n ∈ namesOf (p.builtinMembers walk file name args) ↔
      ∃ t rest, args = t :: rest ∧ p.Selects file name rest n ∧ n ∈ namesOf (walk file t) := by
  unfold builtinMembers
  split
  · rw [namesOf_map (.setOptional true) fun _ => rfl, mem_namesOf_argMembers]
    simp [Selects]
  · rw [namesOf_map (.setOptional false) fun _ => rfl, mem_namesOf_argMembers]
    simp [Selects]
  · rw [namesOf_map .setReadonly fun _ => rfl, mem_namesOf_argMembers]
    simp [Selects]
  · rw [mem_namesOf_selectMembers]
    grind [Selects]
  · rw [mem_namesOf_selectMembers]
    grind [Selects]
  · grind [Selects, namesOf]

/-! ### One step depends on the expansion -/

theorem mem_expansion_group {r : GroupRef} {d : Decl} {t : TypeExpr}
    (hr : p.typeTarget? file name = some r) (hd : d ∈ p.group r)
    (ht : t ∈ d.aliased?.toList ++ d.bases) :
    { file := r.file, type := t } ∈ p.expansion { file, type := .reference name args } := by
  simp only [expansion, hr]
  exact List.mem_flatMap.2 ⟨d, hd, List.mem_map_of_mem ht⟩

theorem mem_expansion_utility {t : TypeExpr} (hr : p.typeTarget? file name = none)
    (ht : p.utilityArg? file name args = some t) :
    { file, type := t } ∈ p.expansion { file, type := .reference name args } := by
  simp only [expansion, hr, ht]
  exact List.mem_singleton_self _

theorem utilityArg?_of_changed {t : TypeExpr} {rest : List TypeExpr}
    (hname : name ∈ ["Partial", "Required", "Readonly"]) :
    p.utilityArg? file name (t :: rest) = some t := by
  unfold utilityArg?
  rw [if_pos hname]
  rfl

theorem utilityArg?_of_keys {t keys : TypeExpr} {rest : List TypeExpr} {names : List String}
    (hname : name ∈ ["Pick", "Omit"]) (hkeys : p.keyNames? { file, type := keys } = some names) :
    p.utilityArg? file name (t :: keys :: rest) = some t := by
  have hnot : name ∉ ["Partial", "Required", "Readonly"] := by
    rcases List.mem_pair.1 hname with rfl | rfl <;> decide
  unfold utilityArg?
  rw [if_neg hnot, if_pos hname]
  simp only [hkeys, Option.map_some]

theorem utilityArg?_of_selects {t : TypeExpr} {rest : List TypeExpr}
    (h : p.Selects file name rest n) : p.utilityArg? file name (t :: rest) = some t := by
  rcases h with hname | ⟨keys, rest', names, rfl, hkeys, hname⟩
  · exact utilityArg?_of_changed hname
  · refine utilityArg?_of_keys ?_ hkeys
    rcases hname with ⟨rfl, -⟩ | ⟨rfl, -⟩ <;> decide

/-- **One step, by meaning.** A walk that finds the names of the types in the expansion finds, one
level up, the names of the type. -/
theorem mem_namesOf_step {depth : Nat} {t : TypeHandle}
    (hwalk : ∀ u ∈ p.expansion t, ∀ n,
      n ∈ namesOf (p.membersWithin depth u.file u.type) ↔ p.HasName u n) (n : String) :
    n ∈ namesOf (p.membersWithin (depth + 1) t.file t.type) ↔ p.HasName t n := by
  obtain ⟨file, type⟩ := t
  cases type with
  | reference name args =>
    rw [membersWithin]
    cases hr : p.typeTarget? file name with
    | some r =>
      dsimp only
      rw [mem_namesOf_groupMembers, hasName_group_iff hr]
      refine exists_congr fun d => and_congr_right fun hd => or_congr_right ?_
      refine exists_congr fun t => and_congr_right fun ht => ?_
      exact hwalk _ (mem_expansion_group hr hd ht) n
    | none =>
      dsimp only
      rw [mem_namesOf_builtinMembers, hasName_utility_iff hr]
      refine exists_congr fun t => exists_congr fun rest => ?_
      refine and_congr_right fun hargs => and_congr_right fun hsel => ?_
      subst hargs
      exact hwalk _ (mem_expansion_utility hr (utilityArg?_of_selects hsel)) n
  | object members => rw [membersWithin, namesOf_scoped, hasName_object_iff]
  | intersection types =>
    rw [membersWithin, mem_namesOf_firstOfEachName, mem_namesOf_flatMap, hasName_intersection_iff]
    simp only [List.not_mem_nil, not_false_eq_true, and_true]
    refine exists_congr fun t => and_congr_right fun ht => ?_
    exact hwalk _ (List.mem_map_of_mem ht) n
  | union types =>
    rw [membersWithin, mem_namesOf_commonMembers, hasName_union_iff, List.forall_mem_map]
    refine and_congr (not_congr List.map_eq_nil_iff) ?_
    refine forall_congr' fun t => forall_congr' fun ht => ?_
    exact hwalk _ (List.mem_map_of_mem ht) n
  | _ =>
    constructor
    · intro h
      cases h
    · intro h
      cases h

theorem groupMembers_congr {r : GroupRef} {walk' : MemberWalk}
    (hwalk : ∀ d ∈ p.group r, ∀ t ∈ d.aliased?.toList ++ d.bases, walk r.file t = walk' r.file t) :
    p.groupMembers walk r = p.groupMembers walk' r := by
  have hown : (p.group r).flatMap (ownMembers walk r.file) =
      (p.group r).flatMap (ownMembers walk' r.file) := by
    refine List.flatMap_congr fun d hd => ?_
    have hbody := hwalk d hd
    rw [Decl.aliased?] at hbody
    rw [ownMembers, ownMembers]
    cases hd' : d.body with
    | typeAlias type =>
      rw [hd'] at hbody
      exact hbody type (List.mem_append_left _ (List.mem_singleton_self type))
    | _ => rfl
  have hbases : ((p.group r).flatMap fun d => d.bases.flatMap (walk r.file)) =
      (p.group r).flatMap fun d => d.bases.flatMap (walk' r.file) :=
    List.flatMap_congr fun d hd => List.flatMap_congr fun t ht =>
      hwalk d hd t (List.mem_append_right _ ht)
  rw [groupMembers, groupMembers, hown, hbases]

theorem builtinMembers_congr {walk' : MemberWalk}
    (hwalk : ∀ t, p.utilityArg? file name args = some t → walk file t = walk' file t) :
    p.builtinMembers walk file name args = p.builtinMembers walk' file name args := by
  have harg : name ∈ ["Partial", "Required", "Readonly"] →
      argMembers walk file args = argMembers walk' file args := by
    intro hname
    cases args with
    | nil => rfl
    | cons t rest => exact hwalk t (utilityArg?_of_changed hname)
  have hsel : ∀ pick, name ∈ ["Pick", "Omit"] →
      p.selectMembers walk file pick args = p.selectMembers walk' file pick args := by
    intro pick hname
    match args with
    | [] => rfl
    | [_] => rfl
    | t :: keys :: rest =>
      rw [selectMembers, selectMembers]
      cases hkeys : p.keyNames? { file, type := keys } with
      | none => rfl
      | some names =>
        dsimp only
        rw [hwalk t (utilityArg?_of_keys hname hkeys)]
  unfold builtinMembers
  split
  · rw [harg (by decide)]
  · rw [harg (by decide)]
  · rw [harg (by decide)]
  · exact hsel true (by decide)
  · exact hsel false (by decide)
  · rfl

/-- **One step, by members.** What a walk finds one level up depends on the types in the expansion
only. -/
theorem membersWithin_step_congr {depth depth' : Nat} {t : TypeHandle}
    (hwalk : ∀ u ∈ p.expansion t,
      p.membersWithin depth u.file u.type = p.membersWithin depth' u.file u.type) :
    p.membersWithin (depth + 1) t.file t.type = p.membersWithin (depth' + 1) t.file t.type := by
  obtain ⟨file, type⟩ := t
  cases type with
  | reference name args =>
    rw [membersWithin, membersWithin]
    cases hr : p.typeTarget? file name with
    | some r => exact groupMembers_congr fun d hd t ht => hwalk _ (mem_expansion_group hr hd ht)
    | none => exact builtinMembers_congr fun t ht => hwalk _ (mem_expansion_utility hr ht)
  | object members => rw [membersWithin, membersWithin]
  | intersection types =>
    have htypes : types.flatMap (p.membersWithin depth file) =
        types.flatMap (p.membersWithin depth' file) :=
      List.flatMap_congr fun t ht => hwalk _ (List.mem_map_of_mem ht)
    rw [membersWithin, membersWithin, htypes]
  | union types =>
    have htypes : (p.keptTypes types).map (p.membersWithin depth file) =
        (p.keptTypes types).map (p.membersWithin depth' file) :=
      List.map_congr_left fun t ht => hwalk _ (List.mem_map_of_mem ht)
    rw [membersWithin, membersWithin]
    exact congrArg commonMembers htypes
  | _ => rfl

/-! ### All steps -/

/-- **The bound does not matter** beyond the height. -/
theorem HeightAtMost.membersWithin_eq {h : Nat} :
    ∀ {t : TypeHandle} {depth depth' : Nat}, p.HeightAtMost h t → h < depth → h < depth' →
      p.membersWithin depth t.file t.type = p.membersWithin depth' t.file t.type := by
  induction h using Nat.strongRecOn with
  | ind h ih =>
    intro t depth depth' hh hd hd'
    obtain ⟨depth, rfl⟩ := Nat.exists_eq_add_one_of_ne_zero (Nat.ne_zero_of_lt hd)
    obtain ⟨depth', rfl⟩ := Nat.exists_eq_add_one_of_ne_zero (Nat.ne_zero_of_lt hd')
    refine membersWithin_step_congr fun u hu => ?_
    obtain ⟨h', rfl, hh'⟩ := hh.of_mem_expansion hu
    exact ih h' (by omega) hh' (by omega) (by omega)

/-- **Names are those by meaning** when the bound exceeds the height. -/
theorem HeightAtMost.mem_namesOf_iff {h : Nat} :
    ∀ {t : TypeHandle} {depth : Nat}, p.HeightAtMost h t → h < depth → ∀ n,
      n ∈ namesOf (p.membersWithin depth t.file t.type) ↔ p.HasName t n := by
  induction h using Nat.strongRecOn with
  | ind h ih =>
    intro t depth hh hd n
    obtain ⟨depth, rfl⟩ := Nat.exists_eq_add_one_of_ne_zero (Nat.ne_zero_of_lt hd)
    refine mem_namesOf_step (fun u hu => ?_) n
    obtain ⟨h', rfl, hh'⟩ := hh.of_mem_expansion hu
    exact ih h' (by omega) hh' (by omega)

/-- **Members by meaning.** A type whose expansion ends within `h` steps, looked at from the depth
`d`, has the same members as from the top, and their names are the ones it has by meaning, as long as
`d + h` is not beyond the bound. -/
theorem membersWithin_eq_and_names (p : Program) (t : TypeHandle) (h d : Nat)
    (hheight : p.HeightAtMost h t) (hd : d + h ≤ maxDepth) :
    p.membersWithin (maxDepth + 1 - d) t.file t.type =
        p.membersWithin (maxDepth + 1) t.file t.type ∧
      ∀ n, n ∈ (p.membersWithin (maxDepth + 1 - d) t.file t.type).map ScopedMember.name ↔
        p.HasName t n :=
  ⟨hheight.membersWithin_eq (by omega) (by omega), hheight.mem_namesOf_iff (by omega)⟩

/-- **Button.** A type of a button's properties: two ways to write them, or none at all. -/
def button : Workspace where
  overlays := OrderedMap.empty.insert "/button.ts" <|
    "interface Base { id: string; x?: number }\n" ++
    "interface Props extends Base { label: string }\n" ++
    "export type Button = Omit<Props, 'x'> | (Partial<Props> & { extra: 1 }) | null"

/-- Five steps lead from the alias to the innermost base, and 27 is the greatest depth that leaves
room for them.  The missing value does not count, and the union has what both other types have. -/
theorem button_members :
    ∃ p, build button {} ["/button.ts"] = .ok p ∧
      p.HeightAtMost 5 { file := "/button.ts", type := .named "Button" } ∧
      p.membersWithin (maxDepth + 1 - 27) "/button.ts" (.named "Button") =
        p.membersWithin (maxDepth + 1) "/button.ts" (.named "Button") ∧
      p.HasName { file := "/button.ts", type := .named "Button" } "id" ∧
      ¬ p.HasName { file := "/button.ts", type := .named "Button" } "x" := by
  have hrun : (build button {} ["/button.ts"]).toOption.map
      (fun p => (decide (p.HeightAtMost 5 { file := "/button.ts", type := .named "Button" }),
        (p.membersWithin (maxDepth + 1 - 27) "/button.ts" (.named "Button")).map
          ScopedMember.name)) = some (true, ["label", "id"]) := by decide +kernel
  cases hbuild : build button {} ["/button.ts"] with
  | error e =>
    rw [hbuild] at hrun
    cases hrun
  | ok p =>
    rw [hbuild] at hrun
    obtain ⟨hheight, hnames⟩ := Prod.mk.inj (Option.some.inj hrun)
    have hheight' := of_decide_eq_true hheight
    obtain ⟨heq, hiff⟩ := membersWithin_eq_and_names p _ 5 27 hheight' (by decide)
    refine ⟨p, rfl, hheight', heq, ?_, ?_⟩
    · rw [← hiff, hnames]
      decide
    · rw [← hiff, hnames]
      decide

end

end PropDocs.Program
