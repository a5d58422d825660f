import PropDocs.Proofs.Enumerations

/-!
# Utility types

`Partial`, `Required` and `Readonly` change a flag of every member of a type, and `Pick` and `Omit`
keep some of its members.  The keys are found by following aliases and taking unions apart, the members
by a walk of its own, down to a depth.  This file shows that the two fit together to an algebra, for all
types and at all depths, those beyond the bound included.

* `Modifier`, `Selector`: the two kinds of utility types, with the change that the one makes and the
  names that the other keeps;
* `DenotesKeys`: the keys that a type stands for, by meaning; and `DenotesKeys.keyNames?_eq`: these are
  the keys that are found;
* `membersAt`: the members of a type, looked at from a depth;
* `membersAt_modifier`, `membersAt_selector`: **one step** of the walk, for each kind;
* `utility_algebra`: hence the laws for one utility type inside another.
-/

namespace PropDocs

/-! ### Kinds of utility types -/

/-- **Modifier**: a utility type that changes a flag of every member. -/
inductive Modifier where
  | optional
  | required
  | readonly
  deriving DecidableEq, Repr

namespace Modifier

/-- The name of the type. -/
def typeName : Modifier → String
  | .optional => "Partial"
  | .required => "Required"
  | .readonly => "Readonly"

/-- The modifier applied to a type. -/
def of (u : Modifier) (t : TypeExpr) : TypeExpr :=
  .reference u.typeName [t]

/-- **The change** of a member: its flag, and nothing else. -/
def change : Modifier → ScopedMember → ScopedMember
  | .optional, m => { m with member := { m.member with optional := true } }
  | .required, m => { m with member := { m.member with optional := false } }
  | .readonly, m => { m with member := { m.member with readonly := true } }

@[simp] theorem name_change (u : Modifier) (m : ScopedMember) : (u.change m).name = m.name := by
  cases u <;> rfl

end Modifier

/-- **Selector**: a utility type that keeps some of the members. -/
inductive Selector where
  | pick
  | drop
  deriving DecidableEq, Repr

namespace Selector

/-- The name of the type. -/
def typeName : Selector → String
  | .pick => "Pick"
  | .drop => "Omit"

/-- The selector applied to a type and the type of its keys. -/
def of (s : Selector) (t k : TypeExpr) : TypeExpr :=
  .reference s.typeName [t, k]

/-- **The names kept** for given keys: the keys themselves, or all others. -/
def Keeps : Selector → List String → String → Prop
  | .pick, keys, name => name ∈ keys
  | .drop, keys, name => name ∉ keys

instance decidableKeeps : ∀ (s : Selector) (keys : List String), DecidablePred (s.Keeps keys)
  | .pick, keys => fun name => inferInstanceAs (Decidable (name ∈ keys))
  | .drop, keys => fun name => inferInstanceAs (Decidable (name ∉ keys))

end Selector

namespace Program

/-! ### Keys -/

/-- **Keys by meaning.** The leaves of a type, within the bounds on aliases and unions, are string
literals, and these are the keys.  A type that is no union has itself for its only leaf. -/
def DenotesKeys (p : Program) (k : TypeHandle) (keys : List String) : Prop :=
  p.NestedWithin maxDepth k ∧ ∃ leaves, p.Leaves k leaves ∧ List.Forall₂ p.IsLiteral leaves keys

section

variable {p : Program} {k : TypeHandle} {keys : List String}

theorem denotesKeys_iff_mapM (h : p.NestedWithin maxDepth k) :
    p.DenotesKeys k keys ↔ (p.unionLeaves maxDepth k).mapM p.stringLiteral? = some keys := by
  rw [h.mapM_stringLiteral?_iff]
  constructor
  · rintro ⟨-, leaves, hleaves, hliterals⟩
    rwa [hleaves.unique h.leaves_unionLeaves] at hliterals
  · intro hliterals
    exact ⟨h, _, h.leaves_unionLeaves, hliterals⟩

/-- A union is no string literal. -/
theorem stringLiteral?_eq_none_of_isUnion (h : (p.unalias k).type.isUnion = true) :
    p.stringLiteral? k = none := by
  rw [stringLiteral?]
  cases htype : (p.unalias k).type with
  | string value =>
    rw [htype] at h
    cases h
  | _ => rfl

/-- **Keys are found** as they are meant. -/
theorem DenotesKeys.keyNames?_eq (h : p.DenotesKeys k keys) : p.keyNames? k = some keys := by
  have hnested := h.1
  have hfound := (denotesKeys_iff_mapM hnested).1 h
  rw [keyNames?]
  by_cases hunion : p.IsUnion k
  · have hnone := stringLiteral?_eq_none_of_isUnion (hnested.chainWithin.isUnion_iff.1 hunion)
    rw [hnone, hnested.unionParts?_eq hunion]
    exact hfound
  · have hself : p.unionLeaves maxDepth k = [k] :=
      hnested.leaves_unionLeaves.unique (.single hunion)
    rw [hself, mapM_eq_some_iff_forall₂, List.forall₂_cons_left_iff] at hfound
    obtain ⟨key, rest, hkey, hrest, rfl⟩ := hfound
    rw [hkey, List.forall₂_nil_left_iff.1 hrest]

end

/-! ### One step -/

/-- **Members from a depth.** Beyond the bound there are none. -/
def membersAt (p : Program) (depth : Nat) (file : Path) (t : TypeExpr) : List ScopedMember :=
  p.membersWithin (maxDepth + 1 - depth) file t

/-- **Built-in names.** The names of the utility types stand for no declarations in a file. -/
def BuiltinNames (p : Program) (file : Path) : Prop :=
  ∀ name ∈ ["Partial", "Required", "Readonly", "Pick", "Omit"], p.typeTarget? file name = none

instance decidableBuiltinNames (p : Program) (file : Path) : Decidable (p.BuiltinNames file) :=
  inferInstanceAs (Decidable (∀ name ∈ ["Partial", "Required", "Readonly", "Pick", "Omit"],
    p.typeTarget? file name = none))

/-- The members of a name without declarations come from the depth below, or from nowhere. -/
theorem membersAt_reference {p : Program} {file : Path} {name : String}
    (hname : p.typeTarget? file name = none) (depth : Nat) (args : List TypeExpr) :
    p.membersAt depth file (.reference name args) =
      if depth ≤ maxDepth then p.builtinMembers (p.membersAt (depth + 1)) file name args else [] := by
  rw [membersAt]
  by_cases hdepth : depth ≤ maxDepth
  · have hsteps : maxDepth + 1 - depth = maxDepth + 1 - (depth + 1) + 1 := by omega
    rw [if_pos hdepth, hsteps, membersWithin, hname]
    rfl
  · have hsteps : maxDepth + 1 - depth = 0 := by omega
    rw [if_neg hdepth, hsteps, membersWithin]

/-- Beyond the bound there are no members. -/
theorem membersAt_succ_eq_nil {p : Program} {file : Path} {depth : Nat} (hdepth : ¬ depth ≤ maxDepth)
    (t : TypeExpr) : p.membersAt (depth + 1) file t = [] := by
  have hsteps : maxDepth + 1 - (depth + 1) = 0 := by omega
  rw [membersAt, hsteps, membersWithin]

section

variable {p : Program} {file : Path} {k l : TypeExpr} {keys keys' : List String}

theorem BuiltinNames.modifier (h : p.BuiltinNames file) (u : Modifier) :
    p.typeTarget? file u.typeName = none := by
  apply h
  cases u <;> decide

theorem BuiltinNames.selector (h : p.BuiltinNames file) (s : Selector) :
    p.typeTarget? file s.typeName = none := by
  apply h
  cases s <;> decide

/-- **One step of a modifier.** It changes the members that its type has one level deeper. -/
theorem membersAt_modifier (h : p.BuiltinNames file) (u : Modifier) (depth : Nat) (t : TypeExpr) :
    p.membersAt depth file (u.of t) = (p.membersAt (depth + 1) file t).map u.change := by
  rw [Modifier.of, membersAt_reference (h.modifier u)]
  split
  · cases u <;> rfl
  · next hdepth => rw [membersAt_succ_eq_nil hdepth, List.map_nil]

/-- **One step of a selector.** It keeps the members that its type has one level deeper and whose names
are to be kept for the keys. -/
theorem membersAt_selector (h : p.BuiltinNames file) (hk : p.DenotesKeys ⟨file, k⟩ keys)
    (s : Selector) (depth : Nat) (t : TypeExpr) :
    p.membersAt depth file (s.of t k) =
      (p.membersAt (depth + 1) file t).filter fun m => s.Keeps keys m.name := by
  rw [Selector.of, membersAt_reference (h.selector s)]
  split
  · have hselect : ∀ pick, p.selectMembers (p.membersAt (depth + 1)) file pick [t, k] =
        (p.membersAt (depth + 1) file t).filter fun m => keys.contains m.name == pick := by
      intro pick
      rw [selectMembers, hk.keyNames?_eq]
    cases s with
    | pick =>
      refine (hselect true).trans (List.filter_congr fun m _ => ?_)
      rw [Bool.eq_iff_iff, decide_eq_true_eq, Selector.Keeps]
      simp
    | drop =>
      refine (hselect false).trans (List.filter_congr fun m _ => ?_)
      rw [Bool.eq_iff_iff, decide_eq_true_eq, Selector.Keeps]
      simp
  · next hdepth => rw [membersAt_succ_eq_nil hdepth, List.filter_nil]

/-! ### Laws -/

/-- A change of flags and a choice by name commute. -/
theorem filter_map_change (u : Modifier) (s : Selector) (keys : List String)
    (ms : List ScopedMember) :
    (ms.map u.change).filter (fun m => s.Keeps keys m.name) =
      (ms.filter fun m => s.Keeps keys m.name).map u.change := by
  rw [List.filter_map]
  congr 2
  funext m
  rw [Function.comp_apply, Modifier.name_change]

/-- **The algebra of utility types.** Let the five names stand for no declarations in a file, and
let `k` and `l` denote keys there.  For every type and at every depth:

* `Pick` and `Omit` keep the members of the type, one level deeper, whose names are among the keys,
  or are not, in order and as they are;
* `Partial`, `Required` and `Readonly` keep all of them in order and change their flag alone;
* a modifier commutes with a selector, and two selectors with each other, the same one or not;
* of `Partial` and `Required` inside each other, the outer one decides. -/
theorem utility_algebra (p : Program) (file : Path) (k l : TypeExpr) (keys keys' : List String)
    (h : p.BuiltinNames file) (hk : p.DenotesKeys ⟨file, k⟩ keys)
    (hl : p.DenotesKeys ⟨file, l⟩ keys') (t : TypeExpr) (depth : Nat) :
    (∀ s : Selector, p.membersAt depth file (s.of t k) =
      (p.membersAt (depth + 1) file t).filter fun m => s.Keeps keys m.name) ∧
    (∀ u : Modifier, p.membersAt depth file (u.of t) =
      (p.membersAt (depth + 1) file t).map u.change) ∧
    (∀ (u : Modifier) (s : Selector),
      p.membersAt depth file (u.of (s.of t k)) = p.membersAt depth file (s.of (u.of t) k)) ∧
    (∀ s s' : Selector,
      p.membersAt depth file (s'.of (s.of t k) l) = p.membersAt depth file (s.of (s'.of t l) k)) ∧
    p.membersAt depth file (Modifier.optional.of (Modifier.required.of t)) =
      p.membersAt (depth + 1) file (Modifier.optional.of t) ∧
    p.membersAt depth file (Modifier.required.of (Modifier.optional.of t)) =
      p.membersAt (depth + 1) file (Modifier.required.of t) := by
  have hselect := fun s => membersAt_selector h hk s depth t
  have hmodify := fun u => membersAt_modifier h u depth t
  refine ⟨hselect, hmodify, ?_, ?_, ?_, ?_⟩
  · intro u s
    rw [membersAt_modifier h, membersAt_selector h hk, membersAt_selector h hk,
      membersAt_modifier h, filter_map_change]
  · intro s s'
    rw [membersAt_selector h hl, membersAt_selector h hk, membersAt_selector h hk,
      membersAt_selector h hl, List.filter_comm]
  · simp only [membersAt_modifier h, List.map_map]
    rfl
  · simp only [membersAt_modifier h, List.map_map]
    rfl

end

/-- **Dialog.** An interface with a base, and in another file a name for some of its keys, one of them
behind an alias of its own. -/
def dialog : Workspace where
  overlays := OrderedMap.empty
    |>.insert "/keys.ts" "type Extent = 'size'; export type Shown = ('title' | Extent)"
    |>.insert "/dialog.ts"
      ("import { Shown as Keys } from './keys'\n" ++
        "interface Base { title: string; id?: number }\n" ++
        "export interface Dialog extends Base { size: number }")

/-- The type of a dialog. -/
def dialogType : TypeExpr := .named "Dialog"

/-- The imported name for keys. -/
def dialogKeys : TypeExpr := .named "Keys"

/-- Keys that are written out. -/
def otherKeys : TypeExpr := .union [.string "id", .string "title"]

/-- **Dialogs** with some keys only, all of them optional: it does not matter which comes first.  The
keys that are kept come from the interface and from its base, in the order of the members. -/
theorem dialog_algebra :
    ∃ p, build dialog {} ["/dialog.ts"] = .ok p ∧ p.BuiltinNames "/dialog.ts" ∧
      p.DenotesKeys ⟨"/dialog.ts", dialogKeys⟩ ["title", "size"] ∧
      p.DenotesKeys ⟨"/dialog.ts", otherKeys⟩ ["id", "title"] ∧
      p.membersAt 0 "/dialog.ts" (Modifier.optional.of (Selector.pick.of dialogType dialogKeys)) =
        p.membersAt 0 "/dialog.ts" (Selector.pick.of (Modifier.optional.of dialogType) dialogKeys) ∧
      (p.membersAt 0 "/dialog.ts" (Selector.pick.of dialogType dialogKeys)).map (·.name) =
        ["size", "title"] ∧
      (p.membersAt 0 "/dialog.ts" (Selector.drop.of dialogType dialogKeys)).map (·.name) =
        ["id"] := by
  have hrun : (build dialog {} ["/dialog.ts"]).toOption.map
      (fun p => decide (p.BuiltinNames "/dialog.ts" ∧
        p.NestedWithin maxDepth ⟨"/dialog.ts", dialogKeys⟩ ∧
        p.NestedWithin maxDepth ⟨"/dialog.ts", otherKeys⟩ ∧
        (p.unionLeaves maxDepth ⟨"/dialog.ts", dialogKeys⟩).mapM p.stringLiteral? =
          some ["title", "size"] ∧
        (p.unionLeaves maxDepth ⟨"/dialog.ts", otherKeys⟩).mapM p.stringLiteral? =
          some ["id", "title"] ∧
        (p.membersAt 1 "/dialog.ts" dialogType).map (·.name) = ["size", "title", "id"])) =
      some true := by
    decide +kernel
  obtain ⟨p, hbuild, hseen⟩ := exists_ok_of_toOption_map hrun
  obtain ⟨h, hnested, hnested', hliterals, hliterals', hnames⟩ := of_decide_eq_true hseen
  have hk := (denotesKeys_iff_mapM hnested).2 hliterals
  have hl := (denotesKeys_iff_mapM hnested').2 hliterals'
  obtain ⟨hselect, -, hcommute, -⟩ :=
    utility_algebra p "/dialog.ts" dialogKeys otherKeys _ _ h hk hl dialogType 0
  have hkept : ∀ s : Selector,
      (p.membersAt 0 "/dialog.ts" (s.of dialogType dialogKeys)).map (·.name) =
        ["size", "title", "id"].filter fun name => s.Keeps ["title", "size"] name := by
    intro s
    rw [hselect, ← hnames, List.filter_map]
    rfl
  exact ⟨p, hbuild, h, hk, hl, hcommute _ _, hkept .pick, hkept .drop⟩

end Program

end PropDocs
