import Mathlib.Algebra.Ring.Nat
import Mathlib.Data.List.Forall2
import PropDocs.Proofs.InheritedMembers
import PropDocs.Proofs.PrintedText

/-!
# Enumerations

A prop whose type is a union of string literals is described by its values.  Which types these are
is found out with bounds on the aliases that are followed and on the unions that are taken apart.  This
file gives the leaves of a union a meaning that knows of no bounds, and shows that within the bounds
nothing else is found.

* `LooksThrough`: following aliases to their end, and `Leaves`: the types that a union comes to when
  its aliases are followed and the unions among its members are taken apart;
* `ChainWithin`, `NestedWithin`: no more aliases in a row, and no more unions inside unions, than a
  bound.  A chain of aliases that runs in a circle has no bound;
* `NestedWithin.leaves_unionLeaves`: flattening down to the bound gives the leaves;
* `enumeration_iff_literal_leaves`: a type is described by its values exactly when it is a union
  with leaves, all of them string literals; the values are these literals in order, with their repeats;
* `empty_union_not_enumeration`: a union of nothing is not described by its values;
* `raw_eq_joined_iff`: the text of a union of string literals is that of its values with bars
  between them exactly when no literal has a character that the printer escapes.
-/

namespace PropDocs

/-- A traversal that succeeds relates each item to its result. -/
theorem mapM_eq_some_iff_forall₂ {α β : Type} {f : α → Option β} {xs : List α} {ys : List β} :
    xs.mapM f = some ys ↔ List.Forall₂ (fun x y => f x = some y) xs ys := by
  induction xs generalizing ys with
  | nil => simp [eq_comm]
  | cons x xs ih =>
    rw [List.mapM_cons, List.forall₂_cons_left_iff]
    simp only [Option.bind_eq_bind, Option.bind_eq_some_iff, Option.pure_def, Option.some.injEq]
    constructor
    · rintro ⟨y, hy, ys, hys, rfl⟩
      exact ⟨y, ys, hy, ih.1 hys, rfl⟩
    · rintro ⟨y, ys, hy, hys, rfl⟩
      exact ⟨y, hy, ys, ih.2 hys, rfl⟩

/-- The members of a type that is a union, each in the same file; any other type has none. -/
def TypeHandle.unionTypes (t : TypeHandle) : List TypeHandle :=
  match t.type with
  | .union types => types.map fun type => { file := t.file, type }
  | _ => []

namespace Program

/-! ### Looking through aliases -/

/-- **Looking through.** `p.LooksThrough t u`: following the aliases from `t` on leads to `u`, which
is the name of no alias. -/
inductive LooksThrough (p : Program) : TypeHandle → TypeHandle → Prop
  | stop {t : TypeHandle} (h : p.aliased? t = none) : LooksThrough p t t
  | step {t next u : TypeHandle} (h : p.aliased? t = some next) (hnext : LooksThrough p next u) :
      LooksThrough p t u

/-- **Short chain.** At most `k` aliases in a row. -/
def ChainWithin (p : Program) : (k : Nat) → TypeHandle → Prop
  | 0, t => p.aliased? t = none
  | k + 1, t => ∀ next ∈ p.aliased? t, p.ChainWithin k next

instance decidableChainWithin (p : Program) :
    ∀ (k : Nat) (t : TypeHandle), Decidable (p.ChainWithin k t)
  | 0, t => decidable_of_iff ((p.aliased? t).isNone = true) Option.isNone_iff_eq_none
  | k + 1, t =>
    have : DecidablePred (p.ChainWithin k) := decidableChainWithin p k
    inferInstanceAs (Decidable (∀ next ∈ p.aliased? t, p.ChainWithin k next))

/-- A union behind its aliases. -/
def IsUnion (p : Program) (t : TypeHandle) : Prop :=
  ∃ u, p.LooksThrough t u ∧ u.type.isUnion = true

/-- The literal `s` behind its aliases. -/
def IsLiteral (p : Program) (t : TypeHandle) (s : String) : Prop :=
  ∃ u, p.LooksThrough t u ∧ u.type = .string s

section

variable {p : Program} {t u v : TypeHandle} {k depth : Nat}

/-- There is one end of a chain of aliases. -/
theorem LooksThrough.unique (h : p.LooksThrough t u) (h' : p.LooksThrough t v) : u = v := by
  induction h with
  | stop hstop =>
    cases h' with
    | stop _ => rfl
    | step hstep _ =>
      rw [hstop] at hstep
      cases hstep
  | step hstep _ ih =>
    cases h' with
    | stop hstop =>
      rw [hstep] at hstop
      cases hstop
    | step hstep' hnext =>
      rw [hstep] at hstep'
      cases hstep'
      exact ih hnext

/-- The bounded walk along a short chain gets to its end. -/
theorem ChainWithin.looksThrough_unaliasFor (h : p.ChainWithin k t) :
    p.LooksThrough t (p.unaliasFor k t) := by
  induction k generalizing t with
  | zero => exact .stop h
  | succ k ih =>
    rw [unaliasFor]
    cases hnext : p.aliased? t with
    | none => exact .stop hnext
    | some next => exact .step hnext (ih (h next hnext))

theorem ChainWithin.looksThrough_iff (h : p.ChainWithin maxDepth t) :
    p.LooksThrough t u ↔ u = p.unalias t := by
  constructor
  · intro hu
    exact hu.unique h.looksThrough_unaliasFor
  · rintro rfl
    exact h.looksThrough_unaliasFor

/-- The end of a chain is the name of no alias. -/
theorem LooksThrough.aliased?_eq (h : p.LooksThrough t u) : p.aliased? u = none := by
  induction h with
  | stop hstop => exact hstop
  | step _ _ ih => exact ih

/-- There is nothing left to look through at the end of a short chain. -/
theorem ChainWithin.unalias_unalias (h : p.ChainWithin maxDepth t) :
    p.unalias (p.unalias t) = p.unalias t :=
  unaliasFor_of_aliased? h.looksThrough_unaliasFor.aliased?_eq maxDepth

theorem ChainWithin.isUnion_iff (h : p.ChainWithin maxDepth t) :
    p.IsUnion t ↔ (p.unalias t).type.isUnion = true := by
  simp only [IsUnion, h.looksThrough_iff, exists_eq_left]

theorem ChainWithin.isLiteral_iff (h : p.ChainWithin maxDepth t) (s : String) :
    p.IsLiteral t s ↔ p.stringLiteral? t = some s := by
  simp only [IsLiteral, h.looksThrough_iff, exists_eq_left, stringLiteral?]
  cases (p.unalias t).type with
  | string value => simp
  | _ => simp

/-! ### Leaves -/

/-- **Leaves by meaning.** A type that is no union behind its aliases is its own leaf; the leaves of
a union are those of its members, from left to right. -/
inductive Leaves (p : Program) : TypeHandle → List TypeHandle → Prop
  | single {t : TypeHandle} (h : ¬ p.IsUnion t) : Leaves p t [t]
  | union {t u : TypeHandle} {leaves : TypeHandle → List TypeHandle} (h : p.LooksThrough t u)
      (hu : u.type.isUnion = true) (hleaves : ∀ m ∈ u.unionTypes, Leaves p m (leaves m)) :
      Leaves p t (u.unionTypes.flatMap leaves)

/-- **Bounded nesting.** At most `depth` unions are inside each other, through aliases or directly,
and on the way to each of them and to each leaf the chain of aliases is short. -/
def NestedWithin (p : Program) : (depth : Nat) → TypeHandle → Prop
  | 0, t => p.ChainWithin maxDepth t ∧ ¬ p.IsUnion t
  | depth + 1, t =>
    p.ChainWithin maxDepth t ∧
      ∀ u, p.LooksThrough t u → ∀ m ∈ u.unionTypes, p.NestedWithin depth m

theorem NestedWithin.chainWithin (h : p.NestedWithin depth t) : p.ChainWithin maxDepth t := by
  cases depth with
  | zero => exact h.1
  | succ depth => exact h.1

theorem nestedWithin_zero_iff :
    p.NestedWithin 0 t ↔ p.ChainWithin maxDepth t ∧ (p.unalias t).type.isUnion = false := by
  rw [NestedWithin]
  apply and_congr_right
  intro h
  rw [h.isUnion_iff, Bool.not_eq_true]

theorem nestedWithin_succ_iff :
    p.NestedWithin (depth + 1) t ↔
      p.ChainWithin maxDepth t ∧ ∀ m ∈ (p.unalias t).unionTypes, p.NestedWithin depth m := by
  rw [NestedWithin]
  apply and_congr_right
  intro h
  simp only [h.looksThrough_iff, forall_eq]

instance decidableNestedWithin (p : Program) :
    ∀ (depth : Nat) (t : TypeHandle), Decidable (p.NestedWithin depth t)
  | 0, _ => decidable_of_iff _ nestedWithin_zero_iff.symm
  | depth + 1, _ =>
    have : DecidablePred (p.NestedWithin depth) := decidableNestedWithin p depth
    decidable_of_iff _ nestedWithin_succ_iff.symm

/-- A type has its leaves in one way only. -/
theorem Leaves.unique {ls : List TypeHandle} (h : p.Leaves t ls) :
    ∀ {ls' : List TypeHandle}, p.Leaves t ls' → ls = ls' := by
  induction h with
  | single hnot =>
    intro ls' h'
    cases h' with
    | single _ => rfl
    | union h' hu' _ => exact absurd ⟨_, h', hu'⟩ hnot
  | union hu hunion _ ih =>
    intro ls' h'
    cases h' with
    | single hnot' => exact absurd ⟨_, hu, hunion⟩ hnot'
    | union hu' _ hleaves' =>
      obtain rfl := hu.unique hu'
      exact List.flatMap_congr fun m hm => ih m hm (hleaves' m hm)

/-! ### Flattening -/

theorem unionLeaves_succ (p : Program) (depth : Nat) (t : TypeHandle) :
    p.unionLeaves (depth + 1) t =
      if (p.unalias t).type.isUnion then (p.unalias t).unionTypes.flatMap (p.unionLeaves depth)
      else [t] := by
  rw [unionLeaves]
  rcases p.unalias t with ⟨file, type⟩
  cases type with
  | union types => exact (List.flatMap_map ..).symm
  | _ => rfl

theorem unionParts?_eq_ite (p : Program) (t : TypeHandle) :
    p.unionParts? t =
      if (p.unalias t).type.isUnion then some (p.unionLeaves maxDepth (p.unalias t)) else none := by
  rw [unionParts?]
  rcases p.unalias t with ⟨file, type⟩
  cases type with
  | union types => rfl
  | _ => rfl

/-- **Flattening gives the leaves** as long as the depth is no less than the nesting. -/
theorem NestedWithin.leaves_unionLeaves (h : p.NestedWithin depth t) :
    p.Leaves t (p.unionLeaves depth t) := by
  induction depth generalizing t with
  | zero => exact .single h.2
  | succ depth ih =>
    obtain ⟨hchain, hmembers⟩ := nestedWithin_succ_iff.1 h
    rw [unionLeaves_succ]
    split
    · next hunion =>
      exact .union hchain.looksThrough_unaliasFor hunion fun m hm => ih (hmembers m hm)
    · next hunion => exact .single (mt hchain.isUnion_iff.1 hunion)

/-- The chain of aliases from each leaf is short. -/
theorem NestedWithin.chainWithin_of_mem (h : p.NestedWithin depth t) :
    ∀ l ∈ p.unionLeaves depth t, p.ChainWithin maxDepth l := by
  induction depth generalizing t with
  | zero =>
    intro l hl
    rw [unionLeaves, List.mem_singleton] at hl
    exact hl ▸ h.1
  | succ depth ih =>
    obtain ⟨hchain, hmembers⟩ := nestedWithin_succ_iff.1 h
    rw [unionLeaves_succ]
    split
    · intro l hl
      obtain ⟨m, hm, hlm⟩ := List.mem_flatMap.1 hl
      exact ih (hmembers m hm) l hlm
    · intro l hl
      exact List.mem_singleton.1 hl ▸ hchain

/-- **Parts of a union** are its leaves. -/
theorem NestedWithin.unionParts?_eq (h : p.NestedWithin maxDepth t) (hunion : p.IsUnion t) :
    p.unionParts? t = some (p.unionLeaves maxDepth t) := by
  have hchain := h.chainWithin
  have hu := hchain.isUnion_iff.1 hunion
  have hsame : p.unionLeaves maxDepth (p.unalias t) = p.unionLeaves maxDepth t := by
    show p.unionLeaves (31 + 1) (p.unalias t) = p.unionLeaves (31 + 1) t
    rw [unionLeaves_succ, unionLeaves_succ, hchain.unalias_unalias, if_pos hu, if_pos hu]
  rw [unionParts?_eq_ite, if_pos hu, hsame]

theorem NestedWithin.unionParts?_eq_none (h : p.NestedWithin depth t) (hunion : ¬ p.IsUnion t) :
    p.unionParts? t = none := by
  rw [unionParts?_eq_ite, if_neg (mt h.chainWithin.isUnion_iff.2 hunion)]

/-- The strings that the engine reads off the leaves are the literals behind their aliases. -/
theorem NestedWithin.mapM_stringLiteral?_iff (h : p.NestedWithin depth t) {literals : List String} :
    (p.unionLeaves depth t).mapM p.stringLiteral? = some literals ↔
      List.Forall₂ p.IsLiteral (p.unionLeaves depth t) literals := by
  rw [mapM_eq_some_iff_forall₂]
  have hchains := h.chainWithin_of_mem
  generalize p.unionLeaves depth t = leaves at hchains
  induction leaves generalizing literals with
  | nil => rw [List.forall₂_nil_left_iff, List.forall₂_nil_left_iff]
  | cons l leaves ih =>
    rw [List.forall₂_cons_left_iff, List.forall₂_cons_left_iff]
    obtain ⟨hl, hleaves⟩ := List.forall_mem_cons.1 hchains
    simp only [hl.isLiteral_iff, ih hleaves]

end

end Program

/-! ### Descriptions -/

namespace Engine

variable {σ τ δ : Type} (e : Engine σ τ δ) (t : τ)

theorem literalUnion?_eq_some_iff {values : List String} :
    e.literalUnion? t = some values ↔
      ∃ parts, e.unionParts? t = some parts ∧
        ∃ literals, parts.mapM e.stringLiteral? = some literals ∧ literals ≠ [] ∧
          values = literals.map quoteLiteral := by
  rw [literalUnion?]
  simp only [Option.bind_eq_bind, Option.bind_eq_some_iff]
  apply exists_congr
  intro parts
  apply and_congr_right
  intro _
  apply exists_congr
  intro literals
  apply and_congr_right
  intro _
  split
  · next h => simp [List.isEmpty_iff.1 h]
  · next h =>
    rw [List.isEmpty_iff] at h
    simp [h, eq_comm]

theorem describeType_eq_enumeration_iff (values : List String) :
    e.describeType true t = .enumeration (e.print t) values ↔ e.literalUnion? t = some values := by
  rw [describeType, if_pos rfl]
  cases e.literalUnion? t with
  | none => simp [TypeDoc.named, TypeDoc.enumeration]
  | some found => simp [TypeDoc.enumeration]

/-- A type that is not described by its values is described by its text. -/
theorem describeType_eq_named
    (h : ∀ values, e.describeType true t ≠ .enumeration (e.print t) values) :
    e.describeType true t = .named (e.print t) := by
  have hnone : e.literalUnion? t = none := by
    rw [Option.eq_none_iff_forall_ne_some]
    intro values hvalues
    exact h values ((e.describeType_eq_enumeration_iff t values).2 hvalues)
  rw [describeType, if_pos rfl, hnone]

end Engine

namespace Program

/-- **Enumerations.** Let the aliases and unions of a type stay within the bounds.  The type has its
leaves in one way; these are the parts of a type that is a union, and a type that is none has no
parts.  With enumerations asked for, the description is an enumeration exactly when the type is a union that
has leaves, each of them a string literal behind its aliases, and its values are these literals in
quotes, in order; otherwise it is the text of the type alone. -/
theorem enumeration_iff_literal_leaves (p : Program) (cwd : Path) (t : TypeHandle)
    (h : p.NestedWithin maxDepth t) :
    ∃ leaves, (∀ ls, p.Leaves t ls ↔ ls = leaves) ∧
      (p.IsUnion t → p.unionParts? t = some leaves) ∧
      (¬ p.IsUnion t → p.unionParts? t = none) ∧
      (∀ values, (p.engine cwd).describeType true t = .enumeration t.type.print values ↔
        p.IsUnion t ∧ leaves ≠ [] ∧
          ∃ literals, List.Forall₂ p.IsLiteral leaves literals ∧
            values = literals.map quoteLiteral) ∧
      ((∀ values, (p.engine cwd).describeType true t ≠ .enumeration t.type.print values) →
        (p.engine cwd).describeType true t = .named t.type.print) := by
  refine ⟨p.unionLeaves maxDepth t, ?_, h.unionParts?_eq, h.unionParts?_eq_none, ?_,
    (p.engine cwd).describeType_eq_named t⟩
  · intro ls
    constructor
    · intro hls
      exact hls.unique h.leaves_unionLeaves
    · rintro rfl
      exact h.leaves_unionLeaves
  · intro values
    have hdescribed := (p.engine cwd).describeType_eq_enumeration_iff t values
    refine hdescribed.trans ((Engine.literalUnion?_eq_some_iff _ t).trans ?_)
    show (∃ parts, p.unionParts? t = some parts ∧ _) ↔ _
    by_cases hunion : p.IsUnion t
    · rw [h.unionParts?_eq hunion]
      constructor
      · rintro ⟨parts, hparts, literals, hliterals, hne, hvalues⟩
        obtain rfl := Option.some.inj hparts
        have hrelated := h.mapM_stringLiteral?_iff.1 hliterals
        refine ⟨hunion, ?_, literals, hrelated, hvalues⟩
        intro hnil
        rw [hnil, List.forall₂_nil_left_iff] at hrelated
        exact hne hrelated
      · rintro ⟨-, hne, literals, hrelated, hvalues⟩
        refine ⟨_, rfl, literals, h.mapM_stringLiteral?_iff.2 hrelated, ?_, hvalues⟩
        rintro rfl
        exact hne (List.forall₂_nil_right_iff.1 hrelated)
    · rw [h.unionParts?_eq_none hunion]
      constructor
      · rintro ⟨parts, hparts, -⟩
        cases hparts
      · rintro ⟨hunion', -⟩
        exact absurd hunion' hunion

/-- **Palette.** A union of a union in another file, an alias and a union in parentheses.  The name
`Dark` stands for another type in either file, and one literal occurs twice. -/
def palette : Workspace where
  overlays := OrderedMap.empty
    |>.insert "/warm.ts" "type Dark = 'rust'; export type Warm = 'red' | Dark"
    |>.insert "/color.ts"
      ("import { Warm as W } from './warm'\ntype Dark = 'navy'\n" ++
        "export type Color = W | Dark | ('green' | 'red')")

/-- The type of a color. -/
def color : TypeHandle := { file := "/color.ts", type := .named "Color" }

/-- The five leaves of the type are literals, and its description has them in order. -/
theorem palette_enumeration :
    ∃ p, build palette {} ["/color.ts"] = .ok p ∧ p.NestedWithin maxDepth color ∧ p.IsUnion color ∧
      (p.engine "/").describeType true color =
        .enumeration "Color" ["\"red\"", "\"rust\"", "\"navy\"", "\"green\"", "\"red\""] := by
  have hrun : (build palette {} ["/color.ts"]).toOption.map
      (fun p => (decide (p.NestedWithin maxDepth color), (p.unalias color).type.isUnion,
        (p.unionLeaves maxDepth color).mapM p.stringLiteral?)) =
      some (true, true, some ["red", "rust", "navy", "green", "red"]) := by
    decide +kernel
  obtain ⟨p, hbuild, hseen⟩ := exists_ok_of_toOption_map hrun
  obtain ⟨hnested, hseen⟩ := Prod.mk.inj hseen
  obtain ⟨hunion, hliterals⟩ := Prod.mk.inj hseen
  have h : p.NestedWithin maxDepth color := of_decide_eq_true hnested
  have hunion' : p.IsUnion color := h.chainWithin.isUnion_iff.2 hunion
  obtain ⟨leaves, hleaves, -, -, henum, -⟩ := enumeration_iff_literal_leaves p "/" color h
  obtain rfl := (hleaves _).1 h.leaves_unionLeaves
  have hrelated := h.mapM_stringLiteral?_iff.1 hliterals
  have hne : p.unionLeaves maxDepth color ≠ [] := by
    intro hnil
    rw [hnil] at hrelated
    cases hrelated
  have hprint : color.type.print = "Color" := by
    simp [color, TypeExpr.named, TypeExpr.print, TypeExpr.printArgs]
  rw [hprint] at henum
  exact ⟨p, hbuild, h, hunion', (henum _).2 ⟨hunion', hne, _, hrelated, by decide +kernel⟩⟩

/-- The union of nothing. -/
def emptyUnion : TypeHandle := { file := "/empty.ts", type := .union [] }

/-- **A union of nothing** is a union whose leaves, of which there are none, are all string
literals.  It is described by its text, which is empty. -/
theorem empty_union_not_enumeration :
    NestedWithin {} maxDepth emptyUnion ∧ IsUnion {} emptyUnion ∧ Leaves {} emptyUnion [] ∧
      (∀ l ∈ ([] : List TypeHandle), ∃ s, IsLiteral {} l s) ∧
      (engine {} "/").describeType true emptyUnion = .named "" ∧
      ((engine {} "/").describeType true emptyUnion).isEnum = false := by
  have hstop : LooksThrough {} emptyUnion emptyUnion := .stop rfl
  have hleaves : Leaves {} emptyUnion (emptyUnion.unionTypes.flatMap fun _ => []) :=
    .union hstop rfl (by simp [emptyUnion, TypeHandle.unionTypes])
  have hprint : emptyUnion.type.print = "" := by
    simp [emptyUnion, TypeExpr.print, TypeExpr.printOperands]
  have hnamed : (engine {} "/").describeType true emptyUnion = .named emptyUnion.type.print := rfl
  rw [hprint] at hnamed
  exact ⟨by decide, ⟨_, hstop, rfl⟩, hleaves, by simp, hnamed, rfl⟩

end Program

/-! ### The text and the values -/

/-- **Escaped characters** of a printed string literal. -/
def isEscaped (c : Char) : Bool :=
  c == '"' || c == '\\' || c == '\n' || c == '\r' || c == '\t'

theorem length_quoteChar (c : Char) :
    (quoteChar c).length = 1 + if isEscaped c then 1 else 0 := by
  unfold quoteChar isEscaped
  grind

theorem quoteChar_of_not_isEscaped {c : Char} (h : isEscaped c = false) : quoteChar c = [c] := by
  unfold isEscaped at h
  unfold quoteChar
  grind

theorem toList_quoteString (s : String) :
    (quoteString s).toList = '"' :: (s.toList.flatMap quoteChar ++ ['"']) := by
  simp [quoteString]

theorem toList_quoteLiteral (s : String) :
    (quoteLiteral s).toList = '"' :: (s.toList ++ ['"']) := by
  simp [quoteLiteral]

/-- The printer writes one character more for each that it escapes. -/
theorem length_quoteString (s : String) :
    (quoteString s).toList.length = (quoteLiteral s).toList.length + s.toList.countP isEscaped := by
  have hchars : ∀ cs : List Char,
      (cs.flatMap quoteChar).length = cs.length + cs.countP isEscaped := by
    intro cs
    induction cs with
    | nil => rfl
    | cons c cs ih =>
      rw [List.flatMap_cons, List.length_append, ih, length_quoteChar, List.countP_cons,
        List.length_cons]
      omega
  simp only [toList_quoteString, toList_quoteLiteral, List.length_cons, List.length_append, hchars]
  omega

/-- Without escaped characters the printer and the description write a literal alike. -/
theorem quoteString_eq_quoteLiteral {s : String} (h : ∀ c ∈ s.toList, isEscaped c = false) :
    quoteString s = quoteLiteral s := by
  have hchars : s.toList.flatMap quoteChar = s.toList.flatMap fun c => [c] :=
    List.flatMap_congr fun c hc => quoteChar_of_not_isEscaped (h c hc)
  apply String.ext
  rw [toList_quoteString, toList_quoteLiteral, hchars, List.flatMap_singleton']

/-- With a separator between the literals, too, each escaped character makes the text longer. -/
theorem length_intercalate_quoteString (sep : List Char) (literals : List String) :
    (sep.intercalate (literals.map fun s => (quoteString s).toList)).length =
      (sep.intercalate (literals.map fun s => (quoteLiteral s).toList)).length +
        (literals.map fun s => s.toList.countP isEscaped).sum := by
  induction literals with
  | nil => rfl
  | cons s literals ih =>
    cases literals with
    | nil => simp [length_quoteString]
    | cons s' literals =>
      simp only [List.map_cons, List.intercalate_cons_cons, List.length_append, List.sum_cons,
        length_quoteString s] at ih ⊢
      omega

/-- The text of a union of string literals. -/
theorem print_literals (literals : List String) :
    (TypeExpr.union (literals.map .string)).print =
      " | ".intercalate (literals.map quoteString) := by
  have hoperand : ∀ s : String, (TypeExpr.string s).chars 1 = (quoteString s).toList := by
    intro s
    have hlevel : 1 ≤ (TypeExpr.string s).precedence := Nat.le_of_ble_eq_true rfl
    rw [TypeExpr.chars_of_le hlevel, TypeExpr.chars_string, toList_quoteString]
  apply String.ext
  have hoperands : literals.map (TypeExpr.chars 1 ∘ TypeExpr.string) =
      literals.map (String.toList ∘ quoteString) :=
    List.map_congr_left fun s _ => hoperand s
  rw [← TypeExpr.chars_zero, TypeExpr.chars_union, String.toList_intercalate, List.map_map,
    List.map_map, hoperands]
  rfl

namespace Program

/-- A union of string literals that is written as such is described by its values. -/
theorem describeType_literals (p : Program) (cwd file : Path) {literals : List String}
    (hne : literals ≠ []) :
    (p.engine cwd).describeType true { file, type := .union (literals.map .string) } =
      .enumeration (" | ".intercalate (literals.map quoteString)) (literals.map quoteLiteral) := by
  have hsame : p.unalias { file, type := .union (literals.map .string) } =
      { file, type := .union (literals.map .string) } := unaliasFor_of_aliased? rfl maxDepth
  have hleaf : ∀ s : String, p.unionLeaves 31 { file, type := .string s } =
      [{ file, type := .string s }] := fun s => rfl
  have hparts : p.unionParts? { file, type := .union (literals.map .string) } =
      some (literals.map fun s => { file, type := .string s }) := by
    rw [unionParts?_eq_ite, hsame]
    show some (p.unionLeaves (31 + 1) _) = _
    rw [unionLeaves_succ, hsame]
    show some (((literals.map TypeExpr.string).map (TypeHandle.mk file)).flatMap _) = _
    rw [List.map_map, List.flatMap_map, List.map_eq_flatMap]
    exact congrArg some (List.flatMap_congr fun s _ => hleaf s)
  have hliterals : (literals.map fun s => ({ file, type := .string s } : TypeHandle)).mapM
      p.stringLiteral? = some literals := by
    rw [mapM_eq_some_iff_forall₂, List.forall₂_map_left_iff, List.forall₂_same]
    exact fun s _ => rfl
  rw [← print_literals]
  apply ((p.engine cwd).describeType_eq_enumeration_iff _ _).2
  exact ((p.engine cwd).literalUnion?_eq_some_iff _).2 ⟨_, hparts, literals, hliterals, hne, rfl⟩

/-- **The text and the values** of an enumeration.  A union of string literals is described by its
text and its values.  The text is that of the values with bars between them exactly when no literal has a
character that the printer escapes: the values have every character as it is. -/
theorem raw_eq_joined_iff (p : Program) (cwd file : Path) (literals : List String)
    (hne : literals ≠ []) :
    ∃ raw values, (p.engine cwd).describeType true { file, type := .union (literals.map .string) } =
        .enumeration raw values ∧
      (raw = " | ".intercalate values ↔ ∀ s ∈ literals, ∀ c ∈ s.toList, isEscaped c = false) := by
  refine ⟨_, _, p.describeType_literals cwd file hne, ?_⟩
  constructor
  · intro heq
    -- the lengths of the two texts differ by the number of escaped characters
    have hlength := length_intercalate_quoteString " | ".toList literals
    have hjoined := congrArg (fun text => text.toList.length) heq
    simp only [String.toList_intercalate, List.map_map, Function.comp_def] at hjoined
    have hsum : (literals.map fun s => s.toList.countP isEscaped).sum = 0 := by omega
    intro s hs c hc
    have hzero := List.sum_eq_zero_iff_forall_eq_nat.1 hsum _ (List.mem_map_of_mem hs)
    exact Bool.eq_false_iff.2 (List.countP_eq_zero.1 hzero c hc)
  · intro hplain
    rw [List.map_congr_left fun s hs => quoteString_eq_quoteLiteral (hplain s hs)]

/-- A literal with quotes in it has them escaped in the text of the type, and not in its value. -/
theorem quoted_greeting_differs :
    ["say \"hi\"", "bye"] ≠ [] ∧
    ∃ raw values, (engine {} "/").describeType true
        { file := "/greeting.ts", type := .union [.string "say \"hi\"", .string "bye"] } =
          .enumeration raw values ∧ raw ≠ " | ".intercalate values := by
  refine ⟨by decide, ?_⟩
  obtain ⟨raw, values, hdescribed, hiff⟩ :=
    raw_eq_joined_iff {} "/" "/greeting.ts" ["say \"hi\"", "bye"] (by decide)
  refine ⟨raw, values, hdescribed, mt hiff.1 ?_⟩
  intro hplain
  exact absurd (hplain _ List.mem_cons_self '"' (by decide)) (by decide)

end Program

end PropDocs
