import PropDocs.Proofs.ContractProps

/-!
# Missing values in nested unions

A union whose operands are unions themselves is read as the union of its leaves.  The type of a member
loses its missing values, or gains the undefined value, by a look at the operands of its declared type
only, so that a missing value further down is not seen.

* `leaves`: the types a union comes to once the unions directly inside it are taken apart, and
  `operands`: those the union itself writes;
* `beneath`: the leaves under the operands that do not themselves have a property;
* `leaves_dropNullish`, `leaves_orUndefined`: what the two operations do to the leaves;
* `countP_leaves`: the leaves with a property are operands, or beneath the other operands;
* `nullish_leaves_of_member`: the missing values among the leaves of a member's type are the right ones
  exactly when none of them is beneath the operands of the declared type;
* `nested_nullish_kept`: a program with a member for either setting of the null checks.
-/

namespace PropDocs

namespace TypeExpr

/-! ### Leaves and operands -/

mutual

/-- **Leaves** of a type: the members of a union, with the unions directly inside it taken apart. -/
def leaves : TypeExpr → List TypeExpr
  | .union types => leavesOfAll types
  | t => [t]

/-- The leaves of several types, one after another. -/
def leavesOfAll : List TypeExpr → List TypeExpr
  | [] => []
  | t :: ts => leaves t ++ leavesOfAll ts

end

/-- **Operands** of a type: the members a union writes; any other type is its only operand. -/
def operands : TypeExpr → List TypeExpr
  | .union types => types
  | t => [t]

theorem leavesOfAll_eq_flatMap (types : List TypeExpr) : leavesOfAll types = types.flatMap leaves := by
  induction types with
  | nil => rfl
  | cons t ts ih => rw [leavesOfAll, ih, List.flatMap_cons]

@[simp] theorem leaves_union (types : List TypeExpr) :
    (union types).leaves = types.flatMap leaves := by
  rw [leaves, leavesOfAll_eq_flatMap]

/-- A type is a union, or its own operand, which has no missing values to drop. -/
theorem union_or_operand (t : TypeExpr) :
    (∃ types, t = .union types) ∨ t.operands = [t] ∧ t.dropNullish = t := by
  cases t with
  | union types => exact .inl ⟨types, rfl⟩
  | _ => exact .inr ⟨rfl, rfl⟩

/-- The leaves of a type are those of its operands. -/
theorem leaves_eq_flatMap_operands (t : TypeExpr) : t.leaves = t.operands.flatMap leaves := by
  rcases t.union_or_operand with ⟨types, rfl⟩ | ⟨hoperands, _⟩
  · exact leaves_union types
  · rw [hoperands, List.flatMap_cons, List.flatMap_nil, List.append_nil]

theorem isUndefined_iff {t : TypeExpr} : t.isUndefined = true ↔ t = undefined := by
  constructor
  · intro h
    rw [isUndefined.eq_def] at h
    split at h
    · rfl
    · cases h
  · rintro rfl
    rfl

/-- The undefined value is one of the missing values. -/
theorem isNullish_of_isUndefined {t : TypeExpr} (h : t.isUndefined = true) : t.isNullish = true := by
  rw [isUndefined_iff.1 h]
  rfl

/-- A missing value is a leaf. -/
theorem leaves_of_isNullish {t : TypeExpr} (h : t.isNullish = true) : t.leaves = [t] := by
  rw [isNullish.eq_def] at h
  split at h
  · rfl
  · rfl
  · cases h

/-! ### Leaves out of sight -/

/-- **Beneath** the operands: the leaves under those operands that do not themselves have a
property. -/
def beneath (property : TypeExpr → Bool) (t : TypeExpr) : List TypeExpr :=
  (t.operands.filter fun v => !property v).flatMap leaves

/-- **Leaves with a property** that only leaves have are operands, or beneath the others. -/
theorem countP_leaves {property : TypeExpr → Bool}
    (hleaf : ∀ v : TypeExpr, property v = true → v.leaves = [v]) (t : TypeExpr) :
    t.leaves.countP property = t.operands.countP property + (t.beneath property).countP property := by
  rw [leaves_eq_flatMap_operands, beneath]
  induction t.operands with
  | nil => rfl
  | cons v rest ih =>
    rw [List.flatMap_cons, List.countP_append, ih]
    by_cases hv : property v = true
    · rw [hleaf v hv, List.filter_cons_of_neg (by simp [hv]), List.countP_cons_of_pos hv,
        List.countP_cons_of_pos hv, List.countP_nil]
      omega
    · rw [List.filter_cons_of_pos (by simp [hv]), List.countP_cons_of_neg hv, List.flatMap_cons,
        List.countP_append]
      omega

/-! ### Dropping and adding missing values -/

/-- **Dropping missing values** leaves what is beneath the other operands, if there are any. -/
theorem leaves_dropNullish (t : TypeExpr) :
    t.dropNullish.leaves = if t.operands.all isNullish then t.leaves else t.beneath isNullish := by
  rcases t.union_or_operand with ⟨types, rfl⟩ | ⟨hoperands, hself⟩
  · have hall : types.all isNullish = (types.filter fun v => !v.isNullish).isEmpty := by
      rw [Bool.eq_iff_iff]
      simp
    show (dropNullish (union types)).leaves =
      if types.all isNullish then (union types).leaves
      else (types.filter fun v => !v.isNullish).flatMap leaves
    rw [hall, dropNullish]
    split
    · next h =>
      rw [h]
      rfl
    · next v h =>
      rw [h]
      simp
    · next hnil _ =>
      rw [if_neg (by simpa using hnil), leaves_union]
  · -- any other type stays, and is beneath itself unless it is a missing value
    rw [hself, beneath, hoperands]
    cases ht : t.isNullish <;> simp [ht]

/-- **Adding the undefined value** adds a leaf unless an operand is that value. -/
theorem leaves_orUndefined {t : TypeExpr} (hany : t ≠ any) (hunknown : t ≠ .keyword .unknown) :
    t.orUndefined.leaves =
      if t.operands.any isUndefined then t.leaves else t.leaves ++ [undefined] := by
  rw [orUndefined.eq_def]
  split
  · exact absurd rfl hany
  · exact absurd rfl hunknown
  · rfl
  · next types =>
    show _ = if types.any isUndefined then (union types).leaves
      else (union types).leaves ++ [undefined]
    split
    · rfl
    · rw [leaves_union, leaves_union, List.flatMap_append]
      rfl
  · next hundefined hunion =>
    rcases t.union_or_operand with ⟨types, rfl⟩ | ⟨hoperands, _⟩
    · exact absurd rfl (hunion types)
    · have hne : t.isUndefined = false := by
        rw [← Bool.not_eq_true, isUndefined_iff]
        exact hundefined
      rw [leaves_union, hoperands, List.any_cons, hne]
      show t.leaves ++ (undefined.leaves ++ []) = t.leaves ++ [undefined]
      rfl

/-- **Dropping missing values works** unless one is beneath an operand: a leaf that is missing then says
that all leaves are. -/
theorem dropNullish_iff (t : TypeExpr) :
    ((∃ u ∈ t.dropNullish.leaves, u.isNullish = true) → ∀ u ∈ t.leaves, u.isNullish = true) ↔
      ¬((∃ u ∈ t.beneath isNullish, u.isNullish = true) ∧ ∃ u ∈ t.leaves, u.isNullish = false) := by
  rw [leaves_dropNullish]
  by_cases hall : t.operands.all isNullish = true
  · -- nothing is dropped, and every leaf is an operand
    have hleaves : ∀ u ∈ t.leaves, u.isNullish = true := by
      intro u hu
      rw [leaves_eq_flatMap_operands] at hu
      obtain ⟨v, hv, huv⟩ := List.mem_flatMap.1 hu
      have hnullish := List.all_eq_true.1 hall v hv
      rw [leaves_of_isNullish hnullish, List.mem_singleton] at huv
      rw [huv]
      exact hnullish
    constructor
    · rintro - ⟨-, u, hu, hnot⟩
      rw [hleaves u hu] at hnot
      cases hnot
    · intro _ _
      exact hleaves
  · rw [if_neg hall]
    constructor
    · rintro hclaim ⟨hbeneath, u, hu, hnot⟩
      rw [hclaim hbeneath u hu] at hnot
      cases hnot
    · intro hnot hbeneath u hu
      cases h : u.isNullish with
      | true => rfl
      | false => exact absurd ⟨hbeneath, u, hu, h⟩ hnot

/-- **The undefined value is a leaf** once it is added. -/
theorem undefined_mem_leaves_orUndefined {t : TypeExpr} (hany : t ≠ any)
    (hunknown : t ≠ .keyword .unknown) : undefined ∈ t.orUndefined.leaves := by
  rw [leaves_orUndefined hany hunknown]
  split
  · next h =>
    obtain ⟨v, hv, hundefined⟩ := List.any_eq_true.1 h
    rw [isUndefined_iff.1 hundefined] at hv
    rw [leaves_eq_flatMap_operands]
    exact List.mem_flatMap.2 ⟨undefined, hv, List.mem_singleton_self _⟩
  · exact List.mem_append_right _ (List.mem_singleton_self _)

/-- **Adding the undefined value works** unless that value is beneath an operand: a type with at most
one such leaf has exactly one afterwards. -/
theorem orUndefined_iff {t : TypeExpr} (hany : t ≠ any) (hunknown : t ≠ .keyword .unknown)
    (hone : t.leaves.countP isUndefined ≤ 1) :
    t.orUndefined.leaves.countP isUndefined = 1 ↔ undefined ∉ t.beneath isUndefined := by
  have hcount := t.countP_leaves fun v hv => leaves_of_isNullish (isNullish_of_isUndefined hv)
  have hoperands : t.operands.any isUndefined = true ↔ 0 < t.operands.countP isUndefined := by
    rw [List.countP_pos_iff, List.any_eq_true]
  have hbeneath : undefined ∈ t.beneath isUndefined ↔
      0 < (t.beneath isUndefined).countP isUndefined := by
    rw [List.countP_pos_iff]
    constructor
    · intro h
      exact ⟨undefined, h, rfl⟩
    · rintro ⟨u, hu, hundefined⟩
      rw [← isUndefined_iff.1 hundefined]
      exact hu
  rw [leaves_orUndefined hany hunknown, hbeneath]
  split
  · next h =>
    rw [hoperands] at h
    omega
  · next h =>
    rw [hoperands] at h
    rw [List.countP_append, show [undefined].countP isUndefined = 1 from rfl]
    omega

end TypeExpr

namespace Program

/-- **Declared type of a member**, before missing values are dropped from it or added to it. -/
def writtenType (p : Program) (m : ScopedMember) : TypeExpr :=
  m.member.declaredType p.options.nullChecks

/-- **Missing values among the leaves of a member's type.** Without null checks, a leaf is missing only
where every leaf of the declared type is, unless the declared type has both a missing value beneath its
operands and a leaf that is not missing.  With null checks, the type of an optional member has the
undefined value, and has it once, where the declared type has it at most once and not beneath its
operands; beneath its operands it is not seen. -/
theorem nullish_leaves_of_member (p : Program) (m : ScopedMember) :
    (p.options.nullChecks = false →
      (((∃ u ∈ (p.typeOfMember m).type.leaves, u.isNullish = true) →
          ∀ u ∈ (p.writtenType m).leaves, u.isNullish = true) ↔
        ¬((∃ u ∈ (p.writtenType m).beneath TypeExpr.isNullish, u.isNullish = true) ∧
          ∃ u ∈ (p.writtenType m).leaves, u.isNullish = false))) ∧
    (p.options.nullChecks = true → m.member.optional = true →
      p.writtenType m ≠ .any → p.writtenType m ≠ .keyword .unknown →
      .undefined ∈ (p.typeOfMember m).type.leaves ∧
      ((p.writtenType m).leaves.countP TypeExpr.isUndefined ≤ 1 →
        ((p.typeOfMember m).type.leaves.countP TypeExpr.isUndefined = 1 ↔
          .undefined ∉ (p.writtenType m).beneath TypeExpr.isUndefined))) := by
  rw [writtenType, typeOfMember, Member.readType]
  constructor
  · intro hchecks
    rw [hchecks]
    exact TypeExpr.dropNullish_iff _
  · intro hchecks hoptional
    rw [hchecks, if_pos rfl, if_pos hoptional]
    intro hany hunknown
    exact ⟨TypeExpr.undefined_mem_leaves_orUndefined hany hunknown,
      TypeExpr.orUndefined_iff hany hunknown⟩

/-- **Fields.** Each has a missing value in a union inside its union. -/
def fields : Workspace where
  overlays := OrderedMap.empty.insert "/fields.ts" <|
    "export interface Field { value: (string | null) | number; hint?: (string | undefined) | number }"

/-- The symbol that the file exports. -/
def field : ProgramSymbol :=
  .exported "/fields.ts" "Field" (some { file := "/fields.ts", name := "Field" })

/-- **Missing values that are not seen.** Without null checks the missing value of the one field is kept;
with them the other field has the undefined value twice. -/
theorem nested_nullish_kept :
    (∃ p, build fields {} ["/fields.ts"] = .ok p ∧ ∃ m ∈ p.properties (p.declaredType field),
      m.name = "value" ∧ (∃ u ∈ (p.typeOfMember m).type.leaves, u.isNullish = true) ∧
        ¬∀ u ∈ (p.writtenType m).leaves, u.isNullish = true) ∧
    (∃ p, build fields { strict := true } ["/fields.ts"] = .ok p ∧
      ∃ m ∈ p.properties (p.declaredType field),
        m.name = "hint" ∧ .undefined ∈ (p.typeOfMember m).type.leaves ∧
          (p.writtenType m).leaves.countP TypeExpr.isUndefined = 1 ∧
          (p.typeOfMember m).type.leaves.countP TypeExpr.isUndefined ≠ 1) := by
  constructor
  · have hrun : (build fields {} ["/fields.ts"]).toOption.map (fun p => (p.options.nullChecks,
        (p.properties (p.declaredType field)).any fun m => m.name == "value" &&
          ((p.writtenType m).beneath TypeExpr.isNullish).any TypeExpr.isNullish &&
          (p.writtenType m).leaves.any fun u => !u.isNullish)) = some (false, true) := by
      decide +kernel
    obtain ⟨p, hbuild, hseen⟩ := exists_ok_of_toOption_map hrun
    obtain ⟨hchecks, hany⟩ := Prod.mk.inj hseen
    obtain ⟨m, hm, htests⟩ := List.any_eq_true.1 hany
    simp only [Bool.and_eq_true, beq_iff_eq, List.any_eq_true, Bool.not_eq_true'] at htests
    obtain ⟨⟨hname, hbeneath⟩, hother⟩ := htests
    have hiff := (nullish_leaves_of_member p m).1 hchecks
    have hfails := mt hiff.1 (not_not_intro ⟨hbeneath, hother⟩)
    exact ⟨p, hbuild, m, hm, hname, Classical.not_imp.1 hfails⟩
  · have hrun : (build fields { strict := true } ["/fields.ts"]).toOption.map
        (fun p => (p.options.nullChecks,
          (p.properties (p.declaredType field)).any fun m => m.name == "hint" && m.member.optional &&
            ((p.writtenType m).beneath TypeExpr.isUndefined).any TypeExpr.isUndefined &&
            (p.writtenType m).leaves.countP TypeExpr.isUndefined == 1)) = some (true, true) := by
      decide +kernel
    obtain ⟨p, hbuild, hseen⟩ := exists_ok_of_toOption_map hrun
    obtain ⟨hchecks, hany⟩ := Prod.mk.inj hseen
    obtain ⟨m, hm, htests⟩ := List.any_eq_true.1 hany
    simp only [Bool.and_eq_true, beq_iff_eq] at htests
    obtain ⟨⟨⟨hname, hoptional⟩, hbeneath⟩, hone⟩ := htests
    have hnotAny : p.writtenType m ≠ .any := by
      intro h
      rw [h] at hbeneath
      cases hbeneath
    have hnotUnknown : p.writtenType m ≠ .keyword .unknown := by
      intro h
      rw [h] at hbeneath
      cases hbeneath
    obtain ⟨u, hu, hundefined⟩ := List.any_eq_true.1 hbeneath
    rw [TypeExpr.isUndefined_iff.1 hundefined] at hu
    obtain ⟨hmem, hiff⟩ :=
      (nullish_leaves_of_member p m).2 hchecks hoptional hnotAny hnotUnknown
    exact ⟨p, hbuild, m, hm, hname, hmem, hone, mt (hiff hone.le).1 (not_not_intro hu)⟩

end Program

end PropDocs
