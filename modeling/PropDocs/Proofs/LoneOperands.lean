import PropDocs.Proofs.PrintedPlaces

/-!
# Lone operands

A union or an intersection of a single type is printed as that type.  It counts as something that never
needs parentheses, and puts its operand in parentheses only where an operand of a join needs them.  So
where the place around it asks for more than a join does, parentheses can be lost.

* `TakenApart`: the types that are not printed as types of their own where they stand;
* `exists_position`: every type inside a type has a position, unless it is taken apart;
* `Join.chars_lone`: how a lone operand is printed;
* `Position.Loses`: a type binds looser than its position asks for, but not looser than a join does;
* `KeepsParentheses`: a text is the same as before, or has one more pair of parentheses around a type;
* `parentheses_kept_iff`: putting a lone operand in place of a type keeps the parentheses, unless the
  position loses those of this type;
* `list_loses_parentheses`: a list of strings and numbers, and one of functions.
-/

namespace PropDocs

open TypeExpr

/-! ### Every type inside a type has a position -/

/-- **Taken apart.** The type `u` stands directly inside `t`, but is not printed as a type of its own:
an optional or rest element gives its mark to the label, and a method has its function's signature. -/
inductive TakenApart (u : TypeExpr) : TypeExpr → Prop
  | element {elements : List TupleElement} {label : String} (h : ⟨some label, u⟩ ∈ elements)
      (hu : u.isMarked = true) : TakenApart u (.tuple elements)
  | method {members : List Member} {m : Member} (h : m ∈ members) (hkind : m.kind = .method)
      (htype : m.type = some u) (hu : u.isFunction = true) : TakenApart u (.object members)

namespace Place

theorem eq_of_isMarked {place : Place} {t : TypeExpr} (h : (place.fill t).isMarked = true) :
    place = .optional ∨ place = .rest := by
  cases place with
  | optional => exact .inl rfl
  | rest => exact .inr rfl
  | operand join => cases join <;> cases h
  | _ => cases h

theorem eq_of_isFunction {place : Place} {t : TypeExpr} (h : (place.fill t).isFunction = true) :
    ∃ slot isConstructor, place = .signature slot isConstructor := by
  cases place with
  | signature slot isConstructor => exact ⟨slot, isConstructor, rfl⟩
  | operand join => cases join <;> cases h
  | _ => cases h

end Place

theorem SignatureSlot.exists_of_mem_types {s : Signature} {u : TypeExpr} (h : u ∈ s.types) :
    ∃ slot : SignatureSlot, slot.fill u = s := by
  obtain ⟨typeParams, params, returns⟩ := s
  simp only [Signature.types, List.mem_append, List.mem_flatMap, List.mem_singleton] at h
  rcases h with (⟨p, hp, hu⟩ | ⟨p, hp, hu⟩) | rfl
  · obtain ⟨before, after, rfl⟩ := List.append_of_mem hp
    obtain ⟨name, constraint, bound⟩ := p
    simp only [TypeParam.types, List.mem_append, Option.mem_toList] at hu
    rcases hu with rfl | rfl
    · exact ⟨.constraint before ⟨name, none, bound⟩ after params returns, rfl⟩
    · exact ⟨.default before ⟨name, constraint, none⟩ after params returns, rfl⟩
  · obtain ⟨before, after, rfl⟩ := List.append_of_mem hp
    obtain ⟨name, isOptional, isRest, type⟩ := p
    obtain rfl : type = some u := Option.mem_toList.1 hu
    exact ⟨.param typeParams before ⟨name, isOptional, isRest, none⟩ after returns, rfl⟩
  · exact ⟨.result typeParams params, rfl⟩

theorem MappedSlot.exists_of_mem_types {m : MappedType} {u : TypeExpr} (h : u ∈ m.types) :
    ∃ slot : MappedSlot, slot.fill u = m := by
  obtain ⟨isReadonly, param, constraint, nameType, isOptional, type⟩ := m
  simp only [MappedType.types, List.mem_append, Option.mem_toList] at h
  rcases h with (rfl | rfl) | rfl
  · exact ⟨.constraint ⟨isReadonly, param, none, nameType, isOptional, type⟩, rfl⟩
  · exact ⟨.nameType ⟨isReadonly, param, constraint, none, isOptional, type⟩, rfl⟩
  · exact ⟨.type ⟨isReadonly, param, constraint, nameType, isOptional, none⟩, rfl⟩

/-- A type in a member has a place there, unless it is the function type of a method. -/
theorem MemberSlot.exists_of_mem_types {m : Member} {u : TypeExpr} (h : u ∈ m.types) :
    (∃ slot : MemberSlot, slot.fill u = m ∧
      ∀ m', slot = .type m' → m'.kind = .method → u.isFunction = false) ∨
    m.kind = .method ∧ m.type = some u ∧ u.isFunction = true := by
  obtain ⟨name, kind, isOptional, isReadonly, type, initializer, doc⟩ := m
  simp only [Member.types, List.mem_append, Option.mem_toList, List.mem_flatMap] at h
  rcases h with rfl | ⟨i, rfl, hu⟩
  · by_cases hmethod : kind = .method ∧ u.isFunction = true
    · exact .inr ⟨hmethod.1, rfl, hmethod.2⟩
    · refine .inl ⟨.type ⟨name, kind, isOptional, isReadonly, none, initializer, doc⟩, rfl, ?_⟩
      rintro _ ⟨⟩ hkind
      simpa [show kind = .method from hkind] using hmethod
  · cases i with
    | typed t =>
      obtain rfl := List.mem_singleton.1 hu
      exact .inl ⟨.initializer ⟨name, kind, isOptional, isReadonly, type, none, doc⟩, rfl, by simp⟩
    | _ => cases hu

/-- A type directly inside a type has a place there, unless it is taken apart. -/
theorem exists_place {u t : TypeExpr} (h : u ∈ t.parts) :
    (∃ place : Place, place.Admits u ∧ place.fill u = t) ∨ TakenApart u t := by
  cases t with
  | template ps =>
    obtain ⟨p, hp, hu⟩ := List.mem_flatMap.1 h
    obtain ⟨before, after, rfl⟩ := List.append_of_mem hp
    cases p with
    | text => cases hu
    | type s =>
      obtain rfl := List.mem_singleton.1 hu
      exact .inl ⟨.hole before after, trivial, rfl⟩
  | reference name args =>
    obtain ⟨before, after, rfl⟩ := List.append_of_mem (show u ∈ args from h)
    exact .inl ⟨.arg name before after, trivial, rfl⟩
  | imported argument qualifier args =>
    obtain ⟨before, after, rfl⟩ := List.append_of_mem (show u ∈ args from h)
    exact .inl ⟨.importArg argument qualifier before after, trivial, rfl⟩
  | array s =>
    obtain rfl := List.mem_singleton.1 h
    exact .inl ⟨.array, trivial, rfl⟩
  | optional s =>
    obtain rfl := List.mem_singleton.1 h
    exact .inl ⟨.optional, trivial, rfl⟩
  | rest s =>
    obtain rfl := List.mem_singleton.1 h
    exact .inl ⟨.rest, trivial, rfl⟩
  | operator op s =>
    obtain rfl := List.mem_singleton.1 h
    exact .inl ⟨.operator op, trivial, rfl⟩
  | tuple elements =>
    obtain ⟨⟨label, s⟩, he, rfl⟩ := List.mem_map.1 h
    by_cases hmark : label.isSome = true ∧ s.isMarked = true
    · obtain ⟨l, rfl⟩ := Option.isSome_iff_exists.1 hmark.1
      exact .inr (.element he hmark.2)
    · obtain ⟨before, after, rfl⟩ := List.append_of_mem he
      refine .inl ⟨.element before (.type label) after, ?_, rfl⟩
      cases label with
      | none => trivial
      | some l => simpa [Place.Admits] using hmark
  | union types =>
    obtain ⟨before, after, rfl⟩ := List.append_of_mem (show u ∈ types from h)
    exact .inl ⟨.operand .union before after, trivial, rfl⟩
  | intersection types =>
    obtain ⟨before, after, rfl⟩ := List.append_of_mem (show u ∈ types from h)
    exact .inl ⟨.operand .intersection before after, trivial, rfl⟩
  | function s isConstructor =>
    obtain ⟨slot, rfl⟩ := SignatureSlot.exists_of_mem_types (show u ∈ s.types from h)
    exact .inl ⟨.signature slot isConstructor, trivial, rfl⟩
  | object members =>
    obtain ⟨m, hm, hu⟩ := List.mem_flatMap.1 h
    rcases MemberSlot.exists_of_mem_types hu with ⟨slot, rfl, hfunction⟩ | ⟨hkind, htype, hfunction⟩
    · obtain ⟨before, after, rfl⟩ := List.append_of_mem hm
      refine .inl ⟨.member before slot after, ?_, rfl⟩
      cases slot with
      | type m' => exact hfunction m' rfl
      | _ => trivial
    · exact .inr (.method hm hkind htype hfunction)
  | indexed o i =>
    simp only [parts, List.mem_cons, List.not_mem_nil, or_false] at h
    rcases h with rfl | rfl
    · exact .inl ⟨.base i, trivial, rfl⟩
    · exact .inl ⟨.index o, trivial, rfl⟩
  | conditional c b y n =>
    simp only [parts, List.mem_cons, List.not_mem_nil, or_false] at h
    rcases h with rfl | rfl | rfl | rfl
    · exact .inl ⟨.check b y n, trivial, rfl⟩
    · exact .inl ⟨.bound c y n, trivial, rfl⟩
    · exact .inl ⟨.yes c b n, trivial, rfl⟩
    · exact .inl ⟨.no c b y, trivial, rfl⟩
  | mapped m =>
    obtain ⟨slot, rfl⟩ := MappedSlot.exists_of_mem_types (show u ∈ m.types from h)
    exact .inl ⟨.mapped slot, trivial, rfl⟩
  | predicate asserts param type =>
    obtain rfl := Option.mem_def.1 (Option.mem_toList.1 h)
    exact .inl ⟨.predicate asserts param, trivial, rfl⟩
  | _ => cases h

/-- A type inside a type that is taken apart has a place in what it is taken apart from. -/
theorem TakenApart.exists_place {place : Place} {u t : TypeExpr} (h : TakenApart (place.fill u) t) :
    ∃ place' : Place, place'.Admits u ∧ place'.fill u = t := by
  cases h with
  | @element elements label he hmark =>
    obtain ⟨before, after, rfl⟩ := List.append_of_mem he
    rcases Place.eq_of_isMarked hmark with rfl | rfl
    · exact ⟨.element before (.optional label) after, trivial, rfl⟩
    · exact ⟨.element before (.rest label) after, trivial, rfl⟩
  | @method members m hm hkind htype hfunction =>
    obtain ⟨before, after, rfl⟩ := List.append_of_mem hm
    obtain ⟨slot, isConstructor, rfl⟩ := Place.eq_of_isFunction hfunction
    obtain ⟨name, kind, isOptional, isReadonly, type, initializer, doc⟩ := m
    obtain rfl : kind = .method := hkind
    obtain rfl : type = some (.function (slot.fill u) isConstructor) := htype
    exact ⟨.member before (.method ⟨name, .method, isOptional, isReadonly, none, initializer, doc⟩ slot
      isConstructor) after, trivial, rfl⟩

/-- **Positions are complete.** A type inside a type has a position there, unless it is taken apart
where it stands. -/
theorem exists_position {u t : TypeExpr} (h : u.Occurs t) :
    (∃ position : Position, position.Admits u ∧ position.fill u = t) ∨
      ∃ s : TypeExpr, s.Occurs t ∧ TakenApart u s := by
  induction h with
  | refl => exact .inl ⟨[], trivial, rfl⟩
  | @tail s t hus hst ih =>
    rcases ih with ⟨position, hadmits, rfl⟩ | ⟨s', hs', hapart⟩
    · rcases exists_place hst with ⟨place, hplace, rfl⟩ | hapart
      · exact .inl ⟨place :: position, ⟨hplace, hadmits⟩, rfl⟩
      · cases position with
        | nil => exact .inr ⟨t, .refl t, hapart⟩
        | cons place rest =>
          obtain ⟨place', hplace', rfl⟩ := TakenApart.exists_place hapart
          exact .inl ⟨place' :: rest, ⟨hplace', hadmits.2⟩, rfl⟩
    · exact .inr ⟨s', hs'.trans (.of_mem_parts hst), hapart⟩

/-! ### Lone operands in their places -/

namespace Place

/-- A place is filled with types of one form, whatever stands in their own places. -/
theorem isMarked_fill (place : Place) (t u : TypeExpr) :
    (place.fill t).isMarked = (place.fill u).isMarked := by
  cases place with
  | operand join => cases join <;> rfl
  | _ => rfl

theorem isFunction_fill (place : Place) (t u : TypeExpr) :
    (place.fill t).isFunction = (place.fill u).isFunction := by
  cases place with
  | operand join => cases join <;> rfl
  | _ => rfl

/-- Whether a type stands on its own depends on its form only. -/
theorem Admits.congr {place : Place} {t u : TypeExpr} (h : place.Admits t)
    (hmarked : u.isMarked = true → t.isMarked = true)
    (hfunction : u.isFunction = true → t.isFunction = true) : place.Admits u := by
  have hmarked' : t.isMarked = false → u.isMarked = false := by
    simpa using mt hmarked
  have hfunction' : t.isFunction = false → u.isFunction = false := by
    simpa using mt hfunction
  cases place with
  | element before slot after =>
    rcases slot with (_ | label) | _ | _
    · trivial
    · exact hmarked' h
    · trivial
    · trivial
  | member before slot after =>
    cases slot with
    | type m => exact fun hmethod => hfunction' (h hmethod)
    | _ => trivial
  | _ => trivial

theorem level_le {place : Place} {k : Nat} (h : place.level = some k) : k ≤ 4 := by
  cases place with
  | operand join =>
    obtain rfl := Option.some.inj h
    cases join <;> decide
  | member before slot after =>
    cases slot with
    | initializer => cases h
    | _ =>
      obtain rfl := Option.some.inj h
      decide
  | _ =>
    obtain rfl := Option.some.inj h
    decide

end Place

namespace Join

theorem precedence_lone (w : Join) (t : TypeExpr) : (w.lone t).precedence = 5 := by
  cases w <;> rfl

theorem isMarked_lone (w : Join) (t : TypeExpr) : (w.lone t).isMarked = false := by
  cases w <;> rfl

theorem isFunction_lone (w : Join) (t : TypeExpr) : (w.lone t).isFunction = false := by
  cases w <;> rfl

/-- A lone operand is printed like an operand of a join, and never in parentheses of its own. -/
theorem chars_lone (w : Join) (t : TypeExpr) {k : Nat} (hk : k ≤ 5) :
    (w.lone t).chars k = t.chars w.level := by
  rw [chars_of_le (by rw [precedence_lone]; exact hk), lone, chars_type]
  simp

end Join

namespace Position

/-- Where a type stands on its own, so does a lone operand. -/
theorem Admits.lone {position : Position} {t : TypeExpr} (h : position.Admits t) (w : Join) :
    position.Admits (w.lone t) := by
  induction position with
  | nil => trivial
  | cons place rest ih =>
    refine ⟨?_, ih h.2⟩
    cases rest with
    | nil => exact h.1.congr (by simp [fill, w.isMarked_lone]) (by simp [fill, w.isFunction_lone])
    | cons next rest =>
      refine h.1.congr ?_ ?_
      · rw [fill, fill, next.isMarked_fill]
        exact id
      · rw [fill, fill, next.isFunction_fill]
        exact id

theorem level_le {position : Position} {k : Nat} (h : position.level = some k) : k ≤ 4 := by
  induction position with
  | nil =>
    obtain rfl := Option.some.inj h
    exact Nat.zero_le 4
  | cons place rest ih =>
    cases rest with
    | nil => exact Place.level_le h
    | cons next rest =>
      rw [level, Option.bind_eq_some_iff] at h
      obtain ⟨_, _, h⟩ := h
      exact ih h

/-- **Lost parentheses.** A type binds looser than its position asks for, but not looser than a join asks
its operands for. -/
def Loses (position : Position) (w : Join) (t : TypeExpr) : Prop :=
  ∃ k ∈ position.level, w.level ≤ t.precedence ∧ t.precedence < k

end Position

/-- **Kept parentheses.** Of two texts the second is the same as the first, or has one more pair of
parentheses: around `inner`, between `front` and `back`. -/
def KeepsParentheses (front inner back text text' : String) : Prop :=
  text' = text ∨ text = front ++ inner ++ back ∧ text' = front ++ "(" ++ inner ++ ")" ++ back

theorem enclosed_ne (front inner back : String) :
    front ++ "(" ++ inner ++ ")" ++ back ≠ front ++ inner ++ back := by
  intro h
  have hlength := congrArg String.length h
  have hclose : ")".length = 1 := rfl
  simp only [String.length_append] at hlength
  omega

/-- **Two levels.** In a place that asks for level `k` a type has one more pair of parentheses than in one
that asks for level `j`, or as many, or it needs those that the second one leaves out. -/
theorem keepsParentheses_iff (front back : String) (t : TypeExpr) (j k : Nat) :
    (KeepsParentheses front t.print back (front ++ t.parenthesize k t.print ++ back)
        (front ++ t.parenthesize j t.print ++ back) ↔ ¬ (j ≤ t.precedence ∧ t.precedence < k)) ∧
      (j ≤ t.precedence ∧ t.precedence < k →
        front ++ t.parenthesize k t.print ++ back = front ++ "(" ++ t.print ++ ")" ++ back ∧
          front ++ t.parenthesize j t.print ++ back = front ++ t.print ++ back) := by
  have hin : ∀ i, t.precedence < i →
      front ++ t.parenthesize i t.print ++ back = front ++ "(" ++ t.print ++ ")" ++ back := by
    intro i hi
    rw [parenthesize, if_pos hi]
    simp only [String.append_assoc]
  have hout : ∀ i, ¬ t.precedence < i →
      front ++ t.parenthesize i t.print ++ back = front ++ t.print ++ back := by
    intro i hi
    rw [parenthesize, if_neg hi]
  by_cases hk : t.precedence < k
  · by_cases hj : t.precedence < j
    · have hkept : ¬ (j ≤ t.precedence ∧ t.precedence < k) := by omega
      rw [hin k hk, hin j hj]
      exact ⟨iff_of_true (.inl rfl) hkept, fun h => absurd h hkept⟩
    · have hlost : j ≤ t.precedence ∧ t.precedence < k := by omega
      rw [hin k hk, hout j hj]
      refine ⟨iff_of_false ?_ (not_not_intro hlost), fun _ => ⟨rfl, rfl⟩⟩
      rintro (h | ⟨h, _⟩)
      · exact enclosed_ne front t.print back h.symm
      · exact enclosed_ne front t.print back h
  · have hkept : ¬ (j ≤ t.precedence ∧ t.precedence < k) := by omega
    rw [hout k hk]
    refine ⟨iff_of_true ?_ hkept, fun h => absurd h hkept⟩
    by_cases hj : t.precedence < j
    · exact .inr ⟨rfl, hin j hj⟩
    · exact .inl (hout j hj)

/-- **Lone operands in their places.** A type inside a type has a position there, unless it is taken apart
where it stands.  The texts in front of such a position and behind it are the same for all types in it.
When a type there gives way to a lone operand of it, the text stays as it is or gets one more pair of
parentheses around that type, unless the parentheses around it are lost. -/
theorem parentheses_kept_iff {u t : TypeExpr} (h : u.Occurs t) :
    ((∃ position : Position, position.Admits u ∧ position.fill u = t) ∨
      ∃ s : TypeExpr, s.Occurs t ∧ TakenApart u s) ∧
    ∀ position : Position, position.fill u = t →
      ∃ front back : String, ∀ (w : Join) (v : TypeExpr), position.Admits v →
        (KeepsParentheses front v.print back (position.fill v).print
            (position.fill (w.lone v)).print ↔ ¬ position.Loses w v) ∧
          (position.Loses w v →
            (position.fill v).print = front ++ "(" ++ v.print ++ ")" ++ back ∧
              (position.fill (w.lone v)).print = front ++ v.print ++ back) := by
  refine ⟨exists_position h, ?_⟩
  intro position _
  obtain ⟨front, back, hshown, hhidden⟩ := position.exists_print_fill
  refine ⟨front, back, ?_⟩
  intro w v hv
  cases hlevel : position.level with
  | none =>
    have hkept : ¬ position.Loses w v := by
      rintro ⟨k, hk, _⟩
      rw [hlevel] at hk
      cases hk
    have hsame : (position.fill (w.lone v)).print = (position.fill v).print := by
      rw [hhidden hlevel v hv, hhidden hlevel _ (hv.lone w)]
    exact ⟨iff_of_true (.inl hsame) hkept, fun h => absurd h hkept⟩
  | some k =>
    have hloses : position.Loses w v ↔ w.level ≤ v.precedence ∧ v.precedence < k := by
      simp [Position.Loses, hlevel]
    have hlone : (w.lone v).parenthesize k (w.lone v).print = v.parenthesize w.level v.print := by
      rw [← String.toList_inj]
      exact w.chars_lone v (Nat.le_succ_of_le (Position.level_le hlevel))
    rw [hloses, hshown k hlevel v hv, hshown k hlevel _ (hv.lone w), hlone]
    exact keepsParentheses_iff front back v w.level k

/-- A string or a number. -/
def stringOrNumber : TypeExpr :=
  .union [.keyword .string, .keyword .number]

/-- A function that is called for its effect. -/
def callback : TypeExpr :=
  .function ⟨[], [], .keyword .void⟩ false

/-- **Lists.** A list of strings and numbers loses the parentheses around its items, so that it reads as a
string or a list of numbers.  A list of functions keeps them. -/
theorem list_loses_parentheses :
    stringOrNumber.Occurs (.array stringOrNumber) ∧
    (∃ position : Position, position.Admits stringOrNumber ∧
      position.fill stringOrNumber = .array stringOrNumber) ∧
    (TypeExpr.array stringOrNumber).print = "(string | number)[]" ∧
    (TypeExpr.array (Join.union.lone stringOrNumber)).print = "string | number[]" ∧
    ∃ front back,
      ¬ KeepsParentheses front stringOrNumber.print back (TypeExpr.array stringOrNumber).print
        (TypeExpr.array (Join.union.lone stringOrNumber)).print ∧
      KeepsParentheses front callback.print back (TypeExpr.array callback).print
        (TypeExpr.array (Join.union.lone callback)).print := by
  have hoccurs : stringOrNumber.Occurs (.array stringOrNumber) :=
    .of_mem_parts (List.mem_singleton_self _)
  obtain ⟨hposition, htexts⟩ := parentheses_kept_iff hoccurs
  obtain ⟨front, back, htext⟩ := htexts [.array] rfl
  have hlost : Position.Loses [.array] .union stringOrNumber := ⟨4, rfl, by decide, by decide⟩
  have hkept : ¬ Position.Loses [.array] .union callback := by
    rintro ⟨k, _, hle, _⟩
    exact absurd hle (by decide)
  have hitem : stringOrNumber.print = "string | number" := by
    simp [stringOrNumber, print, printOperands, parenthesize, precedence, Keyword.text]
  have hlist : (TypeExpr.array stringOrNumber).print = "(string | number)[]" := by
    rw [print, hitem]
    rfl
  have hlone : (TypeExpr.array (Join.union.lone stringOrNumber)).print = "string | number[]" := by
    rw [print, Join.lone, Join.type, print, printOperands, hitem]
    rfl
  refine ⟨hoccurs, ?_, hlist, hlone, front, back, ?_, ?_⟩
  · rcases hposition with hposition | ⟨s, _, hapart⟩
    · exact hposition
    · cases hapart with
      | element _ hmarked => cases hmarked
      | method _ _ _ hfunction => cases hfunction
  · intro hkeeps
    exact (htext .union stringOrNumber ⟨trivial, trivial⟩).1.1 hkeeps hlost
  · exact (htext .union callback ⟨trivial, trivial⟩).1.2 hkept

end PropDocs
