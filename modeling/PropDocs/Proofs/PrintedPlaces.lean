import PropDocs.Proofs.PrintedText

/-!
# Printed places

A type is printed into the text of the type around it.  What stands in front of it and behind it there
does not depend on it; the type itself has parentheses or not, as its place asks for.

* `Surrounded`: a text in which a type is shown once, between two texts that are always the same;
* `Surrounded.enclosed`, `Surrounded.joined`, `Surrounded.flattened`: how the printer puts such a text
  together with other texts;
* `Place.surrounded`: the step, one case for each place of a type;
* `Place.precedence_fill`: how tightly a type binds does not depend on what stands in its places, so that
  its own parentheses belong to the surroundings, too;
* `Position.surrounded`, `Position.exists_print_fill`: the run, for a type at any depth.
-/

namespace PropDocs

open TypeExpr

/-! ### Surroundings -/

/-- The text of a type in a place of the given level; without a level nothing is printed. -/
def TypeExpr.shown (level : Option Nat) (t : TypeExpr) : List Char :=
  match level with
  | some k => t.chars k
  | none => []

/-- **Fixed surroundings.** A text that depends on a type shows it once, and what is printed in front of
it and behind it is the same for all types that are admitted. -/
def Surrounded (level : Option Nat) (admits : TypeExpr → Prop) (text : TypeExpr → List Char) : Prop :=
  ∃ front back, ∀ t, admits t → text t = front ++ (t.shown level ++ back)

namespace Surrounded

variable {level : Option Nat} {admits : TypeExpr → Prop} {text text' : TypeExpr → List Char}

theorem congr (h : Surrounded level admits text) (heq : ∀ t, admits t → text' t = text t) :
    Surrounded level admits text' := by
  obtain ⟨front, back, htext⟩ := h
  exact ⟨front, back, fun t ht => (heq t ht).trans (htext t ht)⟩

theorem mono {admits' : TypeExpr → Prop} (h : Surrounded level admits text)
    (himp : ∀ t, admits' t → admits t) : Surrounded level admits' text := by
  obtain ⟨front, back, htext⟩ := h
  exact ⟨front, back, fun t ht => htext t (himp t ht)⟩

/-- A type in a place of level `k` has nothing around it. -/
theorem chars (k : Nat) : Surrounded (some k) admits (TypeExpr.chars k) :=
  ⟨[], [], fun t _ => by simp [shown]⟩

/-- A text that does not depend on a type stands in front of nothing. -/
theorem const (cs : List Char) : Surrounded none admits fun _ => cs :=
  ⟨cs, [], fun t _ => by simp [shown]⟩

theorem enclosed (h : Surrounded level admits text) (x y : List Char) :
    Surrounded level admits fun t => x ++ (text t ++ y) := by
  obtain ⟨front, back, htext⟩ := h
  exact ⟨x ++ front, back ++ y, fun t ht => by simp [htext t ht]⟩

/-- Items with a separator between them surround any one of them. -/
theorem joined (h : Surrounded level admits text) (sep : List Char) (before after : List (List Char)) :
    Surrounded level admits fun t => sep.intercalate (before ++ text t :: after) := by
  induction before with
  | nil =>
    cases after with
    | nil => exact h.congr (by simp)
    | cons item after =>
      refine (h.enclosed [] (sep ++ sep.intercalate (item :: after))).congr ?_
      intro t _
      simp [List.intercalate_cons_cons]
  | cons item before ih =>
    refine (ih.enclosed (item ++ sep) []).congr ?_
    intro t _
    cases before <;> simp [List.intercalate_cons_cons]

/-- Texts one after another surround any one of them. -/
theorem flattened (h : Surrounded level admits text) (before after : List (List Char)) :
    Surrounded level admits fun t => (before ++ text t :: after).flatten := by
  refine (h.enclosed before.flatten after.flatten).congr ?_
  intro t _
  simp

end Surrounded

/-! ### Pieces of types -/

section

variable {admits : TypeExpr → Prop}

/-- Type arguments that are there at all. -/
theorem toList_printArgs_of_ne_nil {ts : List TypeExpr} (h : ts ≠ []) :
    (printArgs ts).toList = '<' :: ([',', ' '].intercalate (ts.map (chars 0)) ++ ['>']) := by
  obtain ⟨t, ts, rfl⟩ := List.exists_cons_of_ne_nil h
  exact toList_printArgs_cons t ts

theorem surrounded_printArgs (before after : List TypeExpr) :
    Surrounded (some 0) admits fun t => (printArgs (before ++ t :: after)).toList := by
  refine (((Surrounded.chars 0).joined [',', ' '] (before.map (TypeExpr.chars 0))
    (after.map (TypeExpr.chars 0))).enclosed ['<'] ['>']).congr ?_
  intro t _
  rw [toList_printArgs_of_ne_nil (by simp)]
  simp

theorem surrounded_printTypeParam_constraint (p : TypeParam) :
    Surrounded (some 0) admits fun t =>
      (printTypeParam { p with constraint := some t }).toList := by
  refine ((Surrounded.chars 0).enclosed (p.name.toList ++ " extends ".toList)
    (printAfter " = " p.default).toList).congr ?_
  intro t _
  rw [toList_printTypeParam, toList_printAfter_some]
  simp

theorem surrounded_printTypeParam_default (p : TypeParam) :
    Surrounded (some 0) admits fun t =>
      (printTypeParam { p with default := some t }).toList := by
  refine ((Surrounded.chars 0).enclosed
    (p.name.toList ++ ((printAfter " extends " p.constraint).toList ++ " = ".toList)) []).congr ?_
  intro t _
  rw [toList_printTypeParam, toList_printAfter_some]
  simp

theorem surrounded_printParam (p : Param) :
    Surrounded (some 0) admits fun t => (printParam { p with type := some t }).toList := by
  refine ((Surrounded.chars 0).enclosed ((mark p.rest "...").toList ++
    (p.name.toList ++ ((mark p.optional "?").toList ++ [':', ' ']))) []).congr ?_
  intro t _
  rw [toList_printParam]
  simp

theorem toList_printHead_of_ne_nil {ps : List TypeParam} (h : ps ≠ []) (qs : List Param)
    (returns : TypeExpr) :
    (printHead ⟨ps, qs, returns⟩).toList =
      '<' :: ((printTypeParams ps).toList ++ '>' :: '(' :: ((printParams qs).toList ++ [')'])) := by
  obtain ⟨p, ps, rfl⟩ := List.exists_cons_of_ne_nil h
  exact toList_printHead_cons returns p ps qs

/-- A head with a type parameter in it surrounds the text of that parameter. -/
theorem surrounded_printHead_typeParam {item : TypeExpr → TypeParam}
    (h : Surrounded (some 0) admits fun t => (printTypeParam (item t)).toList)
    (before after : List TypeParam) (qs : List Param) (returns : TypeExpr) :
    Surrounded (some 0) admits fun t =>
      (printHead ⟨before ++ item t :: after, qs, returns⟩).toList := by
  refine ((h.joined [',', ' '] (before.map fun p => (printTypeParam p).toList)
    (after.map fun p => (printTypeParam p).toList)).enclosed ['<']
    ('>' :: '(' :: ((printParams qs).toList ++ [')']))).congr ?_
  intro t _
  rw [toList_printHead_of_ne_nil (by simp), toList_printTypeParams]
  simp

/-- In front of its parameters a head has what its type parameters print. -/
theorem exists_printHead (ps : List TypeParam) :
    ∃ x : List Char, ∀ (qs : List Param) (returns : TypeExpr),
      (printHead ⟨ps, qs, returns⟩).toList = x ++ ((printParams qs).toList ++ [')']) := by
  cases ps with
  | nil => exact ⟨['('], fun qs returns => toList_printHead_nil returns qs⟩
  | cons p ps =>
    refine ⟨'<' :: ((printTypeParams (p :: ps)).toList ++ ['>', '(']), fun qs returns => ?_⟩
    rw [toList_printHead_cons]
    simp

/-- A signature is printed in two parts, with an arrow or a colon between them. -/
theorem SignatureSlot.surrounded (slot : SignatureSlot) (arrow : List Char) :
    Surrounded (some 0) admits fun t =>
      (printHead (slot.fill t)).toList ++ (arrow ++ (printReturn (slot.fill t)).toList) := by
  cases slot with
  | constraint before p after params returns =>
    exact ((surrounded_printHead_typeParam (surrounded_printTypeParam_constraint p)
      before after params returns).enclosed [] (arrow ++ returns.chars 0)).congr
        fun t _ => by simp [fill, toList_printReturn]
  | default before p after params returns =>
    exact ((surrounded_printHead_typeParam (surrounded_printTypeParam_default p)
      before after params returns).enclosed [] (arrow ++ returns.chars 0)).congr
        fun t _ => by simp [fill, toList_printReturn]
  | param typeParams before p after returns =>
    obtain ⟨x, hx⟩ := exists_printHead typeParams
    refine (((surrounded_printParam p).joined [',', ' '] (before.map fun p => (printParam p).toList)
      (after.map fun p => (printParam p).toList)).enclosed x
      (')' :: (arrow ++ returns.chars 0))).congr ?_
    intro t _
    simp [fill, hx, toList_printReturn, toList_printParams]
  | result typeParams params =>
    obtain ⟨x, hx⟩ := exists_printHead typeParams
    refine ((Surrounded.chars 0).enclosed
      (x ++ ((printParams params).toList ++ ')' :: arrow)) []).congr ?_
    intro t _
    simp [fill, hx, toList_printReturn]

/-- Behind a label the types must not be marked. -/
theorem ElementSlot.surrounded (slot : ElementSlot)
    (h : ∀ label, slot = .type (some label) → ∀ t, admits t → t.isMarked = false) :
    Surrounded (some 0) admits fun t => (printElement (slot.fill t)).toList := by
  cases slot with
  | type label =>
    cases label with
    | none => exact (Surrounded.chars 0).congr fun t _ => toList_printElement_none t
    | some label =>
      refine ((Surrounded.chars 0).enclosed (label.toList ++ [':', ' ']) []).congr ?_
      intro t ht
      rw [fill, toList_printElement_label (h label rfl t ht)]
      simp
  | optional label =>
    refine ((Surrounded.chars 0).enclosed (label.toList ++ ['?', ':', ' ']) []).congr ?_
    intro t _
    rw [fill, toList_printElement_label_optional]
    simp
  | rest label =>
    refine ((Surrounded.chars 0).enclosed ('.' :: '.' :: '.' :: (label.toList ++ [':', ' ']))
      []).congr ?_
    intro t _
    rw [fill, toList_printElement_label_rest]
    simp

theorem MappedSlot.surrounded (slot : MappedSlot) :
    Surrounded (some 0) admits fun t => (printMapped (slot.fill t)).toList := by
  cases slot with
  | constraint m =>
    refine ((Surrounded.chars 0).enclosed
      ("\x7b ".toList ++ ((modifierText m.readonly "readonly ").toList ++
        ('[' :: (m.param.toList ++ " in ".toList))))
      ((printAfter " as " m.nameType).toList ++ (']' ::
        ((modifierText m.optional "?").toList ++ (": ".toList ++
          ((printOr "any" m.type).toList ++ "; \x7d".toList)))))).congr ?_
    intro t _
    simp [fill, printMapped, printOr, chars_zero]
  | nameType m =>
    refine ((Surrounded.chars 0).enclosed
      ("\x7b ".toList ++ ((modifierText m.readonly "readonly ").toList ++ ('[' :: (m.param.toList ++
        (" in ".toList ++ ((printOr "any" m.constraint).toList ++ " as ".toList))))))
      (']' :: ((modifierText m.optional "?").toList ++ (": ".toList ++
        ((printOr "any" m.type).toList ++ "; \x7d".toList))))).congr ?_
    intro t _
    simp [fill, printMapped, printAfter, chars_zero]
  | type m =>
    refine ((Surrounded.chars 0).enclosed
      ("\x7b ".toList ++ ((modifierText m.readonly "readonly ").toList ++ ('[' :: (m.param.toList ++
        (" in ".toList ++ ((printOr "any" m.constraint).toList ++
          ((printAfter " as " m.nameType).toList ++ (']' ::
            ((modifierText m.optional "?").toList ++ ": ".toList)))))))))
      "; \x7d".toList).congr ?_
    intro t _
    simp [fill, printMapped, printOr, chars_zero]

/-- A method that is no function is printed like a property. -/
theorem printMember_method_of_not_isFunction {t : TypeExpr} (h : t.isFunction = false) (name : String)
    (isOptional isReadonly : Bool) (initializer : Option Initializer) (doc : DocComment) :
    printMember ⟨name, .method, isOptional, isReadonly, some t, initializer, doc⟩ =
      printMember ⟨name, .property, isOptional, isReadonly, some t, initializer, doc⟩ := by
  cases t <;> simp_all [isFunction, printMember]

theorem surrounded_printMember_type (m : Member)
    (h : m.kind = .method → ∀ t, admits t → t.isFunction = false) :
    Surrounded (some 0) admits fun t => (printMember { m with type := some t }).toList := by
  obtain ⟨name, kind, isOptional, isReadonly, type, initializer, doc⟩ := m
  have hproperty : Surrounded (some 0) admits fun t =>
      (printMember ⟨name, .property, isOptional, isReadonly, some t, initializer, doc⟩).toList := by
    refine ((Surrounded.chars 0).enclosed ((mark isReadonly "readonly ").toList ++
      (name.toList ++ ((mark isOptional "?").toList ++ [':', ' ']))) [';']).congr ?_
    intro t _
    rw [toList_printMember_property]
    simp
  cases kind with
  | property => exact hproperty
  | method =>
    refine hproperty.congr ?_
    intro t ht
    dsimp only
    rw [printMember_method_of_not_isFunction (h rfl t ht)]
  | getter =>
    refine ((Surrounded.chars 0).enclosed ("get ".toList ++ (name.toList ++ "(): ".toList))
      [';']).congr ?_
    intro t _
    dsimp only
    rw [toList_printMember_getter]
    simp
  | setter =>
    refine ((Surrounded.chars 0).enclosed ("set ".toList ++ (name.toList ++ "(value: ".toList))
      [')', ';']).congr ?_
    intro t _
    dsimp only
    rw [toList_printMember_setter]
    simp

theorem surrounded_printMember_method (m : Member) (slot : SignatureSlot) (isConstructor : Bool) :
    Surrounded (some 0) admits fun t =>
      (printMember ((MemberSlot.method m slot isConstructor).fill t)).toList := by
  refine ((slot.surrounded [':', ' ']).enclosed (m.name.toList ++ (mark m.optional "?").toList)
    [';']).congr ?_
  intro t _
  rw [MemberSlot.fill, toList_printMember_method]
  simp

/-- The initial value of a member is not printed. -/
theorem printMember_initializer (m : Member) (initializer : Option Initializer) :
    printMember { m with initializer := initializer } = printMember m := by
  obtain ⟨name, kind, isOptional, isReadonly, type, _, doc⟩ := m
  cases kind with
  | method =>
    cases type with
    | none => simp [printMember]
    | some t => cases t <;> simp [printMember]
  | _ => simp [printMember]

/-- As the annotation of a method the types must not be functions. -/
theorem MemberSlot.surrounded (slot : MemberSlot)
    (h : ∀ m, slot = .type m → m.kind = .method → ∀ t, admits t → t.isFunction = false) :
    Surrounded slot.level admits fun t => (printMember (slot.fill t)).toList := by
  cases slot with
  | type m => exact surrounded_printMember_type m (h m rfl)
  | method m slot isConstructor => exact surrounded_printMember_method m slot isConstructor
  | initializer m =>
    exact (Surrounded.const (printMember m).toList).congr fun t _ => by
      rw [fill, printMember_initializer]

end

/-- The parts of a template follow each other. -/
theorem toList_printParts (ps : List TemplatePart) :
    (printParts ps).toList = (ps.map fun p => (printParts [p]).toList).flatten := by
  induction ps with
  | nil => exact toList_printParts_nil
  | cons p ps ih =>
    rw [List.map_cons, List.flatten_cons, ← ih]
    cases p <;> simp [toList_printParts_text, toList_printParts_type, toList_printParts_nil]

/-- Members follow each other, each with a space behind it. -/
theorem toList_printMembers (ms : List Member) :
    (printMembers ms).toList = (ms.map fun m => (printMember m).toList ++ [' ']).flatten := by
  induction ms with
  | nil => exact toList_printMembers_nil
  | cons m ms ih =>
    rw [List.map_cons, List.flatten_cons, ← ih, toList_printMembers_cons]
    simp

theorem chars_object_of_ne_nil {ms : List Member} (h : ms ≠ []) :
    (object ms).chars 0 = '\x7b' :: ' ' :: ((printMembers ms).toList ++ ['\x7d']) := by
  obtain ⟨m, ms, rfl⟩ := List.exists_cons_of_ne_nil h
  exact chars_object_cons m ms

/-- The sign of a join, with its spaces. -/
def Join.sign : Join → List Char
  | .union => [' ', '|', ' ']
  | .intersection => [' ', '&', ' ']

theorem Join.chars_type (join : Join) (types : List TypeExpr) :
    (join.type types).chars 0 = join.sign.intercalate (types.map (chars join.level)) := by
  cases join with
  | union => exact chars_union types
  | intersection => exact chars_intersection types

/-! ### Types in their places -/

/-- **Step.** What is printed around a place does not depend on the type that stands there. -/
theorem Place.surrounded (place : Place) :
    Surrounded place.level place.Admits fun t => (place.fill t).chars 0 := by
  cases place with
  | hole before after =>
    refine ((((Surrounded.chars 0).enclosed ['$', '\x7b'] ['\x7d']).flattened
      (before.map fun p => (printParts [p]).toList)
      (after.map fun p => (printParts [p]).toList)).enclosed ['`'] ['`']).congr ?_
    intro t _
    rw [fill, chars_template, toList_printParts]
    simp [toList_printParts_type, toList_printParts_nil]
  | arg name before after =>
    refine ((surrounded_printArgs before after).enclosed name.toList []).congr ?_
    intro t _
    simp [fill]
  | importArg argument qualifier before after =>
    refine ((surrounded_printArgs before after).enclosed ("import".toList ++ '(' :: '"' ::
      (argument.toList ++ '"' :: ')' :: qualifier.elim [] fun q => '.' :: q.toList)) []).congr ?_
    intro t _
    cases qualifier <;> simp [fill]
  | array => exact ((Surrounded.chars 4).enclosed [] ['[', ']']).congr fun t _ => by simp [fill]
  | element before slot after =>
    have hslot : Surrounded (some 0) (Place.element before slot after).Admits fun t =>
        (printElement (slot.fill t)).toList := by
      refine slot.surrounded ?_
      rintro label rfl t ht
      exact ht
    refine ((hslot.joined [',', ' '] (before.map fun e => (printElement e).toList)
      (after.map fun e => (printElement e).toList)).enclosed ['['] [']']).congr ?_
    intro t _
    simp [fill, toList_printElements]
  | optional => exact ((Surrounded.chars 4).enclosed [] ['?']).congr fun t _ => by simp [fill]
  | rest =>
    exact ((Surrounded.chars 4).enclosed ['.', '.', '.'] []).congr fun t _ => by simp [fill]
  | operand join before after =>
    refine ((Surrounded.chars join.level).joined join.sign (before.map (chars join.level))
      (after.map (chars join.level))).congr ?_
    intro t _
    simp [fill, Join.chars_type]
  | signature slot isConstructor =>
    refine ((slot.surrounded [' ', '=', '>', ' ']).enclosed
      (mark isConstructor "new ").toList []).congr ?_
    intro t _
    simp [fill]
  | member before slot after =>
    have hslot : Surrounded slot.level (Place.member before slot after).Admits fun t =>
        (printMember (slot.fill t)).toList := by
      refine slot.surrounded ?_
      rintro m rfl hmethod t ht
      exact ht hmethod
    refine (((hslot.enclosed [] [' ']).flattened
      (before.map fun m => (printMember m).toList ++ [' '])
      (after.map fun m => (printMember m).toList ++ [' '])).enclosed
      ['\x7b', ' '] ['\x7d']).congr ?_
    intro t _
    rw [fill, chars_object_of_ne_nil (by simp), toList_printMembers]
    simp
  | operator op =>
    exact ((Surrounded.chars 3).enclosed (op.text.toList ++ [' ']) []).congr fun t _ => by
      simp [fill]
  | base i =>
    exact ((Surrounded.chars 4).enclosed [] ('[' :: (i.chars 0 ++ [']']))).congr fun t _ => by
      simp [fill]
  | index o =>
    exact ((Surrounded.chars 0).enclosed (o.chars 4 ++ ['[']) [']']).congr fun t _ => by
      simp [fill]
  | check b y n =>
    refine ((Surrounded.chars 1).enclosed [] (" extends ".toList ++ (b.chars 1 ++
      (" ? ".toList ++ (y.chars 0 ++ (" : ".toList ++ n.chars 0)))))).congr ?_
    intro t _
    simp [fill]
  | bound c y n =>
    refine ((Surrounded.chars 1).enclosed (c.chars 1 ++ " extends ".toList)
      (" ? ".toList ++ (y.chars 0 ++ (" : ".toList ++ n.chars 0)))).congr ?_
    intro t _
    simp [fill]
  | yes c b n =>
    refine ((Surrounded.chars 0).enclosed (c.chars 1 ++ (" extends ".toList ++
      (b.chars 1 ++ " ? ".toList))) (" : ".toList ++ n.chars 0)).congr ?_
    intro t _
    simp [fill]
  | no c b y =>
    refine ((Surrounded.chars 0).enclosed (c.chars 1 ++ (" extends ".toList ++
      (b.chars 1 ++ (" ? ".toList ++ (y.chars 0 ++ " : ".toList))))) []).congr ?_
    intro t _
    simp [fill]
  | mapped slot => exact slot.surrounded.congr fun t _ => by simp [fill]
  | predicate asserts param =>
    refine ((Surrounded.chars 0).enclosed ((mark asserts "asserts ").toList ++
      (param.toList ++ " is ".toList)) []).congr ?_
    intro t _
    simp [fill, toList_printIs_some]

/-- The form of a type, and so how tightly it binds, does not depend on what stands in its places. -/
theorem Place.precedence_fill (place : Place) (t u : TypeExpr) :
    (place.fill t).precedence = (place.fill u).precedence := by
  cases place with
  | operand join before after =>
    rcases before with _ | ⟨a, _ | ⟨b, before⟩⟩ <;> cases after <;> cases join <;> rfl
  | _ => rfl

/-- A type with a place in it stands as a whole in a place of level `k`, with parentheses or without. -/
theorem Place.surrounded_chars (place : Place) {f : TypeExpr → TypeExpr} {level : Option Nat}
    {admits : TypeExpr → Prop} (h : Surrounded level admits fun t => (place.fill (f t)).chars 0)
    (k : Nat) : Surrounded level admits fun t => (place.fill (f t)).chars k := by
  by_cases hprec : (place.fill default).precedence < k
  · refine (h.enclosed ['('] [')']).congr ?_
    intro t _
    rw [place.precedence_fill default (f t)] at hprec
    rw [chars_of_lt hprec]
    rfl
  · refine h.congr ?_
    intro t _
    rw [place.precedence_fill default (f t), Nat.not_lt] at hprec
    exact chars_of_le hprec

/-- **Run.** What is printed around a position does not depend on the type that stands there. -/
theorem Position.surrounded (position : Position) :
    Surrounded position.level position.Admits fun t => (position.fill t).chars 0 := by
  induction position with
  | nil => exact Surrounded.chars 0
  | cons place rest ih =>
    cases rest with
    | nil => exact place.surrounded.mono fun t ht => ht.1
    | cons next rest =>
      obtain ⟨front, back, htext⟩ := place.surrounded
      rw [level]
      cases hlevel : place.level with
      | none =>
        refine (Surrounded.const (front ++ ([] ++ back))).congr ?_
        intro t ht
        have hplace := htext (fill (next :: rest) t) ht.1
        rw [hlevel] at hplace
        exact hplace
      | some k =>
        refine (((next.surrounded_chars ih k).mono fun t ht => ht.2).enclosed front back).congr ?_
        intro t ht
        have hplace := htext (fill (next :: rest) t) ht.1
        rw [hlevel] at hplace
        exact hplace

/-- **Text of a filled position**: the type in the middle, with parentheses if it binds looser than the
position asks for, and between fixed texts. -/
theorem Position.exists_print_fill (position : Position) :
    ∃ front back : String,
      (∀ k, position.level = some k → ∀ t, position.Admits t →
        (position.fill t).print = front ++ t.parenthesize k t.print ++ back) ∧
      (position.level = none → ∀ t, position.Admits t → (position.fill t).print = front ++ back) := by
  obtain ⟨front, back, htext⟩ := position.surrounded
  have hchars : ∀ t, position.Admits t →
      (position.fill t).print.toList = front ++ (t.shown position.level ++ back) := by
    intro t ht
    rw [← chars_zero]
    exact htext t ht
  refine ⟨String.ofList front, String.ofList back, ?_, ?_⟩
  · intro k hk t ht
    rw [← String.toList_inj, hchars t ht, hk]
    simp [shown, TypeExpr.chars]
  · intro hnone t ht
    rw [← String.toList_inj, hchars t ht, hnone]
    simp [shown]

end PropDocs
