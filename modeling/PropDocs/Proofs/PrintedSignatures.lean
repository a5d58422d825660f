import PropDocs.Proofs.PrintedForms

/-!
# Printed signatures and members

The pieces that hold names next to types, in texts below the length at which types are known to
split (`LevelsSplit`).

* `printTypeParam_splits`, `printParam_splits`: the two kinds of parameters;
* `return_splits`: a returned type or a predicate, told apart by the word or the name in front;
* `signature_splits`: a whole signature, with a colon or an arrow in front of what it returns;
* `MemberForm`, `memberLead`: the forms of members, and the leading word that tells them apart;
* `printMembers_splits`, `printMapped_splits`: object types and mapped types, and
  `MemberReadable.append_ne_mapped`: no text is the inside of both.
-/

namespace PropDocs.TypeExpr

open Text

variable {S : Set Double} {n : Nat}

/-! ### Type parameters -/

/-- A type parameter that is well-formed inside and out. -/
def TypeParamReadable (S : Set Double) (p : TypeParam) : Prop :=
  p.WellFormed ∧ ∀ t ∈ p.types, t.Sound S

theorem TypeParamReadable.readable {p : TypeParam} (hp : TypeParamReadable S p) {t : TypeExpr}
    (ht : t ∈ p.types) : t.Readable S :=
  ⟨hp.1.types_isPlain t ht, hp.2 t ht⟩

theorem printTypeParam_splits (hn : LevelsSplit S n) :
    Splits n (TypeParamReadable S) (fun p => (printTypeParam p).toList) (Delimits '>') := by
  -- what follows the constraint, and what follows the name
  have after_constraint : ∀ (bound : Option TypeExpr) {r : List Char}, Delimits '>' r →
      stops 0 ((printAfter " = " bound).toList ++ r) ∧
        ¬ " extends ".toList <+: (printAfter " = " bound).toList ++ r := by
    intro bound r hr
    cases bound with
    | none =>
      rw [toList_printAfter_none]
      refine ⟨stops_of_delimits (by decide) 0 hr, ?_⟩
      rintro ⟨x, rfl⟩
      rcases hr with hr | hr <;> cases hr
    | some t =>
      rw [toList_printAfter_some]
      refine ⟨rfl, ?_⟩
      rintro ⟨x, hx⟩
      simp at hx
  have after_name : ∀ (constraint bound : Option TypeExpr) {r : List Char}, Delimits '>' r →
      ((printAfter " extends " constraint).toList ++
        ((printAfter " = " bound).toList ++ r)).head?.any isWordChar = false := by
    intro constraint bound r hr
    cases constraint with
    | none =>
      rw [toList_printAfter_none]
      exact not_word_of_stops (after_constraint bound hr).1
    | some t =>
      rw [toList_printAfter_some]
      rfl
  rintro ⟨name, constraint, bound⟩ ⟨name', constraint', bound'⟩ r s hp hq hr hs htext
  simp only [toList_printTypeParam, List.append_assoc] at htext
  obtain ⟨rfl, htext₁⟩ := name_splits n hp.1.name_isName.isDottedName hq.1.name_isName.isDottedName
    (after_name constraint bound hr) (after_name constraint' bound' hs) htext
  obtain ⟨rfl, htext₂⟩ := printAfter_splits hn " extends "
    (fun t ht => hp.readable (by simp [TypeParam.types, Option.mem_def.1 ht]))
    (fun t ht => hq.readable (by simp [TypeParam.types, Option.mem_def.1 ht]))
    (after_constraint bound hr) (after_constraint bound' hs) htext₁
  have not_bound : ∀ {x : List Char}, Delimits '>' x → ¬ " = ".toList <+: x := by
    rintro x (hx | hx) ⟨y, rfl⟩ <;> cases hx
  obtain ⟨rfl, hrest⟩ := printAfter_splits hn " = "
    (fun t ht => hp.readable (by simp [TypeParam.types, Option.mem_def.1 ht]))
    (fun t ht => hq.readable (by simp [TypeParam.types, Option.mem_def.1 ht]))
    ⟨stops_of_delimits (by decide) 0 hr, not_bound hr⟩
    ⟨stops_of_delimits (by decide) 0 hs, not_bound hs⟩ htext₂
  exact ⟨rfl, hrest⟩

/-! ### Parameters -/

/-- What follows the mark of an optional parameter or member, or its name when there is no mark. -/
def MarkFollows (x : List Char) : Prop :=
  ∃ c y, x = c :: y ∧ c ∈ [':', '(', '<']

theorem MarkFollows.colon (x : List Char) : MarkFollows (':' :: x) :=
  ⟨':', x, rfl, by decide⟩

theorem MarkFollows.noWord {x : List Char} (h : MarkFollows x) (flag : Bool) :
    ((mark flag "?").toList ++ x).head?.any isWordChar = false := by
  obtain ⟨c, y, rfl, hc⟩ := h
  have hcases : c = ':' ∨ c = '(' ∨ c = '<' := by simpa using hc
  cases flag with
  | true => rfl
  | false => rcases hcases with rfl | rfl | rfl <;> rfl

theorem MarkFollows.not_mark {x : List Char} (h : MarkFollows x) : ¬ "?".toList <+: x := by
  obtain ⟨c, y, rfl, hc⟩ := h
  rintro ⟨z, hz⟩
  have hmark : '?' = c := (List.cons.inj hz).1
  subst hmark
  exact absurd hc (by decide)

/-- The head of a signature starts with a bracket. -/
theorem exists_printHead_eq (s : Signature) :
    ∃ c x, (printHead s).toList = c :: x ∧ c ∈ ['(', '<'] := by
  obtain ⟨ps, qs, t⟩ := s
  cases ps with
  | nil => exact ⟨_, _, toList_printHead_nil .., by decide⟩
  | cons p ps => exact ⟨_, _, toList_printHead_cons .., by decide⟩

theorem printHead_append_ne_colon (s : Signature) (x y : List Char) :
    (printHead s).toList ++ x ≠ ':' :: y := by
  obtain ⟨c, z, hs, hc⟩ := exists_printHead_eq s
  rw [hs]
  intro heq
  cases heq
  exact absurd hc (by decide)

theorem markFollows_head (s : Signature) (x : List Char) :
    MarkFollows ((printHead s).toList ++ x) := by
  obtain ⟨c, y, hs, hc⟩ := exists_printHead_eq s
  exact ⟨c, y ++ x, by rw [hs, List.cons_append], List.mem_cons_of_mem _ hc⟩

/-- A parameter that is well-formed inside and out. -/
def ParamReadable (S : Set Double) (p : Param) : Prop :=
  p.WellFormed ∧ ∀ t ∈ p.types, t.Sound S

theorem ParamReadable.exists_type {name : String} {isOptional isRest : Bool}
    {type : Option TypeExpr} (hp : ParamReadable S ⟨name, isOptional, isRest, type⟩) :
    ∃ t, type = some t ∧ t.Readable S := by
  obtain ⟨t, htype, hplain⟩ := hp.1.type_isPlain
  subst htype
  exact ⟨t, rfl, hplain, hp.2 t (by simp [Param.types])⟩

theorem printParam_splits (hn : LevelsSplit S n) :
    Splits n (ParamReadable S) (fun p => (printParam p).toList) (Delimits ')') := by
  rintro ⟨name, isOptional, isRest, type⟩ ⟨name', isOptional', isRest', type'⟩ r s hp hq hr hs htext
  obtain ⟨t, rfl, ht⟩ := hp.exists_type
  obtain ⟨u, rfl, hu⟩ := hq.exists_type
  have hname := hp.1.name_isName.isDottedName
  have hname' := hq.1.name_isName.isDottedName
  simp only [toList_printParam, List.append_assoc, List.cons_append] at htext
  have not_dots : ∀ {m : String} {x : List Char}, IsDottedName m →
      ¬ "...".toList <+: m.toList ++ x := by
    rintro m x hm ⟨y, hy⟩
    exact hm.append_ne (c := '.') (by decide) _ _ hy.symm
  obtain ⟨rfl, htext₁⟩ := mark_splits n "..." trivial trivial (not_dots hname) (not_dots hname')
    htext
  obtain ⟨rfl, htext₂⟩ := name_splits n hname hname' (MarkFollows.noWord (.colon _) isOptional)
    (MarkFollows.noWord (.colon _) isOptional') htext₁
  obtain ⟨rfl, htext₃⟩ := mark_splits n "?" trivial trivial (MarkFollows.not_mark (.colon _))
    (MarkFollows.not_mark (.colon _)) htext₂
  obtain ⟨rfl, hrest⟩ := hn 0 (by decide) ht hu (stops_of_delimits (by decide) 0 hr)
    (stops_of_delimits (by decide) 0 hs) htext₃.tail.tail
  exact ⟨rfl, hrest⟩

/-! ### Returned types -/

theorem front_predicate {asserts : Bool} {param : String} {type : Option TypeExpr}
    (h : (predicate asserts param type).WellFormed) (r : List Char) :
    front ((predicate asserts param type).chars 0 ++ r) = none := by
  rw [chars_predicate, List.append_assoc, List.append_assoc]
  cases asserts with
  | true => exact front_word (w := "asserts") (by decide) (by decide) (r := ' ' :: _) rfl
  | false =>
    cases type with
    | none => exact absurd h.2.1 (by decide)
    | some t =>
      rw [toList_printIs_some]
      exact h.1.isDottedName.front_label rfl rfl

/-- A type that may be returned, well-formed inside and out. -/
def ReturnReadable (S : Set Double) (t : TypeExpr) : Prop :=
  t.isReturn ∧ t.Sound S

theorem ReturnReadable.readable_or {t : TypeExpr} (h : ReturnReadable S t) :
    t.Readable S ∨ ∃ asserts param type, t = .predicate asserts param type := by
  cases t with
  | predicate asserts param type => exact .inr ⟨asserts, param, type, rfl⟩
  | optional => cases h.1
  | rest => cases h.1
  | _ => exact .inl ⟨rfl, h.2⟩

theorem printIs_splits (hn : LevelsSplit S n) :
    Splits n (fun type => ∀ t ∈ type, t.Readable S) (fun type => (printIs type).toList)
      (fun r => stops 0 r) := by
  have not_is : ∀ {r x : List Char}, stops 0 r → r ≠ ' ' :: 'i' :: x := by
    rintro r x hr rfl
    cases hr
  rintro (_ | t) (_ | u) r s ht hu hr hs htext <;>
    simp only [toList_printIs_none, toList_printIs_some, List.nil_append, List.cons_append] at htext
  · exact ⟨rfl, htext⟩
  · exact absurd htext.1 (not_is hr)
  · exact absurd htext.1.symm (not_is hs)
  · obtain ⟨rfl, hrest⟩ := hn 0 (by decide) (ht t rfl) (hu u rfl) hr hs htext.tail.tail.tail.tail
    exact ⟨rfl, hrest⟩

theorem predicate_splits (hn : LevelsSplit S n) {asserts asserts' : Bool} {param param' : String}
    {type type' : Option TypeExpr} (ht : (predicate asserts param type).Sound S)
    (hu : (predicate asserts' param' type').Sound S) {r s : List Char} (hr : stops 0 r)
    (hs : stops 0 s) (htext : SameText n ((predicate asserts param type).chars 0 ++ r)
      ((predicate asserts' param' type').chars 0 ++ s)) :
    predicate asserts param type = predicate asserts' param' type' ∧ SameText n r s := by
  have hparam := ht.wellFormed.1.isDottedName
  have hparam' := hu.wellFormed.1.isDottedName
  simp only [chars_predicate, List.append_assoc] at htext
  have is_noWord : ∀ (type : Option TypeExpr) {x : List Char}, stops 0 x →
      ((printIs type).toList ++ x).head?.any isWordChar = false := by
    intro type x hx
    cases type with
    | none =>
      rw [toList_printIs_none]
      exact not_word_of_stops hx
    | some t =>
      rw [toList_printIs_some]
      rfl
  have not_asserts : ∀ {m : String} {x : List Char}, IsDottedName m →
      x.head?.any isWordChar = false → ¬ "asserts ".toList <+: m.toList ++ x := by
    rintro m x hm hx ⟨y, hy⟩
    exact hm.append_ne_word (w := "asserts") (by decide) hx hy.symm
  obtain ⟨rfl, htext₁⟩ := mark_splits n "asserts " trivial trivial
    (not_asserts hparam (is_noWord type hr)) (not_asserts hparam' (is_noWord type' hs)) htext
  obtain ⟨rfl, htext₂⟩ := name_splits n hparam hparam' (is_noWord type hr) (is_noWord type' hs)
    htext₁
  obtain ⟨rfl, hrest⟩ := printIs_splits hn
    (fun t h => ⟨ht.wellFormed.2.2 t h, ht.part (by simp [parts, Option.mem_def.1 h])⟩)
    (fun u h => ⟨hu.wellFormed.2.2 u h, hu.part (by simp [parts, Option.mem_def.1 h])⟩) hr hs htext₂
  exact ⟨rfl, hrest⟩

/-- **Returned types.** A type or a predicate splits from what does not go on with a type. -/
theorem return_splits (hn : LevelsSplit S n) :
    Splits n (ReturnReadable S) (chars 0) (fun r => stops 0 r) := by
  -- no type starts where a predicate does
  have predicate_ne : ∀ {t : TypeExpr} {asserts : Bool} {param : String} {type : Option TypeExpr}
      {r s : List Char}, t.Readable S → (predicate asserts param type).Sound S → stops 0 r →
      t.chars 0 ++ r ≠ (predicate asserts param type).chars 0 ++ s := by
    intro t asserts param type r s ht hp hr heq
    obtain ⟨l, hl, -⟩ := exists_front t ht r (stops_mono (by decide) hr)
    rw [heq, front_predicate hp.wellFormed] at hl
    cases hl
  intro t u r s ht hu hr hs htext
  rcases ht.readable_or with ht' | ⟨asserts, param, type, rfl⟩
  · rcases hu.readable_or with hu' | ⟨asserts, param, type, rfl⟩
    · exact hn 0 (by decide) ht' hu' hr hs htext
    · exact absurd htext.1 (predicate_ne ht' hu.2 hr)
  · rcases hu.readable_or with hu' | ⟨asserts', param', type', rfl⟩
    · exact absurd htext.1.symm (predicate_ne hu' ht.2 hs)
    · exact predicate_splits hn ht.2 hu.2 hr hs htext

/-! ### Signatures -/

/-- A signature that is well-formed inside and out. -/
def SignatureReadable (S : Set Double) (s : Signature) : Prop :=
  s.WellFormed ∧ ∀ t ∈ s.types, t.Sound S

theorem Readable.signature {s : Signature} {isConstructor : Bool}
    (h : (function s isConstructor).Readable S) : SignatureReadable S s :=
  ⟨h.sound.wellFormed, fun _ ht => h.sound.part ht⟩

theorem SignatureReadable.typeParam {s : Signature} (h : SignatureReadable S s) {p : TypeParam}
    (hp : p ∈ s.typeParams) : TypeParamReadable S p := by
  refine ⟨h.1.typeParams_wellFormed p hp, fun t ht => h.2 t ?_⟩
  simp only [Signature.types, List.mem_append, List.mem_flatMap]
  exact .inl (.inl ⟨p, hp, ht⟩)

theorem SignatureReadable.param {s : Signature} (h : SignatureReadable S s) {p : Param}
    (hp : p ∈ s.params) : ParamReadable S p := by
  refine ⟨h.1.params_wellFormed p hp, fun t ht => h.2 t ?_⟩
  simp only [Signature.types, List.mem_append, List.mem_flatMap]
  exact .inl (.inr ⟨p, hp, ht⟩)

theorem SignatureReadable.returns {s : Signature} (h : SignatureReadable S s) :
    ReturnReadable S s.returns :=
  ⟨h.1.returns_isReturn, h.2 s.returns (by simp [Signature.types])⟩

theorem printTypeParams_splits (hn : LevelsSplit S n) :
    Splits n (fun ps => ∀ p ∈ ps, TypeParamReadable S p)
      (fun ps => (printTypeParams ps).toList ++ ['>']) (fun _ => True) := by
  have hlist := (printTypeParam_splits hn).enclosed (by decide) (by
    rintro ⟨name, constraint, bound⟩ hp x y
    rw [toList_printTypeParam, List.append_assoc]
    exact hp.1.name_isName.isDottedName.append_ne (by decide) _ _)
  simpa only [toList_printTypeParams] using hlist

theorem printParams_splits (hn : LevelsSplit S n) :
    Splits n (fun ps => ∀ p ∈ ps, ParamReadable S p)
      (fun ps => (printParams ps).toList ++ [')']) (fun _ => True) := by
  have hlist := (printParam_splits hn).enclosed (by decide) (by
    rintro ⟨name, isOptional, isRest, type⟩ hp x y
    obtain ⟨t, rfl, -⟩ := hp.exists_type
    rw [toList_printParam, List.append_assoc]
    cases isRest with
    | true => exact fun heq => absurd (List.cons.inj heq).1 (by decide)
    | false =>
      rw [List.append_assoc]
      exact hp.1.name_isName.isDottedName.append_ne (by decide) _ _)
  simpa only [toList_printParams] using hlist

/-- **Signatures.** A signature splits from what follows it; `between` stands between its
parameters and its returned type. -/
theorem signature_splits (hn : LevelsSplit S n) (between : List Char) {a b : Signature}
    (hp : SignatureReadable S a) (hq : SignatureReadable S b) {r s : List Char} (hr : stops 0 r)
    (hs : stops 0 s)
    (htext : SameText (n + 1) ((printHead a).toList ++ (between ++ ((printReturn a).toList ++ r)))
      ((printHead b).toList ++ (between ++ ((printReturn b).toList ++ s)))) :
    a = b ∧ SameText n r s := by
  obtain ⟨ps, qs, t⟩ := a
  obtain ⟨ps', qs', t'⟩ := b
  -- behind the type parameters both texts are split alike
  have from_params : SameText n ((printParams qs).toList ++ ')' :: (between ++ (t.chars 0 ++ r)))
      ((printParams qs').toList ++ ')' :: (between ++ (t'.chars 0 ++ s))) →
      qs = qs' ∧ t = t' ∧ SameText n r s := by
    intro h
    obtain ⟨hqs, hafter⟩ := printParams_splits hn (fun _ => hp.param) (fun _ => hq.param)
      trivial trivial (by simpa using h)
    obtain ⟨ht, hrest⟩ := return_splits hn hp.returns hq.returns hr hs hafter.drop
    exact ⟨hqs, ht, hrest⟩
  cases ps with
  | nil =>
    cases ps' with
    | nil =>
      simp only [toList_printHead_nil, toList_printReturn, List.append_assoc, List.cons_append,
        List.nil_append] at htext
      obtain ⟨rfl, rfl, hrest⟩ := from_params htext.pred
      exact ⟨rfl, hrest⟩
    | cons p ps' =>
      simp only [toList_printHead_nil, toList_printHead_cons, List.cons_append] at htext
      exact absurd htext.head (by decide)
  | cons p ps =>
    cases ps' with
    | nil =>
      simp only [toList_printHead_nil, toList_printHead_cons, List.cons_append] at htext
      exact absurd htext.head (by decide)
    | cons p' ps' =>
      simp only [toList_printHead_cons, toList_printReturn, List.append_assoc, List.cons_append,
        List.nil_append] at htext
      obtain ⟨hps, hafter⟩ : p :: ps = p' :: ps' ∧ _ := printTypeParams_splits hn
        (fun _ => hp.typeParam) (fun _ => hq.typeParam) trivial trivial (by simpa using htext.pred)
      obtain ⟨rfl, rfl, hrest⟩ := from_params hafter.tail
      exact ⟨by rw [hps], hrest⟩

/-! ### Members -/

/-- A member that is well-formed inside and out. -/
def MemberReadable (S : Set Double) (m : Member) : Prop :=
  m.WellFormed ∧ ∀ t ∈ m.types, t.Sound S

theorem Readable.member {ms : List Member} (h : (object ms).Readable S) {m : Member} (hm : m ∈ ms) :
    MemberReadable S m :=
  ⟨h.sound.wellFormed m hm, fun _ ht => h.sound.part (List.mem_flatMap.2 ⟨m, hm, ht⟩)⟩

/-- What the text of a member starts with: a word of the printer, or the member's name. -/
inductive MemberLead where
  | get | set | readonly | named
  deriving DecidableEq

/-- The kind of a member's leading word. -/
def MemberLead.ofWord (w : String) : MemberLead :=
  if w = "get" then .get
  else if w = "set" then .set
  else if w = "readonly" then .readonly
  else .named

/-- The kind of the leading word of a text. -/
def memberLead (x : List Char) : MemberLead :=
  .ofWord (String.ofList (x.takeWhile isWordChar))

theorem memberLead_word {w : String} {x : List Char} (hw : w.toList.all isWordChar)
    (hx : x.head?.any isWordChar = false) : memberLead (w.toList ++ x) = .ofWord w := by
  rw [memberLead, takeWhile_run hw hx, String.ofList_toList]

theorem memberLead_name {name : String} {x : List Char} (h : IsName name)
    (hx : x.head?.any isWordChar = false) : memberLead (name.toList ++ x) = .named := by
  have ne_word : ∀ {w : String}, w ∈ printedWords → name ≠ w := by
    rintro w hw rfl
    exact h.2 hw
  rw [memberLead_word h.isDottedName.all_isWordChar hx, MemberLead.ofWord,
    if_neg (ne_word (by decide)), if_neg (ne_word (by decide)), if_neg (ne_word (by decide))]

/-- The forms of members. -/
inductive MemberForm (S : Set Double) : Member → MemberLead → Prop where
  | getter {name : String} {t : TypeExpr} : t.Readable S →
      MemberForm S ⟨name, .getter, false, false, some t, none, {}⟩ .get
  | setter {name : String} {t : TypeExpr} : t.Readable S →
      MemberForm S ⟨name, .setter, false, false, some t, none, {}⟩ .set
  | readonly {name : String} {isOptional : Bool} {t : TypeExpr} : t.Readable S →
      MemberForm S ⟨name, .property, isOptional, true, some t, none, {}⟩ .readonly
  | property {name : String} {isOptional : Bool} {t : TypeExpr} : t.Readable S →
      MemberForm S ⟨name, .property, isOptional, false, some t, none, {}⟩ .named
  | method {name : String} {isOptional : Bool} {s : Signature} : SignatureReadable S s →
      MemberForm S ⟨name, .method, isOptional, false, some (.function s false), none, {}⟩ .named

theorem MemberReadable.exists_form {m : Member} (h : MemberReadable S m) :
    ∃ lead, MemberForm S m lead := by
  obtain ⟨name, kind, isOptional, isReadonly, type, initializer, doc⟩ := m
  obtain ⟨⟨-, hfits, rfl, rfl⟩, hsound⟩ := h
  have hreadable : ∀ {t : TypeExpr}, type = some t → t.isPlain → t.Readable S := by
    rintro t rfl hplain
    exact ⟨hplain, hsound t (by simp [Member.types])⟩
  cases kind with
  | property =>
    obtain ⟨t, htype, hplain⟩ := hfits
    have ht := hreadable htype hplain
    cases htype
    cases isReadonly with
    | true => exact ⟨_, .readonly ht⟩
    | false => exact ⟨_, .property ht⟩
  | method =>
    obtain ⟨hreadonly, s, htype⟩ := hfits
    cases hreadonly
    cases htype
    have hs : (function s false).Readable S := hreadable rfl rfl
    exact ⟨_, .method hs.signature⟩
  | getter =>
    obtain ⟨hoptional, hreadonly, t, htype, hplain⟩ := hfits
    have ht := hreadable htype hplain
    cases hoptional
    cases hreadonly
    cases htype
    exact ⟨_, .getter ht⟩
  | setter =>
    obtain ⟨hoptional, hreadonly, t, htype, hplain⟩ := hfits
    have ht := hreadable htype hplain
    cases hoptional
    cases hreadonly
    cases htype
    exact ⟨_, .setter ht⟩

theorem MemberForm.memberLead_eq {m : Member} {lead : MemberLead} (h : MemberForm S m lead)
    (hname : IsName m.name) (r : List Char) :
    memberLead ((printMember m).toList ++ r) = lead := by
  cases h with
  | getter ht =>
    rw [toList_printMember_getter, List.append_assoc]
    exact memberLead_word (by decide) rfl
  | setter ht =>
    rw [toList_printMember_setter, List.append_assoc]
    exact memberLead_word (by decide) rfl
  | readonly ht =>
    rw [toList_printMember_property, List.append_assoc]
    exact memberLead_word (w := "readonly") (x := ' ' :: _) (by decide) rfl
  | property ht =>
    rw [toList_printMember_property, mark_false, List.nil_append, List.append_assoc,
      List.append_assoc]
    exact memberLead_name hname (MarkFollows.noWord (.colon _) _)
  | method hs =>
    simp only [toList_printMember_method, List.append_assoc]
    exact memberLead_name hname ((markFollows_head _ _).noWord _)

/-- A member starts with a character of a word. -/
theorem MemberReadable.append_ne {m : Member} (h : MemberReadable S m) {c : Char}
    (hc : isNameStart c = false) (x y : List Char) : (printMember m).toList ++ x ≠ c :: y := by
  have word_ne : ∀ {w : List Char}, w.head?.any isNameStart → w ++ x ≠ c :: y := by
    rintro (_ | ⟨d, w⟩) hw heq
    · cases hw
    · cases heq
      rw [List.head?_cons, Option.any_some, hc] at hw
      cases hw
  have hname := h.1.name_isName.isDottedName
  obtain ⟨lead, hform⟩ := h.exists_form
  cases hform with
  | getter ht =>
    rw [toList_printMember_getter]
    exact word_ne rfl
  | setter ht =>
    rw [toList_printMember_setter]
    exact word_ne rfl
  | readonly ht =>
    rw [toList_printMember_property]
    exact word_ne rfl
  | property ht =>
    rw [toList_printMember_property, mark_false, List.nil_append, List.append_assoc]
    exact hname.append_ne hc _ _
  | method hs =>
    rw [toList_printMember_method, List.append_assoc]
    exact hname.append_ne hc _ _

theorem printMember_splits (hn : LevelsSplit S n) :
    Splits n (MemberReadable S) (fun m => (printMember m).toList) (fun _ => True) := by
  intro a b r s ha hb _ _ htext
  have hname := ha.1.name_isName
  have hname' := hb.1.name_isName
  obtain ⟨lead, hfa⟩ := ha.exists_form
  obtain ⟨lead', hfb⟩ := hb.exists_form
  -- the leading words agree, so the forms do, but for properties and methods
  have hlead := hfa.memberLead_eq hname r
  rw [htext.1, hfb.memberLead_eq hname' s] at hlead
  subst hlead
  -- a name, and then the mark of an optional member
  have name_and_mark : ∀ {o o' : Bool} {x y : List Char}, MarkFollows x → MarkFollows y →
      SameText n (a.name.toList ++ ((mark o "?").toList ++ x))
        (b.name.toList ++ ((mark o' "?").toList ++ y)) →
      a.name = b.name ∧ o = o' ∧ SameText n x y := by
    intro o o' x y hx hy h
    obtain ⟨hnames, h'⟩ := name_splits n hname.isDottedName hname'.isDottedName (hx.noWord o)
      (hy.noWord o') h
    obtain ⟨hmarks, hrest⟩ := mark_splits n "?" trivial trivial hx.not_mark hy.not_mark h'
    exact ⟨hnames, hmarks, hrest⟩
  cases hfa with
  | getter ht =>
    cases hfb with
    | getter hu =>
      simp only [toList_printMember_getter, List.append_assoc, List.cons_append] at htext
      obtain ⟨rfl, htext₁⟩ := name_splits n hname.isDottedName hname'.isDottedName rfl rfl
        htext.drop.tail
      obtain ⟨rfl, htext₂⟩ := hn 0 (by decide) ht hu rfl rfl htext₁.drop
      exact ⟨rfl, htext₂.tail⟩
  | setter ht =>
    cases hfb with
    | setter hu =>
      simp only [toList_printMember_setter, List.append_assoc, List.cons_append] at htext
      obtain ⟨rfl, htext₁⟩ := name_splits n hname.isDottedName hname'.isDottedName rfl rfl
        htext.drop.tail
      obtain ⟨rfl, htext₂⟩ := hn 0 (by decide) ht hu rfl rfl htext₁.drop
      exact ⟨rfl, htext₂.tail.tail⟩
  | readonly ht =>
    cases hfb with
    | readonly hu =>
      simp only [toList_printMember_property, List.append_assoc, List.cons_append] at htext
      obtain ⟨rfl, rfl, htext₁⟩ := name_and_mark (.colon _) (.colon _) htext.drop
      obtain ⟨rfl, htext₂⟩ := hn 0 (by decide) ht hu rfl rfl htext₁.tail.tail
      exact ⟨rfl, htext₂.tail⟩
  | property ht =>
    cases hfb with
    | property hu =>
      simp only [toList_printMember_property, mark_false, List.nil_append, List.append_assoc,
        List.cons_append] at htext
      obtain ⟨rfl, rfl, htext₁⟩ := name_and_mark (.colon _) (.colon _) htext
      obtain ⟨rfl, htext₂⟩ := hn 0 (by decide) ht hu rfl rfl htext₁.tail.tail
      exact ⟨rfl, htext₂.tail⟩
    | method hs =>
      simp only [toList_printMember_property, toList_printMember_method, mark_false,
        List.nil_append, List.append_assoc, List.cons_append] at htext
      obtain ⟨-, -, htext₁⟩ := name_and_mark (.colon _) (markFollows_head _ _) htext
      exact absurd htext₁.1.symm (printHead_append_ne_colon _ _ _)
  | method hs =>
    cases hfb with
    | property hu =>
      simp only [toList_printMember_property, toList_printMember_method, mark_false,
        List.nil_append, List.append_assoc, List.cons_append] at htext
      obtain ⟨-, -, htext₁⟩ := name_and_mark (markFollows_head _ _) (.colon _) htext
      exact absurd htext₁.1 (printHead_append_ne_colon _ _ _)
    | method hs' =>
      simp only [toList_printMember_method, List.append_assoc] at htext
      obtain ⟨rfl, rfl, htext₁⟩ := name_and_mark (markFollows_head _ _) (markFollows_head _ _) htext
      obtain ⟨rfl, htext₂⟩ := signature_splits hn [':', ' '] hs hs' rfl rfl htext₁.succ
      exact ⟨rfl, htext₂.tail⟩

/-- **Object types.** The members of an object type split from what follows it. -/
theorem printMembers_splits (hn : LevelsSplit S n) :
    Splits n (fun ms => ∀ m ∈ ms, MemberReadable S m)
      (fun ms => (printMembers ms).toList ++ ['\x7d']) (fun _ => True) := by
  intro ms
  induction ms with
  | nil =>
    rintro (_ | ⟨m, ms⟩) r s _ hms _ _ htext <;>
      simp only [toList_printMembers_nil, toList_printMembers_cons, List.append_assoc,
        List.nil_append, List.cons_append] at htext
    · exact ⟨rfl, htext.tail⟩
    · exact absurd htext.1.symm ((hms m List.mem_cons_self).append_ne rfl _ _)
  | cons m ms ih =>
    rintro (_ | ⟨m', ms'⟩) r s hms hms' _ _ htext <;>
      simp only [toList_printMembers_nil, toList_printMembers_cons, List.append_assoc,
        List.nil_append, List.cons_append] at htext
    · exact absurd htext.1 ((hms m List.mem_cons_self).append_ne rfl _ _)
    · obtain ⟨rfl, hafter⟩ := printMember_splits hn (hms m List.mem_cons_self)
        (hms' m' List.mem_cons_self) trivial trivial htext
      obtain ⟨rfl, hrest⟩ := ih (fun x hx => hms x (List.mem_cons_of_mem _ hx))
        (fun x hx => hms' x (List.mem_cons_of_mem _ hx)) trivial trivial
        (by simpa using hafter.tail)
      exact ⟨rfl, hrest⟩

/-! ### Mapped types -/

/-- A modifier splits from a character that neither a sign nor its word starts with. -/
theorem modifierText_splits (n : Nat) {word : String} {c d : Char} (hc : c ∉ ['+', '-', d])
    (hword : word.toList.head? = some d) (hd : d ∉ ['+', '-']) :
    Splits n (fun _ => True) (fun modifier => (modifierText modifier word).toList)
      (fun r => r.head? = some c) := by
  have head_eq : ∀ (modifier : Option MappedModifier) {r : List Char}, r.head? = some c →
      ((modifierText modifier word).toList ++ r).head? = some (match modifier with
        | none => c
        | some .present => d
        | some .plus => '+'
        | some .minus => '-') := by
    intro modifier r hr
    rcases modifier with _ | (_ | _ | _) <;>
      simp [modifierText, MappedModifier.sign, hr, hword]
  simp only [List.mem_cons, List.not_mem_nil, or_false, not_or] at hc hd
  obtain ⟨hplus, hminus, hcd⟩ := hc
  obtain ⟨hdplus, hdminus⟩ := hd
  intro a b r s _ _ hr hs htext
  have hheads := head_eq a hr
  rw [htext.1, head_eq b hs] at hheads
  have hab : a = b := by
    clear head_eq htext
    rcases a with _ | (_ | _ | _) <;> rcases b with _ | (_ | _ | _) <;> grind
  subst hab
  exact ⟨rfl, htext.drop⟩

/-- A mapped type that is well-formed inside and out. -/
def MappedReadable (S : Set Double) (m : MappedType) : Prop :=
  m.WellFormed ∧ ∀ t ∈ m.types, t.Sound S

theorem Readable.mapped {m : MappedType} (h : (mapped m).Readable S) : MappedReadable S m :=
  ⟨h.sound.wellFormed, fun _ ht => h.sound.part ht⟩

theorem MappedReadable.exists_types {readonlyMod optionalMod : Option MappedModifier}
    {param : String} {constraint nameType type : Option TypeExpr}
    (h : MappedReadable S ⟨readonlyMod, param, constraint, nameType, optionalMod, type⟩) :
    ∃ t u, constraint = some t ∧ type = some u ∧ t.Readable S ∧ u.Readable S ∧
      ∀ v ∈ nameType, v.Readable S := by
  obtain ⟨t, ht, htplain⟩ := h.1.constraint_isPlain
  obtain ⟨u, hu, huplain⟩ := h.1.type_isPlain
  subst ht hu
  refine ⟨t, u, rfl, rfl, ⟨htplain, h.2 t (by simp [MappedType.types])⟩,
    ⟨huplain, h.2 u (by simp [MappedType.types])⟩, ?_⟩
  intro v hv
  exact ⟨h.1.nameType_isPlain v hv, h.2 v (by simp [MappedType.types, Option.mem_def.1 hv])⟩

/-- **Mapped types.** A mapped type splits from whatever follows it. -/
theorem printMapped_splits (hn : LevelsSplit S n) {a b : MappedType} (ha : MappedReadable S a)
    (hb : MappedReadable S b) {r s : List Char}
    (htext : SameText (n + 1) ((printMapped a).toList ++ r) ((printMapped b).toList ++ s)) :
    a = b ∧ SameText n r s := by
  obtain ⟨readonlyMod, param, constraint, nameType, optionalMod, type⟩ := a
  obtain ⟨readonlyMod', param', constraint', nameType', optionalMod', type'⟩ := b
  obtain ⟨t, u, rfl, rfl, ht, hu, hv⟩ := ha.exists_types
  obtain ⟨t', u', rfl, rfl, ht', hu', hv'⟩ := hb.exists_types
  simp only [toList_printMapped, List.append_assoc, List.cons_append] at htext
  have after_constraint : ∀ (nameType : Option TypeExpr) (x : List Char),
      stops 0 ((printAfter " as " nameType).toList ++ ']' :: x) := by
    intro nameType x
    cases nameType with
    | none => rw [toList_printAfter_none]; rfl
    | some v => rw [toList_printAfter_some]; rfl
  have after_nameType : ∀ x : List Char, stops 0 (']' :: x) ∧ ¬ " as ".toList <+: ']' :: x := by
    refine fun x => ⟨rfl, ?_⟩
    rintro ⟨y, hy⟩
    simp at hy
  obtain ⟨rfl, htext₁⟩ := modifierText_splits n (c := '[') (d := 'r') (by decide) rfl (by decide)
    trivial trivial rfl rfl htext.pred.tail
  obtain ⟨rfl, htext₂⟩ := name_splits n ha.1.param_isName.isDottedName
    hb.1.param_isName.isDottedName rfl rfl htext₁.tail
  obtain ⟨rfl, htext₃⟩ := hn 0 (by decide) ht ht' (after_constraint nameType _)
    (after_constraint nameType' _) htext₂.drop
  obtain ⟨rfl, htext₄⟩ := printAfter_splits hn " as " hv hv' (after_nameType _) (after_nameType _)
    htext₃
  obtain ⟨rfl, htext₅⟩ := modifierText_splits n (c := ':') (d := '?') (by decide) rfl (by decide)
    trivial trivial rfl rfl htext₄.tail
  obtain ⟨rfl, htext₆⟩ := hn 0 (by decide) hu hu' rfl rfl htext₅.tail.tail
  exact ⟨rfl, htext₆.tail.tail.tail⟩

/-- The text of a member is not that of a mapped type's parameter. -/
theorem MemberReadable.append_ne_mapped {m : Member} (h : MemberReadable S m)
    (modifier : Option MappedModifier) (x y : List Char) :
    (printMember m).toList ++ x ≠ (modifierText modifier "readonly ").toList ++ '[' :: y := by
  rcases modifier with _ | (_ | _ | _)
  · exact h.append_ne rfl x y
  · intro heq
    obtain ⟨lead, hform⟩ := h.exists_form
    have hlead := hform.memberLead_eq h.1.name_isName x
    rw [heq] at hlead
    cases hlead
    cases hform with
    | readonly ht =>
      rw [toList_printMember_property, List.append_assoc, List.append_assoc] at heq
      have hname := (List.append_right_inj "readonly ".toList).1 heq
      exact h.1.name_isName.isDottedName.append_ne rfl _ _ hname
  · exact h.append_ne rfl x _
  · exact h.append_ne rfl x _

end PropDocs.TypeExpr
