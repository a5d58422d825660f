import PropDocs.Proofs.PrintedFront

/-!
# The pieces of printed types

What a printed type holds between its brackets, in texts that are short enough for the types inside
them to be read already.

* `LevelsSplit S n`: in texts shorter than `n`, types split at every level; it is the hypothesis of
  the induction on the length of the text;
* `mark_splits`, `printAfter_splits`, `printArgs_splits`: marks, optional pieces and arguments;
* `printParts_splits`: templates, whose texts hold neither the end nor the start of a hole;
* `ElementForm`, `printElements_splits`: tuples, whose elements have dots, a label and a mark of
  their own; `not_sameText_question` tells that mark from the one of a conditional type.
-/

namespace PropDocs

open Text

/-- **Levels below `n`.** In texts shorter than `n`, a type splits at every level from what does not
go on with an operand of that level. -/
def LevelsSplit (S : Set Double) (n : Nat) : Prop :=
  ∀ k ≤ 5, Splits n (TypeExpr.Readable S) (TypeExpr.chars k) (fun r => stops k r)

namespace TypeExpr

variable {S : Set Double} {n : Nat}

/-! ### Marks and optional pieces -/

theorem mark_false (word : String) : (mark false word).toList = [] := by
  simp [mark]

/-- A mark splits from a text that does not start with it. -/
theorem mark_splits (n : Nat) (word : String) :
    Splits n (fun _ => True) (fun flag => (mark flag word).toList)
      (fun r => ¬ word.toList <+: r) := by
  intro a b r s _ _ hr hs htext
  cases a <;> cases b
  · exact ⟨rfl, htext⟩
  · exact absurd ⟨s, htext.1.symm⟩ hr
  · exact absurd ⟨r, htext.1⟩ hs
  · exact ⟨rfl, htext.drop⟩

/-- A type behind a word splits, whether it is there or not. -/
theorem printAfter_splits (hn : LevelsSplit S n) (word : String) :
    Splits n (fun type => ∀ t ∈ type, t.Readable S) (fun type => (printAfter word type).toList)
      (fun r => stops 0 r ∧ ¬ word.toList <+: r) := by
  rintro (_ | t) (_ | u) r s ht hu ⟨hr, hrword⟩ ⟨hs, hsword⟩ htext <;>
    simp only [toList_printAfter_none, toList_printAfter_some, List.nil_append,
      List.append_assoc] at htext
  · exact ⟨rfl, htext⟩
  · exact absurd ⟨_, htext.1.symm⟩ hrword
  · exact absurd ⟨_, htext.1⟩ hsword
  · obtain ⟨rfl, hrest⟩ := hn 0 (by decide) (ht t rfl) (hu u rfl) hr hs htext.drop
    exact ⟨rfl, hrest⟩

/-- A type does not start with a character that no type starts with. -/
theorem Readable.chars_append_ne {t : TypeExpr} (ht : t.Readable S) {c : Char}
    (hc : ∀ x, front (c :: x) = none) {k : Nat} (hk : k ≤ 5) (x y : List Char) :
    t.chars k ++ x ≠ c :: y := by
  obtain ⟨l, hl, -⟩ := exists_front_operand ht hk (r := []) rfl
  rw [List.append_nil] at hl
  intro heq
  cases hchars : t.chars k with
  | nil =>
    rw [hchars] at hl
    cases hl
  | cons d z =>
    rw [hchars] at hl heq
    cases heq
    rw [hc] at hl
    cases hl

/-! ### Type arguments -/

/-- A type splits from a comma or the closing character of its list. -/
theorem item_splits (hn : LevelsSplit S n) (close : Char) (hclose : close ∈ ['>', ']', ')']) :
    Splits n (Readable S) (chars 0) (Delimits close) :=
  (hn 0 (by decide)).mono (fun _ ha => ha) fun _ hr => stops_of_delimits hclose 0 hr

theorem printArgs_splits (hn : LevelsSplit S n) :
    Splits n (fun ts => ∀ t ∈ ts, t.Readable S) (fun ts => (printArgs ts).toList)
      (fun r => stops 5 r) := by
  have hitems := (item_splits hn '>' (by decide)).enclosed (by decide)
    fun t ht x y => ht.chars_append_ne (fun _ => rfl) (by decide) x y
  have not_open : ∀ {r x : List Char}, stops 5 r → r ≠ '<' :: x := by
    rintro r x hr rfl
    cases hr
  rintro (_ | ⟨t, ts⟩) (_ | ⟨u, us⟩) r s ht hu hr hs htext <;>
    simp only [toList_printArgs_nil, toList_printArgs_cons, List.nil_append,
      List.cons_append] at htext
  · exact ⟨rfl, htext⟩
  · exact absurd htext.1 (not_open hr)
  · exact absurd htext.1.symm (not_open hs)
  · exact hitems ht hu trivial trivial htext.tail

/-! ### Templates -/

/-- Text of a template without its end and without the start of a hole. -/
def Unbroken (x : List Char) : Prop :=
  '`' ∉ x ∧ ¬ ['$', '\x7b'] <:+: x

/-- The end of a template or the start of a hole. -/
def Breaks (x : List Char) : Prop :=
  (∃ y, x = '`' :: y) ∨ ∃ y, x = '$' :: '\x7b' :: y

theorem Unbroken.tail {c : Char} {x : List Char} (h : Unbroken (c :: x)) : Unbroken x :=
  ⟨fun hmem => h.1 (List.mem_cons_of_mem _ hmem),
    fun hin => h.2 (hin.trans (List.infix_cons List.infix_rfl))⟩

/-- Text in front of a break is no break itself. -/
theorem Unbroken.eq_nil_of_breaks {x y : List Char} (hx : Unbroken x) (hy : Breaks y)
    (h : Breaks (x ++ y)) : x = [] := by
  cases x with
  | nil => rfl
  | cons c x =>
    rcases h with ⟨z, hz⟩ | ⟨z, hz⟩
    · cases hz
      exact absurd List.mem_cons_self hx.1
    · cases x with
      | nil =>
        -- the dollar sign is the text, so the brace starts what follows it
        cases hz
        rcases hy with ⟨_, h⟩ | ⟨_, h⟩ <;> cases h
      | cons d x =>
        cases hz
        exact absurd ⟨[], x, rfl⟩ hx.2

theorem unbroken_splits {x y r s : List Char} (hx : Unbroken x) (hy : Unbroken y) (hr : Breaks r)
    (hs : Breaks s) (htext : SameText n (x ++ r) (y ++ s)) : x = y ∧ SameText n r s := by
  induction x generalizing y with
  | nil =>
    have hnil : y = [] := hy.eq_nil_of_breaks hs (htext.1 ▸ hr)
    subst hnil
    exact ⟨rfl, htext⟩
  | cons c x ih =>
    cases y with
    | nil =>
      have hnil := hx.eq_nil_of_breaks hr (htext.1 ▸ hs)
      cases hnil
    | cons d y =>
      have hcd := htext.head
      subst hcd
      obtain ⟨rfl, hrest⟩ := ih hx.tail hy.tail htext.tail
      exact ⟨rfl, hrest⟩

/-- Parts of a template that are well-formed, with no two texts side by side. -/
structure PartsReadable (S : Set Double) (ps : List TemplatePart) : Prop where
  wellFormed : ∀ p ∈ ps, p.WellFormed
  sound : ∀ p ∈ ps, ∀ t ∈ p.types, t.Sound S
  isChain : ps.IsChain fun p q => ¬ (p.isText ∧ q.isText)

theorem Readable.templateParts {ps : List TemplatePart} (h : (template ps).Readable S) :
    PartsReadable S ps where
  wellFormed := h.sound.wellFormed.1
  sound p hp _ ht := h.sound.part (List.mem_flatMap.2 ⟨p, hp, ht⟩)
  isChain := h.sound.wellFormed.2

theorem PartsReadable.tail {p : TemplatePart} {ps : List TemplatePart}
    (h : PartsReadable S (p :: ps)) : PartsReadable S ps where
  wellFormed q hq := h.wellFormed q (List.mem_cons_of_mem p hq)
  sound q hq := h.sound q (List.mem_cons_of_mem p hq)
  isChain := h.isChain.tail

theorem PartsReadable.unbroken {s : String} {ps : List TemplatePart}
    (h : PartsReadable S (.text s :: ps)) : Unbroken s.toList ∧ s.toList ≠ [] := by
  have hs := h.wellFormed _ List.mem_cons_self
  exact ⟨hs.2, mt String.toList_eq_nil_iff.1 hs.1⟩

theorem PartsReadable.readable {t : TypeExpr} {ps : List TemplatePart}
    (h : PartsReadable S (.type t :: ps)) : t.Readable S :=
  ⟨h.wellFormed _ List.mem_cons_self, h.sound _ List.mem_cons_self t (by simp [TemplatePart.types])⟩

/-- Behind a text the template ends or has a hole. -/
theorem PartsReadable.breaks {s : String} {ps : List TemplatePart}
    (h : PartsReadable S (.text s :: ps)) (r : List Char) :
    Breaks ((printParts ps).toList ++ '`' :: r) := by
  cases ps with
  | nil =>
    rw [toList_printParts_nil]
    exact .inl ⟨r, rfl⟩
  | cons p ps =>
    cases p with
    | text s' =>
      have hchain := (List.isChain_cons_cons.1 h.isChain).1
      exact absurd ⟨rfl, rfl⟩ hchain
    | type t =>
      rw [toList_printParts_type]
      exact .inr ⟨_, rfl⟩

/-- **Templates.** The parts of a template split from what follows the template. -/
theorem printParts_splits (hn : LevelsSplit S n) :
    Splits n (PartsReadable S) (fun ps => (printParts ps).toList ++ ['`']) (fun _ => True) := by
  -- a template that starts with text starts with neither its end nor a hole
  have text_ne : ∀ {s : String} {ps : List TemplatePart} {r x : List Char},
      PartsReadable S (.text s :: ps) → Breaks x →
      s.toList ++ ((printParts ps).toList ++ '`' :: r) ≠ x := by
    intro s ps r x hps hx heq
    exact hps.unbroken.2 (hps.unbroken.1.eq_nil_of_breaks (hps.breaks r) (heq ▸ hx))
  intro ps
  induction ps with
  | nil =>
    rintro (_ | ⟨v | u, qs⟩) r s _ hqs _ _ htext <;>
      simp only [toList_printParts_nil, toList_printParts_text, toList_printParts_type,
        List.append_assoc, List.nil_append, List.cons_append] at htext
    · exact ⟨rfl, htext.tail⟩
    · exact absurd htext.1.symm (text_ne hqs (.inl ⟨_, rfl⟩))
    · exact absurd htext.head (by decide)
  | cons p ps ih =>
    rintro (_ | ⟨q, qs⟩) r s hps hqs _ _ htext
    · cases p <;>
        simp only [toList_printParts_nil, toList_printParts_text, toList_printParts_type,
          List.append_assoc, List.nil_append, List.cons_append] at htext
      · exact absurd htext.1 (text_ne hps (.inl ⟨_, rfl⟩))
      · exact absurd htext.head (by decide)
    · cases p <;> cases q <;>
        simp only [toList_printParts_text, toList_printParts_type, List.append_assoc,
          List.nil_append, List.cons_append] at htext
      · obtain ⟨hword, hparts⟩ := unbroken_splits hps.unbroken.1 hqs.unbroken.1 (hps.breaks r)
          (hqs.breaks s) htext
        obtain ⟨rfl, hrest⟩ := ih hps.tail hqs.tail trivial trivial (by simpa using hparts)
        exact ⟨by rw [String.ext hword], hrest⟩
      · exact absurd htext.1 (text_ne hps (.inr ⟨_, rfl⟩))
      · exact absurd htext.1.symm (text_ne hqs (.inr ⟨_, rfl⟩))
      · obtain ⟨rfl, hparts⟩ := hn 0 (by decide) hps.readable hqs.readable rfl rfl htext.tail.tail
        obtain ⟨rfl, hrest⟩ := ih hps.tail hqs.tail trivial trivial (by simpa using hparts.tail)
        exact ⟨rfl, hrest⟩

/-! ### Tuple elements -/

/-- The mark of an optional element is no part of a type that stands alone. -/
theorem not_sameText_question (hn : LevelsSplit S n) {t : TypeExpr} (ht : t.Readable S)
    {r : List Char} (hr : stops 4 ('?' :: r)) (u : TypeExpr) (hu : u.Readable S) (k : Nat)
    (hk : k ≤ 4) (s : List Char) (hs : stops 4 s) (hmark : s.head? ≠ some '?') :
    ¬ SameText n (t.chars 4 ++ '?' :: r) (u.chars k ++ s) := by
  intro htext
  by_cases hprec : u.precedence < k ∨ 4 ≤ u.precedence
  · have hchars : u.chars k = u.chars 4 := chars_congr (by omega)
    rw [hchars] at htext
    obtain ⟨-, hrest⟩ := hn 4 (by decide) ht hu hr hs htext
    exact hmark (hrest.1 ▸ rfl)
  have hbare : u.chars k = u.chars 0 := chars_of_le (by omega)
  rw [hbare] at htext
  -- looser forms start with an operand and a blank, and the mark would have to follow that operand
  have operand : ∀ {v : TypeExpr} {j : Nat} {x : List Char}, sizeOf v < sizeOf u → v ∈ u.parts →
      v.isPlain → j ≤ 4 → u.chars 0 ++ s = v.chars j ++ ' ' :: x → stops 4 (' ' :: x) → False := by
    intro v j x hsize hv hplain hj heq hx
    rw [heq] at htext
    exact not_sameText_question hn ht hr v (hu.part hv hplain) j hj (' ' :: x) hx (by simp) htext
  -- the others have a front that no operand of level four has
  have looser : ∀ {l : Nat}, front (u.chars 0 ++ s) = some l → l < 4 → False := by
    intro l hl hlt
    obtain ⟨m, hm, hle⟩ := exists_front_operand ht (k := 4) (by decide) (stops_mono (by decide) hr)
    rw [htext.1, hl] at hm
    cases hm
    omega
  have hwf := hu.sound.wellFormed
  cases u with
  | function signature isConstructor =>
    exact looser (front_function hwf isConstructor s) (by decide)
  | operator op v => exact looser (front_operator op v s) (by decide)
  | infer name => exact looser (front_infer name s) (by decide)
  | conditional check bound yes no =>
    exact operand (j := 1) (by simp; omega) (by simp [parts]) hwf.1 (by decide)
      (by rw [chars_conditional, List.append_assoc, List.append_assoc]; rfl) rfl
  | union ts =>
    obtain ⟨v, w, us, rfl⟩ := exists_operands hwf.1
    exact operand (j := 1) (by simp; omega) (by simp [parts]) (hwf.2 v (by simp)).1 (by decide)
      (by rw [chars_union, chars_joined_append]; rfl) rfl
  | intersection ts =>
    obtain ⟨v, w, us, rfl⟩ := exists_operands hwf.1
    exact operand (j := 2) (by simp; omega) (by simp [parts]) (hwf.2 v (by simp)).1 (by decide)
      (by rw [chars_intersection, chars_joined_append]; rfl) rfl
  | predicate => cases hu.isPlain
  | _ => exact hprec (.inr (by simp [precedence]))
termination_by sizeOf u

theorem Readable.element {es : List TupleElement} (h : (tuple es).Readable S) {e : TupleElement}
    (he : e ∈ es) : e.WellFormed ∧ e.type.Sound S :=
  ⟨h.sound.wellFormed e he, h.sound.part (List.mem_map.2 ⟨e, he, rfl⟩)⟩

/-- The forms of tuple elements, by whether dots come first and whether there is a label. -/
inductive ElementForm (S : Set Double) : TupleElement → (dots label : Bool) → Prop where
  | plain {t : TypeExpr} : t.Readable S → ElementForm S ⟨none, t⟩ false false
  | optional {t : TypeExpr} : t.Readable S → ElementForm S ⟨none, .optional t⟩ false false
  | rest {t : TypeExpr} : t.Readable S → ElementForm S ⟨none, .rest t⟩ true false
  | labelPlain {l : String} {t : TypeExpr} : IsName l → t.Readable S →
      ElementForm S ⟨some l, t⟩ false true
  | labelOptional {l : String} {t : TypeExpr} : IsName l → t.Readable S →
      ElementForm S ⟨some l, .optional t⟩ false true
  | labelRest {l : String} {t : TypeExpr} : IsName l → t.Readable S →
      ElementForm S ⟨some l, .rest t⟩ true true

theorem exists_elementForm {e : TupleElement} (he : e.WellFormed) (hsound : e.type.Sound S) :
    ∃ dots label, ElementForm S e dots label := by
  obtain ⟨label, t⟩ := e
  have hpart : ∀ {u : TypeExpr}, u ∈ t.parts → u.isPlain → u.Readable S :=
    fun hu hplain => ⟨hplain, hsound.part hu⟩
  have hwf := hsound.wellFormed
  cases t with
  | optional u =>
    have hu := hpart (u := u) (by simp [parts]) hwf
    cases label with
    | none => exact ⟨_, _, .optional hu⟩
    | some l => exact ⟨_, _, .labelOptional (he.label_isName l rfl) hu⟩
  | rest u =>
    have hu := hpart (u := u) (by simp [parts]) hwf
    cases label with
    | none => exact ⟨_, _, .rest hu⟩
    | some l => exact ⟨_, _, .labelRest (he.label_isName l rfl) hu⟩
  | predicate => exact absurd he.type_isElement (by simp [isElement])
  | _ =>
    cases label with
    | none => exact ⟨_, _, .plain ⟨rfl, hsound⟩⟩
    | some l => exact ⟨_, _, .labelPlain (he.label_isName l rfl) ⟨rfl, hsound⟩⟩

/-- The mark of an optional element does not belong to its type. -/
theorem stops_question (k : Nat) {r : List Char} (hr : Delimits ']' r) : stops k ('?' :: r) := by
  rcases hr with hr | hr <;> simp only [stops, hr] <;> rfl

/-- The two marks of an element's form, read off its text. -/
def elementMarks : List Char → Bool × Bool
  | '.' :: x => (true, (front (x.drop 2)).isNone)
  | x => (false, (front x).isNone)

theorem elementMarks_of_front {x : List Char} {l : Nat} (h : front x = some l) :
    elementMarks x = (false, false) := by
  unfold elementMarks
  split
  · rw [front_dot] at h
    cases h
  · rw [h]
    rfl

theorem elementMarks_label {l : String} (hl : IsName l) {x : List Char}
    (hx : x.head?.any isWordChar = false) (hlabels : labels x) :
    elementMarks (l.toList ++ x) = (false, true) := by
  have hfront := hl.isDottedName.front_label hx hlabels
  unfold elementMarks
  split
  · rename_i y heq
    exact absurd heq (hl.isDottedName.append_ne (by decide) _ _)
  · rw [hfront]
    rfl

theorem ElementForm.marks_eq {e : TupleElement} {dots label : Bool} (h : ElementForm S e dots label)
    {r : List Char} (hr : Delimits ']' r) :
    elementMarks ((printElement e).toList ++ r) = (dots, label) := by
  have hstops := stops_of_delimits (by decide) 5 hr
  cases h with
  | plain ht =>
    obtain ⟨l, hl, -⟩ := exists_front _ ht r hstops
    rw [toList_printElement_none]
    exact elementMarks_of_front hl
  | optional ht =>
    obtain ⟨l, hl, -⟩ := exists_front_operand ht (k := 4) (by decide) (stops_question 5 hr)
    rw [toList_printElement_none, chars_optional, List.append_assoc]
    exact elementMarks_of_front hl
  | rest ht =>
    obtain ⟨l, hl, -⟩ := exists_front_operand ht (k := 4) (by decide) hstops
    rw [toList_printElement_none, chars_rest]
    show (true, (front (chars 4 _ ++ r)).isNone) = _
    rw [hl]
    rfl
  | labelPlain hl ht =>
    rw [toList_printElement_label (isMarked_of_isPlain ht.isPlain), List.append_assoc]
    exact elementMarks_label hl rfl rfl
  | labelOptional hl ht =>
    rw [toList_printElement_label_optional, List.append_assoc]
    exact elementMarks_label hl rfl rfl
  | labelRest hl ht =>
    rw [toList_printElement_label_rest]
    show (true, (front (String.toList _ ++ ':' :: ' ' :: _ ++ r)).isNone) = _
    rw [List.append_assoc, hl.isDottedName.front_label rfl rfl]
    rfl

theorem printElement_splits (hn : LevelsSplit S n) :
    Splits n (fun e : TupleElement => e.WellFormed ∧ e.type.Sound S)
      (fun e => (printElement e).toList) (Delimits ']') := by
  rintro e f r s ⟨hewf, hesound⟩ ⟨hfwf, hfsound⟩ hr hs htext
  obtain ⟨dots, label, he⟩ := exists_elementForm hewf hesound
  obtain ⟨dots', label', hf⟩ := exists_elementForm hfwf hfsound
  -- both have dots or none, and a label or none; what is left to tell apart is the optional mark
  have hmarks := he.marks_eq hr
  rw [htext.1, hf.marks_eq hs] at hmarks
  cases hmarks
  have hstops : ∀ k, stops k r ∧ stops k s := fun k =>
    ⟨stops_of_delimits (by decide) k hr, stops_of_delimits (by decide) k hs⟩
  have hmark : ∀ {x : List Char}, Delimits ']' x → x.head? ≠ some '?' := by
    rintro x (hx | hx) <;> simp [hx]
  cases he with
  | plain ht =>
    cases hf with
    | plain hu =>
      simp only [toList_printElement_none] at htext
      obtain ⟨rfl, hrest⟩ := hn 0 (by decide) ht hu (hstops 0).1 (hstops 0).2 htext
      exact ⟨rfl, hrest⟩
    | optional hu =>
      simp only [toList_printElement_none, chars_optional, List.append_assoc] at htext
      exact absurd htext.symm (not_sameText_question hn hu (stops_question 4 hs) _ ht 0 (by decide)
        r (hstops 4).1 (hmark hr))
  | optional ht =>
    cases hf with
    | plain hu =>
      simp only [toList_printElement_none, chars_optional, List.append_assoc] at htext
      exact absurd htext (not_sameText_question hn ht (stops_question 4 hr) _ hu 0 (by decide) s
        (hstops 4).2 (hmark hs))
    | optional hu =>
      simp only [toList_printElement_none, chars_optional, List.append_assoc] at htext
      obtain ⟨rfl, hrest⟩ := hn 4 (by decide) ht hu (stops_question 4 hr) (stops_question 4 hs)
        htext
      exact ⟨rfl, hrest.tail⟩
  | rest ht =>
    cases hf with
    | rest hu =>
      simp only [toList_printElement_none, chars_rest, List.cons_append] at htext
      obtain ⟨rfl, hrest⟩ := hn 4 (by decide) ht hu (hstops 4).1 (hstops 4).2 htext.tail.tail.tail
      exact ⟨rfl, hrest⟩
  | labelPlain hl ht =>
    cases hf with
    | labelPlain hm hu =>
      simp only [toList_printElement_label (isMarked_of_isPlain ht.isPlain),
        toList_printElement_label (isMarked_of_isPlain hu.isPlain), List.append_assoc, List.cons_append] at htext
      obtain ⟨rfl, hafter⟩ := name_splits n hl.isDottedName hm.isDottedName rfl rfl htext
      obtain ⟨rfl, hrest⟩ := hn 0 (by decide) ht hu (hstops 0).1 (hstops 0).2 hafter.tail.tail
      exact ⟨rfl, hrest⟩
    | labelOptional hm hu =>
      simp only [toList_printElement_label (isMarked_of_isPlain ht.isPlain), toList_printElement_label_optional,
        List.append_assoc, List.cons_append] at htext
      obtain ⟨-, hafter⟩ := name_splits n hl.isDottedName hm.isDottedName rfl rfl htext
      exact absurd hafter.head (by decide)
  | labelOptional hl ht =>
    cases hf with
    | labelPlain hm hu =>
      simp only [toList_printElement_label (isMarked_of_isPlain hu.isPlain), toList_printElement_label_optional,
        List.append_assoc, List.cons_append] at htext
      obtain ⟨-, hafter⟩ := name_splits n hl.isDottedName hm.isDottedName rfl rfl htext
      exact absurd hafter.head (by decide)
    | labelOptional hm hu =>
      simp only [toList_printElement_label_optional, List.append_assoc, List.cons_append] at htext
      obtain ⟨rfl, hafter⟩ := name_splits n hl.isDottedName hm.isDottedName rfl rfl htext
      obtain ⟨rfl, hrest⟩ := hn 0 (by decide) ht hu (hstops 0).1 (hstops 0).2 hafter.tail.tail.tail
      exact ⟨rfl, hrest⟩
  | labelRest hl ht =>
    cases hf with
    | labelRest hm hu =>
      simp only [toList_printElement_label_rest, List.append_assoc, List.cons_append] at htext
      obtain ⟨rfl, hafter⟩ := name_splits n hl.isDottedName hm.isDottedName rfl rfl
        htext.tail.tail.tail
      obtain ⟨rfl, hrest⟩ := hn 0 (by decide) ht hu (hstops 0).1 (hstops 0).2 hafter.tail.tail
      exact ⟨rfl, hrest⟩

/-- **Tuples.** The elements of a tuple split from what follows the tuple. -/
theorem printElements_splits (hn : LevelsSplit S n) :
    Splits n (fun es : List TupleElement => ∀ e ∈ es, e.WellFormed ∧ e.type.Sound S)
      (fun es => (printElements es).toList ++ [']']) (fun _ => True) := by
  have hlist := (printElement_splits hn).enclosed (by decide) (by
    rintro e ⟨hewf, hesound⟩ x y
    obtain ⟨dots, label, he⟩ := exists_elementForm hewf hesound
    cases he with
    | plain ht =>
      rw [toList_printElement_none]
      exact ht.chars_append_ne (fun _ => rfl) (by decide) _ _
    | optional ht =>
      rw [toList_printElement_none, chars_optional, List.append_assoc]
      exact ht.chars_append_ne (fun _ => rfl) (by decide) _ _
    | rest ht =>
      rw [toList_printElement_none, chars_rest]
      exact fun heq => absurd (List.cons.inj heq).1 (by decide)
    | labelPlain hl ht =>
      rw [toList_printElement_label (isMarked_of_isPlain ht.isPlain), List.append_assoc]
      exact hl.isDottedName.append_ne (by decide) _ _
    | labelOptional hl ht =>
      rw [toList_printElement_label_optional, List.append_assoc]
      exact hl.isDottedName.append_ne (by decide) _ _
    | labelRest hl ht =>
      rw [toList_printElement_label_rest]
      exact fun heq => absurd (List.cons.inj heq).1 (by decide))
  simpa only [toList_printElements] using hlist

end TypeExpr

end PropDocs
