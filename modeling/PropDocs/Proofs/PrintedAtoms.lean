import PropDocs.Proofs.PrintedSignatures

/-!
# Printed operands of the tightest level

The types that stand everywhere without parentheses: literals, names, and the forms with brackets
of their own.

* `quoted_splits`: a quoted text ends at its closing quote, since a quote inside it is escaped;
* `AtomForm`, `atomLead`: the forms of these types, and the first piece of the text that tells
  them apart, but for object and mapped types (`object_ne_mapped`);
* `splits_five`: level five, from all levels of shorter texts.
-/

namespace PropDocs

open Text

/-! ### Quoted texts -/

theorem quoteChar_append_ne (c : Char) (x y : List Char) : quoteChar c ++ x ≠ '"' :: y := by
  unfold quoteChar
  split_ifs <;> simp_all

theorem quoteChar_append_inj {c d : Char} {x y : List Char}
    (h : quoteChar c ++ x = quoteChar d ++ y) : c = d := by
  unfold quoteChar at h
  split_ifs at h <;> grind

/-- A quoted text splits from whatever follows its closing quote. -/
theorem quoted_splits (n : Nat) :
    Splits n (fun _ => True) (fun cs : List Char => cs.flatMap quoteChar ++ ['"'])
      (fun _ => True) := by
  intro cs
  induction cs with
  | nil =>
    rintro (_ | ⟨d, ds⟩) r s _ _ _ _ htext <;>
      simp only [List.flatMap_nil, List.flatMap_cons, List.append_assoc, List.nil_append,
        List.cons_append] at htext
    · exact ⟨rfl, htext.tail⟩
    · exact absurd htext.1.symm (quoteChar_append_ne _ _ _)
  | cons c cs ih =>
    rintro (_ | ⟨d, ds⟩) r s _ _ _ _ htext <;>
      simp only [List.flatMap_nil, List.flatMap_cons, List.append_assoc, List.nil_append,
        List.cons_append] at htext
    · exact absurd htext.1 (quoteChar_append_ne _ _ _)
    · have hcd := quoteChar_append_inj htext.1
      subst hcd
      obtain ⟨rfl, hrest⟩ := ih trivial trivial trivial trivial (by simpa using htext.drop)
      exact ⟨rfl, hrest⟩

namespace TypeExpr

variable {S : Set Double} {n : Nat}

/-! ### Level five: one operand -/

/-- The first piece of an operand of the tightest level. -/
inductive AtomLead where
  | paren | string | template | tuple | braces
  | number | bigint | keyword (k : Keyword) | boolean (b : Bool) | thisType | query | imported
  | named

/-- The kind of a leading word. -/
def AtomLead.ofWord (w : String) : AtomLead :=
  if Double.startsNumber w.toList then
    (if w.toList.getLast? = some 'n' then .bigint else .number)
  else
    match Keyword.ofText? w with
    | some k => .keyword k
    | none =>
      if w = "true" then .boolean true
      else if w = "false" then .boolean false
      else if w = "this" then .thisType
      else if w = "typeof" then .query
      else if w = "import" then .imported
      else .named

/-- The kind of the first piece of a text. -/
def atomLead (x : List Char) : AtomLead :=
  if x.head?.any isWordChar then .ofWord (String.ofList (x.takeWhile isWordChar))
  else
    match x.head? with
    | some '"' => .string
    | some '`' => .template
    | some '[' => .tuple
    | some '\x7b' => .braces
    | _ => .paren

theorem atomLead_word {w : String} {x : List Char} (hw : w.toList.all isWordChar)
    (hx : x.head?.any isWordChar = false) (hne : w ≠ "") :
    atomLead (w.toList ++ x) = .ofWord w := by
  have hhead : (w.toList ++ x).head?.any isWordChar := by
    cases hs : w.toList with
    | nil => exact absurd (String.toList_eq_nil_iff.1 hs) hne
    | cons c cs =>
      rw [hs, List.all_cons, Bool.and_eq_true] at hw
      exact hw.1
  rw [atomLead, if_pos hhead, takeWhile_run hw hx, String.ofList_toList]

theorem atomLead_name {name : String} {x : List Char} (h : IsDottedName name)
    (hx : x.head?.any isWordChar = false) : atomLead (name.toList ++ x) = .named := by
  have ne_word : ∀ {w : String}, w ∈ printedWords → name ≠ w := by
    rintro w hw rfl
    exact h.2 hw
  have hkeyword : Keyword.ofText? name = none := by
    rw [Keyword.ofText?, List.find?_eq_none]
    intro k hk htext
    have heq : k.text = name := by simpa using htext
    refine h.2 (heq ▸ ?_)
    exact List.mem_append_left _ (List.mem_map_of_mem hk)
  rw [atomLead_word h.all_isWordChar hx h.ne_empty, AtomLead.ofWord, h.startsNumber_eq, hkeyword]
  simp [ne_word (w := "true") (by decide), ne_word (w := "false") (by decide),
    ne_word (w := "this") (by decide), ne_word (w := "typeof") (by decide),
    ne_word (w := "import") (by decide)]

/-- The forms of operands of the tightest level. -/
inductive AtomForm : TypeExpr → AtomLead → Prop where
  | paren {t : TypeExpr} : t.precedence < 5 → AtomForm t .paren
  | string (s : String) : AtomForm (.string s) .string
  | template (ps : List TemplatePart) : AtomForm (.template ps) .template
  | tuple (es : List TupleElement) : AtomForm (.tuple es) .tuple
  | object (ms : List Member) : AtomForm (.object ms) .braces
  | mapped (m : MappedType) : AtomForm (.mapped m) .braces
  | number (x : Double) : AtomForm (.number x) .number
  | bigint (digits : String) : AtomForm (.bigint digits) .bigint
  | keyword (k : Keyword) : AtomForm (.keyword k) (.keyword k)
  | boolean (b : Bool) : AtomForm (.boolean b) (.boolean b)
  | thisType : AtomForm .thisType .thisType
  | query (name : String) : AtomForm (.query name) .query
  | imported (argument : String) (qualifier : Option String) (args : List TypeExpr) :
      AtomForm (.imported argument qualifier args) .imported
  | reference (name : String) (args : List TypeExpr) : AtomForm (.reference name args) .named

theorem Readable.exists_atomForm {t : TypeExpr} (ht : t.Readable S) : ∃ lead, AtomForm t lead := by
  cases t with
  | keyword k => exact ⟨_, .keyword k⟩
  | string s => exact ⟨_, .string s⟩
  | number x => exact ⟨_, .number x⟩
  | bigint digits => exact ⟨_, .bigint digits⟩
  | boolean b => exact ⟨_, .boolean b⟩
  | template ps => exact ⟨_, .template ps⟩
  | reference name args => exact ⟨_, .reference name args⟩
  | tuple es => exact ⟨_, .tuple es⟩
  | object ms => exact ⟨_, .object ms⟩
  | mapped m => exact ⟨_, .mapped m⟩
  | query name => exact ⟨_, .query name⟩
  | imported argument qualifier args => exact ⟨_, .imported argument qualifier args⟩
  | thisType => exact ⟨_, .thisType⟩
  | union ts =>
    obtain ⟨u, v, us, rfl⟩ := exists_operands ht.sound.wellFormed.1
    exact ⟨_, .paren (by simp [precedence])⟩
  | intersection ts =>
    obtain ⟨u, v, us, rfl⟩ := exists_operands ht.sound.wellFormed.1
    exact ⟨_, .paren (by simp [precedence])⟩
  | _ => exact ⟨_, .paren (by simp [precedence])⟩

/-- The last character tells a big integer from a number. -/
theorem ofWord_number {x : Double} (hx : x.isFinite) : AtomLead.ofWord x.render = .number := by
  have hnumeral := Double.isNumeral_render hx
  have hlast : x.render.toList.getLast? ≠ some 'n' := by
    intro hlast
    have hall := hnumeral.all_isNumeralChar
    rw [List.all_eq_true] at hall
    exact absurd (hall 'n' (List.mem_of_getLast? hlast)) (by decide)
  rw [AtomLead.ofWord, if_pos hnumeral.starts, if_neg hlast]

theorem ofWord_bigint {digits : String} (h : (bigint digits).WellFormed) :
    AtomLead.ofWord (digits ++ "n") = .bigint := by
  have hlast : (digits ++ "n").toList.getLast? = some 'n' := by
    simp [String.toList_append]
  rw [AtomLead.ofWord, if_pos (bigint_word h).2, if_pos hlast]

/-- What an operand of the tightest level starts with tells its form. -/
theorem AtomForm.atomLead_eq {t : TypeExpr} {lead : AtomLead} (h : AtomForm t lead)
    (ht : t.Readable S) {r : List Char} (hr : stops 5 r) : atomLead (t.chars 5 ++ r) = lead := by
  have hword := not_word_of_stops hr
  have hwf := ht.sound.wellFormed
  cases h with
  | paren hprec =>
    rw [chars_of_lt hprec]
    rfl
  | string s =>
    rw [chars_of_le (Nat.le_refl 5), chars_string]
    rfl
  | template ps =>
    rw [chars_of_le (Nat.le_refl 5), chars_template]
    rfl
  | tuple es =>
    rw [chars_of_le (Nat.le_refl 5), chars_tuple]
    rfl
  | object ms =>
    rw [chars_of_le (Nat.le_refl 5)]
    cases ms with
    | nil => rw [chars_object_nil]; rfl
    | cons m ms => rw [chars_object_cons]; rfl
  | mapped m =>
    obtain ⟨readonlyMod, param, constraint, nameType, optionalMod, type⟩ := m
    obtain ⟨_, _, rfl, rfl, -⟩ := ht.mapped.exists_types
    rw [chars_of_le (Nat.le_refl 5), chars_mapped, toList_printMapped]
    rfl
  | number x =>
    have hnumeral := Double.isNumeral_render hwf
    rw [chars_of_le (Nat.le_refl 5), chars_number, atomLead_word hnumeral.all_isWordChar hword
      (ne_empty_of_startsNumber hnumeral.starts), ofWord_number hwf]
  | bigint digits =>
    rw [chars_of_le (Nat.le_refl 5), chars_bigint, atomLead_word (bigint_word hwf).1 hword
      (ne_empty_of_startsNumber (bigint_word hwf).2), ofWord_bigint hwf]
  | keyword k =>
    rw [chars_of_le (Nat.le_refl 5), chars_keyword,
      atomLead_word (by cases k <;> decide) hword (by cases k <;> decide)]
    cases k <;> rfl
  | boolean b =>
    rw [chars_of_le (Nat.le_refl 5), chars_boolean,
      atomLead_word (by cases b <;> decide) hword (by cases b <;> decide)]
    cases b <;> rfl
  | thisType =>
    rw [chars_of_le (Nat.le_refl 5), chars_thisType, atomLead_word (by decide) hword (by decide)]
    rfl
  | query name =>
    rw [chars_of_le (Nat.le_refl 5), chars_query, List.append_assoc,
      atomLead_word (by decide) rfl (by decide)]
    rfl
  | imported argument qualifier args =>
    rw [chars_of_le (Nat.le_refl 5), chars_imported, List.append_assoc,
      atomLead_word (by decide) rfl (by decide)]
    rfl
  | reference name args =>
    rw [chars_of_le (Nat.le_refl 5), chars_reference, List.append_assoc,
      atomLead_name hwf.1 (not_word_args args hr).1]

/-- An imported type splits: its text ends at the next quote. -/
theorem imported_splits (hn : LevelsSplit S n) {argument argument' : String}
    {qualifier qualifier' : Option String} {args args' : List TypeExpr}
    (ht : (imported argument qualifier args).Readable S)
    (hu : (imported argument' qualifier' args').Readable S) {r s : List Char} (hr : stops 5 r)
    (hs : stops 5 s) (htext : SameText (n + 1) ((imported argument qualifier args).chars 0 ++ r)
      ((imported argument' qualifier' args').chars 0 ++ s)) :
    imported argument qualifier args = imported argument' qualifier' args' ∧
      SameText n r s := by
  obtain ⟨hquote, hqualifier, hplain⟩ := ht.sound.wellFormed
  obtain ⟨hquote', hqualifier', hplain'⟩ := hu.sound.wellFormed
  have hargs : ∀ t ∈ args, t.Readable S := fun t h => ht.part h (hplain t h)
  have hargs' : ∀ t ∈ args', t.Readable S := fun t h => hu.part h (hplain' t h)
  simp only [chars_imported, List.append_assoc, List.cons_append] at htext
  have unquoted : ∀ {w : String}, '"' ∉ w.toList → w.toList.all (· != '"') := by
    intro w hw
    rw [List.all_eq_true]
    intro c hc
    simpa using fun h : c = '"' => hw (h ▸ hc)
  obtain ⟨hargument, htext₁⟩ := (SameText.dropPred (by decide) htext).tail.tail.run
    (unquoted hquote) (unquoted hquote') rfl rfl
  have not_dot : ∀ (args : List TypeExpr) {r x : List Char}, stops 5 r →
      (printArgs args).toList ++ r ≠ '.' :: x := by
    intro args r x hr heq
    have hword := (not_word_args args hr).1
    rw [heq] at hword
    cases hword
  obtain rfl := String.ext hargument
  have htext₂ := htext₁.tail.tail
  cases qualifier with
  | none =>
    cases qualifier' with
    | none =>
      obtain ⟨rfl, hrest⟩ := printArgs_splits hn hargs hargs' hr hs htext₂
      exact ⟨rfl, hrest⟩
    | some q' => exact absurd htext₂.1 (not_dot args hr)
  | some q =>
    cases qualifier' with
    | none => exact absurd htext₂.1.symm (not_dot args' hs)
    | some q' =>
      obtain ⟨rfl, htext₃⟩ := name_splits n (hqualifier q rfl) (hqualifier' q' rfl)
        (not_word_args args hr).1 (not_word_args args' hs).1 htext₂.tail
      obtain ⟨rfl, hrest⟩ := printArgs_splits hn hargs hargs' hr hs htext₃
      exact ⟨rfl, hrest⟩

theorem reference_splits (hn : LevelsSplit S n) {name name' : String} {args args' : List TypeExpr}
    (ht : (reference name args).Readable S) (hu : (reference name' args').Readable S)
    {r s : List Char} (hr : stops 5 r) (hs : stops 5 s)
    (htext : SameText (n + 1) ((reference name args).chars 0 ++ r)
      ((reference name' args').chars 0 ++ s)) :
    reference name args = reference name' args' ∧ SameText n r s := by
  obtain ⟨hname, hplain⟩ := ht.sound.wellFormed
  obtain ⟨hname', hplain'⟩ := hu.sound.wellFormed
  simp only [chars_reference, List.append_assoc] at htext
  obtain ⟨rfl, -⟩ := name_splits (n + 1) hname hname' (not_word_args args hr).1
    (not_word_args args' hs).1 htext
  have hne : name.toList ≠ [] := mt String.toList_eq_nil_iff.1 hname.ne_empty
  obtain ⟨rfl, hrest⟩ := printArgs_splits hn (fun t h => ht.part h (hplain t h))
    (fun t h => hu.part h (hplain' t h)) hr hs (htext.dropPred hne)
  exact ⟨rfl, hrest⟩

/-- **Braces.** An object type is told from a mapped type by what follows the opening brace. -/
theorem object_ne_mapped {ms : List Member} {m : MappedType} (ht : (object ms).Readable S)
    (hu : (mapped m).Readable S) (r s : List Char) :
    (object ms).chars 0 ++ r ≠ (mapped m).chars 0 ++ s := by
  obtain ⟨readonlyMod, param, constraint, nameType, optionalMod, type⟩ := m
  obtain ⟨_, _, rfl, rfl, -⟩ := hu.mapped.exists_types
  intro heq
  cases ms with
  | nil =>
    simp only [chars_object_nil, chars_mapped, toList_printMapped, List.cons_append] at heq
    exact absurd (List.cons.inj (List.cons.inj heq).2).1 (by decide)
  | cons m ms =>
    simp only [chars_object_cons, chars_mapped, toList_printMapped, toList_printMembers_cons,
      List.append_assoc, List.cons_append] at heq
    exact (ht.member List.mem_cons_self).append_ne_mapped _ _ _
      (List.cons.inj (List.cons.inj heq).2).2

theorem object_splits (hn : LevelsSplit S n) {ms ms' : List Member} (ht : (object ms).Readable S)
    (hu : (object ms').Readable S) {r s : List Char}
    (htext : SameText (n + 1) ((object ms).chars 0 ++ r) ((object ms').chars 0 ++ s)) :
    object ms = object ms' ∧ SameText n r s := by
  cases ms with
  | nil =>
    cases ms' with
    | nil =>
      simp only [chars_object_nil, List.cons_append, List.nil_append] at htext
      exact ⟨rfl, htext.pred.tail⟩
    | cons m' ms' =>
      simp only [chars_object_nil, chars_object_cons, List.cons_append] at htext
      exact absurd htext.tail.head (by decide)
  | cons m ms =>
    cases ms' with
    | nil =>
      simp only [chars_object_nil, chars_object_cons, List.cons_append] at htext
      exact absurd htext.tail.head (by decide)
    | cons m' ms' =>
      simp only [chars_object_cons, List.cons_append] at htext
      obtain ⟨hms, hrest⟩ := printMembers_splits hn (fun _ => ht.member) (fun _ => hu.member)
        trivial trivial htext.pred.tail
      exact ⟨by rw [hms], hrest⟩

/-- **Level five.** An operand of the tightest level splits from what does not go on with it. -/
theorem splits_five (hS : Set.InjOn Double.render S) (hn : LevelsSplit S n) :
    Splits (n + 1) (Readable S) (chars 5) (fun r => stops 5 r) := by
  intro t u r s ht hu hr hs htext
  obtain ⟨lead, hft⟩ := ht.exists_atomForm
  obtain ⟨lead', hfu⟩ := hu.exists_atomForm
  have hlead := hft.atomLead_eq ht hr
  rw [htext.1, hfu.atomLead_eq hu hs] at hlead
  subst hlead
  have hword := not_word_of_stops hr
  have hword' := not_word_of_stops hs
  -- an operand that is not in parentheses
  have bare : ∀ {v w : TypeExpr}, v.precedence = 5 → w.precedence = 5 → t = v → u = w →
      SameText (n + 1) (v.chars 0 ++ r) (w.chars 0 ++ s) := by
    rintro v w hv hw rfl rfl
    rwa [chars_of_le hv.ge, chars_of_le hw.ge] at htext
  cases hft with
  | paren hprec =>
    cases hfu with
    | paren hprec' =>
      rw [chars_of_lt hprec, chars_of_lt hprec'] at htext
      simp only [List.append_assoc, List.cons_append, List.nil_append] at htext
      obtain ⟨heq, hrest⟩ := hn 0 (by decide) ht hu rfl rfl htext.pred
      exact ⟨heq, hrest.tail.succ⟩
  | string v =>
    cases hfu with
    | string w =>
      have htext₁ := bare rfl rfl rfl rfl
      simp only [chars_string, List.cons_append] at htext₁
      obtain ⟨heq, hrest⟩ := quoted_splits n trivial trivial trivial trivial htext₁.pred
      exact ⟨by rw [String.ext heq], hrest.succ⟩
  | template ps =>
    cases hfu with
    | template qs =>
      have htext₁ := bare rfl rfl rfl rfl
      simp only [chars_template, List.cons_append] at htext₁
      obtain ⟨rfl, hrest⟩ := printParts_splits hn ht.templateParts hu.templateParts trivial trivial
        htext₁.pred
      exact ⟨rfl, hrest.succ⟩
  | tuple es =>
    cases hfu with
    | tuple fs =>
      have htext₁ := bare rfl rfl rfl rfl
      simp only [chars_tuple, List.cons_append] at htext₁
      obtain ⟨rfl, hrest⟩ := printElements_splits hn (fun _ => ht.element) (fun _ => hu.element)
        trivial trivial htext₁.pred
      exact ⟨rfl, hrest.succ⟩
  | object ms =>
    cases hfu with
    | object ms' =>
      obtain ⟨heq, hrest⟩ := object_splits hn ht hu (bare rfl rfl rfl rfl)
      exact ⟨heq, hrest.succ⟩
    | mapped m' => exact absurd (bare rfl rfl rfl rfl).1 (object_ne_mapped ht hu r s)
  | mapped m =>
    cases hfu with
    | object ms' => exact absurd (bare rfl rfl rfl rfl).1.symm (object_ne_mapped hu ht s r)
    | mapped m' =>
      have htext₁ := bare rfl rfl rfl rfl
      simp only [chars_mapped] at htext₁
      obtain ⟨rfl, hrest⟩ := printMapped_splits hn ht.mapped hu.mapped htext₁
      exact ⟨rfl, hrest.succ⟩
  | number x =>
    cases hfu with
    | number y =>
      have htext₁ := bare rfl rfl rfl rfl
      simp only [chars_number] at htext₁
      obtain ⟨heq, hrest⟩ := htext₁.word
        (Double.isNumeral_render ht.sound.wellFormed).all_isWordChar
        (Double.isNumeral_render hu.sound.wellFormed).all_isWordChar hword hword'
      have hxy := hS (ht.sound.numbers_subset (Occurs.refl _))
        (hu.sound.numbers_subset (Occurs.refl _)) heq
      exact ⟨by rw [hxy], hrest⟩
  | bigint digits =>
    cases hfu with
    | bigint digits' =>
      have htext₁ := bare rfl rfl rfl rfl
      simp only [chars_bigint] at htext₁
      obtain ⟨heq, hrest⟩ := htext₁.word (bigint_word ht.sound.wellFormed).1
        (bigint_word hu.sound.wellFormed).1 hword hword'
      have hdigits : digits = digits' := by
        have hlists := congrArg String.toList heq
        rw [String.toList_append, String.toList_append] at hlists
        exact String.ext (List.append_cancel_right hlists)
      exact ⟨by rw [hdigits], hrest⟩
  | keyword k =>
    cases hfu with
    | keyword k => exact ⟨rfl, htext.drop⟩
  | boolean b =>
    cases hfu with
    | boolean b => exact ⟨rfl, htext.drop⟩
  | thisType =>
    cases hfu with
    | thisType => exact ⟨rfl, htext.drop⟩
  | query name =>
    cases hfu with
    | query name' =>
      have htext₁ := bare rfl rfl rfl rfl
      simp only [chars_query, List.append_assoc, List.cons_append] at htext₁
      obtain ⟨rfl, hrest⟩ := name_splits (n + 1) ht.sound.wellFormed hu.sound.wellFormed hword
        hword' htext₁.drop.tail
      exact ⟨rfl, hrest⟩
  | imported argument qualifier args =>
    cases hfu with
    | imported argument' qualifier' args' =>
      obtain ⟨heq, hrest⟩ := imported_splits hn ht hu hr hs (bare rfl rfl rfl rfl)
      exact ⟨heq, hrest.succ⟩
  | reference name args =>
    cases hfu with
    | reference name' args' =>
      obtain ⟨heq, hrest⟩ := reference_splits hn ht hu hr hs (bare rfl rfl rfl rfl)
      exact ⟨heq, hrest.succ⟩

end TypeExpr

end PropDocs
