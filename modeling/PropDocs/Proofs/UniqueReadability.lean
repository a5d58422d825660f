import PropDocs.Proofs.PrintedAtoms
import PropDocs.TypeExpr.Nullish

/-!
# Unique readability of printed types

The text of a canonical type determines the type.  The printer puts parentheses around an operand
that binds more loosely than its place asks for, so a text is read from the tightest level to the
loosest one, and each level is read from the level above it.

* `root`, `suffixes`: level four is an operand of level five and a list of brackets behind it;
* `isPrefixed`: level three is an operator in front of an operand of its own level;
* `Joins`, `JoinLevel`: levels two and one are lists of operands with a sign between them;
* `splits_zero`: level zero has functions and conditional types, and these are told apart by their
  fronts and by what follows their first operands;
* `levelsSplit`: the levels together, by induction on the length of the text;
* `eq_of_print_eq`: canonical types with the same text are the same type.
-/

namespace PropDocs.TypeExpr

open Text

variable {S : Set Double} {n : Nat}

theorem precedence_union (ts : List TypeExpr) :
    (union ts).precedence = 1 ∨ (union ts).precedence = 5 := by
  unfold precedence
  split <;> simp_all

theorem precedence_intersection (ts : List TypeExpr) :
    (intersection ts).precedence = 2 ∨ (intersection ts).precedence = 5 := by
  unfold precedence
  split <;> simp_all

/-! ### Level four: suffixes -/

/-- What is left of an array or an indexed type without its brackets. -/
def root : TypeExpr → TypeExpr
  | .array t => root t
  | .indexed t _ => root t
  | t => t

/-- The brackets behind the root of a type: empty, or with an index. -/
def suffixes : TypeExpr → List (Option TypeExpr)
  | .array t => suffixes t ++ [none]
  | .indexed t index => suffixes t ++ [some index]
  | _ => []

/-- The text of a pair of brackets. -/
def suffixChars : Option TypeExpr → List Char
  | none => ['[', ']']
  | some index => '[' :: (index.chars 0 ++ [']'])

/-- A type with a pair of brackets behind it. -/
def withSuffix (t : TypeExpr) : Option TypeExpr → TypeExpr
  | none => .array t
  | some index => .indexed t index

theorem foldl_suffixes (t : TypeExpr) : t.suffixes.foldl withSuffix t.root = t := by
  cases t with
  | array u => simp [suffixes, root, List.foldl_append, foldl_suffixes u, withSuffix]
  | indexed u i => simp [suffixes, root, List.foldl_append, foldl_suffixes u, withSuffix]
  | _ => rfl
termination_by sizeOf t

/-- Of the types that may stand alone only those with brackets behind them are of level four. -/
theorem precedence_ne_four {t : TypeExpr} (hplain : t.isPlain) (hroot : t.suffixes = []) :
    t.precedence ≠ 4 := by
  cases t with
  | array => simp [suffixes] at hroot
  | indexed => simp [suffixes] at hroot
  | optional => cases hplain
  | rest => cases hplain
  | union ts => rcases precedence_union ts with h | h <;> omega
  | intersection ts => rcases precedence_intersection ts with h | h <;> omega
  | _ => simp [precedence]

/-- An operand of level four is its root, as an operand of level five, and brackets. -/
theorem chars_four (t : TypeExpr) (ht : t.Readable S) :
    t.chars 4 = t.root.chars 5 ++ t.suffixes.flatMap suffixChars ∧ t.root.Readable S ∧
      ∀ suffix ∈ t.suffixes, ∀ i ∈ suffix, i.Readable S := by
  have hwf := ht.sound.wellFormed
  cases t with
  | array u =>
    obtain ⟨hchars, hroot, hsuffixes⟩ := chars_four u (ht.part (by simp [parts]) hwf)
    refine ⟨?_, hroot, ?_⟩
    · rw [chars_of_le (Nat.le_refl 4), chars_array, hchars]
      simp [suffixes, root, suffixChars]
    · intro suffix hsuffix
      rcases List.mem_append.1 hsuffix with hsuffix | hsuffix
      · exact hsuffixes suffix hsuffix
      · cases List.mem_singleton.1 hsuffix
        intro i hi
        cases hi
  | indexed u i =>
    obtain ⟨hchars, hroot, hsuffixes⟩ := chars_four u (ht.part (by simp [parts]) hwf.1)
    refine ⟨?_, hroot, ?_⟩
    · rw [chars_of_le (Nat.le_refl 4), chars_indexed, hchars]
      simp [suffixes, root, suffixChars]
    · intro suffix hsuffix
      rcases List.mem_append.1 hsuffix with hsuffix | hsuffix
      · exact hsuffixes suffix hsuffix
      · cases List.mem_singleton.1 hsuffix
        intro j hj
        cases hj
        exact ht.part (by simp [parts]) hwf.2
  | _ =>
    have hprec := precedence_ne_four ht.isPlain rfl
    refine ⟨?_, ht, fun _ h => absurd h List.not_mem_nil⟩
    show chars 4 _ = chars 5 _ ++ []
    rw [List.append_nil]
    exact chars_congr (by omega)
termination_by sizeOf t

theorem suffix_splits (hn : LevelsSplit S n) {x y : Option TypeExpr} (hx : ∀ i ∈ x, i.Readable S)
    (hy : ∀ i ∈ y, i.Readable S) {r s : List Char}
    (htext : SameText (n + 1) (suffixChars x ++ r) (suffixChars y ++ s)) :
    x = y ∧ SameText n r s := by
  cases x with
  | none =>
    cases y with
    | none => exact ⟨rfl, htext.pred.tail⟩
    | some j =>
      simp only [suffixChars, List.append_assoc, List.cons_append, List.nil_append] at htext
      exact absurd htext.pred.1.symm
        ((hy j rfl).chars_append_ne (fun _ => rfl) (by decide) _ _)
  | some i =>
    cases y with
    | none =>
      simp only [suffixChars, List.append_assoc, List.cons_append, List.nil_append] at htext
      exact absurd htext.pred.1 ((hx i rfl).chars_append_ne (fun _ => rfl) (by decide) _ _)
    | some j =>
      simp only [suffixChars, List.append_assoc, List.cons_append, List.nil_append] at htext
      obtain ⟨rfl, hrest⟩ := hn 0 (by decide) (hx i rfl) (hy j rfl) rfl rfl htext.pred
      exact ⟨rfl, hrest.tail⟩

theorem suffixes_splits (hn : LevelsSplit S n) :
    Splits (n + 1) (fun xs : List (Option TypeExpr) => ∀ x ∈ xs, ∀ i ∈ x, i.Readable S)
      (fun xs => xs.flatMap suffixChars) (fun r => stops 4 r) := by
  have not_open : ∀ {r y : List Char} (x : Option TypeExpr), stops 4 r →
      r ≠ suffixChars x ++ y := by
    rintro r y (_ | i) hr rfl
    · cases hr
    · cases hr
  intro xs
  induction xs with
  | nil =>
    rintro (_ | ⟨y, ys⟩) r s _ _ hr _ htext
    · exact ⟨rfl, htext⟩
    · simp only [List.flatMap_nil, List.flatMap_cons, List.nil_append, List.append_assoc] at htext
      exact absurd htext.1 (not_open y hr)
  | cons x xs ih =>
    rintro (_ | ⟨y, ys⟩) r s hxs hys hr hs htext <;>
      simp only [List.flatMap_nil, List.flatMap_cons, List.nil_append, List.append_assoc] at htext
    · exact absurd htext.1.symm (not_open x hs)
    · obtain ⟨rfl, hafter⟩ := suffix_splits hn (hxs x List.mem_cons_self)
        (hys y List.mem_cons_self) htext
      obtain ⟨rfl, hrest⟩ := ih (fun x hx => hxs x (List.mem_cons_of_mem _ hx))
        (fun x hx => hys x (List.mem_cons_of_mem _ hx)) hr hs hafter.succ
      exact ⟨rfl, hrest⟩

/-- **Level four.** The root splits from the brackets, and these from what is no bracket. -/
theorem splits_four (hfive : Splits (n + 1) (Readable S) (chars 5) (fun r => stops 5 r))
    (hn : LevelsSplit S n) : Splits (n + 1) (Readable S) (chars 4) (fun r => stops 4 r) := by
  intro t u r s ht hu hr hs htext
  obtain ⟨hchars, hroot, hindex⟩ := chars_four t ht
  obtain ⟨hchars', hroot', hindex'⟩ := chars_four u hu
  rw [hchars, hchars', List.append_assoc, List.append_assoc] at htext
  have stops_suffixes : ∀ (xs : List (Option TypeExpr)) {r : List Char}, stops 4 r →
      stops 5 (xs.flatMap suffixChars ++ r) := by
    intro xs r hr
    rcases xs with _ | ⟨_ | i, xs⟩
    · exact stops_mono (by decide) hr
    · rfl
    · rfl
  obtain ⟨hroots, htext₁⟩ := hfive hroot hroot' (stops_suffixes _ hr) (stops_suffixes _ hs) htext
  obtain ⟨hsuffixes, hrest⟩ := suffixes_splits hn hindex hindex' hr hs htext₁
  refine ⟨?_, hrest⟩
  rw [← foldl_suffixes t, ← foldl_suffixes u, hroots, hsuffixes]

/-! ### Level three: operators -/

theorem operator_text_inj {op op' : TypeOperator} (h : op.text = op'.text) : op = op' := by
  cases op <;> cases op' <;> first | rfl | exact absurd h (by decide)

/-- A type that starts with the word of an operator. -/
def isPrefixed : TypeExpr → Bool
  | .operator _ _ | .infer _ => true
  | _ => false

theorem chars_prefixed {t : TypeExpr} (h : t.isPrefixed) : t.chars 3 = t.chars 0 := by
  cases t with
  | operator => exact chars_of_le (Nat.le_refl 3)
  | infer => exact chars_of_le (Nat.le_refl 3)
  | _ => cases h

theorem front_prefixed {t : TypeExpr} (h : t.isPrefixed) (r : List Char) :
    front (t.chars 3 ++ r) = some 3 := by
  rw [chars_prefixed h]
  cases t with
  | operator op u => exact front_operator op u r
  | infer name => exact front_infer name r
  | _ => cases h

/-- The other types stand as operands of level three as they do on level four. -/
theorem chars_three {t : TypeExpr} (hplain : t.isPlain) (h : t.isPrefixed = false) :
    t.chars 3 = t.chars 4 := by
  have hprec : t.precedence ≠ 3 := by
    cases t with
    | operator => cases h
    | infer => cases h
    | predicate => cases hplain
    | union ts => rcases precedence_union ts with h | h <;> omega
    | intersection ts => rcases precedence_intersection ts with h | h <;> omega
    | _ => simp [precedence]
  exact chars_congr (by omega)

theorem prefixed_splits (hn : LevelsSplit S n) {t u : TypeExpr} (ht : t.Readable S)
    (hu : u.Readable S) (hpt : t.isPrefixed) (hpu : u.isPrefixed) {r s : List Char}
    (hr : stops 3 r) (hs : stops 3 s) (htext : SameText (n + 1) (t.chars 3 ++ r) (u.chars 3 ++ s)) :
    t = u ∧ SameText (n + 1) r s := by
  have hword : ∀ op : TypeOperator, op.text.toList.all isWordChar ∧ op.text.toList ≠ [] ∧
      op.text ≠ "infer" := by
    rintro (_ | _ | _) <;> decide
  rw [chars_prefixed hpt, chars_prefixed hpu] at htext
  cases t with
  | operator op t' =>
    cases u with
    | operator op' u' =>
      simp only [chars_operator, List.append_assoc, List.cons_append] at htext
      obtain ⟨hop, -⟩ := htext.word (hword op).1 (hword op').1 rfl rfl
      obtain rfl := operator_text_inj hop
      obtain ⟨rfl, hrest⟩ := hn 3 (by decide) (ht.part (by simp [parts]) ht.sound.wellFormed)
        (hu.part (by simp [parts]) hu.sound.wellFormed) hr hs (htext.dropPred (hword op).2.1).tail
      exact ⟨rfl, hrest.succ⟩
    | infer name =>
      simp only [chars_operator, chars_infer, List.append_assoc, List.cons_append] at htext
      obtain ⟨hop, -⟩ := htext.word (hword op).1 (by decide) rfl rfl
      exact absurd hop (hword op).2.2
    | _ => cases hpu
  | infer name =>
    cases u with
    | operator op u' =>
      simp only [chars_operator, chars_infer, List.append_assoc, List.cons_append] at htext
      obtain ⟨hop, -⟩ := htext.word (by decide) (hword op).1 rfl rfl
      exact absurd hop.symm (hword op).2.2
    | infer name' =>
      simp only [chars_infer, List.append_assoc, List.cons_append] at htext
      obtain ⟨rfl, hrest⟩ := name_splits (n + 1) ht.sound.wellFormed.isDottedName
        hu.sound.wellFormed.isDottedName (not_word_of_stops hr) (not_word_of_stops hs)
        htext.drop.tail
      exact ⟨rfl, hrest⟩
    | _ => cases hpu
  | _ => cases hpt

/-- **Level three.** Types in front of which an operator stands, and operands of level four. -/
theorem splits_three (hfour : Splits (n + 1) (Readable S) (chars 4) (fun r => stops 4 r))
    (hn : LevelsSplit S n) : Splits (n + 1) (Readable S) (chars 3) (fun r => stops 3 r) := by
  -- an operand of level four does not start with an operator
  have prefixed_ne : ∀ {t u : TypeExpr} {r s : List Char}, t.isPrefixed → u.Readable S →
      stops 3 s → t.chars 3 ++ r ≠ u.chars 4 ++ s := by
    intro t u r s hpt hu hs heq
    obtain ⟨l, hl, hle⟩ := exists_front_operand hu (k := 4) (by decide) (stops_mono (by decide) hs)
    rw [← heq, front_prefixed hpt] at hl
    cases hl
    omega
  intro t u r s ht hu hr hs htext
  cases hpt : t.isPrefixed with
  | true =>
    cases hpu : u.isPrefixed with
    | true => exact prefixed_splits hn ht hu hpt hpu hr hs htext
    | false =>
      rw [chars_three hu.isPlain hpu] at htext
      exact absurd htext.1 (prefixed_ne hpt hu hs)
  | false =>
    rw [chars_three ht.isPlain hpt] at htext
    cases hpu : u.isPrefixed with
    | true => exact absurd htext.1.symm (prefixed_ne hpu ht hr)
    | false =>
      rw [chars_three hu.isPlain hpu] at htext
      exact hfour ht hu (stops_mono (by decide) hr) (stops_mono (by decide) hs) htext

/-! ### Levels two and one: joined operands -/

/-- **Joined.** The type `t` joins the types `ts` by the sign `c`, on level `k`. -/
inductive Joins : (k : Nat) → (c : Char) → (t : TypeExpr) → (ts : List TypeExpr) → Prop where
  | union (ts : List TypeExpr) : Joins 1 '|' (.union ts) ts
  | intersection (ts : List TypeExpr) : Joins 2 '&' (.intersection ts) ts

/-- The two levels with a sign between their operands. -/
inductive JoinLevel : (k : Nat) → (c : Char) → Prop where
  | one : JoinLevel 1 '|'
  | two : JoinLevel 2 '&'

section

variable {k : Nat} {c : Char} {t u : TypeExpr} {ts : List TypeExpr}

theorem Joins.chars_eq (h : Joins k c t ts) :
    t.chars 0 = [' ', c, ' '].intercalate (ts.map (chars k)) := by
  cases h with
  | union => exact chars_union ts
  | intersection => exact chars_intersection ts

theorem Joins.inj (h : Joins k c t ts) (h' : Joins k c u ts) : t = u := by
  cases h with
  | union => cases h'; rfl
  | intersection => cases h'; rfl

/-- A type that joins no operands on a level is not of that level. -/
theorem JoinLevel.joins_or (h : JoinLevel k c) (t : TypeExpr) :
    (∃ ts, Joins k c t ts) ∨ t.precedence ≠ k := by
  cases h with
  | one =>
    cases t with
    | union ts => exact .inl ⟨ts, .union ts⟩
    | intersection ts => exact .inr (by rcases precedence_intersection ts with h | h <;> omega)
    | _ => exact .inr (by simp [precedence])
  | two =>
    cases t with
    | union ts => exact .inr (by rcases precedence_union ts with h | h <;> omega)
    | intersection ts => exact .inl ⟨ts, .intersection ts⟩
    | _ => exact .inr (by simp [precedence])

/-- A join has two or more operands, and none of them is a join of the same level. -/
theorem Joins.operands (h : Joins k c t ts) (ht : t.Readable S) :
    2 ≤ ts.length ∧ t.precedence = k ∧ ∀ u ∈ ts, u.Readable S ∧ u.precedence ≠ k := by
  have hwf := ht.sound.wellFormed
  have hreadable : ∀ u ∈ t.parts, u.isPlain → u.Readable S := fun u => ht.part
  cases h with
  | union =>
    refine ⟨hwf.1, ?_, fun u hu => ⟨hreadable u hu (hwf.2 u hu).1, ?_⟩⟩
    · obtain ⟨_, _, _, rfl⟩ := exists_operands hwf.1
      rfl
    · rcases JoinLevel.one.joins_or u with ⟨us, ⟨⟩⟩ | hprec
      · cases (hwf.2 _ hu).2
      · exact hprec
  | intersection =>
    refine ⟨hwf.1, ?_, fun u hu => ⟨hreadable u hu (hwf.2 u hu).1, ?_⟩⟩
    · obtain ⟨_, _, _, rfl⟩ := exists_operands hwf.1
      rfl
    · rcases JoinLevel.two.joins_or u with ⟨us, ⟨⟩⟩ | hprec
      · cases (hwf.2 _ hu).2
      · exact hprec

/-- An operand of a level that joins operands is a list of operands of the next level: those that
it joins, or itself. -/
theorem JoinLevel.exists_operands (h : JoinLevel k c) (ht : t.Readable S) :
    ∃ ts : List TypeExpr, (ts ≠ [] ∧ ∀ u ∈ ts, u.Readable S) ∧
      t.chars k = [' ', c, ' '].intercalate (ts.map (chars (k + 1))) ∧
      (Joins k c t ts ∧ 2 ≤ ts.length ∨ ts = [t]) := by
  have next_level : ∀ {u : TypeExpr}, u.precedence ≠ k → u.chars k = u.chars (k + 1) :=
    fun hprec => chars_congr (by omega)
  rcases h.joins_or t with ⟨ts, hjoins⟩ | hprec
  · obtain ⟨hlen, hprec, hmembers⟩ := hjoins.operands ht
    refine ⟨ts, ⟨?_, fun u hu => (hmembers u hu).1⟩, ?_, .inl ⟨hjoins, hlen⟩⟩
    · rintro rfl
      cases hlen
    · rw [chars_of_le hprec.ge, hjoins.chars_eq]
      congr 1
      exact List.map_congr_left fun u hu => next_level (hmembers u hu).2
  · refine ⟨[t], ⟨List.cons_ne_nil _ _, ?_⟩, ?_, .inr rfl⟩
    · intro u hu
      cases List.mem_singleton.1 hu
      exact ht
    · rw [next_level hprec, List.map_singleton, List.intercalate_singleton]

/-- **Levels two and one.** Lists of operands of the next level, with the sign of the level between
them. -/
theorem JoinLevel.splits (h : JoinLevel k c)
    (hnext : Splits n (Readable S) (chars (k + 1)) (fun r => stops (k + 1) r)) :
    Splits n (Readable S) (chars k) (fun r => stops k r) := by
  have hsep : ∀ x, stops (k + 1) ([' ', c, ' '] ++ x) := by
    intro x
    cases h <;> rfl
  have hstop : ∀ r, stops k r → ¬ [' ', c, ' '] <+: r := by
    rintro r hr ⟨x, rfl⟩
    cases h <;> cases hr
  have hjoined := hnext.joined [' ', c, ' '] (Q := fun r => stops k r) hsep
    fun r hr => ⟨stops_mono (Nat.le_succ k) hr, hstop r hr⟩
  intro t u r s ht hu hr hs htext
  obtain ⟨ts, hts, hchars, htform⟩ := h.exists_operands ht
  obtain ⟨us, hus, hchars', huform⟩ := h.exists_operands hu
  rw [hchars, hchars'] at htext
  obtain ⟨rfl, hrest⟩ := hjoined hts hus hr hs htext
  refine ⟨?_, hrest⟩
  rcases htform with ⟨hjt, hlen⟩ | rfl
  · rcases huform with ⟨hju, -⟩ | rfl
    · exact hjt.inj hju
    · exact absurd hlen (by simp)
  · rcases huform with ⟨-, hlen⟩ | heq
    · exact absurd hlen (by simp)
    · exact (List.cons.inj heq).1

end

/-! ### Level zero: functions and conditional types -/

theorem function_splits (hn : LevelsSplit S n) {a b : Signature}
    {isConstructor isConstructor' : Bool} (ht : (function a isConstructor).Readable S)
    (hu : (function b isConstructor').Readable S)
    {r s : List Char} (hr : stops 0 r) (hs : stops 0 s)
    (htext : SameText (n + 1) ((function a isConstructor).chars 0 ++ r)
      ((function b isConstructor').chars 0 ++ s)) :
    function a isConstructor = function b isConstructor' ∧ SameText n r s := by
  have not_new : ∀ (a : Signature) {x : List Char},
      ¬ "new ".toList <+: (printHead a).toList ++ x := by
    rintro a x ⟨y, hy⟩
    obtain ⟨c, z, ha, hc⟩ := exists_printHead_eq a
    rw [ha] at hy
    have hnew : 'n' = c := (List.cons.inj hy).1
    subst hnew
    exact absurd hc (by decide)
  simp only [chars_function, List.append_assoc] at htext
  obtain ⟨rfl, htext₁⟩ := mark_splits (n + 1) "new " trivial trivial (not_new a) (not_new b) htext
  obtain ⟨rfl, hrest⟩ := signature_splits hn [' ', '=', '>', ' '] ht.signature hu.signature hr hs
    htext₁
  exact ⟨rfl, hrest⟩

theorem conditional_splits (hone : Splits (n + 1) (Readable S) (chars 1) (fun r => stops 1 r))
    (hn : LevelsSplit S n) {t₁ t₂ t₃ t₄ u₁ u₂ u₃ u₄ : TypeExpr}
    (ht : (conditional t₁ t₂ t₃ t₄).Readable S) (hu : (conditional u₁ u₂ u₃ u₄).Readable S)
    {r s : List Char} (hr : stops 0 r) (hs : stops 0 s)
    (htext : SameText (n + 1) ((conditional t₁ t₂ t₃ t₄).chars 0 ++ r)
      ((conditional u₁ u₂ u₃ u₄).chars 0 ++ s)) :
    conditional t₁ t₂ t₃ t₄ = conditional u₁ u₂ u₃ u₄ ∧ SameText n r s := by
  obtain ⟨ht₁, ht₂, ht₃, ht₄⟩ := ht.sound.wellFormed
  obtain ⟨hu₁, hu₂, hu₃, hu₄⟩ := hu.sound.wellFormed
  simp only [chars_conditional, List.append_assoc] at htext
  obtain ⟨rfl, htext₁⟩ := hone (ht.part (by simp [parts]) ht₁) (hu.part (by simp [parts]) hu₁)
    rfl rfl htext
  obtain ⟨rfl, htext₂⟩ := hn 1 (by decide) (ht.part (by simp [parts]) ht₂)
    (hu.part (by simp [parts]) hu₂) rfl rfl (htext₁.dropPred (by decide))
  obtain ⟨rfl, htext₃⟩ := hn 0 (by decide) (ht.part (by simp [parts]) ht₃)
    (hu.part (by simp [parts]) hu₃) rfl rfl htext₂.drop
  obtain ⟨rfl, hrest⟩ := hn 0 (by decide) (ht.part (by simp [parts]) ht₄)
    (hu.part (by simp [parts]) hu₄) hr hs htext₃.drop
  exact ⟨rfl, hrest⟩

/-- The three kinds of types on the loosest level. -/
theorem Readable.form_zero {t : TypeExpr} (ht : t.Readable S) :
    (∃ a isConstructor, t = .function a isConstructor) ∨
      (∃ check bound yes no, t = .conditional check bound yes no) ∨ 1 ≤ t.precedence := by
  cases t with
  | function a isConstructor => exact .inl ⟨a, isConstructor, rfl⟩
  | conditional check bound yes no => exact .inr (.inl ⟨check, bound, yes, no, rfl⟩)
  | union ts => exact .inr (.inr (by rcases precedence_union ts with h | h <;> omega))
  | intersection ts => exact .inr (.inr (by rcases precedence_intersection ts with h | h <;> omega))
  | _ => exact .inr (.inr (by simp [precedence]))

/-- A function is told from the other types by its front. -/
theorem function_ne {a : Signature} {isConstructor : Bool} {u : TypeExpr}
    (ht : (function a isConstructor).Readable S) (hu : u.Readable S) (hlevel : 1 ≤ u.frontLevel)
    {r s : List Char} (hs : stops 0 s) :
    (function a isConstructor).chars 0 ++ r ≠ u.chars 0 ++ s := by
  intro heq
  obtain ⟨l, hl, hle⟩ := exists_front u hu s (stops_mono (by decide) hs)
  rw [← heq, front_function ht.sound.wellFormed] at hl
  cases hl
  omega

/-- A conditional type is told from the types of the next level by what follows its first
operand. -/
theorem conditional_ne (hone : Splits (n + 1) (Readable S) (chars 1) (fun r => stops 1 r))
    {check bound yes no u : TypeExpr} (ht : (conditional check bound yes no).Readable S)
    (hu : u.Readable S) (hprec : 1 ≤ u.precedence) {r s : List Char} (hs : stops 0 s) :
    ¬ SameText (n + 1) ((conditional check bound yes no).chars 0 ++ r) (u.chars 0 ++ s) := by
  intro htext
  rw [← chars_of_le hprec] at htext
  simp only [chars_conditional, List.append_assoc] at htext
  obtain ⟨-, hrest⟩ := hone (ht.part (by simp [parts]) ht.sound.wellFormed.1) hu rfl
    (stops_mono (by decide) hs) htext
  rw [← hrest.1] at hs
  cases hs

/-- **Level zero.** Functions, conditional types and operands of level one. -/
theorem splits_zero (hone : Splits (n + 1) (Readable S) (chars 1) (fun r => stops 1 r))
    (hn : LevelsSplit S n) : Splits (n + 1) (Readable S) (chars 0) (fun r => stops 0 r) := by
  intro t u r s ht hu hr hs htext
  rcases ht.form_zero with ⟨a, isConstructor, rfl⟩ | ⟨check, bound, yes, no, rfl⟩ | hprec
  · rcases hu.form_zero with ⟨b, isConstructor', rfl⟩ | ⟨check', bound', yes', no', rfl⟩ | hprec'
    · obtain ⟨heq, hrest⟩ := function_splits hn ht hu hr hs htext
      exact ⟨heq, hrest.succ⟩
    · exact absurd htext.1 (function_ne ht hu (Nat.le_refl 1) hs)
    · exact absurd htext.1 (function_ne ht hu (hprec'.trans (precedence_le_frontLevel u)) hs)
  · rcases hu.form_zero with ⟨b, isConstructor', rfl⟩ | ⟨check', bound', yes', no', rfl⟩ | hprec'
    · exact absurd htext.1.symm (function_ne hu ht (Nat.le_refl 1) hr)
    · obtain ⟨heq, hrest⟩ := conditional_splits hone hn ht hu hr hs htext
      exact ⟨heq, hrest.succ⟩
    · exact absurd htext (conditional_ne hone ht hu hprec' hs)
  · rcases hu.form_zero with ⟨b, isConstructor', rfl⟩ | ⟨check', bound', yes', no', rfl⟩ | hprec'
    · exact absurd htext.1.symm
        (function_ne hu ht (hprec.trans (precedence_le_frontLevel t)) hr)
    · exact absurd htext.symm (conditional_ne hone hu ht hprec hr)
    · rw [← chars_of_le hprec, ← chars_of_le hprec'] at htext
      exact hone ht hu (stops_mono (by decide) hr) (stops_mono (by decide) hs) htext

/-! ### All levels -/

/-- **Every level.** From texts shorter than `n` to texts one character longer, level by level. -/
theorem levelsSplit_succ (hS : Set.InjOn Double.render S) (hn : LevelsSplit S n) :
    LevelsSplit S (n + 1) := by
  have hfive := splits_five hS hn
  have hfour := splits_four hfive hn
  have hthree := splits_three hfour hn
  have htwo := JoinLevel.two.splits hthree
  have hone := JoinLevel.one.splits htwo
  have hzero := splits_zero hone hn
  intro k hk
  match k, hk with
  | 0, _ => exact hzero
  | 1, _ => exact hone
  | 2, _ => exact htwo
  | 3, _ => exact hthree
  | 4, _ => exact hfour
  | 5, _ => exact hfive

theorem levelsSplit (hS : Set.InjOn Double.render S) (n : Nat) : LevelsSplit S n := by
  induction n with
  | zero => exact fun _ _ _ _ _ _ _ _ _ _ htext => absurd htext.2 (Nat.not_lt_zero _)
  | succ n ih => exact levelsSplit_succ hS ih

/-- **Unique readability.** Canonical types with the same text are the same type, provided that
their numbers are told apart by their texts. -/
theorem eq_of_print_eq (t u : TypeExpr) (ht : t.Canonical) (hu : u.Canonical)
    (hnumbers : Set.InjOn Double.render (t.numbers ∪ u.numbers)) (h : t.print = u.print) :
    t = u := by
  have ht' : t.Readable (t.numbers ∪ u.numbers) := ⟨ht.1, ht.2, Set.subset_union_left⟩
  have hu' : u.Readable (t.numbers ∪ u.numbers) := ⟨hu.1, hu.2, Set.subset_union_right⟩
  have htext : SameText ((t.chars 0 ++ []).length + 1) (t.chars 0 ++ []) (u.chars 0 ++ []) := by
    refine ⟨?_, Nat.lt_succ_self _⟩
    rw [chars_zero, chars_zero, h]
  exact (levelsSplit hnumbers _ 0 (by decide) ht' hu' rfl rfl htext).1

/-- One and a half. -/
def oneAndHalf : Double := ⟨0x3FF8000000000000⟩

/-- **Picker.** A generic function that asserts something about its parameter. -/
def picker : TypeExpr :=
  .function
    { typeParams := [⟨"T", some (.named "grid.Row"), none⟩]
      params := [⟨"row", true, false, some (.indexed (.named "T") (.number oneAndHalf))⟩]
      returns := .predicate true "row" (some (.operator .keyof (.array (.number .zero)))) } false

/-- An optional member that holds a picker. -/
def pickMember : Member :=
  ⟨"pick", .property, true, false, some picker, none, {}⟩

/-- Everything inside the picker is well-formed, and its numbers are zero and one and a half. -/
theorem picker_occurs (s : TypeExpr) (hs : s.Occurs (union [picker, undefined])) :
    s.WellFormed ∧ ∀ x, s = .number x → x ∈ ({.zero, oneAndHalf} : Set Double) := by
  have leaf : ∀ {t : TypeExpr}, t.parts = [] → t.WellFormed →
      (∀ x, t = .number x → x ∈ ({.zero, oneAndHalf} : Set Double)) → ∀ s : TypeExpr, s.Occurs t →
      s.WellFormed ∧ ∀ x, s = .number x → x ∈ ({.zero, oneAndHalf} : Set Double) := by
    intro t hparts hwf hx
    refine forall_occurs_of_parts ⟨hwf, hx⟩ ?_
    rw [hparts]
    exact fun u hu => nomatch hu
  have hrow : IsName "row" := ⟨by decide, by decide⟩
  have hbase := leaf (t := named "T") rfl ⟨⟨by decide, by decide⟩, nofun⟩ nofun
  have hbound := leaf (t := named "grid.Row") rfl ⟨⟨by decide, by decide⟩, nofun⟩ nofun
  have hindex := leaf (t := number oneAndHalf) rfl (show oneAndHalf.isFinite by decide)
    (by rintro x ⟨⟩; simp)
  have helement := leaf (t := number .zero) rfl (show Double.zero.isFinite by decide)
    (by rintro x ⟨⟩; simp)
  have hindexed := forall_occurs_of_parts (t := indexed (named "T") (number oneAndHalf))
    ⟨⟨rfl, rfl⟩, nofun⟩ (List.forall_mem_cons.2 ⟨hbase, List.forall_mem_cons.2 ⟨hindex, nofun⟩⟩)
  have harray := forall_occurs_of_parts (t := array (number .zero)) ⟨rfl, nofun⟩
    (List.forall_mem_cons.2 ⟨helement, nofun⟩)
  have hkeys := forall_occurs_of_parts (t := operator .keyof (array (number .zero))) ⟨rfl, nofun⟩
    (List.forall_mem_cons.2 ⟨harray, nofun⟩)
  have hpredicate := forall_occurs_of_parts
    (t := predicate true "row" (some (operator .keyof (array (number .zero)))))
    ⟨⟨hrow, .inl rfl, by rintro u ⟨⟩; rfl⟩, nofun⟩ (List.forall_mem_cons.2 ⟨hkeys, nofun⟩)
  have hpicker := forall_occurs_of_parts (t := picker)
    ⟨⟨List.forall_mem_cons.2 ⟨⟨⟨by decide, by decide⟩, List.forall_mem_cons.2 ⟨rfl, nofun⟩⟩, nofun⟩,
      List.forall_mem_cons.2 ⟨⟨hrow, _, rfl, rfl⟩, nofun⟩, rfl⟩, nofun⟩
    (List.forall_mem_cons.2 ⟨hbound, List.forall_mem_cons.2 ⟨hindexed,
      List.forall_mem_cons.2 ⟨hpredicate, nofun⟩⟩⟩)
  have hundefined := leaf (t := undefined) rfl trivial nofun
  exact forall_occurs_of_parts (t := union [picker, undefined])
    ⟨⟨by decide, List.forall_mem_cons.2 ⟨⟨rfl, rfl⟩,
      List.forall_mem_cons.2 ⟨⟨rfl, rfl⟩, nofun⟩⟩⟩, nofun⟩
    (List.forall_mem_cons.2 ⟨hpicker, List.forall_mem_cons.2 ⟨hundefined, nofun⟩⟩) s hs

/-- The type of the optional member, as it is read, is the one type with its text. -/
theorem pickMember_readType :
    (union [picker, undefined]).Canonical ∧ (pickMember.readType true).Canonical ∧
      Set.InjOn Double.render
        ((union [picker, undefined]).numbers ∪ (pickMember.readType true).numbers) ∧
      (union [picker, undefined]).print =
        "(<T extends grid.Row>(row?: T[1.5]) => asserts row is keyof 0[]) | undefined" ∧
      (union [picker, undefined]).print = (pickMember.readType true).print ∧
      union [picker, undefined] = pickMember.readType true := by
  have hzero : Double.zero.render = "0" := by decide +kernel
  have hhalf : oneAndHalf.render = "1.5" := by decide +kernel
  have hcanonical : (union [picker, undefined]).Canonical :=
    ⟨rfl, fun s hs => (picker_occurs s hs).1⟩
  have hcanonical' : (pickMember.readType true).Canonical := hcanonical
  have hinj : Set.InjOn Double.render
      ((union [picker, undefined]).numbers ∪ (pickMember.readType true).numbers) := by
    have hpair : Set.InjOn Double.render {.zero, oneAndHalf} := by
      rw [Set.injOn_pair, hzero, hhalf]
      exact fun h => absurd h (by decide)
    refine hpair.mono (Set.union_subset ?_ ?_)
    · exact fun x hx => (picker_occurs _ hx).2 x rfl
    · exact fun x hx => (picker_occurs _ hx).2 x rfl
  have hprint : (union [picker, undefined]).print = (pickMember.readType true).print := rfl
  refine ⟨hcanonical, hcanonical', hinj, ?_, hprint,
    eq_of_print_eq _ _ hcanonical hcanonical' hinj hprint⟩
  simp [picker, undefined, named, print, printOperands, printArgs, printHead, printReturn,
    printTypeParams, printTypeParam, printAfter, printParams, printParam, printOr, printIs,
    parenthesize, precedence, mark, Keyword.text, TypeOperator.text, hzero, hhalf]

end PropDocs.TypeExpr
