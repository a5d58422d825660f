import Mathlib.Tactic.IntervalCases
import PropDocs.Proofs.PrintedText

/-!
# The front of printed types

How a printed type starts, which tells a parenthesis around a type from the one of a signature, and
the levels from each other.

* `Double.IsNumeral`: a number prints as a word of digits, dots and minus signs;
* `name_splits`, `IsDottedName.append_ne_word`: names, and how they are told from printed words;
* `TypeExpr.Sound`, `TypeExpr.Readable`: types with only well-formed types inside, as the induction
  over parts needs them;
* `TypeExpr.front_head`: a signature starts with a bracket behind which no type starts;
* `TypeExpr.exists_front`: a type starts with an operand that binds at least as tightly.
-/

namespace PropDocs

open Text

/-! ### Numbers -/

namespace Double

/-- The characters of the text of a finite number. -/
def isNumeralChar (c : Char) : Bool :=
  c.isDigit || c == '.' || c == '-'

/-- Whether a text starts like a number. -/
def startsNumber (x : List Char) : Bool :=
  x.head?.any fun c => c.isDigit || c == '-'

/-- A text of characters of numbers that starts like one. -/
structure IsNumeral (x : List Char) : Prop where
  all_isNumeralChar : x.all isNumeralChar
  starts : startsNumber x

theorem all_isNumeralChar_of_digits {x : List Char} (hx : ∀ c ∈ x, c.isDigit) :
    x.all isNumeralChar := by
  rw [List.all_eq_true]
  intro c hc
  simp [isNumeralChar, hx c hc]

theorem isNumeral_of_digits {x y : List Char} (hx : x ≠ []) (hdigits : ∀ c ∈ x, c.isDigit)
    (hy : y.all isNumeralChar) : IsNumeral (x ++ y) := by
  refine ⟨?_, ?_⟩
  · rw [List.all_append, hy, all_isNumeralChar_of_digits hdigits]
    rfl
  · obtain ⟨c, z, rfl⟩ := List.exists_cons_of_ne_nil hx
    simp [startsNumber, hdigits c List.mem_cons_self]

theorem isNumeral_positional (digits : Nat) (exponent : Int) :
    IsNumeral (positional digits exponent).toList := by
  have hdigits : ∀ c ∈ Nat.toDigits 10 digits, c.isDigit := fun c hc =>
    Nat.isDigit_of_mem_toDigits (by decide) (by decide) hc
  unfold positional
  simp only
  split
  · rw [String.toList_ofList]
    refine isNumeral_of_digits Nat.toDigits_ne_nil hdigits (all_isNumeralChar_of_digits ?_)
    intro c hc
    rw [List.eq_of_mem_replicate hc]
    rfl
  · split
    · rename_i hplaces
      rw [String.toList_ofList]
      refine isNumeral_of_digits ?_ (fun c hc => hdigits c (List.mem_of_mem_take hc)) ?_
      · intro hnil
        have hlen := congrArg List.length hnil
        rw [List.length_take, List.length_nil] at hlen
        omega
      · rw [List.all_cons,
          all_isNumeralChar_of_digits fun c hc => hdigits c (List.mem_of_mem_drop hc)]
        rfl
    · rw [String.toList_ofList, List.cons_append, List.cons_append]
      refine isNumeral_of_digits (x := ['0']) (by simp) (by simp) ?_
      rw [List.all_cons, List.all_append, all_isNumeralChar_of_digits hdigits,
        all_isNumeralChar_of_digits]
      · rfl
      · intro c hc
        rw [List.eq_of_mem_replicate hc]
        rfl

/-- **Numerals.** The text of a finite number. -/
theorem isNumeral_render {x : Double} (hx : x.isFinite) : IsNumeral x.render.toList := by
  have hfinite : x.magnitude < infinityBits := by simpa [isFinite] using hx
  unfold render
  generalize x.shortest = shortest
  obtain ⟨digits, exponent⟩ := shortest
  simp only [if_neg (Nat.ne_of_lt hfinite), if_neg (Nat.not_lt.2 hfinite.le)]
  have hbody : IsNumeral
      (if x.magnitude = 0 then "0" else positional digits exponent).toList := by
    split
    · exact ⟨by decide, by decide⟩
    · exact isNumeral_positional _ _
  split
  · rw [String.toList_append]
    exact ⟨by simpa [isNumeralChar] using hbody.all_isNumeralChar, rfl⟩
  · exact hbody

theorem IsNumeral.all_isWordChar {x : List Char} (h : IsNumeral x) : x.all isWordChar := by
  have hall := h.all_isNumeralChar
  rw [List.all_eq_true] at hall ⊢
  intro c hc
  have hnumeral := hall c hc
  simp only [isNumeralChar, Bool.or_eq_true] at hnumeral
  rw [isWordChar, Bool.or_eq_true, Bool.or_eq_true]
  refine hnumeral.imp_left (Or.imp_left fun hdigit => ?_)
  have hascii : c.toNat < 0x80 := by
    simp only [Char.isDigit, Bool.and_eq_true, decide_eq_true_eq] at hdigit
    exact Nat.lt_of_le_of_lt (UInt32.le_iff_toNat_le.1 hdigit.2) (by decide)
  rw [isNamePart, if_pos hascii]
  simp [Char.isAlphanum, hdigit]

end Double

/-! ### Types whose every part is well-formed -/

namespace TypeExpr

/-- **Sound.** Every type inside is well-formed, and every number is one of `S`. -/
structure Sound (S : Set Double) (t : TypeExpr) : Prop where
  wellFormed_of_occurs : ∀ s : TypeExpr, s.Occurs t → s.WellFormed
  numbers_subset : t.numbers ⊆ S

/-- A sound type that may stand anywhere. -/
structure Readable (S : Set Double) (t : TypeExpr) : Prop where
  isPlain : t.isPlain
  sound : t.Sound S

variable {S : Set Double} {t u : TypeExpr}

theorem Sound.wellFormed (h : t.Sound S) : t.WellFormed :=
  h.wellFormed_of_occurs t (.refl t)

theorem Sound.part (h : t.Sound S) (hu : u ∈ t.parts) : u.Sound S where
  wellFormed_of_occurs s hs := h.wellFormed_of_occurs s (hs.trans (.of_mem_parts hu))
  numbers_subset _ hx := h.numbers_subset (Occurs.trans hx (.of_mem_parts hu))

theorem Readable.part (h : t.Readable S) (hu : u ∈ t.parts) (hplain : u.isPlain) : u.Readable S :=
  ⟨hplain, h.sound.part hu⟩

end TypeExpr

/-! ### Words in front -/

theorem labels_of_stops {k : Nat} {r : List Char} (h : stops k r) : labels r = false := by
  unfold labels
  split
  · simp [stops] at h
  · simp [stops] at h
  · simp [stops] at h
  · rfl

/-- The words that do not start a type of their own. -/
def frontWords : List String := "asserts" :: "new" :: operatorWords

/-- A word that is none of the special ones is a whole operand, unless it is a label. -/
theorem wordFront_of_not_mem {w : String} {r : List Char} (hdot : w.toList.head? ≠ some '.')
    (hw : w ∉ frontWords) :
    wordFront w r = if labels r && !printedWords.contains w then none else some 5 := by
  simp only [frontWords, List.mem_cons, not_or] at hw
  simp [wordFront, hdot, hw.1, hw.2.1, hw.2.2]

theorem IsDottedName.ne_empty {s : String} (h : IsDottedName s) : s ≠ "" := by
  obtain ⟨c, cs, hs, -, -⟩ := h.exists_cons
  rintro rfl
  cases hs

/-- A name starts with no other character than one that names start with. -/
theorem IsDottedName.append_ne {s : String} (h : IsDottedName s) {c : Char}
    (hc : isNameStart c = false) (x y : List Char) : s.toList ++ x ≠ c :: y := by
  obtain ⟨d, cs, hs, hd, -⟩ := h.exists_cons
  rw [hs]
  intro heq
  cases heq
  rw [hc] at hd
  cases hd

/-- **Names.** A name splits from a text that does not start with a word character. -/
theorem name_splits (n : Nat) :
    Splits n IsDottedName String.toList (fun r => r.head?.any isWordChar = false) :=
  fun _ _ _ _ ha hb hr hs htext => htext.word ha.all_isWordChar hb.all_isWordChar hr hs

theorem all_isWordChar_of_mem_printedWords {w : String} (hw : w ∈ printedWords) :
    w.toList.all isWordChar := by
  have hwords : ∀ w ∈ printedWords, w.toList.all isWordChar := by decide
  exact hwords w hw

/-- A name is told from a printed word by what follows them. -/
theorem IsDottedName.append_ne_word {s w : String} (h : IsDottedName s) (hw : w ∈ printedWords)
    {x y : List Char} (hx : x.head?.any isWordChar = false) :
    s.toList ++ x ≠ w.toList ++ ' ' :: y := by
  intro heq
  have htext : SameText _ (s.toList ++ x) (w.toList ++ ' ' :: y) := ⟨heq, Nat.lt_succ_self _⟩
  obtain ⟨hsw, -⟩ := htext.word h.all_isWordChar (all_isWordChar_of_mem_printedWords hw) hx rfl
  exact h.2 (hsw ▸ hw)

theorem IsDottedName.not_mem_of_subset {s : String} (h : IsDottedName s) {words : List String}
    (hwords : words ⊆ printedWords) : s ∉ words :=
  fun hs => h.2 (hwords hs)

theorem IsDottedName.wordFront_eq {s : String} (h : IsDottedName s) {r : List Char} :
    wordFront s r = if labels r then none else some 5 := by
  have hdot : s.toList.head? ≠ some '.' := by
    intro hhead
    obtain ⟨y, hy⟩ := List.head?_eq_some_iff.1 hhead
    exact h.append_ne (c := '.') (by decide) [] y (by rw [List.append_nil, hy])
  rw [wordFront_of_not_mem hdot (h.not_mem_of_subset (by decide))]
  simp [h.2]

/-- A name in front of a label's mark is no type. -/
theorem IsDottedName.front_label {s : String} (h : IsDottedName s) {r : List Char}
    (hr : r.head?.any isWordChar = false) (hlabels : labels r) : front (s.toList ++ r) = none := by
  rw [front_word h.ne_empty h.all_isWordChar hr, h.wordFront_eq, if_pos hlabels]

theorem not_mem_printedWords_of_startsNumber {w : String} (h : Double.startsNumber w.toList) :
    w ∉ printedWords := by
  have hwords : ∀ w ∈ printedWords, Double.startsNumber w.toList = false := by decide
  intro hw
  rw [hwords w hw] at h
  cases h

theorem ne_empty_of_startsNumber {w : String} (h : Double.startsNumber w.toList) : w ≠ "" := by
  rintro rfl
  cases h

/-- A number is a whole operand. -/
theorem front_numeral {w : String} {r : List Char} (hall : w.toList.all isWordChar)
    (hstart : Double.startsNumber w.toList) {k : Nat} (hr : stops k r) :
    front (w.toList ++ r) = some 5 := by
  have hsubset : frontWords ⊆ printedWords := by decide
  rw [front_word (ne_empty_of_startsNumber hstart) hall (not_word_of_stops hr)]
  rw [wordFront_of_not_mem, labels_of_stops hr]
  · rfl
  · intro hdot
    simp [Double.startsNumber, hdot] at hstart
  · exact fun hw => not_mem_printedWords_of_startsNumber hstart (hsubset hw)

theorem isNameStart_eq_false_of_isDigit {c : Char} (h : c.isDigit) : isNameStart c = false := by
  simp only [Char.isDigit, Bool.and_eq_true, decide_eq_true_eq] at h
  have hlow : 48 ≤ c.toNat := UInt32.le_iff_toNat_le.1 h.1
  have hhigh : c.toNat ≤ 57 := UInt32.le_iff_toNat_le.1 h.2
  have hchars : ∀ m, 48 ≤ m → m ≤ 57 → isNameStart (Char.ofNat m) = false := by
    intro m hm hm'
    interval_cases m <;> rfl
  rw [← Char.ofNat_toNat c]
  exact hchars c.toNat hlow hhigh

/-- A name does not start like a number. -/
theorem IsDottedName.startsNumber_eq {s : String} (h : IsDottedName s) :
    Double.startsNumber s.toList = false := by
  obtain ⟨c, cs, hs, hc, -⟩ := h.exists_cons
  rw [hs, Double.startsNumber, List.head?_cons, Option.any_some, Bool.or_eq_false_iff]
  constructor
  · by_contra hdigit
    rw [isNameStart_eq_false_of_isDigit (by simpa using hdigit)] at hc
    cases hc
  · by_contra hminus
    have heq : c = '-' := by simpa using hminus
    subst heq
    exact absurd hc (by decide)

theorem front_dot (x : List Char) : front ('.' :: x) = none := by
  have hdot : isWordChar '.' = true := by decide
  rw [front, if_pos hdot, List.takeWhile_cons_of_pos hdot]
  simp [wordFront]

/-! ### The front of a type -/

namespace TypeExpr

/-- A parameter starts with dots or with a name in front of its mark: no type starts there. -/
theorem front_param {p : Param} (hp : p.WellFormed) (r : List Char) :
    front ((printParam p).toList ++ r) = none := by
  obtain ⟨name, isOptional, isRest, type⟩ := p
  obtain ⟨t, rfl, -⟩ := hp.type_isPlain
  rw [toList_printParam, List.append_assoc]
  cases isRest with
  | true => exact front_dot _
  | false =>
    rw [List.append_assoc]
    cases isOptional <;> exact hp.name_isName.isDottedName.front_label rfl rfl

/-- What follows the opening parenthesis of a signature is no type. -/
theorem front_params {ps : List Param} (hps : ∀ p ∈ ps, p.WellFormed) (r : List Char) :
    front ((printParams ps).toList ++ ')' :: r) = none := by
  rw [toList_printParams]
  cases ps with
  | nil => rfl
  | cons p ps =>
    have hp := hps p List.mem_cons_self
    cases ps with
    | nil => simpa using front_param hp _
    | cons q ps =>
      simp only [List.map_cons, List.intercalate_cons_cons, List.append_assoc]
      exact front_param hp _

/-- The head of a signature starts like a function. -/
theorem front_head {s : Signature} (hs : s.WellFormed) (r : List Char) :
    front ((printHead s).toList ++ r) = some 0 := by
  obtain ⟨typeParams, params, returns⟩ := s
  cases typeParams with
  | nil =>
    rw [toList_printHead_nil, List.cons_append, List.append_assoc]
    have hparams := front_params hs.params_wellFormed r
    have hparen : isWordChar '(' = false := by decide
    simp only [front, hparen, List.singleton_append, hparams]
    rfl
  | cons p ps =>
    rw [toList_printHead_cons, List.cons_append]
    rfl

variable {S : Set Double}

/-- As an operand of level `k` a type starts with an operand that binds at least that tightly. -/
theorem exists_front_of_bare {t : TypeExpr}
    (h : ∀ r, stops 5 r → ∃ l, front (t.chars 0 ++ r) = some l ∧ t.precedence ≤ l) {k : Nat}
    (hk : k ≤ 5) {r : List Char} (hr : stops 5 r) :
    ∃ l, front (t.chars k ++ r) = some l ∧ k ≤ l := by
  by_cases hprec : t.precedence < k
  · obtain ⟨l, hl, -⟩ := h (')' :: r) rfl
    refine ⟨5, ?_, hk⟩
    have hparen : isWordChar '(' = false := by decide
    rw [chars_of_lt hprec, List.cons_append, List.cons_append, List.append_assoc]
    simp only [front, hparen, List.singleton_append, hl]
    rfl
  · obtain ⟨l, hl, hle⟩ := h r hr
    rw [chars_of_le (Nat.not_lt.1 hprec)]
    exact ⟨l, hl, Nat.le_trans (Nat.not_lt.1 hprec) hle⟩

/-- A list of two or more operands. -/
theorem exists_operands {ts : List TypeExpr} (h : 2 ≤ ts.length) : ∃ t u us, ts = t :: u :: us := by
  match ts, h with
  | t :: u :: us, _ => exact ⟨t, u, us, rfl⟩

/-- The front of a list of operands is the front of its first one. -/
theorem chars_joined_append (k : Nat) (sep : List Char) (t u : TypeExpr) (ts : List TypeExpr)
    (r : List Char) : sep.intercalate ((t :: u :: ts).map (chars k)) ++ r =
      t.chars k ++ (sep ++ (sep.intercalate ((u :: ts).map (chars k)) ++ r)) := by
  simp [List.intercalate_cons_cons]

/-- A keyword or another word of the printer that is a whole operand. -/
theorem front_printed {w : String} (hw : w ∈ printedWords) (hfront : w ∉ frontWords) {r : List Char}
    (hr : r.head?.any isWordChar = false) : front (w.toList ++ r) = some 5 := by
  have hwords : ∀ w ∈ printedWords, w ≠ "" ∧ w.toList.head? ≠ some '.' := by decide
  obtain ⟨hne, hdot⟩ := hwords w hw
  rw [front_word hne (all_isWordChar_of_mem_printedWords hw) hr, wordFront_of_not_mem hdot hfront]
  simp [hw]

theorem not_word_args (args : List TypeExpr) {r : List Char} (hr : stops 5 r) :
    ((printArgs args).toList ++ r).head?.any isWordChar = false ∧
      labels ((printArgs args).toList ++ r) = false := by
  cases args with
  | nil =>
    rw [toList_printArgs_nil]
    exact ⟨not_word_of_stops hr, labels_of_stops hr⟩
  | cons t ts =>
    rw [toList_printArgs_cons]
    exact ⟨rfl, rfl⟩

/-- The digits of a big integer with the letter behind them. -/
theorem bigint_word {digits : String} (h : (bigint digits).WellFormed) :
    (digits ++ "n").toList.all isWordChar ∧ Double.startsNumber (digits ++ "n").toList := by
  obtain ⟨hne, hdigits⟩ := h
  rw [List.all_eq_true] at hdigits
  have hnumeral := Double.isNumeral_of_digits (y := []) (mt String.toList_eq_nil_iff.1 hne)
    hdigits rfl
  rw [List.append_nil] at hnumeral
  rw [String.toList_append]
  refine ⟨?_, ?_⟩
  · rw [List.all_append, hnumeral.all_isWordChar]
    rfl
  · have hstart := hnumeral.starts
    cases hlist : digits.toList with
    | nil => rw [hlist] at hstart; cases hstart
    | cons c cs => rw [hlist] at hstart; exact hstart

/-- A type of the tightest level starts as one operand. -/
theorem front_atom {t : TypeExpr} (ht : t.Readable S) (hprec : t.precedence = 5) {r : List Char}
    (hr : stops 5 r) : front (t.chars 0 ++ r) = some 5 := by
  have hword := not_word_of_stops hr
  cases t with
  | keyword k =>
    rw [chars_keyword]
    exact front_printed (by cases k <;> decide) (by cases k <;> decide) hword
  | number x =>
    have hnumeral := Double.isNumeral_render ht.sound.wellFormed
    rw [chars_number]
    exact front_numeral hnumeral.all_isWordChar hnumeral.starts hr
  | bigint digits =>
    obtain ⟨hall, hstart⟩ := bigint_word ht.sound.wellFormed
    rw [chars_bigint]
    exact front_numeral hall hstart hr
  | boolean b =>
    rw [chars_boolean]
    exact front_printed (by cases b <;> decide) (by cases b <;> decide) hword
  | reference name args =>
    have hname := ht.sound.wellFormed.1
    obtain ⟨hargs, hargsLabels⟩ := not_word_args args hr
    rw [chars_reference, List.append_assoc, front_word hname.ne_empty hname.all_isWordChar hargs,
      hname.wordFront_eq, hargsLabels]
    rfl
  | query name =>
    rw [chars_query, List.append_assoc]
    exact front_printed (by decide) (by decide) rfl
  | imported argument qualifier args =>
    rw [chars_imported, List.append_assoc]
    exact front_printed (by decide) (by decide) rfl
  | thisType =>
    rw [chars_thisType]
    exact front_printed (by decide) (by decide) hword
  | string s => rw [chars_string]; rfl
  | template ps => rw [chars_template]; rfl
  | tuple es => rw [chars_tuple]; rfl
  | object ms =>
    cases ms with
    | nil => rw [chars_object_nil]; rfl
    | cons m ms => rw [chars_object_cons]; rfl
  | mapped m =>
    have hm : m.WellFormed := ht.sound.wellFormed
    obtain ⟨_, _, _, _, _, _⟩ := m
    obtain ⟨_, rfl, -⟩ := hm.constraint_isPlain
    obtain ⟨_, rfl, -⟩ := hm.type_isPlain
    rw [chars_mapped, toList_printMapped]
    rfl
  | union ts =>
    obtain ⟨_, _, _, rfl⟩ := exists_operands ht.sound.wellFormed.1
    cases hprec
  | intersection ts =>
    obtain ⟨_, _, _, rfl⟩ := exists_operands ht.sound.wellFormed.1
    cases hprec
  | array | optional | rest | function | operator | indexed | conditional | infer | predicate =>
    cases hprec

theorem front_function {s : Signature} (hs : s.WellFormed) (isConstructor : Bool) (r : List Char) :
    front ((function s isConstructor).chars 0 ++ r) = some 0 := by
  rw [chars_function, List.append_assoc, List.append_assoc]
  cases isConstructor with
  | false => exact front_head hs _
  | true => exact front_word (w := "new") (by decide) (by decide) (r := ' ' :: _) rfl

theorem front_operator (op : TypeOperator) (t : TypeExpr) (r : List Char) :
    front ((operator op t).chars 0 ++ r) = some 3 := by
  rw [chars_operator, List.append_assoc, front_word (by cases op <;> decide)
    (by cases op <;> decide) rfl]
  cases op <;> rfl

theorem front_infer (name : String) (r : List Char) :
    front ((infer name).chars 0 ++ r) = some 3 := by
  rw [chars_infer, List.append_assoc, front_word (by decide) (by decide) rfl]
  rfl

/-- How tightly the front of a type binds at least.  A conditional type starts with an operand that
binds tighter than a function. -/
def frontLevel : TypeExpr → Nat
  | .conditional _ _ _ _ => 1
  | t => t.precedence

theorem precedence_le_frontLevel (t : TypeExpr) : t.precedence ≤ t.frontLevel := by
  cases t with
  | conditional => exact Nat.zero_le 1
  | _ => exact Nat.le_refl _

/-- **Front.** The front of a printed type binds at least as tightly as the type. -/
theorem exists_front (t : TypeExpr) (ht : t.Readable S) (r : List Char) (hr : stops 5 r) :
    ∃ l, front (t.chars 0 ++ r) = some l ∧ t.frontLevel ≤ l := by
  -- the forms that start with an operand have the front of that operand
  have operand : ∀ {u : TypeExpr} {k : Nat} {x : List Char}, sizeOf u < sizeOf t → u ∈ t.parts →
      u.isPlain → k ≤ 5 → stops 5 x → ∃ l, front (u.chars k ++ x) = some l ∧ k ≤ l := by
    intro u k x hsize hu hplain hk hx
    refine exists_front_of_bare ?_ hk hx
    intro y hy
    obtain ⟨l, hl, hle⟩ := exists_front u (ht.part hu hplain) y hy
    exact ⟨l, hl, Nat.le_trans (precedence_le_frontLevel u) hle⟩
  have hwf := ht.sound.wellFormed
  by_cases hprec : t.precedence = 5
  · exact ⟨5, front_atom ht hprec hr, by
      rw [← hprec]; cases t <;> first | exact Nat.le_refl _ | cases hprec⟩
  cases t with
  | function s isConstructor => exact ⟨0, front_function hwf isConstructor r, Nat.le_refl 0⟩
  | operator op u => exact ⟨3, front_operator op u r, Nat.le_refl 3⟩
  | infer name => exact ⟨3, front_infer name r, Nat.le_refl 3⟩
  | array u =>
    rw [chars_array, List.append_assoc]
    exact operand (by simp) (by simp [parts]) hwf (by decide) rfl
  | indexed u i =>
    rw [chars_indexed, List.append_assoc]
    exact operand (by simp; omega) (by simp [parts]) hwf.1 (by decide) rfl
  | conditional u bound yes no =>
    rw [chars_conditional, List.append_assoc, List.append_assoc]
    exact operand (by simp; omega) (by simp [parts]) hwf.1 (by decide) rfl
  | union ts =>
    obtain ⟨u, v, us, rfl⟩ := exists_operands hwf.1
    rw [chars_union, chars_joined_append]
    exact operand (by simp; omega) (by simp [parts]) (hwf.2 u (by simp)).1 (by decide) rfl
  | intersection ts =>
    obtain ⟨u, v, us, rfl⟩ := exists_operands hwf.1
    rw [chars_intersection, chars_joined_append]
    exact operand (by simp; omega) (by simp [parts]) (hwf.2 u (by simp)).1 (by decide) rfl
  | optional | rest | predicate => cases ht.isPlain
  | _ => exact absurd rfl hprec
termination_by sizeOf t

/-- **Front of an operand.** An operand of level `k` starts with one that binds at least that
tightly, with parentheses if need be. -/
theorem exists_front_operand {t : TypeExpr} (ht : t.Readable S) {k : Nat} (hk : k ≤ 5)
    {r : List Char} (hr : stops 5 r) : ∃ l, front (t.chars k ++ r) = some l ∧ k ≤ l := by
  refine exists_front_of_bare ?_ hk hr
  intro x hx
  obtain ⟨l, hl, hle⟩ := exists_front t ht x hx
  exact ⟨l, hl, Nat.le_trans (precedence_le_frontLevel t) hle⟩

end TypeExpr

end PropDocs
