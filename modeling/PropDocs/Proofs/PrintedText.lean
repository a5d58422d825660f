import Mathlib.Data.Set.Function
import PropDocs.TypeExpr.Canonical
import PropDocs.TypeExpr.Place

/-!
# Printed text, character by character

The text of a type as a list of characters, and the tools that take two equal texts apart at the
same places.

* `SameText n x y`: equal texts below a length; it is handed on from a text to what follows its
  first piece, so that the length bounds an induction;
* `Splits n B f R`: among the values with `B`, the text `f a` and what follows it are determined
  by the whole text, provided that a text with `R` follows;
* `stops k r`: the text `r` does not go on with an operand of level `k`;
* `front x`: how tightly the first operand of a text binds, seen from its first characters;
* `TypeExpr.chars k t`: the text of the type `t` as an operand of level `k`.
-/

namespace PropDocs

open Text

/-! ### Equal texts -/

/-- **Same text.** Two equal texts shorter than `n`. -/
def SameText (n : Nat) (x y : List Char) : Prop :=
  x = y ∧ x.length < n

namespace SameText

variable {n : Nat} {c d : Char} {x y : List Char}

theorem symm (h : SameText n x y) : SameText n y x :=
  ⟨h.1.symm, h.1 ▸ h.2⟩

theorem head (h : SameText n (c :: x) (d :: y)) : c = d :=
  (List.cons.inj h.1).1

theorem tail (h : SameText n (c :: x) (d :: y)) : SameText n x y :=
  ⟨(List.cons.inj h.1).2, Nat.lt_of_succ_lt h.2⟩

/-- Past the first character the bound goes down. -/
theorem pred (h : SameText (n + 1) (c :: x) (d :: y)) : SameText n x y :=
  ⟨(List.cons.inj h.1).2, Nat.lt_of_succ_lt_succ h.2⟩

theorem succ (h : SameText n x y) : SameText (n + 1) x y :=
  ⟨h.1, Nat.lt_succ_of_lt h.2⟩

theorem drop {p : List Char} (h : SameText n (p ++ x) (p ++ y)) : SameText n x y := by
  refine ⟨List.append_cancel_left h.1, ?_⟩
  have hlen := h.2
  rw [List.length_append] at hlen
  omega

/-- Past a common beginning the bound goes down. -/
theorem dropPred {p : List Char} (hp : p ≠ []) (h : SameText (n + 1) (p ++ x) (p ++ y)) :
    SameText n x y := by
  obtain ⟨c, p, rfl⟩ := List.exists_cons_of_ne_nil hp
  exact (pred h).drop

end SameText

/-- **Splitting.** The texts of the values with `B` can be told from what follows them, as long as
a text with `R` follows: the whole text determines the value and the rest. -/
def Splits {α : Type} (n : Nat) (B : α → Prop) (f : α → List Char) (R : List Char → Prop) : Prop :=
  ∀ ⦃a b : α⦄ ⦃r s : List Char⦄, B a → B b → R r → R s → SameText n (f a ++ r) (f b ++ s) →
    a = b ∧ SameText n r s

/-- A run of characters with `p` ends where a text starts without one. -/
theorem takeWhile_run {p : Char → Bool} {v r : List Char} (hv : v.all p)
    (hr : r.head?.any p = false) : (v ++ r).takeWhile p = v := by
  rw [List.takeWhile_append_of_pos (by simpa using hv)]
  cases r with
  | nil => simp
  | cons c r => simp_all

/-- Splitting asks for less when fewer values or rests are admitted. -/
theorem Splits.mono {α : Type} {n : Nat} {B C : α → Prop} {f : α → List Char}
    {R Q : List Char → Prop} (h : Splits n B f R) (hB : ∀ a, C a → B a) (hR : ∀ r, Q r → R r) :
    Splits n C f Q :=
  fun _ _ _ _ ha hb hr hs htext => h (hB _ ha) (hB _ hb) (hR _ hr) (hR _ hs) htext

/-- **Runs.** A run of characters with `p` splits from a text that does not start with one. -/
theorem SameText.run {n : Nat} {p : Char → Bool} {v w r s : List Char}
    (h : SameText n (v ++ r) (w ++ s)) (hv : v.all p) (hw : w.all p)
    (hr : r.head?.any p = false) (hs : s.head?.any p = false) : v = w ∧ SameText n r s := by
  have heq : v = w := by
    rw [← takeWhile_run hv hr, h.1, takeWhile_run hw hs]
  subst heq
  exact ⟨rfl, h.drop⟩

/-! ### Lists with separators -/

/-- **Joined items.** Items with a separator between them split when each item does, and when what
follows the last item does not start like the separator. -/
theorem Splits.joined {α : Type} {n : Nat} {B : α → Prop} {f : α → List Char}
    {R : List Char → Prop} (h : Splits n B f R) (sep : List Char) {Q : List Char → Prop}
    (hsep : ∀ x, R (sep ++ x)) (hQ : ∀ r, Q r → R r ∧ ¬ sep <+: r) :
    Splits n (fun xs : List α => xs ≠ [] ∧ ∀ x ∈ xs, B x)
      (fun xs => sep.intercalate (xs.map f)) Q := by
  intro xs
  induction xs with
  | nil => intro _ _ _ ha; exact absurd rfl ha.1
  | cons x xs ih =>
    rintro (_ | ⟨y, ys⟩) r s ⟨-, hxs⟩ ⟨hne, hys⟩ hr hs htext
    · exact absurd rfl hne
    have hx : B x := hxs x List.mem_cons_self
    have hy : B y := hys y List.mem_cons_self
    -- the first items agree; then both lists end, or both go on
    cases xs with
    | nil =>
      cases ys with
      | nil =>
        simp only [List.map_cons, List.map_nil, List.intercalate_singleton] at htext
        obtain ⟨rfl, hrs⟩ := h hx hy (hQ r hr).1 (hQ s hs).1 htext
        exact ⟨rfl, hrs⟩
      | cons y' ys =>
        simp only [List.map_cons, List.map_nil, List.intercalate_singleton,
          List.intercalate_cons_cons, List.append_assoc] at htext
        obtain ⟨-, hrs⟩ := h hx hy (hQ r hr).1 (hsep _) htext
        exact absurd ⟨_, hrs.1.symm⟩ (hQ r hr).2
    | cons x' xs =>
      cases ys with
      | nil =>
        simp only [List.map_cons, List.map_nil, List.intercalate_singleton,
          List.intercalate_cons_cons, List.append_assoc] at htext
        obtain ⟨-, hrs⟩ := h hx hy (hsep _) (hQ s hs).1 htext
        exact absurd ⟨_, hrs.1⟩ (hQ s hs).2
      | cons y' ys =>
        simp only [List.map_cons, List.intercalate_cons_cons, List.append_assoc] at htext
        obtain ⟨rfl, hrs⟩ := h hx hy (hsep _) (hsep _) htext
        have hrest := ih ⟨List.cons_ne_nil _ _, fun z hz => hxs z (List.mem_cons_of_mem _ hz)⟩
          ⟨List.cons_ne_nil _ _, fun z hz => hys z (List.mem_cons_of_mem _ hz)⟩ hr hs
          (by simpa only [List.map_cons] using hrs.drop)
        exact ⟨by rw [hrest.1], hrest.2⟩

/-- What may follow an item of a list that the character `close` ends. -/
def Delimits (close : Char) (r : List Char) : Prop :=
  r.head? = some ',' ∨ r.head? = some close

/-- **Enclosed items.** A list with commas between its items and a closing character behind it
splits when its items do and none of them starts with the closing character. -/
theorem Splits.enclosed {α : Type} {n : Nat} {B : α → Prop} {f : α → List Char} {close : Char}
    (h : Splits n B f (Delimits close)) (hcomma : close ≠ ',')
    (hstart : ∀ a, B a → ∀ x y, f a ++ x ≠ close :: y) :
    Splits n (fun xs : List α => ∀ x ∈ xs, B x)
      (fun xs => [',', ' '].intercalate (xs.map f) ++ [close]) (fun _ => True) := by
  have hjoined := h.joined [',', ' '] (Q := fun r => r.head? = some close)
    (fun _ => .inl rfl) (by
      rintro (_ | ⟨c, r⟩) hr
      · cases hr
      · refine ⟨.inr hr, ?_⟩
        rintro ⟨x, hx⟩
        rw [← hx] at hr
        exact hcomma (Option.some.inj hr).symm)
  have starts_first : ∀ x xs, B x → ∀ r y,
      [',', ' '].intercalate ((x :: xs).map f) ++ r ≠ close :: y := by
    intro x xs hx r y heq
    cases xs with
    | nil => exact hstart x hx _ _ (by simpa using heq)
    | cons x' xs =>
      simp only [List.map_cons, List.intercalate_cons_cons, List.append_assoc] at heq
      exact hstart x hx _ _ heq
  intro xs ys r s hxs hys _ _ htext
  simp only [List.append_assoc, List.singleton_append] at htext
  cases xs with
  | nil =>
    cases ys with
    | nil => exact ⟨rfl, htext.tail⟩
    | cons y ys => exact absurd htext.1.symm (starts_first y ys (hys y List.mem_cons_self) _ _)
  | cons x xs =>
    cases ys with
    | nil => exact absurd htext.1 (starts_first x xs (hxs x List.mem_cons_self) _ _)
    | cons y ys =>
      obtain ⟨hlists, hrest⟩ := hjoined ⟨List.cons_ne_nil _ _, hxs⟩ ⟨List.cons_ne_nil _ _, hys⟩
        rfl rfl htext
      exact ⟨hlists, hrest.tail⟩

/-! ### Words -/

/-- The characters that words and numbers are made of. -/
def isWordChar (c : Char) : Bool :=
  isNamePart c || c == '.' || c == '-'

theorem isWordChar_of_isNamePart {c : Char} (h : isNamePart c) : isWordChar c := by
  simp [isWordChar, h]

theorem isNamePart_of_isNameStart {c : Char} (h : isNameStart c) : isNamePart c := by
  unfold isNameStart at h
  unfold isNamePart
  split at h
  · rename_i hc
    rw [if_pos hc]
    simp only [Bool.or_eq_true] at h ⊢
    exact h.imp_left (Or.imp_left fun ha => by simp [Char.isAlphanum, ha])
  · rename_i hc
    rw [if_neg hc]
    simp [h]

/-- A name is a first character and a run of further ones. -/
theorem IsDottedName.exists_cons {s : String} (h : IsDottedName s) :
    ∃ c cs, s.toList = c :: cs ∧ isNameStart c ∧ cs.all isWordChar := by
  have hname := h.1
  unfold isNameOf at hname
  split at hname
  · cases hname
  · rename_i c cs hs
    rw [Bool.and_eq_true] at hname
    refine ⟨c, cs, hs, hname.1, ?_⟩
    rw [List.all_eq_true] at hname ⊢
    intro d hd
    rw [isWordChar, hname.2 d hd]
    rfl

theorem IsName.isDottedName {s : String} (h : IsName s) : IsDottedName s := by
  refine ⟨?_, h.2⟩
  have hname := h.1
  unfold isNameOf at hname ⊢
  split at hname
  · cases hname
  · rw [Bool.and_eq_true] at hname ⊢
    refine ⟨hname.1, ?_⟩
    rw [List.all_eq_true] at hname ⊢
    intro d hd
    simp [hname.2 d hd]

theorem IsDottedName.all_isWordChar {s : String} (h : IsDottedName s) :
    s.toList.all isWordChar := by
  obtain ⟨c, cs, hs, hc, hcs⟩ := h.exists_cons
  rw [hs, List.all_cons, hcs, isWordChar_of_isNamePart (isNamePart_of_isNameStart hc)]
  rfl

/-- **Words.** A word splits from a text that does not start with a word character. -/
theorem SameText.word {n : Nat} {v w : String} {r s : List Char}
    (h : SameText n (v.toList ++ r) (w.toList ++ s)) (hv : v.toList.all isWordChar)
    (hw : w.toList.all isWordChar) (hr : r.head?.any isWordChar = false)
    (hs : s.head?.any isWordChar = false) : v = w ∧ SameText n r s := by
  obtain ⟨heq, hrest⟩ := h.run hv hw hr hs
  exact ⟨String.ext heq, hrest⟩

/-! ### What may follow an operand -/

/-- **Stops.** The text does not go on with an operand of level `k`: neither with a character that
would belong to its last word, nor with arguments, an index or a label's colon, nor with a word or
a sign that joins operands of that level. -/
def stops (k : Nat) : List Char → Bool
  | [] => true
  | c :: r =>
    !isWordChar c && c != '<' && c != ':' && (c != '[' || 4 < k) &&
      (c != '?' || r.head? != some ':') &&
      (c != ' ' ||
        r.head? != some 'i' && (r.head? != some '&' || 2 < k) && (r.head? != some '|' || 1 < k) &&
          (r.head? != some 'e' || 0 < k))

theorem stops_mono {j k : Nat} (hjk : j ≤ k) {r : List Char} (h : stops j r) : stops k r := by
  cases r with
  | nil => rfl
  | cons c r =>
    have lt_of_lt : ∀ i, i < j → i < k := fun i hi => Nat.lt_of_lt_of_le hi hjk
    simp only [stops, Bool.and_eq_true, Bool.or_eq_true, decide_eq_true_eq] at h ⊢
    obtain ⟨⟨⟨h₁, h₂⟩, h₃⟩, h₄⟩ := h
    refine ⟨⟨⟨h₁, h₂.imp_right (lt_of_lt 4)⟩, h₃⟩, h₄.imp_right ?_⟩
    rintro ⟨⟨⟨hi, hand⟩, hor⟩, he⟩
    exact ⟨⟨⟨hi, hand.imp_right (lt_of_lt 2)⟩, hor.imp_right (lt_of_lt 1)⟩,
      he.imp_right (lt_of_lt 0)⟩

theorem not_word_of_stops {k : Nat} {r : List Char} (h : stops k r) :
    r.head?.any isWordChar = false := by
  cases r with
  | nil => rfl
  | cons c r =>
    simp only [stops, Bool.and_eq_true, Bool.not_eq_true'] at h
    simpa using h.1.1.1.1.1

theorem stops_of_delimits {close : Char} (hclose : close ∈ ['>', ']', ')']) (k : Nat)
    {r : List Char} (h : Delimits close r) : stops k r := by
  cases r with
  | nil => cases h <;> contradiction
  | cons c r =>
    have hc : c = ',' ∨ c = close := by simpa [Delimits] using h
    have hmem : c = ',' ∨ c = '>' ∨ c = ']' ∨ c = ')' := by
      rcases hc with rfl | rfl
      · exact .inl rfl
      · right; simpa using hclose
    rcases hmem with rfl | rfl | rfl | rfl <;> rfl

/-! ### The front of a text -/

/-- The words that are written in front of an operand. -/
def operatorWords : List String := ["keyof", "unique", "readonly", "infer"]

/-- What follows a word that is a label, a parameter or the subject of a predicate. -/
def labels : List Char → Bool
  | ':' :: _ | '?' :: ':' :: _ | ' ' :: 'i' :: _ => true
  | _ => false

/-- The level of an operand that starts with the word `w`, in front of the text `after`.  A label
is never a printed word. -/
def wordFront (w : String) (after : List Char) : Option Nat :=
  if w.toList.head? = some '.' || w == "asserts" then none
  else if w == "new" then some 0
  else if operatorWords.contains w then some 3
  else if labels after && !printedWords.contains w then none
  else some 5

/-- **Front.** How tightly the first operand of a text binds, as far as its first characters tell;
`none` when no type starts there.  An opening parenthesis is a function's when no type follows. -/
def front : List Char → Option Nat
  | [] => none
  | c :: x =>
    if isWordChar c then
      wordFront (String.ofList ((c :: x).takeWhile isWordChar)) ((c :: x).dropWhile isWordChar)
    else if c = '<' then some 0
    else if c = '(' then (if (front x).isNone then some 0 else some 5)
    else if c ∈ ['"', '`', '[', '\x7b'] then some 5
    else none

theorem front_word {w : String} {r : List Char} (hne : w ≠ "") (hw : w.toList.all isWordChar)
    (hr : r.head?.any isWordChar = false) : front (w.toList ++ r) = wordFront w r := by
  have htake := takeWhile_run hw hr
  have hdrop : (w.toList ++ r).dropWhile isWordChar = r := by
    have hsplit := List.takeWhile_append_dropWhile (p := isWordChar) (l := w.toList ++ r)
    rw [htake] at hsplit
    exact List.append_cancel_left hsplit
  cases hs : w.toList with
  | nil => exact absurd (String.ext (by simpa using hs)) hne
  | cons c cs =>
    rw [hs] at hw htake hdrop
    have hc : isWordChar c := by
      rw [List.all_cons, Bool.and_eq_true] at hw
      exact hw.1
    rw [List.cons_append] at htake hdrop ⊢
    rw [front, if_pos hc, htake, hdrop, ← hs, String.ofList_toList]

/-! ### The text of a type -/

namespace TypeExpr

/-- The text of a type as an operand of level `k`. -/
def chars (k : Nat) (t : TypeExpr) : List Char :=
  (t.parenthesize k t.print).toList

@[simp]
theorem parenthesize_zero (t : TypeExpr) (text : String) : t.parenthesize 0 text = text := by
  simp [parenthesize]

theorem chars_zero (t : TypeExpr) : t.chars 0 = t.print.toList := by
  simp [chars]

theorem chars_of_le {k : Nat} {t : TypeExpr} (h : k ≤ t.precedence) : t.chars k = t.chars 0 := by
  simp [chars, parenthesize, Nat.not_lt.2 h]

theorem chars_of_lt {k : Nat} {t : TypeExpr} (h : t.precedence < k) :
    t.chars k = '(' :: t.chars 0 ++ [')'] := by
  simp [chars, parenthesize, h]

/-- A place asks for two levels alike when no type is between them. -/
theorem chars_congr {j k : Nat} {t : TypeExpr} (h : t.precedence < j ↔ t.precedence < k) :
    t.chars j = t.chars k := by
  simp [chars, parenthesize, h]

/-- A printer that puts a separator between the texts of its items. -/
theorem toList_joined {α : Type} (F : List α → String) (f : α → String) (sep : String)
    (hnil : F [] = "") (hone : ∀ x, F [x] = f x)
    (hcons : ∀ x y ys, F (x :: y :: ys) = f x ++ sep ++ F (y :: ys)) (xs : List α) :
    (F xs).toList = sep.toList.intercalate (xs.map fun x => (f x).toList) := by
  induction xs with
  | nil => simp [hnil]
  | cons x xs ih =>
    cases xs with
    | nil => simp [hone]
    | cons y ys =>
      rw [hcons, String.toList_append, String.toList_append, ih]
      simp [List.intercalate_cons_cons]

attribute [local simp] print printOperands printArgs printParts printElements printElement printHead
  printReturn printTypeParams printTypeParam printAfter printParams printParam printOr printMembers
  printMember printMapped printIs

theorem toList_printOperands (k : Nat) (sep : String) (ts : List TypeExpr) :
    (printOperands k sep ts).toList = sep.toList.intercalate (ts.map (chars k)) :=
  toList_joined _ (fun t => t.parenthesize k t.print) sep (by simp) (by simp) (by simp) ts

/-! ### One equation for each form -/

variable (t u : TypeExpr) (ts : List TypeExpr)

@[simp]
theorem chars_keyword (k : Keyword) : (keyword k).chars 0 = k.text.toList := by
  simp [chars_zero]

@[simp]
theorem chars_string (s : String) :
    (string s).chars 0 = '"' :: (s.toList.flatMap quoteChar ++ ['"']) := by
  simp [chars_zero, quoteString]

@[simp]
theorem chars_number (x : Double) : (number x).chars 0 = x.render.toList := by
  simp [chars_zero]

@[simp]
theorem chars_bigint (digits : String) : (bigint digits).chars 0 = (digits ++ "n").toList := by
  simp [chars_zero]

@[simp]
theorem chars_boolean (b : Bool) :
    (boolean b).chars 0 = (if b then "true" else "false").toList := by
  simp [chars_zero]

@[simp]
theorem chars_template (ps : List TemplatePart) :
    (template ps).chars 0 = '`' :: ((printParts ps).toList ++ ['`']) := by
  simp [chars_zero]

@[simp]
theorem chars_reference (name : String) :
    (reference name ts).chars 0 = name.toList ++ (printArgs ts).toList := by
  simp [chars_zero]

@[simp]
theorem chars_array : (array t).chars 0 = t.chars 4 ++ ['[', ']'] := by
  simp [chars]

@[simp]
theorem chars_tuple (es : List TupleElement) :
    (tuple es).chars 0 = '[' :: ((printElements es).toList ++ [']']) := by
  simp [chars_zero]

@[simp]
theorem chars_optional : (optional t).chars 0 = t.chars 4 ++ ['?'] := by
  simp [chars]

@[simp]
theorem chars_rest : (rest t).chars 0 = '.' :: '.' :: '.' :: t.chars 4 := by
  simp [chars]

@[simp]
theorem chars_union : (union ts).chars 0 = [' ', '|', ' '].intercalate (ts.map (chars 1)) := by
  simp [chars_zero, toList_printOperands]

@[simp]
theorem chars_intersection :
    (intersection ts).chars 0 = [' ', '&', ' '].intercalate (ts.map (chars 2)) := by
  simp [chars_zero, toList_printOperands]

@[simp]
theorem chars_function (s : Signature) (isConstructor : Bool) :
    (function s isConstructor).chars 0 = (mark isConstructor "new ").toList ++
      ((printHead s).toList ++ ([' ', '=', '>', ' '] ++ (printReturn s).toList)) := by
  simp [chars_zero]

@[simp]
theorem chars_object_nil : (object []).chars 0 = ['\x7b', '\x7d'] := by
  simp [chars_zero]

@[simp]
theorem chars_object_cons (m : Member) (ms : List Member) :
    (object (m :: ms)).chars 0 =
      '\x7b' :: ' ' :: ((printMembers (m :: ms)).toList ++ ['\x7d']) := by
  simp [chars_zero]

@[simp]
theorem chars_operator (op : TypeOperator) :
    (operator op t).chars 0 = op.text.toList ++ ' ' :: t.chars 3 := by
  simp [chars]

@[simp]
theorem chars_indexed : (indexed t u).chars 0 = t.chars 4 ++ '[' :: (u.chars 0 ++ [']']) := by
  simp [chars]

@[simp]
theorem chars_conditional (yes no : TypeExpr) :
    (conditional t u yes no).chars 0 = t.chars 1 ++ (" extends ".toList ++ (u.chars 1 ++
      (" ? ".toList ++ (yes.chars 0 ++ (" : ".toList ++ no.chars 0))))) := by
  simp [chars]

@[simp]
theorem chars_mapped (m : MappedType) : (mapped m).chars 0 = (printMapped m).toList := by
  simp [chars_zero]

@[simp]
theorem chars_infer (name : String) :
    (infer name).chars 0 = "infer".toList ++ ' ' :: name.toList := by
  simp [chars_zero]

@[simp]
theorem chars_query (name : String) :
    (query name).chars 0 = "typeof".toList ++ ' ' :: name.toList := by
  simp [chars_zero]

@[simp]
theorem chars_thisType : thisType.chars 0 = "this".toList := by
  simp [chars_zero]

@[simp]
theorem chars_predicate (asserts : Bool) (param : String) (type : Option TypeExpr) :
    (predicate asserts param type).chars 0 =
      (mark asserts "asserts ").toList ++ (param.toList ++ (printIs type).toList) := by
  simp [chars_zero]

@[simp]
theorem chars_imported (argument : String) (qualifier : Option String) :
    (imported argument qualifier ts).chars 0 = "import".toList ++ '(' :: '"' ::
      (argument.toList ++ '"' :: ')' :: ((match qualifier with
        | some q => '.' :: q.toList
        | none => []) ++ (printArgs ts).toList)) := by
  cases qualifier <;> simp [chars_zero]

/-! ### One equation for each piece -/

theorem toList_printArgs_nil : (printArgs []).toList = [] := by
  simp

theorem toList_printArgs_cons :
    (printArgs (t :: ts)).toList =
      '<' :: ([',', ' '].intercalate ((t :: ts).map (chars 0)) ++ ['>']) := by
  rw [printArgs, String.toList_append, String.toList_append, toList_printOperands]
  simp

theorem toList_printElement_none : (printElement ⟨none, t⟩).toList = t.chars 0 := by
  simp [chars_zero]

theorem isMarked_of_isPlain {t : TypeExpr} (ht : t.isPlain) : t.isMarked = false := by
  cases t with
  | optional | rest | predicate => cases ht
  | _ => rfl

theorem toList_printElement_label {t : TypeExpr} (ht : t.isMarked = false) (label : String) :
    (printElement ⟨some label, t⟩).toList = label.toList ++ ':' :: ' ' :: t.chars 0 := by
  cases t <;> simp_all [isMarked, chars_zero]

theorem toList_printElement_label_optional (label : String) :
    (printElement ⟨some label, .optional t⟩).toList =
      label.toList ++ '?' :: ':' :: ' ' :: t.chars 0 := by
  simp [chars_zero]

theorem toList_printElement_label_rest (label : String) :
    (printElement ⟨some label, .rest t⟩).toList =
      '.' :: '.' :: '.' :: (label.toList ++ ':' :: ' ' :: t.chars 0) := by
  simp [chars_zero]

theorem toList_printElements (es : List TupleElement) :
    (printElements es).toList =
      [',', ' '].intercalate (es.map fun e => (printElement e).toList) :=
  toList_joined printElements printElement ", " (by simp) (by simp) (by simp) es

theorem toList_printTypeParams (ps : List TypeParam) :
    (printTypeParams ps).toList =
      [',', ' '].intercalate (ps.map fun p => (printTypeParam p).toList) :=
  toList_joined printTypeParams printTypeParam ", " (by simp) (by simp) (by simp) ps

theorem toList_printParams (ps : List Param) :
    (printParams ps).toList = [',', ' '].intercalate (ps.map fun p => (printParam p).toList) :=
  toList_joined printParams printParam ", " (by simp) (by simp) (by simp) ps

theorem toList_printParam (name : String) (isOptional isRest : Bool) :
    (printParam ⟨name, isOptional, isRest, some t⟩).toList = (mark isRest "...").toList ++
      (name.toList ++ ((mark isOptional "?").toList ++ ':' :: ' ' :: t.chars 0)) := by
  simp [chars_zero]

theorem toList_printHead_nil (ps : List Param) :
    (printHead ⟨[], ps, t⟩).toList = '(' :: ((printParams ps).toList ++ [')']) := by
  simp

theorem toList_printHead_cons (p : TypeParam) (ps : List TypeParam) (qs : List Param) :
    (printHead ⟨p :: ps, qs, t⟩).toList = '<' :: ((printTypeParams (p :: ps)).toList ++
      '>' :: '(' :: ((printParams qs).toList ++ [')'])) := by
  simp

theorem toList_printReturn (s : Signature) : (printReturn s).toList = s.returns.chars 0 := by
  cases s
  simp [chars_zero]

theorem toList_printTypeParam (name : String) (constraint bound : Option TypeExpr) :
    (printTypeParam ⟨name, constraint, bound⟩).toList = name.toList ++
      ((printAfter " extends " constraint).toList ++ (printAfter " = " bound).toList) := by
  simp

theorem toList_printAfter_none (word : String) : (printAfter word none).toList = [] := by
  simp

theorem toList_printAfter_some (word : String) :
    (printAfter word (some t)).toList = word.toList ++ t.chars 0 := by
  simp [chars_zero]

theorem toList_printIs_none : (printIs none).toList = [] := by
  simp

theorem toList_printIs_some :
    (printIs (some t)).toList = ' ' :: 'i' :: 's' :: ' ' :: t.chars 0 := by
  simp [chars_zero]

theorem toList_printParts_nil : (printParts []).toList = [] := by
  simp

theorem toList_printParts_text (s : String) (ps : List TemplatePart) :
    (printParts (.text s :: ps)).toList = s.toList ++ (printParts ps).toList := by
  simp

theorem toList_printParts_type (ps : List TemplatePart) :
    (printParts (.type t :: ps)).toList =
      '$' :: '\x7b' :: (t.chars 0 ++ '\x7d' :: (printParts ps).toList) := by
  simp [chars_zero]

theorem toList_printMembers_nil : (printMembers []).toList = [] := by
  simp

theorem toList_printMembers_cons (m : Member) (ms : List Member) :
    (printMembers (m :: ms)).toList =
      (printMember m).toList ++ ' ' :: (printMembers ms).toList := by
  simp

theorem toList_printMember_method (name : String) (isOptional isReadonly isConstructor : Bool)
    (s : Signature) (initializer : Option Initializer) (doc : DocComment) :
    (printMember ⟨name, .method, isOptional, isReadonly, some (.function s isConstructor),
      initializer, doc⟩).toList = name.toList ++ ((mark isOptional "?").toList ++
        ((printHead s).toList ++ ([':', ' '] ++ (printReturn s).toList) ++ [';'])) := by
  simp

theorem toList_printMember_getter (name : String) (isOptional isReadonly : Bool)
    (initializer : Option Initializer) (doc : DocComment) :
    (printMember ⟨name, .getter, isOptional, isReadonly, some t, initializer, doc⟩).toList =
      "get".toList ++ ' ' :: (name.toList ++ ("(): ".toList ++ (t.chars 0 ++ [';']))) := by
  simp [chars_zero]

theorem toList_printMember_setter (name : String) (isOptional isReadonly : Bool)
    (initializer : Option Initializer) (doc : DocComment) :
    (printMember ⟨name, .setter, isOptional, isReadonly, some t, initializer, doc⟩).toList =
      "set".toList ++ ' ' :: (name.toList ++ ("(value: ".toList ++ (t.chars 0 ++ [')', ';']))) := by
  simp [chars_zero]

theorem toList_printMember_property (name : String) (isOptional isReadonly : Bool)
    (initializer : Option Initializer) (doc : DocComment) :
    (printMember ⟨name, .property, isOptional, isReadonly, some t, initializer, doc⟩).toList =
      (mark isReadonly "readonly ").toList ++ (name.toList ++ ((mark isOptional "?").toList ++
        ':' :: ' ' :: (t.chars 0 ++ [';']))) := by
  simp [chars_zero]

theorem toList_printMapped (readonlyMod optionalMod : Option MappedModifier) (param : String)
    (nameType : Option TypeExpr) :
    (printMapped ⟨readonlyMod, param, some t, nameType, optionalMod, some u⟩).toList =
      '\x7b' :: ' ' :: ((modifierText readonlyMod "readonly ").toList ++ '[' :: (param.toList ++
        (" in ".toList ++ (t.chars 0 ++ ((printAfter " as " nameType).toList ++ ']' ::
          ((modifierText optionalMod "?").toList ++ ':' :: ' ' ::
            (u.chars 0 ++ [';', ' ', '\x7d']))))))) := by
  simp [chars_zero]

end TypeExpr

end PropDocs
