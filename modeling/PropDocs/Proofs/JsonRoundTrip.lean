import Mathlib.Data.List.DropRight
import PropDocs.Json.Reader
import PropDocs.Json.Writer

/-!
# Reading back what was written

A JSON value that is written, in either layout, is read back as the same value: the order of fields,
repeated fields and strings that denote no text included.

* Each reader takes exactly what the writer wrote from the front of a text, **whatever follows**:
  `readString_writeText`, `readNumber_writeDecimal`.  Only a number asks something of what follows, that
  it does not go on with the number (`Closes`);
* The writer puts blanks only where the reader skips them, so that both layouts are read alike:
  `readValue_eq_of_skipSpace` and its two companions;
* `ReadsBack`: the same of a whole value, proved for each form of a value from its parts (`readsBack`).
  The fuel is never what stops the reader: each step inwards takes a character, so that the length of the
  text is enough;
* `read?_write`: the round trip of a text.
-/

namespace PropDocs.Json

/-! ### Blanks -/

theorem skipSpace_append {blanks : List Char} (h : ∀ c ∈ blanks, isSpace c = true)
    (cs : List Char) : skipSpace (blanks ++ cs) = skipSpace cs :=
  List.dropWhile_append_of_pos h

theorem skipSpace_cons {c : Char} (h : isSpace c = false) (cs : List Char) :
    skipSpace (c :: cs) = c :: cs :=
  List.dropWhile_cons_of_neg (by rw [h]; exact Bool.false_ne_true)

theorem skipSpace_skipSpace (cs : List Char) : skipSpace (skipSpace cs) = skipSpace cs :=
  List.dropWhile_idempotent isSpace cs

theorem isSpace_of_mem_newline {l : Layout} {c : Char} (h : c ∈ l.newline) : isSpace c = true := by
  cases l with
  | none => cases h
  | some depth =>
    rcases List.mem_cons.1 h with rfl | h
    · rfl
    · rw [List.eq_of_mem_replicate h]
      rfl

theorem exists_colon (l : Layout) :
    ∃ blanks, l.colon = ':' :: blanks ∧ ∀ c ∈ blanks, isSpace c = true := by
  cases l with
  | none => exact ⟨[], rfl, by simp⟩
  | some depth => exact ⟨[' '], rfl, by simp [isSpace]⟩

/-- The readers skip blanks first, so that only what follows the blanks counts. -/
theorem readValue_eq_of_skipSpace (fuel : Nat) {cs cs' : List Char}
    (h : skipSpace cs = skipSpace cs') : readValue fuel cs = readValue fuel cs' := by
  cases fuel with
  | zero => rfl
  | succ fuel => rw [readValue, readValue, h]

theorem readItems_eq_of_skipSpace (fuel : Nat) {cs cs' : List Char}
    (h : skipSpace cs = skipSpace cs') : readItems fuel cs = readItems fuel cs' := by
  cases fuel with
  | zero => rfl
  | succ fuel => rw [readItems, readItems, readValue_eq_of_skipSpace fuel h]

theorem readFields_eq_of_skipSpace (fuel : Nat) {cs cs' : List Char}
    (h : skipSpace cs = skipSpace cs') : readFields fuel cs = readFields fuel cs' := by
  cases fuel with
  | zero => rfl
  | succ fuel => rw [readFields, readFields, h]

/-! ### Strings -/

theorem digitValue?_hexDigit : ∀ n < 16, Decimal.digitValue? (hexDigit n) = some n := by
  decide

theorem hexUnit?_hexDigit {n : Nat} (h : n < 0x20) :
    hexUnit? '0' '0' (hexDigit (n / 16)) (hexDigit (n % 16)) = some n := by
  have hzero : Decimal.digitValue? '0' = some 0 := by decide
  have hhigh := digitValue?_hexDigit (n / 16) (by omega)
  have hlow := digitValue?_hexDigit (n % 16) (by omega)
  rw [hexUnit?, hzero, hhigh, hlow]
  show some (((0 * 16 + 0) * 16 + n / 16) * 16 + n % 16) = some n
  congr 1
  omega

theorem readUnits_simple {e ch : Char} (he : simpleEscape? e = some ch) {rest : List Char}
    {units : List Nat} {rest' : List Char} (h : readUnits rest = some (units, rest')) :
    readUnits ('\\' :: e :: rest) = some (ch.toNat :: units, rest') := by
  have hu : e ≠ 'u' := by
    rintro rfl
    cases he
  rw [readUnits, he, h]
  · rfl
  · rintro a b c d rest he -
    exact hu he

theorem readUnits_plain {c : Char} (hquote : c ≠ '"') (hslash : c ≠ '\\') (hc : ¬ c.toNat < 0x20)
    {rest : List Char} {units : List Nat} {rest' : List Char}
    (h : readUnits rest = some (units, rest')) :
    readUnits (c :: rest) = some (c.toNat :: units, rest') := by
  rw [readUnits, if_neg (not_or.2 ⟨hc, hslash⟩), h]
  · rfl
  · exact hquote
  · exact fun _ _ _ _ _ hc _ => hslash hc
  · exact fun _ _ hc _ => hslash hc

/-- A character is written as an escape of one letter, as an escape of its code or as itself. -/
theorem escapeChar_cases (c : Char) :
    (∃ e, escapeChar c = ['\\', e] ∧ simpleEscape? e = some c) ∨
      (escapeChar c = ['\\', 'u', '0', '0', hexDigit (c.toNat / 16), hexDigit (c.toNat % 16)] ∧
        c.toNat < 0x20) ∨
      (escapeChar c = [c] ∧ c ≠ '"' ∧ c ≠ '\\' ∧ ¬ c.toNat < 0x20) := by
  unfold escapeChar
  split_ifs with hquote hslash hb hf hn hr ht hc
  · exact .inl ⟨'"', rfl, congrArg some hquote.symm⟩
  · exact .inl ⟨'\\', rfl, congrArg some hslash.symm⟩
  · exact .inl ⟨'b', rfl, congrArg some hb.symm⟩
  · exact .inl ⟨'f', rfl, congrArg some hf.symm⟩
  · exact .inl ⟨'n', rfl, congrArg some hn.symm⟩
  · exact .inl ⟨'r', rfl, congrArg some hr.symm⟩
  · exact .inl ⟨'t', rfl, congrArg some ht.symm⟩
  · exact .inr (.inl ⟨rfl, hc⟩)
  · exact .inr (.inr ⟨rfl, hquote, hslash, hc⟩)

/-- **One character**, escaped where it has to be, is read as its own code. -/
theorem readUnits_escapeChar (c : Char) {rest : List Char} {units : List Nat} {rest' : List Char}
    (h : readUnits rest = some (units, rest')) :
    readUnits (escapeChar c ++ rest) = some (c.toNat :: units, rest') := by
  rcases escapeChar_cases c with ⟨e, he, hsimple⟩ | ⟨he, hc⟩ | ⟨he, hquote, hslash, hc⟩
  · rw [he]
    exact readUnits_simple hsimple h
  · rw [he]
    show readUnits ('\\' :: 'u' :: '0' :: '0' :: _ :: _ :: rest) = _
    rw [readUnits, hexUnit?_hexDigit hc, h]
    rfl
  · rw [he]
    exact readUnits_plain hquote hslash hc h

theorem readUnits_escaped (cs rest : List Char) :
    readUnits (cs.flatMap escapeChar ++ '"' :: rest) = some (cs.map Char.toNat, rest) := by
  induction cs with
  | nil => rfl
  | cons c cs ih =>
    rw [List.flatMap_cons, List.append_assoc]
    exact readUnits_escapeChar c ih

theorem not_surrogate (c : Char) :
    isHighSurrogate c.toNat = false ∧ isLowSurrogate c.toNat = false := by
  have hvalid : c.toNat < 0xd800 ∨ 0xdfff < c.toNat ∧ c.toNat < 0x110000 := c.valid
  constructor
  · rw [isHighSurrogate, Bool.and_eq_false_iff, decide_eq_false_iff_not, decide_eq_false_iff_not]
    omega
  · rw [isLowSurrogate, Bool.and_eq_false_iff, decide_eq_false_iff_not, decide_eq_false_iff_not]
    omega

theorem joinSurrogates?_cons {n : Nat} (hhigh : isHighSurrogate n = false)
    (hlow : isLowSurrogate n = false) (ns : List Nat) :
    joinSurrogates? (n :: ns) = (joinSurrogates? ns).map (Char.ofNat n :: ·) := by
  cases ns with
  | nil => simp [joinSurrogates?, hhigh, hlow]
  | cons m ns => simp [joinSurrogates?, hhigh, hlow]

/-- The codes of characters hold no surrogates, so there is nothing to join. -/
theorem joinSurrogates?_toNat (cs : List Char) :
    joinSurrogates? (cs.map Char.toNat) = some cs := by
  induction cs with
  | nil => rfl
  | cons c cs ih =>
    obtain ⟨hhigh, hlow⟩ := not_surrogate c
    rw [List.map_cons, joinSurrogates?_cons hhigh hlow, ih, Option.map_some, Char.ofNat_toNat]

theorem readString_of_readUnits {cs rest : List Char} {units : List Nat}
    (h : readUnits cs = some (units, rest)) :
    readString cs = some ((joinSurrogates? units).map String.ofList, rest) := by
  simp [readString, h]

/-- **Strings.** A written string is a quote and a body that is read back; what denotes no text is
written as a lone surrogate. -/
theorem readString_writeText (s : Option String) (rest : List Char) :
    ∃ body, writeText s ++ rest = '"' :: body ∧ readString body = some (s, rest) := by
  cases s with
  | none =>
    have hunits : readUnits ('\\' :: 'u' :: 'd' :: '8' :: '0' :: '0' :: '"' :: rest) =
        some ([0xd800], rest) := by
      have hunit : hexUnit? 'd' '8' '0' '0' = some 0xd800 := by decide
      simp [readUnits, hunit]
    have hnone : joinSurrogates? [0xd800] = none := by decide
    refine ⟨_, ?_, (readString_of_readUnits hunits).trans ?_⟩
    · rfl
    · rw [hnone, Option.map_none]
  | some s =>
    refine ⟨s.toList.flatMap escapeChar ++ '"' :: rest, ?_, ?_⟩
    · show '"' :: s.toList.flatMap escapeChar ++ ['"'] ++ rest = _
      rw [List.cons_append, List.cons_append, List.append_assoc, List.singleton_append]
    · rw [readString_of_readUnits (readUnits_escaped s.toList rest), joinSurrogates?_toNat,
        Option.map_some, String.ofList_toList]

/-! ### Numbers -/

/-- **What closes a number**: the end of the text, or a character that cannot go on with it. -/
def Closes (rest : List Char) : Prop :=
  ∀ c cs, rest = c :: cs → c.isDigit = false ∧ c ≠ '.' ∧ c ≠ 'e' ∧ c ≠ 'E'

/-- What is no digit ends a run of digits. -/
def EndsDigits (rest : List Char) : Prop :=
  ∀ c cs, rest = c :: cs → c.isDigit = false

theorem Closes.endsDigits {rest : List Char} (h : Closes rest) : EndsDigits rest :=
  fun c cs hrest => (h c cs hrest).1

theorem closes_nil : Closes [] := by
  intro c cs h
  cases h

theorem closes_cons {c : Char} (h : c = ',' ∨ c = ']' ∨ c = '}' ∨ isSpace c = true)
    (cs : List Char) : Closes (c :: cs) := by
  intro c' cs' hcons
  obtain ⟨rfl, -⟩ := List.cons.inj hcons
  rcases h with rfl | rfl | rfl | h
  · decide
  · decide
  · decide
  · simp only [isSpace, Bool.or_eq_true, beq_iff_eq] at h
    rcases h with ((rfl | rfl) | rfl) | rfl
    · decide
    · decide
    · decide
    · decide

theorem spanDigits_append {ds rest : List Char} (hd : ∀ c ∈ ds, c.isDigit = true)
    (hr : EndsDigits rest) : spanDigits (ds ++ rest) = (ds, rest) := by
  have hstop : rest.takeWhile Char.isDigit = [] ∧ rest.dropWhile Char.isDigit = rest := by
    cases rest with
    | nil => exact ⟨rfl, rfl⟩
    | cons c cs =>
      have hc := hr c cs rfl
      simp [hc]
  rw [spanDigits, List.takeWhile_append_of_pos hd, List.dropWhile_append_of_pos hd, hstop.1, hstop.2,
    List.append_nil]

theorem isDigit_of_mem_digits {n : Nat} {c : Char} (h : c ∈ Nat.toDigits 10 n) :
    c.isDigit = true :=
  Nat.isDigit_of_mem_toDigits (by decide) (by decide) h

theorem toDigits_append_ne (n : Nat) {c : Char} (hc : c.isDigit = false) (rest cs : List Char) :
    Nat.toDigits 10 n ++ rest ≠ c :: cs := by
  obtain ⟨d, ds, hds⟩ := List.exists_cons_of_ne_nil (Nat.toDigits_ne_nil (b := 10) (n := n))
  intro hcons
  rw [hds, List.cons_append] at hcons
  have hd : d.isDigit = true := isDigit_of_mem_digits (hds ▸ List.mem_cons_self)
  rw [(List.cons.inj hcons).1, hc] at hd
  cases hd

theorem readDigits_toDigits (n : Nat) {rest : List Char} (hr : EndsDigits rest) :
    readDigits (Nat.toDigits 10 n ++ rest) = some (Nat.toDigits 10 n, rest) := by
  have hne : (Nat.toDigits 10 n).isEmpty = false := by
    rw [List.isEmpty_eq_false_iff]
    exact Nat.toDigits_ne_nil
  rw [readDigits, spanDigits_append (fun c hc => isDigit_of_mem_digits hc) hr]
  show (if (Nat.toDigits 10 n).isEmpty = true then none else _) = _
  rw [hne]
  rfl

theorem ofDigits_toDigits (n : Nat) : Decimal.ofDigits (Nat.toDigits 10 n) = n :=
  Nat.ofDigitChars_toDigits (by decide) (by decide)

/-- A number above zero is written without a zero in front. -/
theorem exists_cons_toDigits {n : Nat} (h : 0 < n) :
    ∃ c cs, Nat.toDigits 10 n = c :: cs ∧ c ≠ '0' := by
  have hdigit : ∀ m < 10, 0 < m → m.digitChar ≠ '0' := by decide
  induction n using Nat.strongRecOn with
  | ind n ih =>
    rw [Nat.toDigits_eq_if (by decide)]
    by_cases hn : n < 10
    · rw [if_pos hn]
      exact ⟨_, [], rfl, hdigit n hn h⟩
    · obtain ⟨c, cs, hcs, hc⟩ := ih (n / 10) (by omega) (by omega)
      rw [if_neg hn, hcs]
      exact ⟨c, _, rfl, hc⟩

theorem readWhole_toDigits (n : Nat) {rest : List Char} (hr : EndsDigits rest) :
    readWhole (Nat.toDigits 10 n ++ rest) = some (Nat.toDigits 10 n, rest) := by
  by_cases hn : n = 0
  · rw [hn]
    rfl
  · obtain ⟨c, cs, hcs, hc⟩ := exists_cons_toDigits (Nat.pos_of_ne_zero hn)
    have hread := readDigits_toDigits n hr
    rw [hcs, List.cons_append] at hread ⊢
    rw [← hread]
    unfold readWhole
    split
    · rename_i hzero
      exact absurd (List.cons.inj hzero).1 hc
    · rfl

/-- The power of ten of a written decimal. -/
def writeExponent (e : Int) : List Char :=
  if e = 0 then []
  else if e < 0 then 'e' :: '-' :: Nat.toDigits 10 e.natAbs
  else 'e' :: Nat.toDigits 10 e.natAbs

theorem writeDecimal_eq (d : Decimal) :
    writeDecimal d =
      (if d.negative then ['-'] else []) ++ Nat.toDigits 10 d.digits ++ writeExponent d.exponent := by
  rw [writeDecimal, writeExponent]
  by_cases hzero : d.exponent = 0
  · rw [if_pos hzero, if_pos hzero, List.append_nil]
  · rw [if_neg hzero, if_neg hzero]
    by_cases hneg : d.exponent < 0
    · rw [if_pos hneg, if_pos hneg]
    · rw [if_neg hneg, if_neg hneg]

theorem readExponent_minus {cs ds rest : List Char} (h : readDigits cs = some (ds, rest)) :
    readExponent ('e' :: '-' :: cs) = some (-(Decimal.ofDigits ds : Int), rest) := by
  simp [readExponent, h]

theorem readExponent_digits {cs ds rest : List Char} (h : readDigits cs = some (ds, rest))
    (hminus : ∀ cs', cs ≠ '-' :: cs') (hplus : ∀ cs', cs ≠ '+' :: cs') :
    readExponent ('e' :: cs) = some ((Decimal.ofDigits ds : Int), rest) := by
  simp [readExponent, h]

theorem readExponent_writeExponent (e : Int) {rest : List Char} (hr : Closes rest) :
    readExponent (writeExponent e ++ rest) = some (e, rest) := by
  rw [writeExponent]
  by_cases hzero : e = 0
  · rw [if_pos hzero, List.nil_append, hzero]
    cases rest with
    | nil => rfl
    | cons c cs =>
      obtain ⟨-, -, he, hE⟩ := hr c cs rfl
      show (if c = 'e' ∨ c = 'E' then _ else some (0, c :: cs)) = _
      rw [if_neg (not_or.2 ⟨he, hE⟩)]
  · rw [if_neg hzero]
    have hdigits := readDigits_toDigits e.natAbs hr.endsDigits
    by_cases hneg : e < 0
    · rw [if_pos hneg, List.cons_append, List.cons_append, readExponent_minus hdigits,
        ofDigits_toDigits]
      congr 2
      omega
    · rw [if_neg hneg, List.cons_append, readExponent_digits hdigits
          (toDigits_append_ne _ (by decide) rest) (toDigits_append_ne _ (by decide) rest),
        ofDigits_toDigits]
      congr 2
      omega

theorem writeExponent_append_head (e : Int) {rest : List Char} (hr : Closes rest) :
    EndsDigits (writeExponent e ++ rest) ∧ readFraction (writeExponent e ++ rest) =
      some ([], writeExponent e ++ rest) := by
  have hhead : ∀ c cs, writeExponent e ++ rest = c :: cs → c.isDigit = false ∧ c ≠ '.' := by
    intro c cs hcs
    rw [writeExponent] at hcs
    by_cases hzero : e = 0
    · rw [if_pos hzero, List.nil_append] at hcs
      exact ⟨(hr c cs hcs).1, (hr c cs hcs).2.1⟩
    · rw [if_neg hzero] at hcs
      have hc : c = 'e' := by
        by_cases hneg : e < 0
        · rw [if_pos hneg] at hcs
          exact (List.cons.inj hcs).1.symm
        · rw [if_neg hneg] at hcs
          exact (List.cons.inj hcs).1.symm
      rw [hc]
      decide
  refine ⟨fun c cs hcs => (hhead c cs hcs).1, ?_⟩
  unfold readFraction
  split
  · rename_i cs hcs
    exact absurd rfl (hhead '.' cs hcs).2
  · rfl

/-- A decimal starts with its sign or a digit. -/
theorem exists_cons_writeDecimal (d : Decimal) :
    ∃ c cs, writeDecimal d = c :: cs ∧ (c = '-' ∨ c.isDigit = true) := by
  obtain ⟨c, cs, hcs⟩ := List.exists_cons_of_ne_nil (Nat.toDigits_ne_nil (b := 10) (n := d.digits))
  rw [writeDecimal_eq, hcs]
  cases d.negative with
  | true => exact ⟨_, _, rfl, .inl rfl⟩
  | false => exact ⟨c, _, rfl, .inr (isDigit_of_mem_digits (hcs ▸ List.mem_cons_self))⟩

theorem ne_of_starts_number {c c' : Char} (h : c = '-' ∨ c.isDigit = true)
    (h' : c' ≠ '-' ∧ c'.isDigit = false) : c ≠ c' := by
  rintro rfl
  rcases h with h | h
  · exact h'.1 h
  · exact Bool.false_ne_true (h'.2.symm.trans h)

theorem isSpace_of_starts_number {c : Char} (h : c = '-' ∨ c.isDigit = true) :
    isSpace c = false := by
  simp only [isSpace, Bool.or_eq_false_iff, beq_eq_false_iff_ne]
  exact ⟨⟨⟨ne_of_starts_number h (by decide), ne_of_starts_number h (by decide)⟩,
    ne_of_starts_number h (by decide)⟩, ne_of_starts_number h (by decide)⟩

/-- **Numbers.** -/
theorem readNumber_writeDecimal (d : Decimal) {rest : List Char} (hr : Closes rest) :
    readNumber (writeDecimal d ++ rest) = some (d, rest) := by
  obtain ⟨hends, hfraction⟩ := writeExponent_append_head d.exponent hr
  have hunsigned : ∀ negative, readUnsigned negative
      (Nat.toDigits 10 d.digits ++ (writeExponent d.exponent ++ rest)) =
        some ({ d with negative }, rest) := by
    intro negative
    rw [readUnsigned, readWhole_toDigits d.digits hends]
    simp only [Option.bind_eq_bind, Option.bind_some, hfraction,
      readExponent_writeExponent d.exponent hr, Decimal.ofPieces, List.append_nil,
      ofDigits_toDigits, List.length_nil]
    show some (Decimal.mk negative d.digits (d.exponent - 0), rest) = _
    rw [Int.sub_zero]
  rw [writeDecimal_eq]
  cases hneg : d.negative with
  | true =>
    rw [if_pos rfl, List.append_assoc, List.append_assoc, List.singleton_append, readNumber,
      hunsigned true, ← hneg]
  | false =>
    rw [if_neg Bool.false_ne_true, List.nil_append, List.append_assoc]
    unfold readNumber
    split
    · -- a number without a sign starts with a digit, which is no minus
      rename_i cs hcs
      exact absurd hcs (toDigits_append_ne _ (by decide) _ cs)
    · rw [hunsigned false, ← hneg]

/-! ### Steps of the readers -/

theorem readValue_word (fuel : Nat) {c : Char} (cs : List Char) (hspace : isSpace c = false)
    (hquote : c ≠ '"') (hbracket : c ≠ '[') (hbrace : c ≠ '\x7b') :
    readValue (fuel + 1) (c :: cs) = readWord (c :: cs) := by
  rw [readValue, skipSpace_cons hspace]
  split
  · rename_i h
    exact absurd (List.cons.inj h).1 hquote
  · rename_i h
    exact absurd (List.cons.inj h).1 hbracket
  · rename_i h
    exact absurd (List.cons.inj h).1 hbrace
  · rfl

theorem readWord_number {c : Char} (cs : List Char) (ht : c ≠ 't') (hf : c ≠ 'f') (hn : c ≠ 'n') :
    readWord (c :: cs) = (readNumber (c :: cs)).map fun (n, rest) => (.number n, rest) := by
  unfold readWord
  split
  · rename_i h
    exact absurd (List.cons.inj h).1 ht
  · rename_i h
    exact absurd (List.cons.inj h).1 hf
  · rename_i h
    exact absurd (List.cons.inj h).1 hn
  · rfl

theorem readValue_text {fuel : Nat} {body rest : List Char} {s : Option String}
    (h : readString body = some (s, rest)) :
    readValue (fuel + 1) ('"' :: body) = some (.string s, rest) := by
  rw [readValue, skipSpace_cons rfl]
  show (readString body).map _ = _
  rw [h]
  rfl

theorem readValue_items {fuel : Nat} {cs rest : List Char} {items : List Json}
    (hne : ∀ cs', skipSpace cs ≠ ']' :: cs') (h : readItems fuel cs = some (items, rest)) :
    readValue (fuel + 1) ('[' :: cs) = some (.array items, rest) := by
  have hskip : readItems fuel (skipSpace cs) = some (items, rest) := by
    rw [readItems_eq_of_skipSpace fuel (skipSpace_skipSpace cs), h]
  have hopen : skipSpace ('[' :: cs) = '[' :: cs := skipSpace_cons rfl cs
  -- `hne` leaves the second branch only
  simp only [readValue, hopen, hskip]
  rfl

theorem readValue_fields {fuel : Nat} {cs rest : List Char} {fields : List (Option String × Json)}
    (hne : ∀ cs', skipSpace cs ≠ '\x7d' :: cs') (h : readFields fuel cs = some (fields, rest)) :
    readValue (fuel + 1) ('\x7b' :: cs) = some (.object fields, rest) := by
  have hskip : readFields fuel (skipSpace cs) = some (fields, rest) := by
    rw [readFields_eq_of_skipSpace fuel (skipSpace_skipSpace cs), h]
  have hopen : skipSpace ('\x7b' :: cs) = '\x7b' :: cs := skipSpace_cons rfl cs
  -- `hne` leaves the second branch only
  simp only [readValue, hopen, hskip]
  rfl

theorem readItems_last {fuel : Nat} {cs rest rest' : List Char} {v : Json}
    (hv : readValue fuel cs = some (v, rest)) (hend : skipSpace rest = ']' :: rest') :
    readItems (fuel + 1) cs = some ([v], rest') := by
  simp [readItems, hv, hend]

theorem readItems_more {fuel : Nat} {cs rest rest' rest'' : List Char} {v : Json} {vs : List Json}
    (hv : readValue fuel cs = some (v, rest)) (hcomma : skipSpace rest = ',' :: rest')
    (hvs : readItems fuel rest' = some (vs, rest'')) :
    readItems (fuel + 1) cs = some (v :: vs, rest'') := by
  simp [readItems, hv, hcomma, hvs]

theorem readFields_last {fuel : Nat} {cs body rest₁ rest₂ rest₃ rest : List Char}
    {name : Option String} {v : Json} (hquote : skipSpace cs = '"' :: body)
    (hname : readString body = some (name, rest₁)) (hcolon : skipSpace rest₁ = ':' :: rest₂)
    (hv : readValue fuel rest₂ = some (v, rest₃)) (hend : skipSpace rest₃ = '\x7d' :: rest) :
    readFields (fuel + 1) cs = some ([(name, v)], rest) := by
  simp [readFields, hquote, hname, hcolon, hv, hend]

theorem readFields_more {fuel : Nat} {cs body rest₁ rest₂ rest₃ rest₄ rest : List Char}
    {name : Option String} {v : Json} {fields : List (Option String × Json)}
    (hquote : skipSpace cs = '"' :: body) (hname : readString body = some (name, rest₁))
    (hcolon : skipSpace rest₁ = ':' :: rest₂) (hv : readValue fuel rest₂ = some (v, rest₃))
    (hcomma : skipSpace rest₃ = ',' :: rest₄)
    (hfields : readFields fuel rest₄ = some (fields, rest)) :
    readFields (fuel + 1) cs = some ((name, v) :: fields, rest) := by
  simp [readFields, hquote, hname, hcolon, hv, hcomma, hfields]

/-! ### Values -/

/-- **A value that is read back**, in every layout and whatever follows.  Its length bounds the fuel
that is needed. -/
def ReadsBack (v : Json) : Prop :=
  ∀ (l : Layout) (fuel : Nat) (rest : List Char), (write l v).length < fuel → Closes rest →
    readValue fuel (write l v ++ rest) = some (v, rest)

/-- No value starts with a blank or a closing bracket. -/
theorem exists_cons_write (l : Layout) (v : Json) :
    ∃ c cs, write l v = c :: cs ∧ isSpace c = false ∧ c ≠ ']' := by
  cases v with
  | null => exact ⟨_, _, by rw [write], rfl, by decide⟩
  | bool b =>
    cases b with
    | true => exact ⟨_, _, by rw [write], rfl, by decide⟩
    | false => exact ⟨_, _, by rw [write], rfl, by decide⟩
  | number d =>
    obtain ⟨c, cs, hcs, hc⟩ := exists_cons_writeDecimal d
    exact ⟨c, cs, by rw [write, hcs], isSpace_of_starts_number hc,
      ne_of_starts_number hc (by decide)⟩
  | string s =>
    obtain ⟨body, hbody, -⟩ := readString_writeText s []
    rw [List.append_nil] at hbody
    exact ⟨_, body, by rw [write, hbody], rfl, by decide⟩
  | array items =>
    cases items with
    | nil => exact ⟨_, _, by rw [write], rfl, by decide⟩
    | cons v vs => exact ⟨_, _, by rw [write]; rfl, rfl, by decide⟩
  | object fields =>
    cases fields with
    | nil => exact ⟨_, _, by rw [write], rfl, by decide⟩
    | cons f fs => exact ⟨_, _, by rw [write]; rfl, rfl, by decide⟩

theorem length_write_pos (l : Layout) (v : Json) : 0 < (write l v).length := by
  obtain ⟨c, cs, hcs, -, -⟩ := exists_cons_write l v
  rw [hcs]
  exact Nat.succ_pos _

theorem skipSpace_newline_write (l : Layout) (v : Json) (rest : List Char) :
    skipSpace (l.newline ++ (write l v ++ rest)) = write l v ++ rest := by
  obtain ⟨c, cs, hcs, hspace, -⟩ := exists_cons_write l v
  rw [skipSpace_append fun _ => isSpace_of_mem_newline, hcs, List.cons_append,
    skipSpace_cons hspace]

theorem skipSpace_newline_cons (l : Layout) {c : Char} (h : isSpace c = false) (rest : List Char) :
    skipSpace (l.newline ++ c :: rest) = c :: rest := by
  rw [skipSpace_append fun _ => isSpace_of_mem_newline, skipSpace_cons h]

theorem closes_newline (l : Layout) {c : Char} (h : c = ']' ∨ c = '\x7d') (rest : List Char) :
    Closes (l.newline ++ c :: rest) := by
  cases l with
  | none =>
    rcases h with rfl | rfl
    · exact closes_cons (by decide) rest
    · exact closes_cons (by decide) rest
  | some depth => exact closes_cons (.inr (.inr (.inr rfl))) _

/-- A value behind blanks. -/
theorem ReadsBack.newline {v : Json} (h : ReadsBack v) (l : Layout) {fuel : Nat} {rest : List Char}
    (hfuel : (write l v).length < fuel) (hr : Closes rest) :
    readValue fuel (l.newline ++ (write l v ++ rest)) = some (v, rest) := by
  rw [← h l fuel rest hfuel hr]
  apply readValue_eq_of_skipSpace
  rw [skipSpace_append fun _ => isSpace_of_mem_newline]

theorem exists_writeItems (l : Layout) (v : Json) (vs : List Json) :
    ∃ tail, writeItems l (v :: vs) = l.newline ++ (write l v ++ tail) := by
  cases vs with
  | nil => exact ⟨[], by rw [writeItems, List.append_nil]⟩
  | cons v' vs =>
    refine ⟨',' :: writeItems l (v' :: vs), ?_⟩
    rw [writeItems, List.append_assoc]
    intro hnil
    cases hnil

theorem exists_writeFields (l : Layout) (f : Option String × Json)
    (fs : List (Option String × Json)) :
    ∃ tail, writeFields l (f :: fs) = l.newline ++ (writeText f.1 ++ tail) := by
  obtain ⟨name, v⟩ := f
  cases fs with
  | nil =>
    refine ⟨l.colon ++ write l v, ?_⟩
    rw [writeFields]
    simp only [List.append_assoc]
  | cons f' fs =>
    refine ⟨l.colon ++ (write l v ++ ',' :: writeFields l (f' :: fs)), ?_⟩
    rw [writeFields]
    · simp only [List.append_assoc]
    · intro hnil
      cases hnil

/-- **Items.** Behind the last item stand the line break of the array and its bracket. -/
theorem readItems_writeItems (l l' : Layout) (rest : List Char) (vs : List Json) :
    ∀ (v : Json) (fuel : Nat), (∀ u ∈ v :: vs, ReadsBack u) →
      (writeItems l (v :: vs)).length + 1 < fuel →
      readItems fuel (writeItems l (v :: vs) ++ (l'.newline ++ ']' :: rest)) =
        some (v :: vs, rest) := by
  -- on the items behind the first one: the reader refuses a list without items
  induction vs with
  | nil =>
    intro v fuel h hfuel
    obtain ⟨fuel, rfl⟩ : ∃ n, fuel = n + 1 := ⟨fuel - 1, by omega⟩
    rw [writeItems, List.length_append] at hfuel
    rw [writeItems, List.append_assoc]
    refine readItems_last
      ((h v List.mem_cons_self).newline l (by omega) (closes_newline l' (.inl rfl) rest)) ?_
    exact skipSpace_newline_cons l' rfl rest
  | cons v' vs ih =>
    intro v fuel h hfuel
    obtain ⟨fuel, rfl⟩ : ∃ n, fuel = n + 1 := ⟨fuel - 1, by omega⟩
    have hpos := length_write_pos l v
    have hsplit : writeItems l (v :: v' :: vs) =
        l.newline ++ (write l v ++ ',' :: writeItems l (v' :: vs)) := by
      rw [writeItems, List.append_assoc]
      intro hnil
      cases hnil
    rw [hsplit, List.length_append, List.length_append, List.length_cons] at hfuel
    rw [hsplit, List.append_assoc, List.append_assoc, List.cons_append]
    have hrest := ih v' fuel (fun u hu => h u (List.mem_cons_of_mem v hu)) (by omega)
    exact readItems_more
      ((h v List.mem_cons_self).newline l (by omega) (closes_cons (.inl rfl) _))
      (skipSpace_cons rfl _) hrest

/-- One field, up to its value: the name, the colon and the blanks around them. -/
theorem exists_field_text (l : Layout) (name : Option String) (v : Json) (rest : List Char) :
    ∃ body rest₁ rest₂,
      skipSpace (l.newline ++ writeText name ++ l.colon ++ write l v ++ rest) = '"' :: body ∧
      readString body = some (name, rest₁) ∧ skipSpace rest₁ = ':' :: rest₂ ∧
      skipSpace rest₂ = skipSpace (write l v ++ rest) := by
  obtain ⟨blanks, hcolon, hblanks⟩ := exists_colon l
  obtain ⟨body, hbody, hread⟩ := readString_writeText name (l.colon ++ (write l v ++ rest))
  refine ⟨body, _, blanks ++ (write l v ++ rest), ?_, hread, ?_, ?_⟩
  · simp only [List.append_assoc]
    rw [hbody]
    exact skipSpace_newline_cons l rfl body
  · rw [hcolon, List.cons_append]
    exact skipSpace_cons rfl _
  · exact skipSpace_append hblanks _

/-- **Fields**, laid out like items. -/
theorem readFields_writeFields (l l' : Layout) (rest : List Char)
    (fs : List (Option String × Json)) :
    ∀ (f : Option String × Json) (fuel : Nat), (∀ g ∈ f :: fs, ReadsBack g.2) →
      (writeFields l (f :: fs)).length + 1 < fuel →
      readFields fuel (writeFields l (f :: fs) ++ (l'.newline ++ '\x7d' :: rest)) =
        some (f :: fs, rest) := by
  induction fs with
  | nil =>
    rintro ⟨name, v⟩ fuel h hfuel
    obtain ⟨fuel, rfl⟩ : ∃ n, fuel = n + 1 := ⟨fuel - 1, by omega⟩
    rw [writeFields, List.length_append] at hfuel
    rw [writeFields]
    obtain ⟨body, rest₁, rest₂, hquote, hname, hcolon, hvalue⟩ :=
      exists_field_text l name v (l'.newline ++ '\x7d' :: rest)
    have hback : ReadsBack v := h (name, v) List.mem_cons_self
    have hv := hback l fuel _ (by omega) (closes_newline l' (.inr rfl) rest)
    rw [← readValue_eq_of_skipSpace fuel hvalue] at hv
    exact readFields_last hquote hname hcolon hv (skipSpace_newline_cons l' rfl rest)
  | cons f' fs ih =>
    rintro ⟨name, v⟩ fuel h hfuel
    obtain ⟨fuel, rfl⟩ : ∃ n, fuel = n + 1 := ⟨fuel - 1, by omega⟩
    have hpos := length_write_pos l v
    have hsplit : writeFields l ((name, v) :: f' :: fs) =
        l.newline ++ writeText name ++ l.colon ++ write l v ++ ',' :: writeFields l (f' :: fs) := by
      rw [writeFields]
      intro hnil
      cases hnil
    rw [hsplit, List.length_append, List.length_append, List.length_cons] at hfuel
    rw [hsplit, List.append_assoc _ (',' :: _), List.cons_append]
    obtain ⟨body, rest₁, rest₂, hquote, hname, hcolon, hvalue⟩ := exists_field_text l name v
      (',' :: (writeFields l (f' :: fs) ++ (l'.newline ++ '\x7d' :: rest)))
    have hback : ReadsBack v := h (name, v) List.mem_cons_self
    have hv := hback l fuel
      (',' :: (writeFields l (f' :: fs) ++ (l'.newline ++ '\x7d' :: rest))) (by omega)
      (closes_cons (.inl rfl) _)
    rw [← readValue_eq_of_skipSpace fuel hvalue] at hv
    have hrest := ih f' fuel (fun g hg => h g (List.mem_cons_of_mem _ hg)) (by omega)
    exact readFields_more hquote hname hcolon hv (skipSpace_cons rfl _) hrest

/-! ### One case for each form of a value -/

theorem readsBack_null : ReadsBack .null := by
  intro l fuel rest hfuel _
  obtain ⟨fuel, rfl⟩ : ∃ n, fuel = n + 1 := ⟨fuel - 1, by omega⟩
  rw [write]
  exact readValue_word fuel _ rfl (by decide) (by decide) (by decide)

theorem readsBack_bool (b : Bool) : ReadsBack (.bool b) := by
  intro l fuel rest hfuel _
  obtain ⟨fuel, rfl⟩ : ∃ n, fuel = n + 1 := ⟨fuel - 1, by omega⟩
  cases b with
  | true =>
    rw [write]
    exact readValue_word fuel _ rfl (by decide) (by decide) (by decide)
  | false =>
    rw [write]
    exact readValue_word fuel _ rfl (by decide) (by decide) (by decide)

theorem readsBack_number (d : Decimal) : ReadsBack (.number d) := by
  intro l fuel rest hfuel hr
  obtain ⟨fuel, rfl⟩ : ∃ n, fuel = n + 1 := ⟨fuel - 1, by omega⟩
  obtain ⟨c, cs, hcs, hc⟩ := exists_cons_writeDecimal d
  have hread := readNumber_writeDecimal d hr
  rw [write]
  rw [hcs, List.cons_append] at hread ⊢
  rw [readValue_word fuel _ (isSpace_of_starts_number hc) (ne_of_starts_number hc (by decide))
      (ne_of_starts_number hc (by decide)) (ne_of_starts_number hc (by decide)),
    readWord_number _ (ne_of_starts_number hc (by decide)) (ne_of_starts_number hc (by decide))
      (ne_of_starts_number hc (by decide)), hread]
  rfl

theorem readsBack_string (s : Option String) : ReadsBack (.string s) := by
  intro l fuel rest hfuel _
  obtain ⟨fuel, rfl⟩ : ∃ n, fuel = n + 1 := ⟨fuel - 1, by omega⟩
  obtain ⟨body, hbody, hread⟩ := readString_writeText s rest
  rw [write, hbody]
  exact readValue_text hread

theorem readsBack_array {items : List Json} (h : ∀ v ∈ items, ReadsBack v) :
    ReadsBack (.array items) := by
  intro l fuel rest hfuel _
  obtain ⟨fuel, rfl⟩ : ∃ n, fuel = n + 1 := ⟨fuel - 1, by omega⟩
  cases items with
  | nil =>
    rw [write]
    rfl
  | cons v vs =>
    rw [write, List.length_append, List.length_append, List.length_cons, List.length_singleton]
      at hfuel
    rw [write, List.append_assoc, List.append_assoc, List.cons_append, List.singleton_append]
    refine readValue_items ?_ (readItems_writeItems l.deeper l rest vs v fuel h (by omega))
    -- what stands behind the bracket is a value, so that the array is not taken for an empty one
    intro cs
    obtain ⟨tail, htail⟩ := exists_writeItems l.deeper v vs
    obtain ⟨c, cs', hcs, -, hc⟩ := exists_cons_write l.deeper v
    rw [htail, List.append_assoc, List.append_assoc, skipSpace_newline_write, hcs, List.cons_append]
    exact fun hcons => hc (List.cons.inj hcons).1

theorem readsBack_object {fields : List (Option String × Json)} (h : ∀ f ∈ fields, ReadsBack f.2) :
    ReadsBack (.object fields) := by
  intro l fuel rest hfuel _
  obtain ⟨fuel, rfl⟩ : ∃ n, fuel = n + 1 := ⟨fuel - 1, by omega⟩
  cases fields with
  | nil =>
    rw [write]
    rfl
  | cons f fs =>
    rw [write, List.length_append, List.length_append, List.length_cons, List.length_singleton]
      at hfuel
    rw [write, List.append_assoc, List.append_assoc, List.cons_append, List.singleton_append]
    refine readValue_fields ?_ (readFields_writeFields l.deeper l rest fs f fuel h (by omega))
    intro cs
    obtain ⟨tail, htail⟩ := exists_writeFields l.deeper f fs
    obtain ⟨body, hbody, -⟩ := readString_writeText f.1 (tail ++ (l.newline ++ '\x7d' :: rest))
    rw [htail, List.append_assoc, List.append_assoc, hbody, skipSpace_newline_cons l.deeper rfl]
    exact fun hcons => absurd (List.cons.inj hcons).1 (by decide)

/-- **Every value is read back.** -/
theorem readsBack : ∀ v : Json, ReadsBack v
  | .null => readsBack_null
  | .bool b => readsBack_bool b
  | .number d => readsBack_number d
  | .string s => readsBack_string s
  | .array _ => readsBack_array fun v _ => readsBack v
  | .object _ => readsBack_object fun f _ => readsBack f.2
termination_by v => sizeOf v
decreasing_by
  all_goals
    have hmem := List.sizeOf_lt_of_mem ‹_ ∈ _›
    grind

theorem read?_write (l : Layout) (v : Json) : read? (String.ofList (write l v)) = some v := by
  have hread := readsBack v l ((write l v).length + 1) [] (Nat.lt_succ_self _) closes_nil
  rw [List.append_nil] at hread
  simp only [read?, String.toList_ofList, hread]
  rfl

/-- **Round trip** of a value in both layouts. -/
theorem read?_compact (v : Json) : read? v.compact = some v :=
  read?_write none v

theorem read?_pretty (v : Json) : read? v.pretty = some v :=
  read?_write (some 0) v

end PropDocs.Json
