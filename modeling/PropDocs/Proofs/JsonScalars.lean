import PropDocs.Json.Grammar
import PropDocs.Proofs.JsonRoundTrip
import PropDocs.Text.Blank

/-!
# Strings, numbers and bare words

The readers of single tokens against their grammars, each in both directions: what is read from the front
of a text is in the grammar (`_sound`), and what is in the grammar is read (`_of_`).

* `readString_eq_some_iff`: a string is read up to its closing quote, whatever follows;
* `readNumber_sound`, `readNumber_of_isNumber`: a number is read up to what does not go on with it
  (`Closes`);
* `Scalar.isWordChar`: bare words are made of word characters, none of which is a blank.
-/

namespace PropDocs.Json

open Text

/-! ### Strings -/

theorem readUnits_sound {cs rest : List Char} {units : List Nat}
    (h : readUnits cs = some (units, rest)) :
    ∃ body, cs = body ++ '"' :: rest ∧ Spells body units := by
  fun_induction readUnits cs generalizing units with
  | case1 => cases h
  | case2 rest' =>
    cases h
    exact ⟨[], rfl, .nil⟩
  | case3 a b c d rest' ih =>
    simp only [Option.bind_eq_bind, Option.bind_eq_some_iff] at h
    obtain ⟨unit, hunit, ⟨units', rest''⟩, hrest, hpair⟩ := h
    cases hpair
    obtain ⟨body, rfl, hbody⟩ := ih hrest
    exact ⟨_, rfl, .code hunit hbody⟩
  | case4 e rest' _ ih =>
    simp only [Option.bind_eq_bind, Option.bind_eq_some_iff] at h
    obtain ⟨c, hc, ⟨units', rest''⟩, hrest, hpair⟩ := h
    cases hpair
    obtain ⟨body, rfl, hbody⟩ := ih hrest
    exact ⟨_, rfl, .escape hc hbody⟩
  | case5 => cases h
  | case6 c rest' hquote _ _ hc ih =>
    simp only [Option.bind_eq_bind, Option.bind_eq_some_iff] at h
    obtain ⟨⟨units', rest''⟩, hrest, hpair⟩ := h
    cases hpair
    obtain ⟨body, rfl, hbody⟩ := ih hrest
    obtain ⟨hcode, hslash⟩ := not_or.1 hc
    exact ⟨_, rfl, .plain hquote hslash (Nat.le_of_not_lt hcode) hbody⟩

theorem readUnits_of_spells {body : List Char} {units : List Nat} (h : Spells body units)
    (rest : List Char) : readUnits (body ++ '"' :: rest) = some (units, rest) := by
  induction h with
  | nil => rfl
  | plain hquote hslash hc _ ih => exact readUnits_plain hquote hslash (Nat.not_lt.2 hc) ih
  | escape he _ ih => exact readUnits_simple he ih
  | code hunit _ ih =>
    simp only [List.cons_append, readUnits, hunit, ih]
    rfl

theorem readString_eq_some_iff {cs rest : List Char} {s : Option String} :
    readString cs = some (s, rest) ↔
      ∃ body, cs = body ++ '"' :: rest ∧ Scalar (.string body) (.string s) := by
  constructor
  · intro h
    simp only [readString, Option.bind_eq_bind, Option.bind_eq_some_iff] at h
    obtain ⟨⟨units, rest'⟩, hunits, hpair⟩ := h
    cases hpair
    obtain ⟨body, rfl, hbody⟩ := readUnits_sound hunits
    exact ⟨body, rfl, .string hbody⟩
  · rintro ⟨body, rfl, hbody⟩
    cases hbody with
    | string hspells => exact readString_of_readUnits (readUnits_of_spells hspells rest)

/-! ### Numbers -/

theorem spanDigits_sound (cs : List Char) :
    cs = (spanDigits cs).1 ++ (spanDigits cs).2 ∧ ∀ c ∈ (spanDigits cs).1, c.isDigit = true :=
  ⟨List.takeWhile_append_dropWhile.symm, fun _ hc => List.mem_takeWhile_imp hc⟩

theorem readDigits_sound {cs ds rest : List Char} (h : readDigits cs = some (ds, rest)) :
    cs = ds ++ rest ∧ IsDigits ds := by
  obtain ⟨happend, hdigits⟩ := spanDigits_sound cs
  simp only [readDigits, Option.ite_none_left_eq_some, Option.some.injEq, Prod.mk.injEq] at h
  obtain ⟨hne, rfl, rfl⟩ := h
  exact ⟨happend, by simpa using hne, hdigits⟩

theorem readDigits_of_isDigits {ds rest : List Char} (h : IsDigits ds) (hr : EndsDigits rest) :
    readDigits (ds ++ rest) = some (ds, rest) := by
  rw [readDigits, spanDigits_append h.2 hr]
  show (if ds.isEmpty = true then none else _) = _
  rw [if_neg (by simpa using h.1)]

theorem readWhole_sound {cs ds rest : List Char} (h : readWhole cs = some (ds, rest)) :
    cs = ds ++ rest ∧ IsWhole ds := by
  unfold readWhole at h
  split at h
  · cases h
    exact ⟨rfl, .inl rfl⟩
  · next hzero =>
    obtain ⟨rfl, hdigits⟩ := readDigits_sound h
    refine ⟨rfl, .inr ⟨hdigits, ?_⟩⟩
    intro hhead
    obtain ⟨ds', rfl⟩ := List.head?_eq_some_iff.1 hhead
    exact hzero _ rfl

theorem readWhole_of_isWhole {ds rest : List Char} (h : IsWhole ds) (hr : EndsDigits rest) :
    readWhole (ds ++ rest) = some (ds, rest) := by
  rcases h with rfl | ⟨hdigits, hhead⟩
  · rfl
  · rw [← readDigits_of_isDigits hdigits hr]
    unfold readWhole
    split
    · next rest' hzero =>
      cases ds with
      | nil => exact absurd rfl hdigits.1
      | cons d ds =>
        rw [(List.cons.inj hzero).1] at hhead
        exact absurd rfl hhead
    · rfl

theorem readFraction_sound {cs ds rest : List Char} (h : readFraction cs = some (ds, rest)) :
    ∃ text, cs = text ++ rest ∧ IsFraction text ds := by
  unfold readFraction at h
  split at h
  · obtain ⟨rfl, hdigits⟩ := readDigits_sound h
    exact ⟨_, rfl, .present hdigits⟩
  · cases h
    exact ⟨[], rfl, .absent⟩

theorem readFraction_of_isFraction {text ds rest : List Char} (h : IsFraction text ds)
    (hr : EndsDigits rest) (hdot : ∀ cs, rest ≠ '.' :: cs) :
    readFraction (text ++ rest) = some (ds, rest) := by
  cases h with
  | absent =>
    rw [List.nil_append]
    unfold readFraction
    split
    · next cs => exact absurd rfl (hdot cs)
    · rfl
  | present hdigits => exact readDigits_of_isDigits hdigits hr

theorem readExponent_sound {cs rest : List Char} {n : Int} (h : readExponent cs = some (n, rest)) :
    ∃ text, cs = text ++ rest ∧ IsExponent text n := by
  unfold readExponent at h
  split at h
  · next e cs =>
    split at h
    · next he =>
      split at h <;>
        (obtain ⟨⟨ds, rest'⟩, hread, hpair⟩ := Option.map_eq_some_iff.1 h
         cases hpair
         obtain ⟨rfl, hdigits⟩ := readDigits_sound hread)
      · exact ⟨_, rfl, .minus he hdigits⟩
      · exact ⟨_, rfl, .plus he hdigits⟩
      · exact ⟨_, rfl, .bare he hdigits⟩
    · cases h
      exact ⟨[], rfl, .absent⟩
  · cases h
    exact ⟨[], rfl, .absent⟩

theorem readExponent_of_isExponent {text rest : List Char} {n : Int} (h : IsExponent text n)
    (hr : Closes rest) : readExponent (text ++ rest) = some (n, rest) := by
  cases h with
  | absent =>
    cases rest with
    | nil => rfl
    | cons c cs =>
      obtain ⟨-, -, he, hE⟩ := hr c cs rfl
      simp [readExponent, he, hE]
  | bare he hdigits =>
    obtain ⟨d, ds, rfl⟩ := List.exists_cons_of_ne_nil hdigits.1
    have hd : d.isDigit = true := hdigits.2 d List.mem_cons_self
    have hread := readDigits_of_isDigits hdigits hr.endsDigits
    have hminus : d ≠ '-' := by
      rintro rfl
      cases hd
    have hplus : d ≠ '+' := by
      rintro rfl
      cases hd
    rw [List.cons_append] at hread
    simp [readExponent, he, hread, hminus, hplus]
  | plus he hdigits =>
    simp [readExponent, he, readDigits_of_isDigits hdigits hr.endsDigits]
  | minus he hdigits =>
    simp [readExponent, he, readDigits_of_isDigits hdigits hr.endsDigits]

/-- What follows the whole part, or the fraction part, does not go on with it. -/
theorem endsDigits_exponent {text rest : List Char} {n : Int} (h : IsExponent text n)
    (hr : Closes rest) : EndsDigits (text ++ rest) ∧ ∀ cs, text ++ rest ≠ '.' :: cs := by
  have hletter : ∀ e : Char, e = 'e' ∨ e = 'E' → e.isDigit = false ∧ e ≠ '.' := by
    rintro e (rfl | rfl)
    · decide
    · decide
  have hhead : ∀ c cs, text ++ rest = c :: cs → c.isDigit = false ∧ c ≠ '.' := by
    intro c cs hcs
    cases h with
    | absent => exact ⟨(hr c cs hcs).1, (hr c cs hcs).2.1⟩
    | bare he => exact (List.cons.inj hcs).1 ▸ hletter _ he
    | plus he => exact (List.cons.inj hcs).1 ▸ hletter _ he
    | minus he => exact (List.cons.inj hcs).1 ▸ hletter _ he
  exact ⟨fun c cs hcs => (hhead c cs hcs).1, fun cs hcs => (hhead '.' cs hcs).2 rfl⟩

theorem endsDigits_fraction {text ds rest : List Char} (h : IsFraction text ds)
    (hr : EndsDigits rest) : EndsDigits (text ++ rest) := by
  cases h with
  | absent => exact hr
  | present _ =>
    intro c cs hcs
    rw [← (List.cons.inj hcs).1]
    decide

theorem readUnsigned_sound {negative : Bool} {cs rest : List Char} {n : Decimal}
    (h : readUnsigned negative cs = some (n, rest)) :
    ∃ whole fraction ds exponent m, cs = whole ++ (fraction ++ exponent) ++ rest ∧ IsWhole whole ∧
      IsFraction fraction ds ∧ IsExponent exponent m ∧ n = .ofPieces negative whole ds m := by
  simp only [readUnsigned, Option.bind_eq_bind, Option.bind_eq_some_iff] at h
  obtain ⟨⟨whole, rest₁⟩, hread₁, ⟨ds, rest₂⟩, hread₂, ⟨m, rest₃⟩, hread₃, hpair⟩ := h
  cases hpair
  obtain ⟨rfl, hwhole⟩ := readWhole_sound hread₁
  obtain ⟨fraction, rfl, hfraction⟩ := readFraction_sound hread₂
  obtain ⟨exponent, rfl, hexponent⟩ := readExponent_sound hread₃
  exact ⟨whole, fraction, ds, exponent, m, by simp only [List.append_assoc], hwhole, hfraction,
    hexponent, rfl⟩

theorem readNumber_sound {cs rest : List Char} {n : Decimal} (h : readNumber cs = some (n, rest)) :
    ∃ text, cs = text ++ rest ∧ IsNumber text n := by
  unfold readNumber at h
  split at h
  · obtain ⟨whole, fraction, ds, exponent, m, rfl, hwhole, hfraction, hexponent, rfl⟩ :=
      readUnsigned_sound h
    exact ⟨_, rfl, .mk true rfl hwhole hfraction hexponent⟩
  · obtain ⟨whole, fraction, ds, exponent, m, rfl, hwhole, hfraction, hexponent, rfl⟩ :=
      readUnsigned_sound h
    exact ⟨_, rfl, .mk false rfl hwhole hfraction hexponent⟩

theorem IsWhole.isDigits {ds : List Char} (h : IsWhole ds) : IsDigits ds := by
  rcases h with rfl | ⟨hdigits, -⟩
  · exact ⟨by simp, List.all_eq_true.1 rfl⟩
  · exact hdigits

theorem readNumber_of_isNumber {text rest : List Char} {n : Decimal} (h : IsNumber text n)
    (hr : Closes rest) : readNumber (text ++ rest) = some (n, rest) := by
  cases h with
  | @mk negative sign whole fraction ds exponent m hsign hwhole hfraction hexponent =>
    obtain ⟨hends, hdot⟩ := endsDigits_exponent hexponent hr
    have hunsigned : readUnsigned negative (whole ++ (fraction ++ (exponent ++ rest))) =
        some (.ofPieces negative whole ds m, rest) := by
      rw [readUnsigned, readWhole_of_isWhole hwhole (endsDigits_fraction hfraction hends)]
      simp only [Option.bind_eq_bind, Option.bind_some,
        readFraction_of_isFraction hfraction hends hdot, readExponent_of_isExponent hexponent hr]
      rfl
    subst hsign
    simp only [List.append_assoc]
    cases negative with
    | true => exact hunsigned
    | false =>
      obtain ⟨d, ds', rfl⟩ := List.exists_cons_of_ne_nil hwhole.isDigits.1
      have hd : d.isDigit = true := hwhole.isDigits.2 d List.mem_cons_self
      rw [if_neg Bool.false_ne_true, List.nil_append, ← hunsigned]
      unfold readNumber
      split
      · next hminus =>
        rw [(List.cons.inj hminus).1] at hd
        cases hd
      · rfl

/-! ### Words -/

theorem readWord_sound {cs rest : List Char} {v : Json} (h : readWord cs = some (v, rest)) :
    ∃ word, cs = word ++ rest ∧ Scalar (.word word) v := by
  unfold readWord at h
  split at h
  · cases h
    exact ⟨_, rfl, .wordTrue⟩
  · cases h
    exact ⟨_, rfl, .wordFalse⟩
  · cases h
    exact ⟨_, rfl, .wordNull⟩
  · obtain ⟨⟨n, rest'⟩, hread, hpair⟩ := Option.map_eq_some_iff.1 h
    cases hpair
    obtain ⟨text, rfl, hnumber⟩ := readNumber_sound hread
    exact ⟨text, rfl, .number hnumber⟩

theorem isWordChar_of_isDigit {c : Char} (h : c.isDigit = true) : isWordChar c = true := by
  simp [isWordChar, Char.isAlphanum, h]

theorem IsDigits.isWordChar {ds : List Char} (h : IsDigits ds) :
    ∀ c ∈ ds, isWordChar c = true :=
  fun c hc => isWordChar_of_isDigit (h.2 c hc)

theorem IsExponent.isWordChar {text : List Char} {n : Int} (h : IsExponent text n) :
    ∀ c ∈ text, isWordChar c = true := by
  have hletter : ∀ e : Char, e = 'e' ∨ e = 'E' → Json.isWordChar e = true := by
    rintro e (rfl | rfl)
    · decide
    · decide
  cases h with
  | absent => simp
  | bare he hdigits => exact List.forall_mem_cons.2 ⟨hletter _ he, hdigits.isWordChar⟩
  | plus he hdigits =>
    exact List.forall_mem_cons.2 ⟨hletter _ he, List.forall_mem_cons.2 ⟨rfl, hdigits.isWordChar⟩⟩
  | minus he hdigits =>
    exact List.forall_mem_cons.2 ⟨hletter _ he, List.forall_mem_cons.2 ⟨rfl, hdigits.isWordChar⟩⟩

theorem IsFraction.isWordChar {text ds : List Char} (h : IsFraction text ds) :
    ∀ c ∈ text, isWordChar c = true := by
  cases h with
  | absent => simp
  | present hdigits => exact List.forall_mem_cons.2 ⟨rfl, hdigits.isWordChar⟩

theorem IsNumber.isWordChar {text : List Char} {n : Decimal} (h : IsNumber text n) :
    ∀ c ∈ text, isWordChar c = true := by
  cases h with
  | @mk negative sign whole fraction ds exponent m hsign hwhole hfraction hexponent =>
    have hmark : ∀ c ∈ sign, Json.isWordChar c = true := by
      rw [hsign]
      cases negative with
      | true => exact List.all_eq_true.1 rfl
      | false => exact nofun
    intro c hc
    rcases List.mem_append.1 hc with hc | hc
    · exact hmark c hc
    · rcases List.mem_append.1 hc with hc | hc
      · exact hwhole.isDigits.isWordChar c hc
      · rcases List.mem_append.1 hc with hc | hc
        · exact hfraction.isWordChar c hc
        · exact hexponent.isWordChar c hc

/-- A number starts with its sign or a digit. -/
theorem IsNumber.exists_cons {text : List Char} {n : Decimal} (h : IsNumber text n) :
    ∃ c cs, text = c :: cs ∧ (c = '-' ∨ c.isDigit = true) := by
  cases h with
  | @mk negative sign whole fraction ds exponent m hsign hwhole hfraction hexponent =>
    subst hsign
    cases negative with
    | true => exact ⟨_, _, rfl, .inl rfl⟩
    | false =>
      obtain ⟨d, ds', rfl⟩ := List.exists_cons_of_ne_nil hwhole.isDigits.1
      exact ⟨d, _, rfl, .inr (hwhole.isDigits.2 d List.mem_cons_self)⟩

/-- **Bare words** are not empty and are made of word characters. -/
theorem Scalar.isWordChar {word : List Char} {v : Json} (h : Scalar (.word word) v) :
    word ≠ [] ∧ ∀ c ∈ word, isWordChar c = true := by
  cases h with
  | wordNull => exact ⟨by simp, List.all_eq_true.1 rfl⟩
  | wordTrue => exact ⟨by simp, List.all_eq_true.1 rfl⟩
  | wordFalse => exact ⟨by simp, List.all_eq_true.1 rfl⟩
  | number hnumber =>
    obtain ⟨c, cs, hcs, -⟩ := hnumber.exists_cons
    exact ⟨by rw [hcs]; simp, hnumber.isWordChar⟩

theorem isBlank_of_isSpace {c : Char} (h : isSpace c = true) : isBlank c = true := by
  simp only [isSpace, Bool.or_eq_true, beq_iff_eq] at h
  rcases h with ((rfl | rfl) | rfl) | rfl
  · rfl
  · rfl
  · rfl
  · rfl

theorem toNat_of_isAlpha {c : Char} (h : c.isAlpha = true) :
    (65 ≤ c.toNat ∧ c.toNat ≤ 90) ∨ (97 ≤ c.toNat ∧ c.toNat ≤ 122) := by
  rcases Bool.or_eq_true_iff.1 h with hupper | hlower
  · obtain ⟨hlow, hhigh⟩ := of_decide_eq_true hupper
    exact .inl ⟨hlow, hhigh⟩
  · obtain ⟨hlow, hhigh⟩ := Bool.and_eq_true_iff.1 hlower
    exact .inr ⟨of_decide_eq_true hlow, of_decide_eq_true hhigh⟩

theorem toNat_of_isDigit {c : Char} (h : c.isDigit = true) : 48 ≤ c.toNat ∧ c.toNat ≤ 57 := by
  obtain ⟨hlow, hhigh⟩ := Bool.and_eq_true_iff.1 h
  exact ⟨of_decide_eq_true hlow, of_decide_eq_true hhigh⟩

/-- A word character is no blank. -/
theorem isBlank_of_isWordChar {c : Char} (h : isWordChar c = true) : isBlank c = false := by
  have hcode : c.toNat = 43 ∨ c.toNat = 45 ∨ c.toNat = 46 ∨ (48 ≤ c.toNat ∧ c.toNat ≤ 57) ∨
      (65 ≤ c.toNat ∧ c.toNat ≤ 90) ∨ (97 ≤ c.toNat ∧ c.toNat ≤ 122) := by
    simp only [isWordChar, Char.isAlphanum, Bool.or_eq_true, beq_iff_eq] at h
    rcases h with (((halpha | hdigit) | rfl) | rfl) | rfl
    · have hletter := toNat_of_isAlpha halpha
      omega
    · have hnumeral := toNat_of_isDigit hdigit
      omega
    · decide
    · decide
    · decide
  simp only [isBlank, Bool.or_eq_false_iff, Bool.and_eq_false_iff, decide_eq_false_iff_not,
    beq_eq_false_iff_ne]
  omega

theorem readWord_of_scalar {word rest : List Char} {v : Json} (h : Scalar (.word word) v)
    (hr : Closes rest) : readWord (word ++ rest) = some (v, rest) := by
  cases h with
  | wordNull => rfl
  | wordTrue => rfl
  | wordFalse => rfl
  | number hnumber =>
    obtain ⟨c, cs, rfl, hc⟩ := hnumber.exists_cons
    have hread := readNumber_of_isNumber hnumber hr
    rw [List.cons_append] at hread ⊢
    rw [readWord_number _ (ne_of_starts_number hc (by decide)) (ne_of_starts_number hc (by decide))
      (ne_of_starts_number hc (by decide)), hread]
    rfl

end PropDocs.Json
