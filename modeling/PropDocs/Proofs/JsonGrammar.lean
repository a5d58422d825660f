import PropDocs.Proofs.JsonScalars

/-!
# Reading is the grammar

The reader accepts exactly the texts of the strict grammar, each with the value it denotes.

* `Sound`: what a reader takes from the front of a text are the tokens of a phrase.  The readers of
  values, items and fields call each other with less fuel, and the fuel is what the induction is on;
* `Complete`: a phrase is read from the front of every text that is laid out so, with fuel for the
  characters of the phrase.  Here the induction is on the phrase, with one lemma for each form;
* `read?_eq_some_iff`: both together, for a whole text.
-/

namespace PropDocs.Json

open Text

/-! ### Layouts -/

/-- A mark is well-formed by itself. -/
theorem Token.wellFormed_of_mark {tok : Token} (h : tok.isScalar = false) : tok.WellFormed :=
  fun hscalar => absurd (h.symm.trans hscalar) Bool.false_ne_true

/-- **The first character of a token** is no blank, and tells whether the token closes an array or an
object. -/
theorem Token.WellFormed.exists_cons {tok : Token} (h : tok.WellFormed) :
    ∃ c cs, tok.chars = c :: cs ∧ isBlank c = false ∧
      (tok.closes = true ↔ c = ']' ∨ c = '\x7d') := by
  cases tok with
  | word cs =>
    obtain ⟨v, hv⟩ := h rfl
    obtain ⟨hne, hchars⟩ := hv.isWordChar
    obtain ⟨c, cs', rfl⟩ := List.exists_cons_of_ne_nil hne
    have hc := hchars c List.mem_cons_self
    refine ⟨c, cs', rfl, isBlank_of_isWordChar hc, nofun, ?_⟩
    rintro (rfl | rfl)
    · cases hc
    · cases hc
  | string body => exact ⟨_, _, rfl, rfl, by simp [closes]⟩
  | _ => exact ⟨_, _, rfl, rfl, by decide⟩

theorem isSpace_of_not_isBlank {c : Char} (h : isBlank c = false) : isSpace c = false := by
  by_contra hspace
  rw [isBlank_of_isSpace (by simpa using hspace)] at h
  cases h

theorem Token.WellFormed.skipSpace_append {tok : Token} (h : tok.WellFormed) (t : List Char) :
    skipSpace (tok.chars ++ t) = tok.chars ++ t := by
  obtain ⟨c, cs, hcs, hc, -⟩ := h.exists_cons
  rw [hcs, List.cons_append, skipSpace_cons (isSpace_of_not_isBlank hc)]

theorem laid_of_skipSpace {d : Dialect} {t : List Char} {toks : List Token}
    (h : Laid d (skipSpace t) toks) : Laid d t toks := by
  induction t with
  | nil => exact h
  | cons c t ih =>
    by_cases hc : isSpace c = true
    · rw [skipSpace, List.dropWhile_cons_of_pos hc] at h
      exact .space hc (ih h)
    · rwa [skipSpace_cons (by simpa using hc)] at h

/-- **The end of a strict text** is blank. -/
theorem Laid.skipSpace_nil {t : List Char} (h : Laid .strict t []) : skipSpace t = [] := by
  generalize hnone : ([] : List Token) = toks at h
  induction h with
  | nil => rfl
  | space hc _ ih =>
    rw [skipSpace, List.dropWhile_cons_of_pos hc]
    exact ih hnone
  | lineComment hd => cases hd
  | lastComment hd => cases hd
  | blockComment hd => cases hd
  | token => cases hnone

/-- **The first token of a strict text** stands behind blanks. -/
theorem Laid.skipSpace_cons {t : List Char} {tok : Token} {toks : List Token}
    (h : Laid .strict t (tok :: toks)) :
    ∃ t', skipSpace t = tok.chars ++ t' ∧ Laid .strict t' toks ∧ tok.WellFormed := by
  generalize hall : tok :: toks = all at h
  induction h with
  | nil => cases hall
  | space hc _ ih =>
    rw [skipSpace, List.dropWhile_cons_of_pos hc]
    exact ih hall
  | lineComment hd => cases hd
  | lastComment hd => cases hd
  | blockComment hd => cases hd
  | token hwf hlaid =>
    cases hall
    exact ⟨_, hwf.skipSpace_append _, hlaid, hwf⟩

theorem length_skipSpace_le (t : List Char) : (skipSpace t).length ≤ t.length :=
  List.length_dropWhile_le isSpace t

/-- A mark in front, behind blanks. -/
theorem laid_of_mark {d : Dialect} {t t' : List Char} (tok : Token) {toks : List Token}
    (hmark : tok.isScalar = false) (ht : skipSpace t = tok.chars ++ t') (h : Laid d t' toks) :
    Laid d t (tok :: toks) := by
  apply laid_of_skipSpace
  rw [ht]
  exact .token (Token.wellFormed_of_mark hmark) h

/-- A scalar in front, behind blanks. -/
theorem laid_of_scalar {d : Dialect} {t t' : List Char} {tok : Token} {v : Json}
    {toks : List Token} (hv : Scalar tok v) (ht : skipSpace t = tok.chars ++ t')
    (h : Laid d t' toks) : Laid d t (tok :: toks) := by
  apply laid_of_skipSpace
  rw [ht]
  exact .token (fun _ => ⟨v, hv⟩) h

/-- **What may follow a value**: anything but another value. -/
def Ends (toks : List Token) : Prop :=
  ∀ tok ∈ toks.head?, tok.isScalar = false

theorem ends_cons {tok : Token} (h : tok.isScalar = false) (toks : List Token) :
    Ends (tok :: toks) := by
  intro tok' htok
  cases htok
  exact h

theorem Laid.closes {t : List Char} {toks : List Token} (h : Laid .strict t toks)
    (hends : Ends toks) : Closes t := by
  cases h with
  | nil => exact closes_nil
  | space hc => exact closes_cons (.inr (.inr (.inr hc))) _
  | lineComment hd => cases hd
  | lastComment hd => cases hd
  | blockComment hd => cases hd
  | @token tok t toks =>
    have hmark : tok.isScalar = false := hends tok rfl
    intro c cs hcs
    cases tok with
    | string body => cases hmark
    | word cs => cases hmark
    | _ =>
      rw [← (List.cons.inj hcs).1]
      decide

/-! ### What is read is in the grammar -/

/-- **Soundness** of a reader: what it takes from the front of a text are the tokens of a phrase. -/
def Sound {α : Type} (read : List Char → Option (α × List Char)) (phrase : α → Phrase) : Prop :=
  ∀ {cs rest : List Char} {a : α}, read cs = some (a, rest) →
    ∀ {after : List Token}, Laid .strict rest after →
      ∃ toks, Laid .strict cs toks ∧ Denotes .strict toks (phrase a) after

theorem sound_readValue {fuel : Nat} (hitems : Sound (readItems fuel) .items)
    (hfields : Sound (readFields fuel) .fields) : Sound (readValue (fuel + 1)) .value := by
  intro cs rest v h after hafter
  rw [readValue] at h
  split at h
  · next body hcs =>
    obtain ⟨⟨s, rest'⟩, hread, hpair⟩ := Option.map_eq_some_iff.1 h
    cases hpair
    obtain ⟨body, rfl, hs⟩ := readString_eq_some_iff.1 hread
    refine ⟨_, laid_of_scalar hs ?_ hafter, .scalar hs⟩
    rw [hcs]
    simp [Token.chars]
  · next body hcs =>
    split at h
    · next rest' hclose =>
      cases h
      exact ⟨_, laid_of_mark .openArray rfl hcs (laid_of_mark .closeArray rfl hclose hafter),
        .emptyArray⟩
    · obtain ⟨⟨vs, rest'⟩, hread, hpair⟩ := Option.map_eq_some_iff.1 h
      cases hpair
      obtain ⟨toks, hlaid, hvs⟩ := hitems hread hafter
      exact ⟨_, laid_of_mark .openArray rfl hcs (laid_of_skipSpace hlaid), .array hvs⟩
  · next body hcs =>
    split at h
    · next rest' hclose =>
      cases h
      exact ⟨_, laid_of_mark .openObject rfl hcs (laid_of_mark .closeObject rfl hclose hafter),
        .emptyObject⟩
    · obtain ⟨⟨fs, rest'⟩, hread, hpair⟩ := Option.map_eq_some_iff.1 h
      cases hpair
      obtain ⟨toks, hlaid, hfs⟩ := hfields hread hafter
      exact ⟨_, laid_of_mark .openObject rfl hcs (laid_of_skipSpace hlaid), .object hfs⟩
  · obtain ⟨word, hcs, hv⟩ := readWord_sound h
    exact ⟨_, laid_of_scalar hv hcs hafter, .scalar hv⟩

theorem sound_readItems {fuel : Nat} (hvalue : Sound (readValue fuel) .value)
    (hitems : Sound (readItems fuel) .items) : Sound (readItems (fuel + 1)) .items := by
  intro cs rest vs h after hafter
  simp only [readItems, Option.bind_eq_bind, Option.bind_eq_some_iff] at h
  obtain ⟨⟨v, rest₁⟩, hread, h⟩ := h
  split at h
  · next rest₂ hcomma =>
    obtain ⟨⟨vs', rest₃⟩, hmore, hpair⟩ := Option.bind_eq_some_iff.1 h
    cases hpair
    obtain ⟨toks', hlaid', hvs⟩ := hitems hmore hafter
    obtain ⟨toks, hlaid, hv⟩ := hvalue hread (laid_of_mark .comma rfl hcomma hlaid')
    exact ⟨toks, hlaid, .moreItems hv hvs⟩
  · next rest₂ hclose =>
    cases h
    obtain ⟨toks, hlaid, hv⟩ := hvalue hread (laid_of_mark .closeArray rfl hclose hafter)
    exact ⟨toks, hlaid, .lastItem hv⟩
  · cases h

theorem sound_readFields {fuel : Nat} (hvalue : Sound (readValue fuel) .value)
    (hfields : Sound (readFields fuel) .fields) : Sound (readFields (fuel + 1)) .fields := by
  intro cs rest fs h after hafter
  rw [readFields] at h
  split at h
  · next body hquote =>
    simp only [Option.bind_eq_bind, Option.bind_eq_some_iff] at h
    obtain ⟨⟨name, rest₁⟩, hstring, h⟩ := h
    obtain ⟨body, rfl, hname⟩ := readString_eq_some_iff.1 hstring
    have hcs : skipSpace cs = (Token.string body).chars ++ rest₁ := by
      rw [hquote]
      simp [Token.chars]
    split at h
    · next rest₂ hcolon =>
      obtain ⟨⟨v, rest₃⟩, hread, h⟩ := Option.bind_eq_some_iff.1 h
      split at h
      · next rest₄ hcomma =>
        obtain ⟨⟨fs', rest₅⟩, hmore, hpair⟩ := Option.bind_eq_some_iff.1 h
        cases hpair
        obtain ⟨toks', hlaid', hfs⟩ := hfields hmore hafter
        obtain ⟨toks, hlaid, hv⟩ := hvalue hread (laid_of_mark .comma rfl hcomma hlaid')
        exact ⟨_, laid_of_scalar hname hcs (laid_of_mark .colon rfl hcolon hlaid),
          .moreFields hname hv hfs⟩
      · next rest₄ hclose =>
        cases h
        obtain ⟨toks, hlaid, hv⟩ := hvalue hread (laid_of_mark .closeObject rfl hclose hafter)
        exact ⟨_, laid_of_scalar hname hcs (laid_of_mark .colon rfl hcolon hlaid),
          .lastField hname hv⟩
      · cases h
    · cases h
  · cases h

theorem sound_read (fuel : Nat) :
    Sound (readValue fuel) .value ∧ Sound (readItems fuel) .items ∧
      Sound (readFields fuel) .fields := by
  induction fuel with
  | zero =>
    refine ⟨?_, ?_, ?_⟩
    · intro cs rest v h
      cases h
    · intro cs rest vs h
      cases h
    · intro cs rest fs h
      cases h
  | succ fuel ih =>
    obtain ⟨hvalue, hitems, hfields⟩ := ih
    exact ⟨sound_readValue hitems hfields, sound_readItems hvalue hitems,
      sound_readFields hvalue hfields⟩

/-! ### What is in the grammar is read -/

/-- Reading a phrase from the front of a text. -/
def ReadsAs (fuel : Nat) (cs : List Char) : Phrase → List Char → Prop
  | .value v, rest => readValue fuel cs = some (v, rest)
  | .items vs, rest => readItems fuel cs = some (vs, rest)
  | .fields fs, rest => readFields fuel cs = some (fs, rest)

/-- **Completeness** for a phrase: with fuel for the characters of the phrase it is read from the front
of every text that is laid out so. -/
def Complete (toks : List Token) (φ : Phrase) (after : List Token) : Prop :=
  ∀ cs, Laid .strict cs toks →
    ∃ rest, Laid .strict rest after ∧ rest.length < cs.length ∧
      ∀ fuel, cs.length < fuel + rest.length → ReadsAs fuel cs φ rest

/-- A phrase starts with a token that is no closing bracket and no comma. -/
theorem Denotes.exists_cons {d : Dialect} {toks after : List Token} {φ : Phrase}
    (h : Denotes d toks φ after) :
    ∃ tok toks', toks = tok :: toks' ∧ tok.closes = false ∧ tok ≠ .comma := by
  have hscalar : ∀ {tok v}, Scalar tok v → tok.closes = false ∧ tok ≠ .comma := by
    intro tok v hv
    cases hv <;> simp [Token.closes]
  induction h with
  | scalar hv => exact ⟨_, _, rfl, hscalar hv⟩
  | emptyArray => exact ⟨_, _, rfl, rfl, by simp⟩
  | array => exact ⟨_, _, rfl, rfl, by simp⟩
  | emptyObject => exact ⟨_, _, rfl, rfl, by simp⟩
  | object => exact ⟨_, _, rfl, rfl, by simp⟩
  | lastItem _ ih => exact ih
  | trailingItem _ _ ih => exact ih
  | moreItems _ _ ih => exact ih
  | lastField hname => exact ⟨_, _, rfl, hscalar hname⟩
  | trailingField _ hname => exact ⟨_, _, rfl, hscalar hname⟩
  | moreFields hname => exact ⟨_, _, rfl, hscalar hname⟩

theorem readsAs_iff_of_skipSpace {cs cs' : List Char} (h : skipSpace cs = skipSpace cs')
    (fuel : Nat) (φ : Phrase) (rest : List Char) :
    ReadsAs fuel cs φ rest ↔ ReadsAs fuel cs' φ rest := by
  cases φ with
  | value v =>
    show readValue fuel cs = _ ↔ readValue fuel cs' = _
    rw [readValue_eq_of_skipSpace fuel h]
  | items vs =>
    show readItems fuel cs = _ ↔ readItems fuel cs' = _
    rw [readItems_eq_of_skipSpace fuel h]
  | fields fs =>
    show readFields fuel cs = _ ↔ readFields fuel cs' = _
    rw [readFields_eq_of_skipSpace fuel h]

/-- A phrase that is read behind its first token.  That token pays for one step of the reader. -/
theorem complete_of_first {tok : Token} {toks after : List Token} {φ : Phrase}
    (hwf : tok.WellFormed)
    (h : ∀ t, Laid .strict t toks → ∃ rest, Laid .strict rest after ∧ rest.length ≤ t.length ∧
      ∀ fuel, t.length < fuel + rest.length → ReadsAs (fuel + 1) (tok.chars ++ t) φ rest) :
    Complete (tok :: toks) φ after := by
  intro cs hlaid
  obtain ⟨t, hcs, ht, -⟩ := hlaid.skipSpace_cons
  obtain ⟨rest, hrest, hle, hread⟩ := h t ht
  obtain ⟨c, cs', hchars, -⟩ := hwf.exists_cons
  have hlength : t.length + 1 ≤ cs.length := by
    have hskip := length_skipSpace_le cs
    rw [hcs, hchars, List.length_append, List.length_cons] at hskip
    omega
  refine ⟨rest, hrest, by omega, ?_⟩
  intro fuel hfuel
  obtain ⟨fuel, rfl⟩ : ∃ n, fuel = n + 1 := ⟨fuel - 1, by omega⟩
  rw [readsAs_iff_of_skipSpace (hcs.trans (hwf.skipSpace_append t).symm)]
  exact hread fuel (by omega)

theorem complete_scalar {tok : Token} {v : Json} {after : List Token} (hv : Scalar tok v)
    (hends : Ends after) : Complete (tok :: after) (.value v) after := by
  apply complete_of_first fun _ => ⟨v, hv⟩
  intro t ht
  refine ⟨t, ht, Nat.le_refl _, ?_⟩
  intro fuel _
  show readValue (fuel + 1) (tok.chars ++ t) = some (v, t)
  cases tok with
  | string body =>
    cases hv with
    | string hspells =>
      rw [Token.chars, List.cons_append, List.append_assoc]
      exact readValue_text (readString_eq_some_iff.2 ⟨body, rfl, .string hspells⟩)
  | word word =>
    have hread := readWord_of_scalar hv (ht.closes hends)
    obtain ⟨hne, hchars⟩ := hv.isWordChar
    obtain ⟨c, cs, rfl⟩ := List.exists_cons_of_ne_nil hne
    have hc := hchars c List.mem_cons_self
    have hother : ∀ {c' : Char}, isWordChar c' = false → c ≠ c' := by
      rintro c' hc' rfl
      exact Bool.false_ne_true (hc'.symm.trans hc)
    show readValue (fuel + 1) (c :: (cs ++ t)) = _
    rw [readValue_word fuel _ (isSpace_of_not_isBlank (isBlank_of_isWordChar hc)) (hother rfl)
      (hother rfl) (hother rfl)]
    exact hread
  | _ => cases hv

/-- The items or the fields behind an opening bracket are not taken for an empty array or object. -/
theorem Denotes.skipSpace_ne {toks after : List Token} {φ : Phrase}
    (h : Denotes .strict toks φ after) {t : List Char} (ht : Laid .strict t toks) :
    (∀ cs, skipSpace t ≠ ']' :: cs) ∧ ∀ cs, skipSpace t ≠ '\x7d' :: cs := by
  obtain ⟨tok, toks', rfl, hcloses, -⟩ := h.exists_cons
  obtain ⟨t', ht', -, hwf⟩ := ht.skipSpace_cons
  obtain ⟨c, cs, hcs, -, hc⟩ := hwf.exists_cons
  rw [hcloses] at hc
  rw [ht', hcs]
  constructor
  · intro cs' hcs'
    exact Bool.false_ne_true (hc.2 (.inl (List.cons.inj hcs').1))
  · intro cs' hcs'
    exact Bool.false_ne_true (hc.2 (.inr (List.cons.inj hcs').1))

theorem complete_emptyArray (after : List Token) :
    Complete (.openArray :: .closeArray :: after) (.value (.array [])) after := by
  apply complete_of_first (Token.wellFormed_of_mark rfl)
  intro t ht
  obtain ⟨rest, hclose, hrest, -⟩ := ht.skipSpace_cons
  refine ⟨rest, hrest, ?_, ?_⟩
  · have hle := length_skipSpace_le t
    rw [hclose, List.length_append] at hle
    omega
  · intro fuel _
    have hopen : skipSpace ('[' :: t) = '[' :: t := skipSpace_cons rfl t
    have hempty : skipSpace t = ']' :: rest := hclose
    show readValue (fuel + 1) ('[' :: t) = some (.array [], rest)
    simp only [readValue, hopen, hempty]

theorem complete_array {toks after : List Token} {vs : List Json}
    (h : Denotes .strict toks (.items vs) after) (hitems : Complete toks (.items vs) after) :
    Complete (.openArray :: toks) (.value (.array vs)) after := by
  apply complete_of_first (Token.wellFormed_of_mark rfl)
  intro t ht
  obtain ⟨rest, hrest, hlt, hread⟩ := hitems t ht
  refine ⟨rest, hrest, Nat.le_of_lt hlt, ?_⟩
  intro fuel hfuel
  exact readValue_items (h.skipSpace_ne ht).1 (hread fuel hfuel)

theorem complete_lastItem {toks after : List Token} {v : Json}
    (h : Complete toks (.value v) (.closeArray :: after)) : Complete toks (.items [v]) after := by
  intro cs hlaid
  obtain ⟨rest, hrest, hlt, hread⟩ := h cs hlaid
  obtain ⟨rest', hclose, hrest', -⟩ := hrest.skipSpace_cons
  have hle := length_skipSpace_le rest
  rw [hclose, List.length_append] at hle
  have hone : Token.closeArray.chars.length = 1 := rfl
  refine ⟨rest', hrest', by omega, ?_⟩
  intro fuel hfuel
  obtain ⟨fuel, rfl⟩ : ∃ n, fuel = n + 1 := ⟨fuel - 1, by omega⟩
  exact readItems_last (hread fuel (by omega)) hclose

theorem complete_moreItems {toks toks' after : List Token} {v : Json} {vs : List Json}
    (hv : Complete toks (.value v) (.comma :: toks')) (hvs : Complete toks' (.items vs) after) :
    Complete toks (.items (v :: vs)) after := by
  intro cs hlaid
  obtain ⟨rest, hrest, hlt, hread⟩ := hv cs hlaid
  obtain ⟨rest₁, hcomma, hrest₁, -⟩ := hrest.skipSpace_cons
  obtain ⟨rest₂, hrest₂, hlt₂, hread₂⟩ := hvs rest₁ hrest₁
  have hle := length_skipSpace_le rest
  rw [hcomma, List.length_append] at hle
  have hone : Token.comma.chars.length = 1 := rfl
  refine ⟨rest₂, hrest₂, by omega, ?_⟩
  intro fuel hfuel
  obtain ⟨fuel, rfl⟩ : ∃ n, fuel = n + 1 := ⟨fuel - 1, by omega⟩
  exact readItems_more (hread fuel (by omega)) hcomma (hread₂ fuel (by omega))

theorem complete_emptyObject (after : List Token) :
    Complete (.openObject :: .closeObject :: after) (.value (.object [])) after := by
  apply complete_of_first (Token.wellFormed_of_mark rfl)
  intro t ht
  obtain ⟨rest, hclose, hrest, -⟩ := ht.skipSpace_cons
  refine ⟨rest, hrest, ?_, ?_⟩
  · have hle := length_skipSpace_le t
    rw [hclose, List.length_append] at hle
    omega
  · intro fuel _
    have hopen : skipSpace ('\x7b' :: t) = '\x7b' :: t := skipSpace_cons rfl t
    have hempty : skipSpace t = '\x7d' :: rest := hclose
    show readValue (fuel + 1) ('\x7b' :: t) = some (.object [], rest)
    simp only [readValue, hopen, hempty]

theorem complete_object {toks after : List Token} {fs : List (Option String × Json)}
    (h : Denotes .strict toks (.fields fs) after) (hfields : Complete toks (.fields fs) after) :
    Complete (.openObject :: toks) (.value (.object fs)) after := by
  apply complete_of_first (Token.wellFormed_of_mark rfl)
  intro t ht
  obtain ⟨rest, hrest, hlt, hread⟩ := hfields t ht
  refine ⟨rest, hrest, Nat.le_of_lt hlt, ?_⟩
  intro fuel hfuel
  exact readValue_fields (h.skipSpace_ne ht).2 (hread fuel hfuel)

/-- The name of a field, up to its value. -/
theorem exists_field_front {tok : Token} {name : Option String} (hname : Scalar tok (.string name))
    {t : List Char} {toks : List Token} (ht : Laid .strict t (.colon :: toks)) :
    ∃ body rest₁ rest₂, tok.chars ++ t = '"' :: body ∧ readString body = some (name, rest₁) ∧
      skipSpace rest₁ = ':' :: rest₂ ∧ Laid .strict rest₂ toks ∧ rest₂.length < t.length := by
  obtain ⟨rest₂, hcolon, hrest₂, -⟩ := ht.skipSpace_cons
  cases hname with
  | @string body units hspells =>
    refine ⟨body ++ '"' :: t, t, rest₂, ?_, ?_, hcolon, hrest₂, ?_⟩
    · simp [Token.chars]
    · exact readString_eq_some_iff.2 ⟨body, rfl, .string hspells⟩
    · have hle := length_skipSpace_le t
      have hone : Token.colon.chars.length = 1 := rfl
      rw [hcolon, List.length_append] at hle
      omega

theorem complete_lastField {tok : Token} {toks after : List Token} {name : Option String} {v : Json}
    (hname : Scalar tok (.string name)) (h : Complete toks (.value v) (.closeObject :: after)) :
    Complete (tok :: .colon :: toks) (.fields [(name, v)]) after := by
  apply complete_of_first fun _ => ⟨_, hname⟩
  intro t ht
  obtain ⟨body, rest₁, rest₂, hchars, hstring, hcolon, hrest₂, hlt₂⟩ := exists_field_front hname ht
  obtain ⟨rest₃, hrest₃, hlt₃, hread⟩ := h rest₂ hrest₂
  obtain ⟨rest, hclose, hrest, -⟩ := hrest₃.skipSpace_cons
  have hle := length_skipSpace_le rest₃
  rw [hclose, List.length_append] at hle
  refine ⟨rest, hrest, by omega, ?_⟩
  intro fuel hfuel
  rw [hchars]
  exact readFields_last (skipSpace_cons rfl body) hstring hcolon (hread fuel (by omega)) hclose

theorem complete_moreFields {tok : Token} {toks toks' after : List Token} {name : Option String}
    {v : Json} {fs : List (Option String × Json)} (hname : Scalar tok (.string name))
    (hv : Complete toks (.value v) (.comma :: toks')) (hfs : Complete toks' (.fields fs) after) :
    Complete (tok :: .colon :: toks) (.fields ((name, v) :: fs)) after := by
  apply complete_of_first fun _ => ⟨_, hname⟩
  intro t ht
  obtain ⟨body, rest₁, rest₂, hchars, hstring, hcolon, hrest₂, hlt₂⟩ := exists_field_front hname ht
  obtain ⟨rest₃, hrest₃, hlt₃, hread⟩ := hv rest₂ hrest₂
  obtain ⟨rest₄, hcomma, hrest₄, -⟩ := hrest₃.skipSpace_cons
  obtain ⟨rest, hrest, hlt, hmore⟩ := hfs rest₄ hrest₄
  have hle := length_skipSpace_le rest₃
  rw [hcomma, List.length_append] at hle
  refine ⟨rest, hrest, by omega, ?_⟩
  intro fuel hfuel
  rw [hchars]
  exact readFields_more (skipSpace_cons rfl body) hstring hcolon (hread fuel (by omega)) hcomma
    (hmore fuel (by omega))

theorem Denotes.complete {toks after : List Token} {φ : Phrase} (h : Denotes .strict toks φ after)
    (hends : Ends after) : Complete toks φ after := by
  induction h with
  | scalar hv => exact complete_scalar hv hends
  | emptyArray => exact complete_emptyArray _
  | array hitems ih => exact complete_array hitems (ih hends)
  | emptyObject => exact complete_emptyObject _
  | object hfields ih => exact complete_object hfields (ih hends)
  | lastItem _ ih => exact complete_lastItem (ih (ends_cons rfl _))
  | trailingItem hd => cases hd
  | moreItems _ _ ihv ihvs => exact complete_moreItems (ihv (ends_cons rfl _)) (ihvs hends)
  | lastField hname _ ih => exact complete_lastField hname (ih (ends_cons rfl _))
  | trailingField hd => cases hd
  | moreFields hname _ _ ihv ihfs =>
    exact complete_moreFields hname (ihv (ends_cons rfl _)) (ihfs hends)

/-! ### Whole texts -/

/-- **Reading is the grammar.** The reader accepts the strict documents, with their values. -/
theorem read?_eq_some_iff {text : String} {v : Json} :
    read? text = some v ↔ IsDocument .strict text v := by
  constructor
  · intro h
    rw [read?] at h
    split at h
    · next rest hread =>
      obtain ⟨hblank, hv⟩ := Option.ite_none_right_eq_some.1 h
      cases hv
      have hrest : Laid .strict rest [] := by
        apply laid_of_skipSpace
        rw [List.isEmpty_iff.1 hblank]
        exact .nil
      obtain ⟨toks, hlaid, hdenotes⟩ := (sound_read _).1 hread hrest
      exact ⟨toks, hlaid, hdenotes⟩
    · cases h
  · rintro ⟨toks, hlaid, hdenotes⟩
    obtain ⟨rest, hrest, -, hread⟩ := hdenotes.complete (by intro tok htok; cases htok) _ hlaid
    have hvalue : readValue (text.toList.length + 1) text.toList = some (v, rest) :=
      hread _ (by omega)
    simp only [read?, hvalue, hrest.skipSpace_nil]
    rfl

end PropDocs.Json
