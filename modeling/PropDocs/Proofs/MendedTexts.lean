import PropDocs.Proofs.CommentRecovery
import PropDocs.Proofs.ConfigChain

/-!
# Mended texts

Stripping works on characters, and there are texts that it mends: they are no documents with comments and
trailing commas, and yet a document is left of them.

* `Mended`: a block comment has no end, a word is split by comments, or a comma stands right behind an
  opening bracket;
* `Spread`: the pieces of a text that is laid out as tokens are the pieces of the tokens with gaps between
  them.  `Spread.neighbours`: characters with only a gap between them belong to neighbouring tokens;
* `Denotes.isChain`: the tokens of a phrase fit their neighbours, so that a document is not mended;
* `document_iff_not_mended`: the mended texts are the only ones that are read and are no documents, and a
  configuration that is neither is reported.
-/

namespace PropDocs.Json

open Text

/-! ### Three faults -/

/-- The piece may stand between tokens. -/
def Piece.isGap : Piece → Bool
  | .outside c => isSpace c
  | .lineComment | .blockComment => true
  | _ => false

/-- **Lone comma**: a comma with nothing but a gap between it and an opening bracket or brace. -/
def HasLoneComma (pieces : List Piece) : Prop :=
  ∃ before a gap after, pieces = before ++ .outside a :: (gap ++ .outside ',' :: after) ∧
    (a = '[' ∨ a = '\x7b') ∧ ∀ p ∈ gap, p.isGap = true

/-- **Mended texts.** They have a block comment without an end, a word split by comments, or a comma with
nothing in front of it. -/
def Mended (text : String) : Prop :=
  .openComment ∈ outline .plain text.toList ∨ SplitsWord (outline .plain text.toList) ∨
    HasLoneComma (outline .plain text.toList)

/-! ### Texts and their pieces -/

/-- **Spread.** The pieces of a text: those of the tokens, one after another, with gaps in front of them
and at the end. -/
inductive Spread : List Piece → List Token → Prop
  | nil : Spread [] []
  | gap {p : Piece} {pieces : List Piece} {toks : List Token} :
      p.isGap = true → Spread pieces toks → Spread (p :: pieces) toks
  | token {tok : Token} {pieces : List Piece} {toks : List Token} :
      tok.WellFormed → Spread pieces toks → Spread (tok.pieces ++ pieces) (tok :: toks)

theorem Laid.spread {t : List Char} {toks : List Token} (h : Laid .relaxed t toks) :
    Spread (outline .plain t) toks := by
  induction h with
  | nil => exact .nil
  | space hc _ ih =>
    obtain ⟨hslash, hquote, -⟩ := ne_of_isSpace hc
    rw [outline_outside hslash hquote]
    exact .gap hc ih
  | lineComment _ hbody _ ih =>
    rw [outline_line hbody]
    exact .gap rfl (.gap rfl ih)
  | lastComment _ hbody =>
    rw [outline_last hbody]
    exact .gap rfl .nil
  | blockComment _ hbody _ ih =>
    have hunclosed : Unclosed false _ := hbody
    rw [outline_block hunclosed]
    exact .gap rfl ih
  | token hwf _ ih =>
    rw [outline_token hwf]
    exact .token hwf ih

/-- A piece of a token is a character, and outside of a string the token has it. -/
theorem Token.mem_chars_of_mem_pieces {tok : Token} {p : Piece} (h : p ∈ tok.pieces) :
    ∃ c ∈ tok.chars, p = .outside c ∨ p = .quoted c := by
  have hmap : ∀ {f : Char → Piece} {cs : List Char}, p ∈ cs.map f → ∃ c ∈ cs, p = f c := by
    intro f cs hmem
    obtain ⟨c, hc, rfl⟩ := List.mem_map.1 hmem
    exact ⟨c, hc, rfl⟩
  cases tok with
  | string body =>
    obtain ⟨c, hc, hp⟩ := hmap h
    exact ⟨c, hc, .inr hp⟩
  | _ =>
    obtain ⟨c, hc, hp⟩ := hmap h
    exact ⟨c, hc, .inl hp⟩

theorem Spread.openComment_notMem {pieces : List Piece} {toks : List Token} (h : Spread pieces toks) :
    .openComment ∉ pieces := by
  induction h with
  | nil => exact nofun
  | gap hp _ ih =>
    intro hmem
    rcases List.mem_cons.1 hmem with rfl | hmem
    · cases hp
    · exact ih hmem
  | token _ _ ih =>
    intro hmem
    rcases List.mem_append.1 hmem with hmem | hmem
    · obtain ⟨c, -, hc | hc⟩ := Token.mem_chars_of_mem_pieces hmem
      · cases hc
      · cases hc
    · exact ih hmem

/-- No piece of a token is a gap. -/
theorem Token.WellFormed.not_isGap {tok : Token} (h : tok.WellFormed) {p : Piece} (hp : p ∈ tok.pieces) :
    ¬ p.isGap = true := by
  cases tok with
  | string body =>
    obtain ⟨c, -, rfl⟩ := List.mem_map.1 hp
    exact Bool.false_ne_true
  | word cs =>
    obtain ⟨v, hv⟩ := h rfl
    obtain ⟨c, hc, rfl⟩ := List.mem_map.1 hp
    intro hspace
    have hblank := isBlank_of_isWordChar (hv.isWordChar.2 c hc)
    rw [isBlank_of_isSpace hspace] at hblank
    cases hblank
  | _ =>
    cases List.mem_singleton.1 hp
    exact Bool.false_ne_true

theorem Token.WellFormed.pieces_cons {tok : Token} (h : tok.WellFormed) :
    ∃ p ps, tok.pieces = p :: ps := by
  obtain ⟨c, cs, hcs, -⟩ := h.exists_cons
  cases tok with
  | string body => exact ⟨_, _, rfl⟩
  | _ => exact ⟨_, _, congrArg (List.map Piece.outside) hcs⟩

/-- **A character outside of strings** belongs to a bare word, or it is a mark. -/
theorem Token.WellFormed.of_outside {tok : Token} (h : tok.WellFormed) {a : Char}
    (hmem : .outside a ∈ tok.pieces) :
    tok.pieces = tok.chars.map .outside ∧
      (tok.isScalar = true ∧ isWordChar a = true ∨
        tok.chars = [a] ∧ isWordChar a = false ∧ (tok.opens = true ↔ a = '[' ∨ a = '\x7b') ∧
          (tok = .comma ↔ a = ',')) := by
  have hchars : ∀ {cs : List Char}, .outside a ∈ cs.map Piece.outside → a ∈ cs := by
    intro cs hmem
    obtain ⟨c, hc, heq⟩ := List.mem_map.1 hmem
    cases heq
    exact hc
  cases tok with
  | string body =>
    obtain ⟨c, -, heq⟩ := List.mem_map.1 hmem
    cases heq
  | word cs =>
    obtain ⟨v, hv⟩ := h rfl
    exact ⟨rfl, .inl ⟨rfl, hv.isWordChar.2 a (hchars hmem)⟩⟩
  | _ =>
    obtain rfl := List.mem_singleton.1 (hchars hmem)
    exact ⟨rfl, .inr (by decide)⟩

/-- Where a character outside of strings stands: in a gap, or in a token. -/
theorem Spread.locate {before rest : List Piece} {a : Char} {toks : List Token}
    (h : Spread (before ++ .outside a :: rest) toks) (ha : isSpace a = false) :
    ∃ front tok behind x y rest', toks = front ++ tok :: behind ∧ tok.WellFormed ∧
      tok.pieces = x ++ .outside a :: y ∧ rest = y ++ rest' ∧ Spread rest' behind := by
  generalize hall : before ++ .outside a :: rest = all at h
  induction h generalizing before with
  | nil => simp at hall
  | gap hp _ ih =>
    cases before with
    | nil =>
      have hspace : isSpace a = true := by
        rw [← (List.cons.inj hall).1] at hp
        exact hp
      exact Bool.noConfusion (ha.symm.trans hspace)
    | cons q before => exact ih (List.cons.inj hall).2
  | @token tok pieces toks hwf hspread ih =>
    rcases List.append_eq_append_iff.1 hall with ⟨y, hpieces, hrest⟩ | ⟨before', -, hlate⟩
    · rcases List.cons_eq_append_iff.1 hrest with ⟨-, hlate⟩ | ⟨y', rfl, hrest'⟩
      · obtain ⟨front, tok', behind, x, y, rest', rfl, hfound⟩ := @ih [] hlate.symm
        exact ⟨tok :: front, tok', behind, x, y, rest', rfl, hfound⟩
      · exact ⟨[], tok, toks, before, y', pieces, rfl, hwf, hpieces, hrest', hspread⟩
    · obtain ⟨front, tok', behind, x, y, rest', rfl, hfound⟩ := ih hlate.symm
      exact ⟨tok :: front, tok', behind, x, y, rest', rfl, hfound⟩

/-- Behind a gap stands the next token. -/
theorem Spread.next {gap after : List Piece} {c : Char} {toks : List Token}
    (h : Spread (gap ++ .outside c :: after) toks) (hgap : ∀ p ∈ gap, p.isGap = true)
    (hc : isSpace c = false) :
    ∃ tok behind, toks = tok :: behind ∧ tok.WellFormed ∧ .outside c ∈ tok.pieces := by
  generalize hall : gap ++ .outside c :: after = all at h
  induction h generalizing gap with
  | nil => simp at hall
  | gap hp _ ih =>
    cases gap with
    | nil =>
      have hspace : isSpace c = true := by
        rw [← (List.cons.inj hall).1] at hp
        exact hp
      exact Bool.noConfusion (hc.symm.trans hspace)
    | cons q gap => exact ih (List.forall_mem_cons.1 hgap).2 (List.cons.inj hall).2
  | @token tok pieces toks hwf =>
    obtain ⟨p, ps, hpieces⟩ := hwf.pieces_cons
    have hp : p ∈ tok.pieces := hpieces ▸ List.mem_cons_self
    rw [hpieces] at hall
    cases gap with
    | nil =>
      obtain ⟨rfl, -⟩ := List.cons.inj hall
      exact ⟨tok, toks, rfl, hwf, hp⟩
    | cons q gap =>
      obtain ⟨rfl, -⟩ := List.cons.inj hall
      exact absurd (hgap q List.mem_cons_self) (hwf.not_isGap hp)

/-- **Neighbours.** Two characters with nothing but a gap between them are of neighbouring tokens, unless
they stand together in a word. -/
theorem Spread.neighbours {before gap after : List Piece} {a b : Char} {toks : List Token}
    (h : Spread (before ++ .outside a :: (gap ++ .outside b :: after)) toks)
    (ha : isSpace a = false) (hb : isSpace b = false) (hgap : ∀ p ∈ gap, p.isGap = true)
    (hapart : gap ≠ [] ∨ isWordChar a = false) :
    ∃ front tok tok' behind, toks = front ++ tok :: tok' :: behind ∧ tok.WellFormed ∧
      .outside a ∈ tok.pieces ∧ tok'.WellFormed ∧ .outside b ∈ tok'.pieces := by
  obtain ⟨front, tok, rest, x, y, pieces, rfl, hwf, hpieces, hrest, hspread⟩ := h.locate ha
  have hmem : .outside a ∈ tok.pieces := by
    rw [hpieces]
    exact List.mem_append_right x List.mem_cons_self
  have hy : y = [] := by
    cases y with
    | nil => rfl
    | cons p y =>
      have hp : p ∈ tok.pieces := by
        rw [hpieces]
        exact List.mem_append_right x (List.mem_cons_of_mem _ List.mem_cons_self)
      cases gap with
      | cons q gap =>
        obtain ⟨rfl, -⟩ := List.cons.inj hrest
        exact absurd (hgap q List.mem_cons_self) (hwf.not_isGap hp)
      | nil =>
        have hmark : isWordChar a = false := hapart.resolve_left (fun hne => hne rfl)
        obtain ⟨heq, ⟨-, hword⟩ | ⟨hchars, -⟩⟩ := hwf.of_outside hmem
        · rw [hmark] at hword
          cases hword
        · have hlength := congrArg List.length (heq.symm.trans hpieces)
          rw [hchars, List.length_append] at hlength
          simp only [List.map_cons, List.map_nil, List.length_cons, List.length_nil] at hlength
          omega
  rw [hy, List.nil_append] at hrest
  rw [← hrest] at hspread
  obtain ⟨tok', behind, rfl, hwf', hmem'⟩ := hspread.next hgap hb
  exact ⟨front, tok, tok', behind, rfl, hwf, hmem, hwf', hmem'⟩

/-! ### Neighbouring tokens -/

/-- **Fitting neighbours**: no comma behind an opening bracket, and no two scalars. -/
def Fits (a b : Token) : Prop :=
  (a.opens = true → b ≠ .comma) ∧ (a.isScalar = true → b.isScalar = false)

instance : DecidableRel Fits :=
  fun a b => inferInstanceAs
    (Decidable ((a.opens = true → b ≠ .comma) ∧ (a.isScalar = true → b.isScalar = false)))

theorem Spread.not_splitsWord {pieces : List Piece} {toks : List Token} (h : Spread pieces toks)
    (hchain : toks.IsChain Fits) : ¬ SplitsWord pieces := by
  rintro ⟨before, a, gap, b, after, rfl, ha, hb, hne, hgap⟩
  have hspace : ∀ {c : Char}, isWordChar c = true → isSpace c = false :=
    fun hc => isSpace_of_not_isBlank (isBlank_of_isWordChar hc)
  have hscalar : ∀ {tok : Token} {c : Char}, tok.WellFormed → .outside c ∈ tok.pieces →
      isWordChar c = true → tok.isScalar = true := by
    intro tok c hwf hmem hc
    obtain ⟨-, ⟨hscalar, -⟩ | ⟨-, hmark, -⟩⟩ := hwf.of_outside hmem
    · exact hscalar
    · rw [hc] at hmark
      cases hmark
  obtain ⟨front, tok, tok', behind, rfl, hwf, hmem, hwf', hmem'⟩ :=
    h.neighbours (hspace ha) (hspace hb) (fun p hp => by rw [hgap p hp]; rfl) (.inl hne)
  have hfits : Fits tok tok' := List.isChain_iff_forall_rel_of_append_cons_cons.1 hchain rfl
  have hsecond := hfits.2 (hscalar hwf hmem ha)
  rw [hscalar hwf' hmem' hb] at hsecond
  cases hsecond

theorem Spread.not_hasLoneComma {pieces : List Piece} {toks : List Token} (h : Spread pieces toks)
    (hchain : NoLoneComma toks) : ¬ HasLoneComma pieces := by
  rintro ⟨before, a, gap, after, rfl, ha, hgap⟩
  have hmark : isWordChar a = false ∧ isSpace a = false := by
    rcases ha with rfl | rfl
    · exact ⟨rfl, rfl⟩
    · exact ⟨rfl, rfl⟩
  obtain ⟨front, tok, tok', behind, rfl, hwf, hmem, hwf', hmem'⟩ :=
    h.neighbours hmark.2 rfl hgap (.inr hmark.1)
  obtain ⟨-, ⟨-, hword⟩ | ⟨-, -, hopens, -⟩⟩ := hwf.of_outside hmem
  · rw [hmark.1] at hword
    cases hword
  obtain ⟨-, ⟨-, hword⟩ | ⟨-, -, -, hcomma⟩⟩ := hwf'.of_outside hmem'
  · cases hword
  exact List.isChain_iff_forall_rel_of_append_cons_cons.1 hchain rfl (hopens.2 ha) (hcomma.2 rfl)

theorem Spread.exists_gap {pieces : List Piece} {tok : Token} {toks : List Token}
    (h : Spread pieces (tok :: toks)) :
    ∃ gap rest, pieces = gap ++ (tok.pieces ++ rest) ∧ ∀ p ∈ gap, p.isGap = true := by
  generalize hall : tok :: toks = all at h
  induction h with
  | nil => cases hall
  | gap hp _ ih =>
    obtain ⟨gap, rest, rfl, hgap⟩ := ih hall
    exact ⟨_ :: gap, rest, rfl, List.forall_mem_cons.2 ⟨hp, hgap⟩⟩
  | token =>
    cases hall
    exact ⟨[], _, rfl, nofun⟩

theorem HasLoneComma.append (front : List Piece) {pieces : List Piece} (h : HasLoneComma pieces) :
    HasLoneComma (front ++ pieces) := by
  obtain ⟨before, a, gap, after, rfl, h⟩ := h
  exact ⟨front ++ before, a, gap, after, by rw [List.append_assoc], h⟩

/-- A text without lone commas has none among its tokens. -/
theorem Spread.noLoneComma {pieces : List Piece} {toks : List Token} (h : Spread pieces toks)
    (hlone : ¬ HasLoneComma pieces) : NoLoneComma toks := by
  induction h with
  | nil => exact .nil
  | @gap p _ _ _ _ ih => exact ih fun h => hlone (h.append [p])
  | @token tok pieces toks hwf hspread ih =>
    refine List.isChain_cons.2 ⟨?_, ih fun h => hlone (h.append tok.pieces)⟩
    rintro _ hnext hopens rfl
    cases toks with
    | nil => cases hnext
    | cons next toks =>
      cases hnext
      obtain ⟨gap, rest, rfl, hgap⟩ := hspread.exists_gap
      cases tok with
      | openArray => exact hlone ⟨[], '[', gap, rest, rfl, .inl rfl, hgap⟩
      | openObject => exact hlone ⟨[], '\x7b', gap, rest, rfl, .inr rfl, hgap⟩
      | _ => cases hopens

/-- A text of fitting neighbours is not mended. -/
theorem Laid.not_mended {text : String} {toks : List Token} (h : Laid .relaxed text.toList toks)
    (hchain : toks.IsChain Fits) : ¬ Mended text := by
  rintro (hopen | hsplit | hlone)
  · exact h.spread.openComment_notMem hopen
  · exact h.spread.not_splitsWord hchain hsplit
  · exact h.spread.not_hasLoneComma (hchain.imp fun _ _ hfits => hfits.1) hlone

theorem isChain_cons_mark {tok : Token} (hopens : tok.opens = false) (hscalar : tok.isScalar = false)
    {toks : List Token} (h : toks.IsChain Fits) : (tok :: toks).IsChain Fits := by
  refine List.isChain_cons.2 ⟨fun next _ => ⟨fun h => ?_, fun h => ?_⟩, h⟩
  · rw [hopens] at h
    cases h
  · rw [hscalar] at h
    cases h

theorem isChain_cons_scalar {tok : Token} {v : Json} (hv : Scalar tok v) {toks : List Token}
    (hends : Ends toks) (h : toks.IsChain Fits) : (tok :: toks).IsChain Fits := by
  refine List.isChain_cons.2 ⟨fun next hnext => ⟨fun hopens => ?_, fun _ => hends next hnext⟩, h⟩
  cases hv <;> cases hopens

/-- An opening bracket in front of a phrase or of the bracket that closes it. -/
theorem isChain_cons_open {tok next : Token} (hscalar : tok.isScalar = false) (hnext : next ≠ .comma)
    {toks : List Token} (h : (next :: toks).IsChain Fits) : (tok :: next :: toks).IsChain Fits := by
  refine List.isChain_cons_cons.2 ⟨⟨fun _ => hnext, fun h => ?_⟩, h⟩
  rw [hscalar] at h
  cases h

/-- **The tokens of a phrase** fit each other, if those behind it do. -/
theorem Denotes.isChain {d : Dialect} {toks after : List Token} {φ : Phrase} (h : Denotes d toks φ after)
    (hafter : after.IsChain Fits) (hends : Ends after) : toks.IsChain Fits := by
  induction h with
  | scalar hv => exact isChain_cons_scalar hv hends hafter
  | emptyArray => exact isChain_cons_open rfl (by decide) (isChain_cons_mark rfl rfl hafter)
  | array hitems ih =>
    obtain ⟨next, rest, rfl, -, hnext⟩ := hitems.exists_cons
    exact isChain_cons_open rfl hnext (ih hafter hends)
  | emptyObject => exact isChain_cons_open rfl (by decide) (isChain_cons_mark rfl rfl hafter)
  | object hfields ih =>
    obtain ⟨next, rest, rfl, -, hnext⟩ := hfields.exists_cons
    exact isChain_cons_open rfl hnext (ih hafter hends)
  | lastItem _ ih => exact ih (isChain_cons_mark rfl rfl hafter) (ends_cons rfl _)
  | trailingItem _ _ ih =>
    exact ih (isChain_cons_mark rfl rfl (isChain_cons_mark rfl rfl hafter)) (ends_cons rfl _)
  | moreItems _ _ ihv ihvs =>
    exact ihv (isChain_cons_mark rfl rfl (ihvs hafter hends)) (ends_cons rfl _)
  | lastField hname _ ih =>
    have hvalue := ih (isChain_cons_mark rfl rfl hafter) (ends_cons rfl _)
    exact isChain_cons_scalar hname (ends_cons rfl _) (isChain_cons_mark rfl rfl hvalue)
  | trailingField _ hname _ ih =>
    have hvalue := ih (isChain_cons_mark rfl rfl (isChain_cons_mark rfl rfl hafter)) (ends_cons rfl _)
    exact isChain_cons_scalar hname (ends_cons rfl _) (isChain_cons_mark rfl rfl hvalue)
  | moreFields hname _ _ ihv ihfs =>
    have hvalue := ihv (isChain_cons_mark rfl rfl (ihfs hafter hends)) (ends_cons rfl _)
    exact isChain_cons_scalar hname (ends_cons rfl _) (isChain_cons_mark rfl rfl hvalue)

/-! ### What stripping mends -/

/-- **Back through stripping.** A text that is read when it is stripped is a document of the relaxed
dialect, unless it is mended. -/
theorem isDocument_of_plainText {text : String} {v : Json} (h : IsDocument .strict (plainText text) v)
    (hmended : ¬ Mended text) : IsDocument .relaxed text v := by
  obtain ⟨toks, hlaid, hdenotes⟩ := h
  rw [toList_plainText] at hlaid
  obtain ⟨toks', hcommas, htoks⟩ := hlaid.of_dropTrailingCommas
  have hrelaxed : Laid .relaxed text.toList toks' :=
    hcommas.of_dropComments (fun h => hmended (.inl h)) (fun h => hmended (.inr (.inl h)))
  have hlone : NoLoneComma toks' := hrelaxed.spread.noLoneComma fun h => hmended (.inr (.inr h))
  obtain ⟨after, hafter, -, hvalue⟩ := hdenotes.of_dropTrailing htoks hlone
  rw [eq_nil_of_dropTrailing hafter] at hvalue
  exact ⟨toks', hrelaxed, hvalue⟩

theorem IsDocument.not_mended {text : String} {v : Json} (h : IsDocument .relaxed text v) :
    ¬ Mended text := by
  obtain ⟨toks, hlaid, hdenotes⟩ := h
  exact hlaid.not_mended (hdenotes.isChain .nil nofun)

end PropDocs.Json

namespace PropDocs.ConfigChain

open Json PropDocs.Path

/-- The sequence of paths ends at a file that cannot be loaded, so that no path up to it repeats. -/
theorem failsFirst_of_load {fs : FileSystem} {start q : Path} {k : Nat} {fault : ConfigFault}
    (hk : path? fs start k = some q) (hload : ConfigFile.load fs q = .error (.config q fault)) :
    FailsFirst fs start q fault := by
  refine ⟨k, hk, ?_, hload⟩
  intro i hi j hj heq
  have hshift : ∀ n, path? fs start (j + n) = path? fs start (i + n) := by
    intro n
    induction n with
    | zero => exact heq
    | succ n ih => rw [← Nat.add_assoc, ← Nat.add_assoc, path?, path?, ih]
  have hend : path? fs start (k + 1) = none := path?_succ_of_error hk hload
  have hearly : path? fs start (j + (k + 1 - i)) = none := by
    rw [hshift, show i + (k + 1 - i) = k + 1 by omega, hend]
  have hlt := lt_of_path?_none hk hearly
  omega

theorem load_eq_malformed {fs : FileSystem} {path : Path} {text : String}
    (hread : fs.read path = .ok text) (hjson : Json.read? (plainText text) = none) :
    ConfigFile.load fs path = .error (.config path .malformed) := by
  have hnone : ConfigFile.read? path text = none := by
    rw [ConfigFile.read?, hjson]
    rfl
  simp only [ConfigFile.load, hread, hnone]

/-- **What stripping mends.** A text is a document with comments and trailing commas exactly when it is
read after stripping and is not mended.  A configuration that is neither such a document nor mended,
wherever it stands in a chain, is reported as malformed. -/
theorem document_iff_not_mended (text : String) :
    (∀ v, IsDocument .relaxed text v ↔ Json.read? (plainText text) = some v ∧ ¬ Mended text) ∧
    ((∀ v, ¬ IsDocument .relaxed text v) → ¬ Mended text →
      ∀ (fs : FileSystem) (path : Path) (k : Nat) (q : Path), isAbsolute fs.cwd = true →
        path? fs (absolute fs.cwd path) k = some q → fs.read q = .ok text →
        CompilerOptions.load fs path = .error (.config q .malformed)) := by
  have hiff : ∀ v, IsDocument .relaxed text v ↔
      Json.read? (plainText text) = some v ∧ ¬ Mended text := by
    intro v
    constructor
    · rintro ⟨toks, hreads⟩
      exact ⟨read?_eq_some_iff.2 ⟨_, hreads.plainText⟩, IsDocument.not_mended ⟨toks, hreads⟩⟩
    · rintro ⟨hread, hmended⟩
      exact isDocument_of_plainText (read?_eq_some_iff.1 hread) hmended
  refine ⟨hiff, ?_⟩
  intro hno hmended fs path k q hcwd hk hread
  have hjson : Json.read? (plainText text) = none := by
    by_contra hsome
    obtain ⟨v, hv⟩ := Option.ne_none_iff_exists'.1 hsome
    exact hno v ((hiff v).2 ⟨hv, hmended⟩)
  rw [load_eq_error_iff hcwd]
  exact .failed (failsFirst_of_load hk (load_eq_malformed hread hjson))

/-- **A word split by a comment**, in a configuration. -/
def splitWord : String := "\x7b\"compilerOptions\": \x7b\"strict\": tr/**/ue\x7d\x7d"

/-- Two commas behind the last item of a list. -/
def twoCommas : String := "[1,,]"

/-- **Drawer.** A configuration with a split word, and one that extends a list with two commas at its
end. -/
def drawer : FileSystem where
  cwd := "/work"
  files :=
    [("/work/split.json", splitWord.toUTF8),
      ("/work/commas.json", "\x7b\"extends\":\"./base\"\x7d".toUTF8),
      ("/work/base.json", twoCommas.toUTF8)]

theorem mended_splitWord : Mended splitWord := by
  refine .inr (.inl ⟨outline .plain "\x7b\"compilerOptions\": \x7b\"strict\": t".toList, 'r',
    [.blockComment], 'u', outline .plain "e\x7d\x7d".toList, ?_, rfl, rfl, by decide, by simp⟩)
  decide +kernel

theorem not_mended_twoCommas : ¬ Mended twoCommas := by
  have hlaid : Laid .relaxed ['[', '1', ',', ',', ']']
      [.openArray, .word ['1'], .comma, .comma, .closeArray] := by
    refine laid_of_mark .openArray rfl rfl ?_
    refine laid_of_scalar scalar_one rfl ?_
    refine laid_of_mark .comma rfl rfl ?_
    refine laid_of_mark .comma rfl rfl ?_
    exact laid_of_mark .closeArray rfl rfl .nil
  exact Laid.not_mended hlaid (by decide)

theorem drawer_loads :
    (CompilerOptions.load drawer "split.json" = .ok { strict := true } ∧
      ∀ v, ¬ IsDocument .relaxed splitWord v) ∧
    (∀ v, ¬ IsDocument .relaxed twoCommas v) ∧ ¬ Mended twoCommas ∧
    CompilerOptions.load drawer "commas.json" = .error (.config "/work/base.json" .malformed) := by
  have hno : ∀ v, ¬ IsDocument .relaxed twoCommas v := by
    intro v h
    have hread := (((document_iff_not_mended twoCommas).1 v).1 h).1
    have hnone : Json.read? (plainText twoCommas) = none := by decide +kernel
    rw [hnone] at hread
    cases hread
  refine ⟨⟨by decide +kernel, ?_⟩, hno, not_mended_twoCommas, ?_⟩
  · intro v h
    exact (((document_iff_not_mended splitWord).1 v).1 h).2 mended_splitWord
  · exact (document_iff_not_mended twoCommas).2 hno not_mended_twoCommas drawer "commas.json" 1 _ rfl
      (by decide +kernel) (by decide +kernel)

end PropDocs.ConfigChain
