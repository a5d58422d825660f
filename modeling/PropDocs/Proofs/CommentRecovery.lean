import Mathlib.Data.List.Chain
import PropDocs.Proofs.CommentStripping

/-!
# Back from stripped texts

What a text was can be told from what stripping leaves of it, when that is a strict text.  Each pass is
followed backwards, and each theorem says what it takes.

* `Opening`: a text starts with a comment, with a string, or with a character outside of both;
* `Laid.of_dropComments`: the tokens that the comment pass leaves are those of the text before, unless a
  comment is left open or stands inside of a word (`SplitsWord`);
* `Laid.of_dropTrailingCommas`: those that the comma pass leaves are those of the text before but for its
  trailing commas.  A dropped comma never stands inside of a word, since a bracket follows it;
* `Denotes.of_dropTrailing`: what tokens denote without their trailing commas they denote with them in the
  relaxed dialect, unless a comma follows an opening bracket (`NoLoneComma`).
-/

namespace PropDocs.Json

open Text

/-! ### The front of a text -/

/-- Every text is empty or starts with a comment, a string or a character of its own. -/
inductive Opening : List Char → Prop
  | done : Opening []
  | line {body t : List Char} : '\n' ∉ body → Opening ('/' :: '/' :: (body ++ '\n' :: t))
  | last {body : List Char} : '\n' ∉ body → Opening ('/' :: '/' :: body)
  | block {body t : List Char} : Unclosed false body →
      Opening ('/' :: '*' :: (body ++ '*' :: '/' :: t))
  | openBlock {body : List Char} : Unclosed false body → Opening ('/' :: '*' :: body)
  | quote {t : List Char} : Opening ('"' :: t)
  | outside {c : Char} {t : List Char} : c ≠ '"' →
      outline .plain (c :: t) = .outside c :: outline .plain t → Opening (c :: t)

/-- A text runs up to its first line feed, or to its end. -/
theorem exists_line (t : List Char) :
    (∃ body t', t = body ++ '\n' :: t' ∧ '\n' ∉ body) ∨ '\n' ∉ t := by
  by_cases h : '\n' ∈ t
  · obtain ⟨body, t', rfl, hbody⟩ := List.eq_append_cons_of_mem h
    exact .inl ⟨body, t', rfl, hbody⟩
  · exact .inr h

/-- A text runs up to the first end of a block comment, or to its own. -/
theorem exists_block (t : List Char) :
    (∃ body t', t = body ++ '*' :: '/' :: t' ∧ Unclosed false body) ∨ Unclosed false t := by
  induction t with
  | nil => exact .inr (by simp [Unclosed])
  | cons c t ih =>
    have hgrow : ∀ body, Unclosed false body → ¬ ['*', '/'] <+: c :: body →
        Unclosed false (c :: body) := by
      intro body hbody hfront hwithin
      rcases List.infix_cons_iff.1 hwithin with hwithin | hwithin
      · exact hfront hwithin
      · exact hbody hwithin
    by_cases hfront : ['*', '/'] <+: c :: t
    · obtain ⟨t', ht'⟩ := hfront
      exact .inl ⟨[], t', ht'.symm, by simp [Unclosed]⟩
    · rcases ih with ⟨body, t', rfl, hbody⟩ | ht
      · refine .inl ⟨c :: body, t', rfl, hgrow body hbody fun hfront' => hfront ?_⟩
        exact hfront'.trans (List.prefix_append (c :: body) _)
      · exact .inr (hgrow t ht hfront)

theorem opening (t : List Char) : Opening t := by
  cases t with
  | nil => exact .done
  | cons c t =>
    by_cases hquote : c = '"'
    · subst hquote
      exact .quote
    · by_cases hslash : c = '/'
      · subst hslash
        cases t with
        | nil => exact .outside hquote (outline_slash nofun nofun)
        | cons d t =>
          by_cases hline : d = '/'
          · subst hline
            rcases exists_line t with ⟨body, t', rfl, hbody⟩ | ht
            · exact .line hbody
            · exact .last ht
          · by_cases hblock : d = '*'
            · subst hblock
              rcases exists_block t with ⟨body, t', rfl, hbody⟩ | ht
              · exact .block hbody
              · exact .openBlock ht
            · refine .outside hquote (outline_slash ?_ ?_)
              · exact fun cs h => hline (List.cons.inj h).1
              · exact fun cs h => hblock (List.cons.inj h).1
      · exact .outside hquote (outline_outside hslash hquote t)

/-! ### Back through the comment pass -/

theorem dropComments_of_outline (front : List Piece) {t t' : List Char}
    (h : outline .plain t = front ++ outline .plain t') :
    dropComments .plain t = front.flatMap Piece.kept ++ dropComments .plain t' := by
  rw [dropComments_eq_flatMap, h, List.flatMap_append, ← dropComments_eq_flatMap]

theorem dropComments_quote (t : List Char) :
    dropComments .plain ('"' :: t) = '"' :: dropComments .inString t := by
  rw [dropComments_eq_flatMap, outline_quote, List.flatMap_cons, ← dropComments_eq_flatMap]
  rfl

/-- The first character that is kept, when it is one of a word, stands behind block comments only. -/
theorem exists_blocks {t u : List Char} {c : Char} (h : dropComments .plain t = c :: u)
    (hc : isWordChar c = true) :
    ∃ gap after, outline .plain t = gap ++ .outside c :: after ∧ ∀ p ∈ gap, p = .blockComment := by
  induction hn : t.length using Nat.strongRecOn generalizing t with
  | ind n ih =>
    cases opening t with
    | done => cases h
    | line hbody =>
      rw [dropComments_eq_flatMap, outline_line hbody] at h
      cases (List.cons.inj h).1
      cases hc
    | last hbody =>
      rw [dropComments_eq_flatMap, outline_last hbody] at h
      cases h
    | @block body t hbody =>
      rw [dropComments_of_outline [.blockComment] (outline_block hbody t)] at h
      obtain ⟨gap, after, ht, hgap⟩ := ih t.length (by simp at hn; omega) h rfl
      exact ⟨.blockComment :: gap, after, by rw [outline_block hbody, ht]; rfl,
        List.forall_mem_cons.2 ⟨rfl, hgap⟩⟩
    | openBlock hbody =>
      rw [dropComments_eq_flatMap, outline_openBlock hbody] at h
      cases h
    | @quote t =>
      rw [dropComments_quote] at h
      cases (List.cons.inj h).1
      cases hc
    | outside _ ht =>
      rw [dropComments_eq_flatMap, ht] at h
      cases (List.cons.inj h).1
      exact ⟨[], _, ht, by simp⟩

/-- A character outside of strings and comments, in front of a text. -/
theorem exists_cons_of_outline {t : List Char} {c : Char} {after : List Piece}
    (h : outline .plain t = .outside c :: after) : ∃ t', t = c :: t' ∧ outline .plain t' = after := by
  cases opening t with
  | done => cases h
  | line hbody =>
    rw [outline_line hbody] at h
    cases h
  | last hbody =>
    rw [outline_last hbody] at h
    cases h
  | block hbody =>
    rw [outline_block hbody] at h
    cases h
  | openBlock hbody =>
    rw [outline_openBlock hbody] at h
    cases h
  | quote =>
    rw [outline_quote] at h
    cases h
  | outside _ ht =>
    rw [ht] at h
    cases h
    exact ⟨_, rfl, rfl⟩

/-- **Split word**: nothing but block comments, and at least one of them, between two characters of
words. -/
def SplitsWord (pieces : List Piece) : Prop :=
  ∃ before a gap b after, pieces = before ++ .outside a :: (gap ++ .outside b :: after) ∧
    isWordChar a = true ∧ isWordChar b = true ∧ gap ≠ [] ∧ ∀ p ∈ gap, p = .blockComment

theorem SplitsWord.append (front : List Piece) {pieces : List Piece} (h : SplitsWord pieces) :
    SplitsWord (front ++ pieces) := by
  obtain ⟨before, a, gap, b, after, rfl, h⟩ := h
  exact ⟨front ++ before, a, gap, b, after, by rw [List.append_assoc], h⟩

/-- **Words are not split**: what the pass kept behind a character of a word, if it goes on with the word,
stands right behind it. -/
theorem exists_word_rest {cs : List Char} (hcs : ∀ c ∈ cs, isWordChar c = true) {a : Char}
    (ha : isWordChar a = true) {t u : List Char}
    (hsplit : ¬ SplitsWord (.outside a :: outline .plain t)) (h : dropComments .plain t = cs ++ u) :
    ∃ t', t = cs ++ t' ∧ dropComments .plain t' = u := by
  induction cs generalizing a t with
  | nil => exact ⟨t, rfl, h⟩
  | cons c cs ih =>
    obtain ⟨hc, hcs⟩ := List.forall_mem_cons.1 hcs
    obtain ⟨gap, after, ht, hgap⟩ := exists_blocks h hc
    have hnil : gap = [] := by
      by_contra hne
      exact hsplit ⟨[], a, gap, c, after, by rw [ht]; rfl, ha, hc, hne, hgap⟩
    rw [hnil, List.nil_append] at ht
    obtain ⟨t', rfl, hafter⟩ := exists_cons_of_outline ht
    rw [← hafter] at ht
    rw [dropComments_of_outline [.outside c] ht] at h
    rw [ht] at hsplit
    obtain ⟨t'', rfl, hu⟩ := ih hcs hc (fun hs => hsplit (hs.append [.outside a]))
      (List.cons.inj h).2
    exact ⟨t'', rfl, hu⟩

/-- **A strict text from its first character**: a blank, or the start of its first token. -/
theorem Laid.cases_cons {c : Char} {t : List Char} {toks : List Token}
    (h : Laid .strict (c :: t) toks) :
    (isSpace c = true ∧ Laid .strict t toks) ∨
      ∃ tok cs t' toks', toks = tok :: toks' ∧ tok.WellFormed ∧ tok.chars = c :: cs ∧ t = cs ++ t' ∧
        Laid .strict t' toks' := by
  generalize hall : c :: t = all at h
  cases h with
  | nil => cases hall
  | space hc hlaid =>
    cases hall
    exact .inl ⟨hc, hlaid⟩
  | lineComment hd => cases hd
  | lastComment hd => cases hd
  | blockComment hd => cases hd
  | @token tok t' toks' hwf hlaid =>
    obtain ⟨c', cs, hcs, -⟩ := hwf.exists_cons
    rw [hcs] at hall
    cases hall
    exact .inr ⟨tok, cs, t', toks', rfl, hwf, hcs, rfl, hlaid⟩

theorem Laid.eq_nil {toks : List Token} (h : Laid .strict [] toks) : toks = [] := by
  cases toks with
  | nil => rfl
  | cons tok toks =>
    obtain ⟨t', ht', -, hwf⟩ := h.skipSpace_cons
    obtain ⟨c, cs, hcs, -⟩ := hwf.exists_cons
    rw [hcs] at ht'
    cases ht'

/-- The characters of a token behind its first one: those of a word, or none, unless it is a string. -/
theorem Token.WellFormed.tail {tok : Token} (h : tok.WellFormed) {c : Char} {cs : List Char}
    (hcs : tok.chars = c :: cs) :
    (∃ body, tok = .string body ∧ c = '"' ∧ cs = body ++ ['"']) ∨
      c ≠ '"' ∧ (cs = [] ∨ isWordChar c = true ∧ ∀ x ∈ cs, isWordChar x = true) := by
  cases tok with
  | string body =>
    cases hcs
    exact .inl ⟨body, rfl, rfl, rfl⟩
  | word word =>
    obtain ⟨v, hv⟩ := h rfl
    have hchars := hv.isWordChar.2
    rw [show word = c :: cs from hcs] at hchars
    obtain ⟨hc, hrest⟩ := List.forall_mem_cons.1 hchars
    refine .inr ⟨?_, .inr ⟨hc, hrest⟩⟩
    rintro rfl
    cases hc
  | _ =>
    cases hcs
    exact .inr ⟨by decide, .inl rfl⟩

/-- **Tokens are not split**: a token that the pass left is there, if the text starts with its first
character. -/
theorem exists_token_rest {tok : Token} (hwf : tok.WellFormed) {c : Char} {cs t u : List Char}
    (hcs : tok.chars = c :: cs)
    (hstart : c = '"' ∨ outline .plain (c :: t) = .outside c :: outline .plain t)
    (hsplit : ¬ SplitsWord (outline .plain (c :: t)))
    (h : dropComments .plain (c :: t) = c :: (cs ++ u)) :
    ∃ t', c :: t = tok.chars ++ t' ∧ dropComments .plain t' = u := by
  rcases hwf.tail hcs with ⟨body, rfl, rfl, rfl⟩ | ⟨hquote, hrest⟩
  · rw [dropComments_quote, List.append_assoc] at h
    obtain ⟨t', rfl, hu⟩ :=
      copiesStrings_dropComments.exists_append hwf.enclosed (List.cons.inj h).2
    exact ⟨t', by simp [Token.chars], hu⟩
  · have hplain := hstart.resolve_left hquote
    rw [dropComments_of_outline [.outside c] hplain] at h
    have hu : dropComments .plain t = cs ++ u := (List.cons.inj h).2
    rw [hcs]
    rcases hrest with rfl | ⟨hc, hword⟩
    · exact ⟨t, rfl, hu⟩
    · obtain ⟨t', rfl, hu'⟩ := exists_word_rest hword hc (hplain ▸ hsplit) hu
      exact ⟨t', rfl, hu'⟩

/-- **Back through the comment pass.** If what is left is laid out as tokens, and no word was split and no
comment left open, the text is laid out as them too. -/
theorem Laid.of_dropComments {t : List Char} {toks : List Token}
    (h : Laid .strict (Json.dropComments .plain t) toks)
    (hopen : .openComment ∉ outline .plain t) (hsplit : ¬ SplitsWord (outline .plain t)) :
    Laid .relaxed t toks := by
  induction hn : t.length using Nat.strongRecOn generalizing t toks with
  | ind n ih =>
    -- the rest of the text behind some of its pieces
    have hback : ∀ {t' : List Char} {toks' : List Token} (front : List Piece),
        outline .plain t = front ++ outline .plain t' → t'.length < t.length →
        Laid .strict (Json.dropComments .plain t') toks' → Laid .relaxed t' toks' := by
      intro t' toks' front ht hlt hlaid
      rw [ht] at hopen hsplit
      refine ih t'.length (hn ▸ hlt) hlaid ?_ ?_ rfl
      · exact fun hmem => hopen (List.mem_append_right front hmem)
      · exact fun hs => hsplit (hs.append front)
    have htoken : ∀ {tok : Token} {t' : List Char} {toks' : List Token}, tok.WellFormed →
        t = tok.chars ++ t' → Laid .strict (Json.dropComments .plain t') toks' →
        Laid .relaxed t (tok :: toks') := by
      intro tok t' toks' hwf ht hlaid
      obtain ⟨c, cs, hcs, -⟩ := hwf.exists_cons
      have hlt : t'.length < t.length := by
        rw [ht, hcs, List.length_append, List.length_cons]
        omega
      have hrest := hback tok.pieces (ht ▸ outline_token hwf t') hlt hlaid
      rw [ht]
      exact .token hwf hrest
    cases opening t with
    | done =>
      rw [h.eq_nil]
      exact .nil
    | @line body t hbody =>
      rw [dropComments_of_outline [.lineComment, .outside '\n'] (outline_line hbody t)] at h
      rcases h.cases_cons with ⟨-, hlaid⟩ | ⟨tok, cs, t', toks', -, hwf, hcs, -⟩
      · refine .lineComment rfl hbody ?_
        refine hback [.lineComment, .outside '\n'] (outline_line hbody t) ?_ hlaid
        simp only [List.length_cons, List.length_append]
        omega
      · obtain ⟨c, cs', hcs', hblank, -⟩ := hwf.exists_cons
        cases hcs'.symm.trans hcs
        cases hblank
    | last hbody =>
      rw [dropComments_eq_flatMap, outline_last hbody] at h
      rw [h.eq_nil]
      exact .lastComment rfl hbody
    | @block body t hbody =>
      rw [dropComments_of_outline [.blockComment] (outline_block hbody t)] at h
      refine .blockComment rfl hbody (hback [.blockComment] (outline_block hbody t) ?_ h)
      simp only [List.length_cons, List.length_append]
      omega
    | openBlock hbody =>
      rw [outline_openBlock hbody] at hopen
      exact absurd List.mem_cons_self hopen
    | @quote t =>
      rw [dropComments_quote] at h
      rcases h.cases_cons with ⟨hspace, -⟩ | ⟨tok, cs, u, toks', rfl, hwf, hcs, hu, hlaid⟩
      · cases hspace
      · obtain ⟨t', ht, rfl⟩ := exists_token_rest hwf hcs (.inl rfl) hsplit
          ((dropComments_quote t).trans (by rw [hu]))
        exact htoken hwf ht hlaid
    | @outside c t hquote ht =>
      have hkept : Json.dropComments .plain (c :: t) = c :: Json.dropComments .plain t :=
        dropComments_of_outline [.outside c] ht
      rw [hkept] at h
      rcases h.cases_cons with ⟨hspace, hlaid⟩ | ⟨tok, cs, u, toks', rfl, hwf, hcs, hu, hlaid⟩
      · exact .space hspace (hback [.outside c] ht (Nat.lt_succ_self _) hlaid)
      · obtain ⟨t', ht', rfl⟩ := exists_token_rest hwf hcs (.inr ht) hsplit (hkept.trans (by rw [hu]))
        exact htoken hwf ht' hlaid

/-! ### Back through the comma pass -/

/-- A dropped comma leaves a blank or a closing bracket in front. -/
theorem not_isWordChar_of_closesNext {t u : List Char} {c : Char} (hcloses : closesNext t = true)
    (h : dropTrailingCommas .plain t = c :: u) : isWordChar c = false := by
  cases t with
  | nil => cases hcloses
  | cons d t =>
    by_cases hblank : isBlank d = true
    · rw [dropTrailingCommas_outside (by rintro rfl; cases hblank) (by rintro rfl; cases hblank)] at h
      obtain ⟨rfl, -⟩ := List.cons.inj h
      by_contra hword
      rw [isBlank_of_isWordChar (by simpa using hword)] at hblank
      cases hblank
    · rw [closesNext, trimStart, List.dropWhile_cons_of_neg hblank] at hcloses
      split at hcloses
      · next hd =>
        obtain ⟨rfl, -⟩ := List.cons.inj hd
        obtain ⟨rfl, -⟩ := List.cons.inj h
        rfl
      · next hd =>
        obtain ⟨rfl, -⟩ := List.cons.inj hd
        obtain ⟨rfl, -⟩ := List.cons.inj h
        rfl
      · cases hcloses

/-- Words are not split by dropped commas. -/
theorem exists_word_rest_of_commas {cs : List Char} (hcs : ∀ c ∈ cs, isWordChar c = true)
    {t u : List Char} (h : dropTrailingCommas .plain t = cs ++ u) :
    ∃ t', t = cs ++ t' ∧ dropTrailingCommas .plain t' = u := by
  induction cs generalizing t with
  | nil => exact ⟨t, rfl, h⟩
  | cons c cs ih =>
    obtain ⟨hc, htail⟩ := List.forall_mem_cons.1 hcs
    cases t with
    | nil => cases h
    | cons d t =>
      rw [dropTrailingCommas] at h
      split at h
      · next hdropped =>
        rw [not_isWordChar_of_closesNext hdropped.2 h] at hc
        cases hc
      · obtain ⟨rfl, hrest⟩ := List.cons.inj h
        rw [if_neg (by rintro rfl; cases hc)] at hrest
        obtain ⟨t', rfl, ht'⟩ := ih htail hrest
        exact ⟨t', rfl, ht'⟩

/-- Tokens other than commas are not split by dropped commas. -/
theorem exists_token_rest_of_commas {tok : Token} (hwf : tok.WellFormed) {c : Char}
    {cs t u : List Char} (hcs : tok.chars = c :: cs) (hcomma : c ≠ ',')
    (h : dropTrailingCommas .plain (c :: t) = c :: (cs ++ u)) :
    ∃ t', c :: t = tok.chars ++ t' ∧ dropTrailingCommas .plain t' = u := by
  rw [dropTrailingCommas, if_neg (fun hc => hcomma hc.1)] at h
  have htail := (List.cons.inj h).2
  rcases hwf.tail hcs with ⟨body, rfl, rfl, rfl⟩ | ⟨hquote, hword⟩
  · rw [if_pos rfl, List.append_assoc] at htail
    obtain ⟨t', rfl, hu⟩ := copiesStrings_dropTrailingCommas.exists_append hwf.enclosed htail
    exact ⟨t', by simp [Token.chars], hu⟩
  · rw [if_neg hquote] at htail
    rw [hcs]
    rcases hword with rfl | ⟨-, hword⟩
    · exact ⟨t, rfl, htail⟩
    · obtain ⟨t', rfl, hu⟩ := exists_word_rest_of_commas hword htail
      exact ⟨t', rfl, hu⟩

/-- A comma in front of a strict text is a token of its own. -/
theorem Laid.exists_of_comma {t : List Char} {toks : List Token} (h : Laid .strict (',' :: t) toks) :
    ∃ toks', toks = .comma :: toks' ∧ Laid .strict t toks' := by
  rcases h.cases_cons with ⟨hspace, -⟩ | ⟨tok, cs, t', toks', rfl, hwf, hcs, rfl, hlaid⟩
  · cases hspace
  · rcases hwf.tail hcs with ⟨_, -, hquote, -⟩ | ⟨-, rfl | ⟨hword, -⟩⟩
    · cases hquote
    · cases tok with
      | comma => exact ⟨toks', rfl, hlaid⟩
      | word cs =>
        obtain ⟨v, hv⟩ := hwf rfl
        have hword := hv.isWordChar.2 ',' (by rw [show cs = [','] from hcs]; exact List.mem_cons_self)
        cases hword
      | _ => cases hcs
    · cases hword

/-- **Back through the comma pass.** If what is left is a strict text, the text before has the same tokens
and trailing commas. -/
theorem Laid.of_dropTrailingCommas {t : List Char} {toks : List Token}
    (h : Laid .strict (Json.dropTrailingCommas .plain t) toks) :
    ∃ toks', Laid .strict t toks' ∧ dropTrailing toks' = toks := by
  induction hn : t.length using Nat.strongRecOn generalizing t toks with
  | ind n ih =>
    cases t with
    | nil => exact ⟨[], .nil, h.eq_nil.symm⟩
    | cons c t =>
      by_cases hcomma : c = ','
      · subst hcomma
        have hlt : t.length < n := hn ▸ Nat.lt_succ_self t.length
        rw [dropTrailingCommas_comma] at h
        cases hcloses : closesNext t with
        | true =>
          rw [hcloses, if_pos rfl] at h
          obtain ⟨toks', hlaid, hdrop⟩ := ih t.length hlt h rfl
          rw [hlaid.closesNext_eq] at hcloses
          exact ⟨.comma :: toks', laid_of_mark .comma rfl rfl hlaid,
            by rw [dropTrailing_comma_of_closes hcloses, hdrop]⟩
        | false =>
          rw [hcloses, if_neg Bool.false_ne_true] at h
          obtain ⟨toks', rfl, hrest⟩ := h.exists_of_comma
          obtain ⟨toks'', hlaid, hdrop⟩ := ih t.length hlt hrest rfl
          rw [hlaid.closesNext_eq] at hcloses
          exact ⟨.comma :: toks'', laid_of_mark .comma rfl rfl hlaid,
            by rw [dropTrailing_comma hcloses, hdrop]⟩
      · obtain ⟨u, hu⟩ : ∃ u, Json.dropTrailingCommas .plain (c :: t) = c :: u := by
          rw [Json.dropTrailingCommas, if_neg (fun hc => hcomma hc.1)]
          exact ⟨_, rfl⟩
        rw [hu] at h
        rcases h.cases_cons with ⟨hspace, hlaid⟩ | ⟨tok, cs, v, toks', rfl, hwf, hcs, rfl, hlaid⟩
        · obtain ⟨-, hquote, -⟩ := ne_of_isSpace hspace
          rw [dropTrailingCommas_outside hquote hcomma] at hu
          rw [← (List.cons.inj hu).2] at hlaid
          obtain ⟨toks', hlaid', hdrop⟩ := ih t.length (hn ▸ Nat.lt_succ_self t.length) hlaid rfl
          exact ⟨toks', .space hspace hlaid', hdrop⟩
        · have hne : tok ≠ .comma := by
            rintro rfl
            exact hcomma (List.cons.inj hcs).1.symm
          obtain ⟨t', ht, rfl⟩ := exists_token_rest_of_commas hwf hcs hcomma hu
          have hlt : t'.length < n := by
            rw [← hn, ht, hcs, List.length_append, List.length_cons]
            omega
          obtain ⟨toks'', hlaid'', hdrop⟩ := ih t'.length hlt hlaid rfl
          exact ⟨tok :: toks'', ht ▸ .token hwf hlaid'', by rw [dropTrailing_cons hne, hdrop]⟩

/-! ### Back through the trailing commas -/

/-- The first token that is left was the first one, or stood behind a trailing comma. -/
theorem exists_of_dropTrailing {toks rest : List Token} {tok : Token}
    (h : dropTrailing toks = tok :: rest) :
    ∃ toks', dropTrailing toks' = rest ∧
      (toks = tok :: toks' ∨ tok.closes = true ∧ toks = .comma :: tok :: toks') := by
  cases toks with
  | nil => cases h
  | cons first toks =>
    by_cases hcomma : first = .comma
    · subst hcomma
      cases hcloses : closesFirst toks with
      | true =>
        cases toks with
        | nil => cases hcloses
        | cons second toks =>
          have hne : second ≠ .comma := by
            rintro rfl
            cases hcloses
          rw [dropTrailing_comma_of_closes hcloses, dropTrailing_cons hne] at h
          obtain ⟨rfl, hrest⟩ := List.cons.inj h
          exact ⟨toks, hrest, .inr ⟨hcloses, rfl⟩⟩
      | false =>
        rw [dropTrailing_comma hcloses] at h
        obtain ⟨rfl, hrest⟩ := List.cons.inj h
        exact ⟨toks, hrest, .inl rfl⟩
    · rw [dropTrailing_cons hcomma] at h
      obtain ⟨rfl, hrest⟩ := List.cons.inj h
      exact ⟨toks, hrest, .inl rfl⟩

theorem exists_of_dropTrailing_open {toks rest : List Token} {tok : Token}
    (h : dropTrailing toks = tok :: rest) (hcloses : tok.closes = false) :
    ∃ toks', dropTrailing toks' = rest ∧ toks = tok :: toks' := by
  obtain ⟨toks', hrest, hfirst | ⟨hfirst, -⟩⟩ := exists_of_dropTrailing h
  · exact ⟨toks', hrest, hfirst⟩
  · rw [hcloses] at hfirst
    cases hfirst

theorem Scalar.closes_eq {tok : Token} {v : Json} (h : Scalar tok v) : tok.closes = false := by
  cases h <;> rfl

/-- **Neighbours** in a text without lone commas: no comma follows an opening bracket. -/
def NoLoneComma (toks : List Token) : Prop :=
  toks.IsChain fun a b => a.opens = true → b ≠ .comma

theorem NoLoneComma.tail {tok : Token} {toks : List Token} (h : NoLoneComma (tok :: toks)) :
    NoLoneComma toks :=
  List.IsChain.of_cons h

/-- An array or an object that is empty without its trailing commas is empty. -/
theorem exists_of_dropTrailing_empty {toks rest : List Token} {tok tok' : Token}
    (h : dropTrailing toks = tok :: tok' :: rest) (hopens : tok.opens = true)
    (hlone : NoLoneComma toks) :
    ∃ toks', dropTrailing toks' = rest ∧ toks = tok :: tok' :: toks' := by
  have hopen : tok.closes = false := by
    cases tok <;> first | rfl | cases hopens
  obtain ⟨toks, hrest, rfl⟩ := exists_of_dropTrailing_open h hopen
  obtain ⟨toks', hrest', rfl | ⟨-, rfl⟩⟩ := exists_of_dropTrailing hrest
  · exact ⟨toks', hrest', rfl⟩
  · exact absurd rfl ((List.isChain_cons_cons.1 hlone).1 hopens)

/-- **Back through the trailing commas.** A phrase that is strict without its trailing commas is a relaxed
one with them, unless one of them is lone. -/
theorem Denotes.of_dropTrailing {toks' after' : List Token} {φ : Phrase}
    (h : Denotes .strict toks' φ after') {toks : List Token} (htoks : Json.dropTrailing toks = toks')
    (hlone : NoLoneComma toks) :
    ∃ after, Json.dropTrailing after = after' ∧ NoLoneComma after ∧ Denotes .relaxed toks φ after := by
  induction h generalizing toks with
  | scalar hv =>
    obtain ⟨after, hafter, rfl⟩ := exists_of_dropTrailing_open htoks hv.closes_eq
    exact ⟨after, hafter, hlone.tail, .scalar hv⟩
  | emptyArray =>
    obtain ⟨after, hafter, rfl⟩ := exists_of_dropTrailing_empty htoks rfl hlone
    exact ⟨after, hafter, hlone.tail.tail, .emptyArray⟩
  | array _ ih =>
    obtain ⟨toks, hitems, rfl⟩ := exists_of_dropTrailing_open htoks rfl
    obtain ⟨after, hafter, hlone', hrest⟩ := ih hitems hlone.tail
    exact ⟨after, hafter, hlone', .array hrest⟩
  | emptyObject =>
    obtain ⟨after, hafter, rfl⟩ := exists_of_dropTrailing_empty htoks rfl hlone
    exact ⟨after, hafter, hlone.tail.tail, .emptyObject⟩
  | object _ ih =>
    obtain ⟨toks, hfields, rfl⟩ := exists_of_dropTrailing_open htoks rfl
    obtain ⟨after, hafter, hlone', hrest⟩ := ih hfields hlone.tail
    exact ⟨after, hafter, hlone', .object hrest⟩
  | lastItem _ ih =>
    obtain ⟨rest, hrest, hlone', hv⟩ := ih htoks hlone
    obtain ⟨after, hafter, rfl | ⟨-, rfl⟩⟩ := exists_of_dropTrailing hrest
    · exact ⟨after, hafter, hlone'.tail, .lastItem hv⟩
    · exact ⟨after, hafter, hlone'.tail.tail, .trailingItem rfl hv⟩
  | trailingItem hd => cases hd
  | moreItems _ _ ihv ihvs =>
    obtain ⟨rest, hrest, hlone', hv⟩ := ihv htoks hlone
    obtain ⟨items, hitems, rfl⟩ := exists_of_dropTrailing_open hrest rfl
    obtain ⟨after, hafter, hlone'', hvs⟩ := ihvs hitems hlone'.tail
    exact ⟨after, hafter, hlone'', .moreItems hv hvs⟩
  | lastField hname _ ih =>
    obtain ⟨toks, hcolon, rfl⟩ := exists_of_dropTrailing_open htoks hname.closes_eq
    obtain ⟨toks, hvalue, rfl⟩ := exists_of_dropTrailing_open hcolon rfl
    obtain ⟨rest, hrest, hlone', hv⟩ := ih hvalue hlone.tail.tail
    obtain ⟨after, hafter, rfl | ⟨-, rfl⟩⟩ := exists_of_dropTrailing hrest
    · exact ⟨after, hafter, hlone'.tail, .lastField hname hv⟩
    · exact ⟨after, hafter, hlone'.tail.tail, .trailingField rfl hname hv⟩
  | trailingField hd => cases hd
  | moreFields hname _ _ ihv ihfs =>
    obtain ⟨toks, hcolon, rfl⟩ := exists_of_dropTrailing_open htoks hname.closes_eq
    obtain ⟨toks, hvalue, rfl⟩ := exists_of_dropTrailing_open hcolon rfl
    obtain ⟨rest, hrest, hlone', hv⟩ := ihv hvalue hlone.tail.tail
    obtain ⟨fields, hfields, rfl⟩ := exists_of_dropTrailing_open hrest rfl
    obtain ⟨after, hafter, hlone'', hfs⟩ := ihfs hfields hlone'.tail
    exact ⟨after, hafter, hlone'', .moreFields hname hv hfs⟩

theorem eq_nil_of_dropTrailing {toks : List Token} (h : dropTrailing toks = []) : toks = [] := by
  fun_induction dropTrailing toks with
  | case1 => rfl
  | case2 toks hcloses ih =>
    rw [ih h] at hcloses
    cases hcloses
  | case3 => cases h
  | case4 => cases h

end PropDocs.Json
