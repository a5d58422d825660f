import Mathlib.Data.List.Infix
import PropDocs.Json.Comments
import PropDocs.Proofs.JsonGrammar

/-!
# Stripping comments and trailing commas

A text of the relaxed dialect, stripped of its comments and trailing commas, is a strict text with the
same value.  Neither pass knows the grammar: each looks at characters and keeps track of strings.  The
theory says, for each pass, what it does to the layout of a text.

* `outline`: what the comment pass takes every part of a text for.  The pass keeps the characters outside
  of comments (`dropComments_eq_flatMap`), so that facts about it are facts about outlines;
* `Laid.dropComments`: the comment pass keeps the tokens and leaves blanks in the gaps;
* `Laid.dropTrailingCommas`: the comma pass drops those commas that stand in front of a closing token
  (`dropTrailing`), since the next character that is no blank tells what the next token is;
* `Denotes.dropTrailing`: without its trailing commas a phrase denotes the same;
* `plainText_keeps_meaning`: the three together, for a whole text.
-/

namespace PropDocs.Json

open Text

/-! ### What stands where in a text -/

/-- **Piece** of a text, as the comment pass sees it: a character outside of strings and comments, a
character of a string, a comment, or a block comment that is never closed. -/
inductive Piece where
  | outside (c : Char)
  | quoted (c : Char)
  | lineComment
  | blockComment
  | openComment
  deriving DecidableEq, Repr

/-- What the comment pass keeps of a piece. -/
def Piece.kept : Piece → List Char
  | .outside c | .quoted c => [c]
  | _ => []

/-- **Outline.** The pieces of a text.  The line feed behind a line comment stands outside of it. -/
def outline : CommentMode → List Char → List Piece
  | .blockComment _, [] => [.openComment]
  | _, [] => []
  | .plain, '/' :: '/' :: cs => .lineComment :: outline .lineComment cs
  | .plain, '/' :: '*' :: cs => outline (.blockComment false) cs
  | .plain, c :: cs =>
    if c = '"' then .quoted c :: outline .inString cs else .outside c :: outline .plain cs
  | .inString, c :: cs =>
    .quoted c :: outline (if c = '\\' then .escaped else if c = '"' then .plain else .inString) cs
  | .escaped, c :: cs => .quoted c :: outline .inString cs
  | .lineComment, c :: cs =>
    if c = '\n' then .outside c :: outline .plain cs else outline .lineComment cs
  | .blockComment afterStar, c :: cs =>
    if afterStar && c == '/' then .blockComment :: outline .plain cs
    else outline (.blockComment (c == '*')) cs

theorem dropComments_eq_flatMap (mode : CommentMode) (t : List Char) :
    dropComments mode t = (outline mode t).flatMap Piece.kept := by
  fun_induction outline mode t <;> simp_all [dropComments, Piece.kept]

/-! ### The pieces of a text, from its front -/

theorem outline_inString_cons (c : Char) (t : List Char) : outline .inString (c :: t) =
    .quoted c :: outline (if c = '\\' then .escaped else if c = '"' then .plain else .inString) t :=
  rfl

theorem outline_escaped_cons (c : Char) (t : List Char) :
    outline .escaped (c :: t) = .quoted c :: outline .inString t :=
  rfl

theorem outline_lineComment_cons (c : Char) (t : List Char) : outline .lineComment (c :: t) =
    if c = '\n' then .outside c :: outline .plain t else outline .lineComment t :=
  rfl

theorem outline_blockComment_cons (afterStar : Bool) (c : Char) (t : List Char) :
    outline (.blockComment afterStar) (c :: t) =
      if afterStar && c == '/' then .blockComment :: outline .plain t
      else outline (.blockComment (c == '*')) t :=
  rfl

theorem outline_quote (t : List Char) :
    outline .plain ('"' :: t) = .quoted '"' :: outline .inString t :=
  rfl

theorem outline_plain {c : Char} {t : List Char} (hline : ∀ cs, c :: t ≠ '/' :: '/' :: cs)
    (hblock : ∀ cs, c :: t ≠ '/' :: '*' :: cs) (hquote : c ≠ '"') :
    outline .plain (c :: t) = .outside c :: outline .plain t := by
  rw [outline, if_neg hquote]
  · rintro cs rfl rfl
    exact hline cs rfl
  · rintro cs rfl rfl
    exact hblock cs rfl

theorem outline_outside {c : Char} (hslash : c ≠ '/') (hquote : c ≠ '"') (t : List Char) :
    outline .plain (c :: t) = .outside c :: outline .plain t :=
  outline_plain (fun _ h => hslash (List.cons.inj h).1) (fun _ h => hslash (List.cons.inj h).1) hquote

/-- A slash that starts no comment. -/
theorem outline_slash {t : List Char} (hline : ∀ cs, t ≠ '/' :: cs) (hblock : ∀ cs, t ≠ '*' :: cs) :
    outline .plain ('/' :: t) = .outside '/' :: outline .plain t :=
  outline_plain (fun cs h => hline cs (List.cons.inj h).2) (fun cs h => hblock cs (List.cons.inj h).2)
    (by decide)

theorem outline_lineComment {body : List Char} (h : '\n' ∉ body) (t : List Char) :
    outline .lineComment (body ++ '\n' :: t) = .outside '\n' :: outline .plain t := by
  induction body with
  | nil => rfl
  | cons c body ih =>
    obtain ⟨hc, hbody⟩ := List.ne_and_not_mem_of_not_mem_cons h
    rw [List.cons_append, outline_lineComment_cons, if_neg (Ne.symm hc), ih hbody]

theorem outline_lastComment {body : List Char} (h : '\n' ∉ body) :
    outline .lineComment body = [] := by
  induction body with
  | nil => rfl
  | cons c body ih =>
    obtain ⟨hc, hbody⟩ := List.ne_and_not_mem_of_not_mem_cons h
    rw [outline_lineComment_cons, if_neg (Ne.symm hc), ih hbody]

/-- **Inside a block comment** nothing ends it: neither does the text hold the end of a comment, nor does
a star in front of the text make one with its first character. -/
def Unclosed (afterStar : Bool) (body : List Char) : Prop :=
  ¬ ['*', '/'] <:+: (if afterStar then '*' :: body else body)

theorem Unclosed.tail {afterStar : Bool} {c : Char} {body : List Char}
    (h : Unclosed afterStar (c :: body)) :
    (afterStar && c == '/') = false ∧ Unclosed (c == '*') body := by
  constructor
  · cases afterStar with
    | false => rfl
    | true =>
      rw [Bool.true_and, beq_eq_false_iff_ne]
      rintro rfl
      exact h ⟨[], body, rfl⟩
  · have hsuffix : c :: body <:+ (if afterStar then '*' :: c :: body else c :: body) := by
      cases afterStar with
      | false => exact List.suffix_rfl
      | true => exact List.suffix_cons '*' _
    intro hwithin
    refine h (hwithin.trans (List.IsSuffix.isInfix (.trans ?_ hsuffix)))
    by_cases hc : c = '*'
    · rw [hc]
      exact List.suffix_rfl
    · rw [if_neg (by simpa using hc)]
      exact List.suffix_cons c body

theorem outline_blockComment {afterStar : Bool} {body : List Char} (h : Unclosed afterStar body)
    (t : List Char) :
    outline (.blockComment afterStar) (body ++ '*' :: '/' :: t) =
      .blockComment :: outline .plain t := by
  induction body generalizing afterStar with
  | nil =>
    rw [List.nil_append, outline_blockComment_cons, if_neg (by simp)]
    rfl
  | cons c body ih =>
    rw [List.cons_append, outline_blockComment_cons, h.tail.1, if_neg Bool.false_ne_true,
      ih h.tail.2]

theorem outline_openComment {afterStar : Bool} {body : List Char} (h : Unclosed afterStar body) :
    outline (.blockComment afterStar) body = [.openComment] := by
  induction body generalizing afterStar with
  | nil => rfl
  | cons c body ih =>
    rw [outline_blockComment_cons, h.tail.1, if_neg Bool.false_ne_true, ih h.tail.2]

theorem outline_line {body : List Char} (h : '\n' ∉ body) (t : List Char) :
    outline .plain ('/' :: '/' :: (body ++ '\n' :: t)) =
      .lineComment :: .outside '\n' :: outline .plain t := by
  rw [← outline_lineComment h]
  rfl

theorem outline_last {body : List Char} (h : '\n' ∉ body) :
    outline .plain ('/' :: '/' :: body) = [.lineComment] := by
  rw [← outline_lastComment h]
  rfl

theorem outline_block {body : List Char} (h : Unclosed false body) (t : List Char) :
    outline .plain ('/' :: '*' :: (body ++ '*' :: '/' :: t)) =
      .blockComment :: outline .plain t := by
  rw [← outline_blockComment h]
  rfl

theorem outline_openBlock {body : List Char} (h : Unclosed false body) :
    outline .plain ('/' :: '*' :: body) = [.openComment] := by
  rw [← outline_openComment h]
  rfl

/-- **Between the quotes** of a string: every quote stands behind a backslash, and a backslash is never
the last character. -/
inductive Enclosed : List Char → Prop
  | nil : Enclosed []
  | plain {c : Char} {body : List Char} : c ≠ '"' → c ≠ '\\' → Enclosed body → Enclosed (c :: body)
  | escape (e : Char) {body : List Char} : Enclosed body → Enclosed ('\\' :: e :: body)

theorem ne_of_digitValue? {c : Char} {n : Nat} (h : Decimal.digitValue? c = some n) :
    c ≠ '"' ∧ c ≠ '\\' := by
  constructor
  · rintro rfl
    cases h
  · rintro rfl
    cases h

theorem Spells.enclosed {body : List Char} {units : List Nat} (h : Spells body units) :
    Enclosed body := by
  induction h with
  | nil => exact .nil
  | plain hquote hslash _ _ ih => exact .plain hquote hslash ih
  | escape _ _ ih => exact .escape _ ih
  | code hunit _ ih =>
    simp only [hexUnit?, Option.bind_eq_bind, Option.bind_eq_some_iff] at hunit
    obtain ⟨_, ha, _, hb, _, hc, _, hd, -⟩ := hunit
    apply Enclosed.escape
    apply Enclosed.plain (ne_of_digitValue? ha).1 (ne_of_digitValue? ha).2
    apply Enclosed.plain (ne_of_digitValue? hb).1 (ne_of_digitValue? hb).2
    apply Enclosed.plain (ne_of_digitValue? hc).1 (ne_of_digitValue? hc).2
    exact Enclosed.plain (ne_of_digitValue? hd).1 (ne_of_digitValue? hd).2 ih

theorem outline_inString {body : List Char} (h : Enclosed body) (t : List Char) :
    outline .inString (body ++ '"' :: t) = (body ++ ['"']).map .quoted ++ outline .plain t := by
  induction h with
  | nil => rfl
  | plain hquote hslash _ ih =>
    rw [List.cons_append, outline_inString_cons, if_neg hslash, if_neg hquote, ih]
    rfl
  | escape e _ ih =>
    rw [List.cons_append, List.cons_append, outline_inString_cons, if_pos rfl, outline_escaped_cons, ih]
    rfl

/-- **Strings are copied** by a pass, given by what it does outside of strings, inside and behind a
backslash. -/
structure CopiesStrings (plain inString escaped : List Char → List Char) : Prop where
  inString_nil : inString [] = []
  escaped_nil : escaped [] = []
  inString_cons (c : Char) (t : List Char) : inString (c :: t) =
    c :: (if c = '\\' then escaped t else if c = '"' then plain t else inString t)
  escaped_cons (c : Char) (t : List Char) : escaped (c :: t) = c :: inString t

theorem copiesStrings_dropComments :
    CopiesStrings (dropComments .plain) (dropComments .inString) (dropComments .escaped) where
  inString_nil := rfl
  escaped_nil := rfl
  inString_cons c t := by
    rw [dropComments]
    split_ifs <;> rfl
  escaped_cons c t := by rw [dropComments]

theorem copiesStrings_dropTrailingCommas :
    CopiesStrings (dropTrailingCommas .plain) (dropTrailingCommas .inString)
      (dropTrailingCommas .escaped) where
  inString_nil := rfl
  escaped_nil := rfl
  inString_cons c t := by
    rw [dropTrailingCommas]
    split_ifs <;> rfl
  escaped_cons c t := rfl

namespace CopiesStrings

variable {plain inString escaped : List Char → List Char}

theorem append (h : CopiesStrings plain inString escaped) {body : List Char} (hbody : Enclosed body)
    (t : List Char) : inString (body ++ '"' :: t) = body ++ '"' :: plain t := by
  induction hbody with
  | nil => rw [List.nil_append, h.inString_cons, if_neg (by decide), if_pos rfl, List.nil_append]
  | plain hquote hslash _ ih =>
    rw [List.cons_append, h.inString_cons, if_neg hslash, if_neg hquote, ih, List.cons_append]
  | escape e _ ih =>
    rw [List.cons_append, List.cons_append, h.inString_cons, if_pos rfl, h.escaped_cons, ih]
    rfl

/-- A string that a pass wrote was there before. -/
theorem exists_append (h : CopiesStrings plain inString escaped) {body : List Char}
    (hbody : Enclosed body) {t u : List Char} (ht : inString t = body ++ '"' :: u) :
    ∃ t', t = body ++ '"' :: t' ∧ plain t' = u := by
  induction hbody generalizing t with
  | nil =>
    cases t with
    | nil => rw [h.inString_nil] at ht; cases ht
    | cons c t =>
      rw [h.inString_cons] at ht
      obtain ⟨rfl, hrest⟩ := List.cons.inj ht
      exact ⟨t, rfl, hrest⟩
  | plain hquote hslash _ ih =>
    cases t with
    | nil => rw [h.inString_nil] at ht; cases ht
    | cons c t =>
      rw [h.inString_cons] at ht
      obtain ⟨rfl, hrest⟩ := List.cons.inj ht
      rw [if_neg hslash, if_neg hquote] at hrest
      obtain ⟨t', rfl, ht'⟩ := ih hrest
      exact ⟨t', rfl, ht'⟩
  | escape e _ ih =>
    cases t with
    | nil => rw [h.inString_nil] at ht; cases ht
    | cons c t =>
      rw [h.inString_cons] at ht
      obtain ⟨rfl, hescaped⟩ := List.cons.inj ht
      rw [if_pos rfl] at hescaped
      cases t with
      | nil => rw [h.escaped_nil] at hescaped; cases hescaped
      | cons d t =>
        rw [h.escaped_cons] at hescaped
        obtain ⟨rfl, hrest⟩ := List.cons.inj hescaped
        obtain ⟨t', rfl, ht'⟩ := ih hrest
        exact ⟨t', rfl, ht'⟩

end CopiesStrings

/-! ### Tokens and their pieces -/

namespace Token

/-- The pieces of a token: those of a string are quoted. -/
def pieces : Token → List Piece
  | .string body => ('"' :: (body ++ ['"'])).map .quoted
  | tok => tok.chars.map .outside

/-- The characters of marks and bare words start no comment, no string and no blank. -/
theorem WellFormed.forall_mem_chars {tok : Token} (h : tok.WellFormed)
    (hstring : ∀ body, tok ≠ .string body) :
    ∀ c ∈ tok.chars, c ≠ '/' ∧ c ≠ '"' ∧ (tok ≠ .comma → c ≠ ',') := by
  cases tok with
  | string body => exact absurd rfl (hstring body)
  | word cs =>
    obtain ⟨v, hv⟩ := h rfl
    intro c hc
    have hword := hv.isWordChar.2 c hc
    refine ⟨?_, ?_, fun _ => ?_⟩
    · rintro rfl
      cases hword
    · rintro rfl
      cases hword
    · rintro rfl
      cases hword
  | _ =>
    intro c hc
    rw [List.mem_singleton.1 hc]
    decide

theorem WellFormed.enclosed {body : List Char} (h : (Token.string body).WellFormed) :
    Enclosed body := by
  obtain ⟨v, hv⟩ := h rfl
  cases hv with
  | string hspells => exact hspells.enclosed

end Token

theorem outline_append_of_outside {cs : List Char} (h : ∀ c ∈ cs, c ≠ '/' ∧ c ≠ '"')
    (t : List Char) : outline .plain (cs ++ t) = cs.map .outside ++ outline .plain t := by
  induction cs with
  | nil => rfl
  | cons c cs ih =>
    obtain ⟨hc, hcs⟩ := List.forall_mem_cons.1 h
    rw [List.cons_append, outline_outside hc.1 hc.2, ih hcs]
    rfl

/-- **Tokens are copied.** -/
theorem outline_token {tok : Token} (h : tok.WellFormed) (t : List Char) :
    outline .plain (tok.chars ++ t) = tok.pieces ++ outline .plain t := by
  cases tok with
  | string body =>
    show outline .plain ('"' :: (body ++ ['"'] ++ t)) = _
    rw [List.append_assoc, outline_quote, List.singleton_append, outline_inString h.enclosed]
    rfl
  | _ =>
    refine outline_append_of_outside (fun c hc => ?_) t
    obtain ⟨hslash, hquote, -⟩ := h.forall_mem_chars (by rintro body ⟨⟩) c hc
    exact ⟨hslash, hquote⟩

theorem flatMap_kept_pieces (tok : Token) : tok.pieces.flatMap Piece.kept = tok.chars := by
  have houtside : ∀ cs : List Char, (cs.map Piece.outside).flatMap Piece.kept = cs := by
    intro cs
    simp [List.flatMap_map, Piece.kept]
  cases tok with
  | string body => simp [Token.pieces, Token.chars, List.flatMap_map, Piece.kept]
  | _ => exact houtside _

theorem dropComments_token {tok : Token} (h : tok.WellFormed) (t : List Char) :
    dropComments .plain (tok.chars ++ t) = tok.chars ++ dropComments .plain t := by
  rw [dropComments_eq_flatMap, outline_token h, List.flatMap_append, flatMap_kept_pieces,
    ← dropComments_eq_flatMap]

/-! ### The comment pass -/

theorem ne_of_isSpace {c : Char} (h : isSpace c = true) : c ≠ '/' ∧ c ≠ '"' ∧ c ≠ ',' := by
  refine ⟨?_, ?_, ?_⟩
  · rintro rfl
    cases h
  · rintro rfl
    cases h
  · rintro rfl
    cases h

/-- **The comment pass** leaves a text of the same tokens without comments. -/
theorem Laid.dropComments {t : List Char} {toks : List Token} (h : Laid .relaxed t toks) :
    Laid .strict (dropComments .plain t) toks := by
  induction h with
  | nil => exact .nil
  | space hc _ ih =>
    obtain ⟨hslash, hquote, -⟩ := ne_of_isSpace hc
    rw [dropComments_eq_flatMap, outline_outside hslash hquote]
    rw [dropComments_eq_flatMap] at ih
    exact .space hc ih
  | lineComment _ hbody _ ih =>
    rw [dropComments_eq_flatMap, outline_line hbody]
    rw [dropComments_eq_flatMap] at ih
    exact .space rfl ih
  | lastComment _ hbody =>
    rw [dropComments_eq_flatMap, outline_last hbody]
    exact .nil
  | blockComment _ hbody _ ih =>
    have hunclosed : Unclosed false _ := hbody
    rw [dropComments_eq_flatMap, outline_block hunclosed]
    rw [dropComments_eq_flatMap] at ih
    exact ih
  | token hwf _ ih =>
    rw [dropComments_token hwf]
    exact .token hwf ih

/-- A strict text has no comments to drop. -/
theorem Laid.dropComments_eq {t : List Char} {toks : List Token} (h : Laid .strict t toks) :
    Json.dropComments .plain t = t := by
  induction h with
  | nil => rfl
  | space hc _ ih =>
    obtain ⟨hslash, hquote, -⟩ := ne_of_isSpace hc
    rw [dropComments_eq_flatMap, outline_outside hslash hquote, List.flatMap_cons,
      ← dropComments_eq_flatMap, ih]
    rfl
  | lineComment hd => cases hd
  | lastComment hd => cases hd
  | blockComment hd => cases hd
  | token hwf _ ih => rw [dropComments_token hwf, ih]

/-! ### The comma pass -/

theorem dropTrailingCommas_outside {c : Char} (hquote : c ≠ '"') (hcomma : c ≠ ',') (t : List Char) :
    dropTrailingCommas .plain (c :: t) = c :: dropTrailingCommas .plain t := by
  rw [dropTrailingCommas, if_neg (fun h => hcomma h.1), if_neg hquote]

theorem dropTrailingCommas_comma (t : List Char) :
    dropTrailingCommas .plain (',' :: t) =
      if closesNext t then dropTrailingCommas .plain t
      else ',' :: dropTrailingCommas .plain t := by
  rw [dropTrailingCommas]
  simp

theorem dropTrailingCommas_append {cs : List Char} (h : ∀ c ∈ cs, c ≠ '"' ∧ c ≠ ',')
    (t : List Char) :
    dropTrailingCommas .plain (cs ++ t) = cs ++ dropTrailingCommas .plain t := by
  induction cs with
  | nil => rfl
  | cons c cs ih =>
    obtain ⟨hc, hcs⟩ := List.forall_mem_cons.1 h
    rw [List.cons_append, dropTrailingCommas_outside hc.1 hc.2, ih hcs]
    rfl

theorem dropTrailingCommas_token {tok : Token} (h : tok.WellFormed) (hcomma : tok ≠ .comma)
    (t : List Char) :
    dropTrailingCommas .plain (tok.chars ++ t) = tok.chars ++ dropTrailingCommas .plain t := by
  cases tok with
  | comma => exact absurd rfl hcomma
  | string body =>
    show dropTrailingCommas .plain ('"' :: (body ++ ['"'] ++ t)) = _
    rw [List.append_assoc, dropTrailingCommas, if_neg (by simp), if_pos rfl, List.singleton_append,
      copiesStrings_dropTrailingCommas.append h.enclosed]
    simp [Token.chars]
  | _ =>
    refine dropTrailingCommas_append (fun c hc => ?_) t
    obtain ⟨-, hquote, hc'⟩ := h.forall_mem_chars (by rintro body ⟨⟩) c hc
    exact ⟨hquote, hc' hcomma⟩

/-- The first token closes an array or an object. -/
def closesFirst : List Token → Bool
  | [] => false
  | tok :: _ => tok.closes

/-- **Trailing commas** of a list of tokens are those in front of a closing bracket. -/
def dropTrailing : List Token → List Token
  | [] => []
  | .comma :: toks =>
    if closesFirst toks then dropTrailing toks else .comma :: dropTrailing toks
  | tok :: toks => tok :: dropTrailing toks

theorem dropTrailing_cons {tok : Token} (h : tok ≠ .comma) (toks : List Token) :
    dropTrailing (tok :: toks) = tok :: dropTrailing toks := by
  rw [dropTrailing]
  exact h

theorem dropTrailing_comma_of_closes {toks : List Token} (h : closesFirst toks = true) :
    dropTrailing (.comma :: toks) = dropTrailing toks := by
  rw [dropTrailing, if_pos h]

theorem dropTrailing_comma {toks : List Token} (h : closesFirst toks = false) :
    dropTrailing (.comma :: toks) = .comma :: dropTrailing toks := by
  rw [dropTrailing, h, if_neg Bool.false_ne_true]

/-- What the comma pass looks at is the next token. -/
theorem Laid.closesNext_eq {t : List Char} {toks : List Token} (h : Laid .strict t toks) :
    closesNext t = closesFirst toks := by
  induction h with
  | nil => rfl
  | space hc _ ih =>
    rw [closesNext, trimStart, List.dropWhile_cons_of_pos (isBlank_of_isSpace hc)]
    exact ih
  | lineComment hd => cases hd
  | lastComment hd => cases hd
  | blockComment hd => cases hd
  | @token tok t toks hwf =>
    obtain ⟨c, cs, hcs, hblank, hcloses⟩ := hwf.exists_cons
    rw [closesNext, trimStart, hcs, List.cons_append, List.dropWhile_cons_of_neg (by simp [hblank])]
    show _ = tok.closes
    rw [Bool.eq_iff_iff, hcloses]
    split
    · next h =>
      simp [(List.cons.inj h).1]
    · next h => simp [(List.cons.inj h).1]
    · next h1 h2 =>
      simp only [Bool.false_eq_true, false_iff]
      rintro (rfl | rfl)
      · exact h2 _ rfl
      · exact h1 _ rfl

/-- **The comma pass** drops the trailing commas of a text without comments. -/
theorem Laid.dropTrailingCommas {t : List Char} {toks : List Token} (h : Laid .strict t toks) :
    Laid .strict (dropTrailingCommas .plain t) (dropTrailing toks) := by
  induction h with
  | nil => exact .nil
  | space hc _ ih =>
    obtain ⟨-, hquote, hcomma⟩ := ne_of_isSpace hc
    rw [dropTrailingCommas_outside hquote hcomma]
    exact .space hc ih
  | lineComment hd => cases hd
  | lastComment hd => cases hd
  | blockComment hd => cases hd
  | @token tok t toks hwf hlaid ih =>
    by_cases hcomma : tok = .comma
    · subst hcomma
      show Laid .strict (Json.dropTrailingCommas .plain (',' :: t)) _
      rw [dropTrailingCommas_comma, hlaid.closesNext_eq]
      cases hcloses : closesFirst toks with
      | true =>
        rw [if_pos rfl, dropTrailing_comma_of_closes hcloses]
        exact ih
      | false =>
        rw [if_neg Bool.false_ne_true, dropTrailing_comma hcloses]
        exact .token hwf ih
    · rw [dropTrailingCommas_token hwf hcomma, dropTrailing_cons hcomma]
      exact .token hwf ih

/-- A text without trailing commas has none to drop. -/
theorem Laid.dropTrailingCommas_eq {t : List Char} {toks : List Token} (h : Laid .strict t toks)
    (hnone : dropTrailing toks = toks) : Json.dropTrailingCommas .plain t = t := by
  induction h with
  | nil => rfl
  | space hc _ ih =>
    obtain ⟨-, hquote, hcomma⟩ := ne_of_isSpace hc
    rw [dropTrailingCommas_outside hquote hcomma, ih hnone]
  | lineComment hd => cases hd
  | lastComment hd => cases hd
  | blockComment hd => cases hd
  | @token tok t toks hwf hlaid ih =>
    by_cases hcomma : tok = .comma
    · subst hcomma
      cases hcloses : closesFirst toks with
      | true =>
        cases toks with
        | nil => cases hcloses
        | cons tok toks =>
          have hne : tok ≠ .comma := by
            rintro rfl
            cases hcloses
          rw [dropTrailing_comma_of_closes hcloses, dropTrailing_cons hne] at hnone
          exact absurd (List.cons.inj hnone).1 hne
      | false =>
        rw [dropTrailing_comma hcloses] at hnone
        show Json.dropTrailingCommas .plain (',' :: t) = ',' :: t
        rw [dropTrailingCommas_comma, hlaid.closesNext_eq, hcloses, if_neg Bool.false_ne_true,
          ih (List.cons.inj hnone).2]
    · rw [dropTrailing_cons hcomma] at hnone
      rw [dropTrailingCommas_token hwf hcomma, ih (List.cons.inj hnone).2]

/-! ### Values -/

theorem Scalar.isScalar {tok : Token} {v : Json} (h : Scalar tok v) : tok.isScalar = true := by
  cases h <;> rfl

theorem Scalar.ne_comma {tok : Token} {v : Json} (h : Scalar tok v) : tok ≠ .comma := by
  rintro rfl
  cases h

theorem Denotes.closesFirst_eq {d : Dialect} {toks after : List Token} {φ : Phrase}
    (h : Denotes d toks φ after) : closesFirst toks = false := by
  obtain ⟨tok, toks', rfl, hcloses, -⟩ := h.exists_cons
  exact hcloses

/-- **Values are kept.** Without its trailing commas a phrase is strict and denotes the same. -/
theorem Denotes.dropTrailing {toks after : List Token} {φ : Phrase}
    (h : Denotes .relaxed toks φ after) :
    Denotes .strict (dropTrailing toks) φ (dropTrailing after) := by
  induction h with
  | scalar hv =>
    rw [dropTrailing_cons hv.ne_comma]
    exact .scalar hv
  | emptyArray => exact .emptyArray
  | array _ ih => exact .array ih
  | emptyObject => exact .emptyObject
  | object _ ih => exact .object ih
  | lastItem _ ih => exact .lastItem ih
  | trailingItem _ _ ih => exact .lastItem ih
  | moreItems _ hvs ihv ihvs =>
    rw [dropTrailing_comma hvs.closesFirst_eq] at ihv
    exact .moreItems ihv ihvs
  | lastField hname _ ih =>
    rw [dropTrailing_cons hname.ne_comma]
    exact .lastField hname ih
  | trailingField _ hname _ ih =>
    rw [dropTrailing_cons hname.ne_comma]
    exact .lastField hname ih
  | moreFields hname _ hfs ihv ihfs =>
    rw [dropTrailing_comma hfs.closesFirst_eq] at ihv
    rw [dropTrailing_cons hname.ne_comma]
    exact .moreFields hname ihv ihfs

/-- A strict phrase has no trailing commas. -/
theorem Denotes.dropTrailing_eq {toks after : List Token} {φ : Phrase}
    (h : Denotes .strict toks φ after) (hafter : Json.dropTrailing after = after) :
    Json.dropTrailing toks = toks := by
  induction h with
  | scalar hv => rw [dropTrailing_cons hv.ne_comma, hafter]
  | emptyArray => rw [dropTrailing_cons (by decide), dropTrailing_cons (by decide), hafter]
  | array _ ih => rw [dropTrailing_cons (by decide), ih hafter]
  | emptyObject => rw [dropTrailing_cons (by decide), dropTrailing_cons (by decide), hafter]
  | object _ ih => rw [dropTrailing_cons (by decide), ih hafter]
  | lastItem _ ih => exact ih (congrArg _ hafter)
  | trailingItem hd => cases hd
  | moreItems _ hvs ihv ihvs =>
    exact ihv (by rw [dropTrailing_comma hvs.closesFirst_eq, ihvs hafter])
  | lastField hname _ ih =>
    rw [dropTrailing_cons hname.ne_comma, dropTrailing_cons (by decide), ih (congrArg _ hafter)]
  | trailingField hd => cases hd
  | moreFields hname _ hfs ihv ihfs =>
    rw [dropTrailing_cons hname.ne_comma, dropTrailing_cons (by decide),
      ihv (by rw [dropTrailing_comma hfs.closesFirst_eq, ihfs hafter])]

/-- Trailing commas are no strings. -/
theorem filterMap_literal?_dropTrailing (toks : List Token) :
    (dropTrailing toks).filterMap Token.literal? = toks.filterMap Token.literal? := by
  fun_induction dropTrailing toks with
  | case1 => rfl
  | case2 toks hcloses ih =>
    rw [ih]
    rfl
  | case3 toks hcloses ih => exact ih
  | case4 tok toks hcomma ih => rw [List.filterMap_cons, List.filterMap_cons, ih]

/-! ### Whole texts -/

theorem toList_plainText (text : String) :
    (plainText text).toList = dropTrailingCommas .plain (dropComments .plain text.toList) :=
  String.toList_ofList

/-- **Stripping** a text with comments and trailing commas leaves a strict text of the same tokens but for
the trailing commas, with the same value. -/
theorem Reads.plainText {text : String} {toks : List Token} {v : Json}
    (h : Reads .relaxed text toks v) : Reads .strict (plainText text) (dropTrailing toks) v := by
  obtain ⟨hlaid, hdenotes⟩ := h
  refine ⟨?_, hdenotes.dropTrailing⟩
  rw [toList_plainText]
  exact hlaid.dropComments.dropTrailingCommas

/-- **Meaning of a text with comments.** Stripped, it is a strict text that denotes the same value and has
the same strings, character for character, and the reader reads that value.  A strict text is not
changed. -/
theorem plainText_keeps_meaning (text : String) :
    (∀ toks v, Reads .relaxed text toks v →
      (∃ toks', Reads .strict (plainText text) toks' v ∧
        toks'.filterMap Token.literal? = toks.filterMap Token.literal?) ∧
      read? (plainText text) = some v) ∧
    ∀ v, IsDocument .strict text v → plainText text = text := by
  constructor
  · intro toks v h
    exact ⟨⟨_, h.plainText, filterMap_literal?_dropTrailing toks⟩,
      read?_eq_some_iff.2 ⟨_, h.plainText⟩⟩
  · rintro v ⟨toks, hlaid, hdenotes⟩
    have hcomments : dropComments .plain text.toList = text.toList := hlaid.dropComments_eq
    have hcommas : dropTrailingCommas .plain text.toList = text.toList :=
      hlaid.dropTrailingCommas_eq (hdenotes.dropTrailing_eq rfl)
    rw [plainText, hcomments, hcommas, String.ofList_toList]

/-- **A list of addresses** with a comment between the last comma and the bracket. -/
def addresses : String := "[\"a//b\", 1,/* , */]"

/-- The tokens of the list. -/
def addressTokens : List Token :=
  [.openArray, .string "a//b".toList, .comma, .word ['1'], .comma, .closeArray]

theorem scalar_address : Scalar (.string "a//b".toList) (.string (some "a//b")) := by
  have hread : readString ("a//b".toList ++ ['"']) = some (some "a//b", []) := by decide +kernel
  obtain ⟨body, hbody, hscalar⟩ := readString_eq_some_iff.1 hread
  rwa [List.append_cancel_right hbody]

theorem scalar_one : Scalar (.word ['1']) (.number { digits := 1 }) := by
  have hread : readWord ['1'] = some (.number { digits := 1 }, []) := by rfl
  obtain ⟨word, hword, hscalar⟩ := readWord_sound hread
  rwa [hword, List.append_nil]

theorem addresses_keep_meaning :
    Reads .relaxed addresses addressTokens (.array [.string (some "a//b"), .number { digits := 1 }]) ∧
    plainText addresses = "[\"a//b\", 1]" ∧
    read? (plainText addresses) =
      some (.array [.string (some "a//b"), .number { digits := 1 }]) := by
  have hlaid : Laid .relaxed addresses.toList addressTokens := by
    have htext : addresses.toList = ['[', '"', 'a', '/', '/', 'b', '"', ',', ' ', '1', ',', '/', '*',
        ' ', ',', ' ', '*', '/', ']'] := by decide +kernel
    rw [htext]
    refine laid_of_mark .openArray rfl rfl ?_
    refine laid_of_scalar scalar_address rfl ?_
    refine laid_of_mark .comma rfl rfl ?_
    refine laid_of_scalar scalar_one rfl ?_
    refine laid_of_mark .comma rfl rfl ?_
    refine @Laid.blockComment _ [' ', ',', ' '] _ _ rfl (by decide) ?_
    exact laid_of_mark .closeArray rfl rfl .nil
  have hdenotes : Denotes .relaxed addressTokens
      (.value (.array [.string (some "a//b"), .number { digits := 1 }])) [] :=
    .array (.moreItems (.scalar scalar_address) (.trailingItem rfl (.scalar scalar_one)))
  refine ⟨⟨hlaid, hdenotes⟩, by decide +kernel, ?_⟩
  exact ((plainText_keeps_meaning addresses).1 _ _ ⟨hlaid, hdenotes⟩).2

end PropDocs.Json
