import Mathlib.Data.List.Infix
import PropDocs.Proofs.DocumentedDefaults
import PropDocs.Proofs.SplitTexts

/-!
# Lines of a documentation comment

A comment is read line by line, and a line counts only for what is left of it when its gutter and the
blanks at its end are gone.  So blanks at the end of a line change nothing, and neither do blank lines at
the end of a comment.

* `cleanLine_append_of_blank`: blanks behind a line;
* `ofLines_append_of_nil`: empty lines behind the others, which neither the description nor a tag keeps;
* `parse_eq`: a comment is read from its parts between line feeds, however the last line ends;
* `parse_ignores_delimiters_and_returns`: the delimiters of a comment may be left out, and its lines may
  end with a carriage return and a line feed.
-/

namespace PropDocs

/-! ### Texts and their lines -/

namespace Text

theorem trimStart_cons {c : Char} (hc : isBlank c = false) (cs : List Char) :
    trimStart (c :: cs) = c :: cs :=
  List.dropWhile_cons_of_neg (by simp [hc])

theorem trimEnd_concat {c : Char} (hc : isBlank c = false) (cs : List Char) :
    trimEnd (cs ++ [c]) = cs ++ [c] := by
  rw [trimEnd, List.reverse_append, List.reverse_singleton, List.singleton_append, ← trimStart,
    trimStart_cons hc, List.reverse_cons, List.reverse_reverse]

theorem trimEnd_append (cs : List Char) :
    ∃ gap, cs = trimEnd cs ++ gap ∧ ∀ c ∈ gap, isBlank c = true := by
  refine ⟨(cs.reverse.takeWhile isBlank).reverse, ?_, ?_⟩
  · rw [trimEnd, ← List.reverse_append, List.takeWhile_append_dropWhile, List.reverse_reverse]
  · intro c hc
    exact List.mem_takeWhile_imp (List.mem_reverse.1 hc)

theorem trimEnd_of_blank {cs : List Char} (h : ∀ c ∈ cs, isBlank c = true) : trimEnd cs = [] := by
  rw [← List.nil_append cs, trimEnd_append_of_blank [] h]
  rfl

theorem trimStart_append_of_nil {cs gap : List Char} (hcs : trimStart cs = [])
    (h : ∀ c ∈ gap, isBlank c = true) : trimStart (cs ++ gap) = [] := by
  rw [trimStart_append_of_blank (List.dropWhile_eq_nil_iff.1 hcs)]
  exact List.dropWhile_eq_nil_iff.2 h

theorem trimStart_append_of_ne_nil {cs : List Char} (h : trimStart cs ≠ []) (gap : List Char) :
    trimStart (cs ++ gap) = trimStart cs ++ gap := by
  rw [trimStart, List.dropWhile_append, if_neg (by simpa [trimStart] using h)]
  rfl

theorem trim_append_of_blank (cs : List Char) {gap : List Char} (h : ∀ c ∈ gap, isBlank c = true) :
    trim (cs ++ gap) = trim cs := by
  by_cases hcs : trimStart cs = []
  · rw [trim, trim, trimStart_append_of_nil hcs h, hcs]
  · rw [trim, trim, trimStart_append_of_ne_nil hcs, trimEnd_append_of_blank _ h]

/-- Lines with empty lines behind them. -/
theorem joinLines_append_of_nil (ls : List (List Char)) {gap : List (List Char)}
    (h : ∀ l ∈ gap, l = []) :
    ∃ blanks, joinLines (ls ++ gap) = joinLines ls ++ blanks ∧ ∀ c ∈ blanks, isBlank c = true := by
  have hblank : ∀ l ∈ gap, ∀ c ∈ l, isBlank c = true := by
    intro l hl c hc
    rw [h l hl] at hc
    cases hc
  induction ls with
  | nil =>
    cases gap with
    | nil => exact ⟨[], rfl, nofun⟩
    | cons l gap =>
      obtain ⟨blanks, hjoin, hblanks⟩ :=
        joinLines_cons_of_blank l fun l' hl' => hblank l' (List.mem_cons_of_mem l hl')
      refine ⟨blanks, ?_, hblanks⟩
      rw [List.nil_append, hjoin, h l List.mem_cons_self]
      rfl
  | cons l ls ih =>
    cases ls with
    | nil =>
      obtain ⟨blanks, hjoin, hblanks⟩ := joinLines_cons_of_blank l hblank
      refine ⟨blanks, ?_, hblanks⟩
      rw [List.singleton_append, hjoin, joinLines, List.intercalate_singleton]
    | cons l' ls =>
      obtain ⟨blanks, hjoin, hblanks⟩ := ih
      refine ⟨blanks, ?_, hblanks⟩
      have hstep : ∀ rest, joinLines (l :: l' :: rest) = l ++ ['\n'] ++ joinLines (l' :: rest) :=
        fun rest => List.intercalate_cons_cons
      rw [List.cons_append, List.cons_append, hstep, ← List.cons_append, hjoin, hstep]
      simp

end Text

namespace DocComment

open Text

/-! ### Cleaning lines -/

theorem cleanLine_star {line rest : List Char} (h : trimStart line = '*' :: rest) :
    cleanLine line = trimEnd ((afterWord? [' '] rest).getD rest) := by
  rw [cleanLine, h]
  cases rest with
  | nil => rfl
  | cons c rest =>
    by_cases hc : c = ' '
    · subst hc
      rfl
    · simp [afterWord?, List.isPrefixOf?, Ne.symm hc, hc]

theorem cleanLine_plain {line : List Char} (h : ∀ rest, trimStart line ≠ '*' :: rest) :
    cleanLine line = trimEnd (trimStart line) := by
  rw [cleanLine]
  split
  · next hstar => exact absurd hstar (h _)
  · next hstar => exact absurd hstar (h _)
  · rfl

/-- A star and the space behind it are no part of a line, also when only blanks follow. -/
theorem trimEnd_afterSpace (rest : List Char) {gap : List Char} (h : ∀ c ∈ gap, isBlank c = true) :
    trimEnd ((afterWord? [' '] (rest ++ gap)).getD (rest ++ gap)) =
      trimEnd ((afterWord? [' '] rest).getD rest) := by
  cases rest with
  | cons d rest =>
    by_cases hd : d = ' '
    · subst hd
      exact trimEnd_append_of_blank rest h
    · simpa [afterWord?, List.isPrefixOf?, Ne.symm hd] using trimEnd_append_of_blank (d :: rest) h
  | nil =>
    have hnil : trimEnd ((afterWord? [' '] ([] : List Char)).getD []) = [] := rfl
    rw [List.nil_append, hnil]
    apply trimEnd_of_blank
    cases hafter : afterWord? [' '] gap with
    | none => exact h
    | some rest =>
      have hgap : [' '] ++ rest = gap := List.append_eq_of_isPrefixOf?_eq_some hafter
      intro c hc
      exact h c (hgap ▸ List.mem_append_right [' '] hc)

/-- **Blanks behind a line** do not count. -/
theorem cleanLine_append_of_blank (l : List Char) {gap : List Char} (h : ∀ c ∈ gap, isBlank c = true) :
    cleanLine (l ++ gap) = cleanLine l := by
  by_cases hl : trimStart l = []
  · rw [cleanLine, cleanLine, trimStart_append_of_nil hl h, hl]
  · have hall : trimStart (l ++ gap) = trimStart l ++ gap := trimStart_append_of_ne_nil hl gap
    by_cases hstar : ∃ rest, trimStart l = '*' :: rest
    · obtain ⟨rest, hrest⟩ := hstar
      rw [hrest, List.cons_append] at hall
      rw [cleanLine_star hall, cleanLine_star hrest, trimEnd_afterSpace rest h]
    · have hplain : ∀ rest, trimStart l ≠ '*' :: rest := not_exists.1 hstar
      have hplain' : ∀ rest, trimStart (l ++ gap) ≠ '*' :: rest := by
        intro rest hrest
        obtain ⟨c, cs, hcs⟩ := List.exists_cons_of_ne_nil hl
        rw [hall, hcs] at hrest
        exact hplain cs (by rw [hcs, (List.cons.inj hrest).1])
      rw [cleanLine_plain hplain', cleanLine_plain hplain, hall, trimEnd_append_of_blank _ h]

theorem cleanLine_of_blank {l : List Char} (h : ∀ c ∈ l, isBlank c = true) : cleanLine l = [] := by
  rw [← List.nil_append l, cleanLine_append_of_blank [] h]
  rfl

/-- The lines of a text with blanks behind it: empty lines may follow those of the text. -/
theorem map_cleanLine_append_of_blank (cs : List Char) {gap : List Char}
    (h : ∀ c ∈ gap, isBlank c = true) :
    ∃ blanks, ((cs ++ gap).splitOn '\n').map cleanLine = (cs.splitOn '\n').map cleanLine ++ blanks ∧
      ∀ l ∈ blanks, l = [] := by
  obtain ⟨p, ps, hgap⟩ := exists_splitOn_eq_cons '\n' gap
  have hblank : ∀ q ∈ p :: ps, ∀ c ∈ q, isBlank c = true := by
    intro q hq c hc
    exact h c (mem_of_mem_splitOn (hgap ▸ hq) hc).1
  obtain ⟨init, last, hcs, hall⟩ := splitOn_append cs hgap
  refine ⟨ps.map cleanLine, ?_, ?_⟩
  · rw [hall, hcs, List.map_append, List.map_append, List.map_cons,
      cleanLine_append_of_blank last (hblank p List.mem_cons_self)]
    simp
  · intro l hl
    obtain ⟨q, hq, rfl⟩ := List.mem_map.1 hl
    exact cleanLine_of_blank (hblank q (List.mem_cons_of_mem p hq))

theorem cleanLine_dropReturn (l : List Char) : cleanLine (dropReturn l) = cleanLine l := by
  rw [dropReturn]
  cases hreturn : beforeWord? ['\r'] l with
  | none => rfl
  | some rest =>
    have hl : rest ++ ['\r'] = l := List.append_eq_of_isSuffixOf?_eq_some hreturn
    rw [← hl, cleanLine_append_of_blank rest (List.all_eq_true.1 rfl)]
    rfl

/-- **Lines and parts** between line feeds are the same when they are cleaned, up to an empty last
line. -/
theorem map_cleanLine_closeLines (ps : List (List Char)) :
    ∃ blanks, ps.map cleanLine = (closeLines ps).map cleanLine ++ blanks ∧ ∀ l ∈ blanks, l = [] := by
  fun_induction closeLines ps with
  | case1 => exact ⟨[], rfl, nofun⟩
  | case2 last hlast =>
    refine ⟨[[]], ?_, by simp⟩
    rw [List.isEmpty_iff.1 hlast]
    rfl
  | case3 last hlast => exact ⟨[], by simp, nofun⟩
  | case4 p ps _ ih =>
    obtain ⟨blanks, hps, hblanks⟩ := ih
    refine ⟨blanks, ?_, hblanks⟩
    rw [List.map_cons, hps, List.map_cons, cleanLine_dropReturn, List.cons_append]

/-! ### Empty lines behind the others -/

theorem tagLine?_nil : tagLine? [] = none :=
  rfl

theorem takeWhile_append_of_nil (ls : List (List Char)) {gap : List (List Char)}
    (h : ∀ l ∈ gap, l = []) :
    ∃ gap', (ls ++ gap).takeWhile (fun l => (tagLine? l).isNone) =
        ls.takeWhile (fun l => (tagLine? l).isNone) ++ gap' ∧ ∀ l ∈ gap', l = [] := by
  induction ls with
  | nil =>
    refine ⟨gap, ?_, h⟩
    rw [List.nil_append, List.takeWhile_nil, List.nil_append, List.takeWhile_eq_self_iff]
    intro l hl
    rw [h l hl, tagLine?_nil]
    rfl
  | cons l ls ih =>
    obtain ⟨gap', hls, hgap'⟩ := ih
    cases hl : tagLine? l with
    | none =>
      refine ⟨gap', ?_, hgap'⟩
      rw [List.cons_append, List.takeWhile_cons_of_pos (by simp [hl]),
        List.takeWhile_cons_of_pos (by simp [hl]), hls, List.cons_append]
    | some afterAt =>
      refine ⟨[], ?_, nofun⟩
      rw [List.cons_append, List.takeWhile_cons_of_neg (by simp [hl]),
        List.takeWhile_cons_of_neg (by simp [hl]), List.append_nil]

theorem readTag_append_of_nil (afterAt : List Char) (ls : List (List Char)) {gap : List (List Char)}
    (h : ∀ l ∈ gap, l = []) : readTag afterAt (ls ++ gap) = readTag afterAt ls := by
  obtain ⟨blanks, hjoin, hblanks⟩ :=
    joinLines_append_of_nil (trimStart (afterAt.dropWhile isNameChar) :: ls) h
  rw [readTag, readTag, ← List.cons_append, hjoin, trimEnd_append_of_blank _ hblanks]

theorem readTags_append_of_nil (ls : List (List Char)) {gap : List (List Char)}
    (h : ∀ l ∈ gap, l = []) : readTags (ls ++ gap) = readTags ls := by
  induction ls with
  | nil =>
    rw [List.nil_append]
    induction gap with
    | nil => rfl
    | cons l gap ih =>
      obtain ⟨rfl, hgap⟩ := List.forall_mem_cons.1 h
      have hskip : readTags ([] :: gap) = readTags gap := rfl
      rw [hskip, ih hgap]
  | cons l ls ih =>
    rw [List.cons_append, readTags, readTags, ih]
    cases tagLine? l with
    | none => rfl
    | some afterAt =>
      obtain ⟨gap', hls, hgap'⟩ := takeWhile_append_of_nil ls h
      simp only [hls, readTag_append_of_nil afterAt _ hgap']

/-- **Empty lines behind the others** change neither the description nor a tag. -/
theorem ofLines_append_of_nil (ls : List (List Char)) {gap : List (List Char)} (h : ∀ l ∈ gap, l = []) :
    ofLines (ls ++ gap) = ofLines ls := by
  obtain ⟨gap', hls, hgap'⟩ := takeWhile_append_of_nil ls h
  obtain ⟨blanks, hjoin, hblanks⟩ :=
    joinLines_append_of_nil (ls.takeWhile fun l => (tagLine? l).isNone) hgap'
  rw [ofLines, ofLines, readTags_dropWhile, readTags_dropWhile, readTags_append_of_nil ls h, hls, hjoin,
    trim_append_of_blank _ hblanks]

/-- **Reading** takes the parts of a comment, however its last line ends. -/
theorem parse_eq (comment : String) :
    parse comment = ofLines (((body comment.toList).splitOn '\n').map cleanLine) := by
  obtain ⟨blanks, hparts, hblanks⟩ := map_cleanLine_closeLines ((body comment.toList).splitOn '\n')
  rw [hparts, ofLines_append_of_nil _ hblanks]
  rfl

/-! ### Delimiters -/

/-- The text between the delimiters of a comment. -/
theorem body_enclosed (cs : List Char) : body ('/' :: '*' :: (cs ++ ['*', '/'])) = cs := by
  have htrim : trim ('/' :: '*' :: (cs ++ ['*', '/'])) = '/' :: '*' :: (cs ++ ['*', '/']) := by
    have hend : '/' :: '*' :: (cs ++ ['*', '/']) = ('/' :: '*' :: (cs ++ ['*'])) ++ ['/'] := by simp
    rw [trim, trimStart_cons rfl, hend, trimEnd_concat rfl]
  have hafter : afterWord? ['/', '*'] ('/' :: '*' :: (cs ++ ['*', '/'])) = some (cs ++ ['*', '/']) := rfl
  have hbefore : beforeWord? ['*', '/'] (cs ++ ['*', '/']) = some cs :=
    List.isSuffixOf?_eq_some_iff_append_eq.2 rfl
  simp only [body, htrim, hafter, hbefore, Option.getD_some]

/-- **Inner text** of a comment: it starts with a star, and the comment does not end inside of it. -/
structure IsInner (cs : List Char) : Prop where
  star : ∃ rest, cs = '*' :: rest
  unclosed : ¬ ['*', '/'] <:+: cs

theorem IsInner.body_eq {cs : List Char} (h : IsInner cs) : body cs = trimEnd cs := by
  obtain ⟨rest, rfl⟩ := h.star
  have htrim : trim ('*' :: rest) = trimEnd ('*' :: rest) := by rw [trim, trimStart_cons rfl]
  have hafter : afterWord? ['/', '*'] (trimEnd ('*' :: rest)) = none := by
    rw [trimEnd_cons rfl]
    rfl
  have hbefore : beforeWord? ['*', '/'] (trimEnd ('*' :: rest)) = none := by
    by_contra hsome
    obtain ⟨front, hfront⟩ := Option.ne_none_iff_exists'.1 hsome
    have hall : front ++ ['*', '/'] = trimEnd ('*' :: rest) :=
      List.append_eq_of_isSuffixOf?_eq_some hfront
    obtain ⟨gap, hgap, -⟩ := trimEnd_append ('*' :: rest)
    rw [← hall] at hgap
    exact h.unclosed ⟨front, gap, hgap.symm⟩
  simp only [body, htrim, hafter, hbefore, Option.getD_none]

/-- An inner text is read from its parts, whatever blanks it ends with. -/
theorem IsInner.parse_eq {comment : String} (h : IsInner comment.toList) :
    parse comment = ofLines ((comment.toList.splitOn '\n').map cleanLine) := by
  obtain ⟨gap, hgap, hblank⟩ := trimEnd_append comment.toList
  obtain ⟨blanks, hparts, hblanks⟩ := map_cleanLine_append_of_blank (trimEnd comment.toList) hblank
  rw [← hgap] at hparts
  rw [DocComment.parse_eq, h.body_eq, hparts, ofLines_append_of_nil _ hblanks]

/-! ### Carriage returns -/

/-- **Wide line breaks.** A carriage return in front of every line feed. -/
def widenBreaks (cs : List Char) : List Char :=
  cs.flatMap fun c => if c = '\n' then ['\r', '\n'] else [c]

theorem widenBreaks_cons {c : Char} (hc : c ≠ '\n') (cs : List Char) :
    widenBreaks (c :: cs) = c :: widenBreaks cs := by
  rw [widenBreaks, List.flatMap_cons, if_neg hc]
  rfl

theorem widenBreaks_newline (cs : List Char) :
    widenBreaks ('\n' :: cs) = '\r' :: '\n' :: widenBreaks cs :=
  rfl

/-- Every part but the last ends with a carriage return more. -/
theorem forall₂_splitOn_widenBreaks (cs : List Char) :
    List.Forall₂ (fun p q => ∃ gap, p = q ++ gap ∧ ∀ c ∈ gap, isBlank c = true)
      ((widenBreaks cs).splitOn '\n') (cs.splitOn '\n') := by
  induction cs with
  | nil => exact .cons ⟨[], rfl, nofun⟩ .nil
  | cons c cs ih =>
    by_cases hc : c = '\n'
    · subst hc
      rw [widenBreaks_newline, splitOn_cons_of_ne (by decide) (splitOn_cons_self '\n' _), splitOn_cons_self]
      exact .cons ⟨['\r'], rfl, List.all_eq_true.1 rfl⟩ ih
    · obtain ⟨p, ps, hp⟩ := exists_splitOn_eq_cons '\n' (widenBreaks cs)
      obtain ⟨q, qs, hq⟩ := exists_splitOn_eq_cons '\n' cs
      rw [hp, hq] at ih
      obtain ⟨⟨gap, rfl, hgap⟩, hrest⟩ := List.forall₂_cons.1 ih
      rw [widenBreaks_cons hc, splitOn_cons_of_ne hc hp, splitOn_cons_of_ne hc hq]
      exact .cons ⟨gap, rfl, hgap⟩ hrest

theorem map_cleanLine_eq {ps qs : List (List Char)}
    (h : List.Forall₂ (fun p q => ∃ gap, p = q ++ gap ∧ ∀ c ∈ gap, isBlank c = true) ps qs) :
    ps.map cleanLine = qs.map cleanLine := by
  induction h with
  | nil => rfl
  | cons hp _ ih =>
    obtain ⟨gap, rfl, hgap⟩ := hp
    rw [List.map_cons, List.map_cons, cleanLine_append_of_blank _ hgap, ih]

theorem exists_of_widenBreaks {cs rest : List Char} {c : Char} (h : widenBreaks cs = c :: rest)
    (hc : c ≠ '\r') : ∃ rest', cs = c :: rest' := by
  cases cs with
  | nil => cases h
  | cons d cs =>
    by_cases hd : d = '\n'
    · rw [hd, widenBreaks_newline] at h
      exact absurd (List.cons.inj h).1.symm hc
    · rw [widenBreaks_cons hd] at h
      exact ⟨cs, by rw [(List.cons.inj h).1]⟩

/-- No carriage return comes between a star and a slash. -/
theorem infix_of_widenBreaks {cs : List Char} (h : ['*', '/'] <:+: widenBreaks cs) :
    ['*', '/'] <:+: cs := by
  induction cs with
  | nil => exact h
  | cons c cs ih =>
    by_cases hc : c = '\n'
    · rw [hc, widenBreaks_newline] at h
      rcases List.infix_cons_iff.1 h with hfront | h
      · cases (List.cons_prefix_cons.1 hfront).1
      · rcases List.infix_cons_iff.1 h with hfront | h
        · cases (List.cons_prefix_cons.1 hfront).1
        · exact List.infix_cons (ih h)
    · rw [widenBreaks_cons hc] at h
      rcases List.infix_cons_iff.1 h with hfront | h
      · obtain ⟨rfl, rest, hrest⟩ := List.cons_prefix_cons.1 hfront
        obtain ⟨rest', rfl⟩ := exists_of_widenBreaks hrest.symm (by decide)
        exact ⟨[], rest', rfl⟩
      · exact List.infix_cons (ih h)

theorem IsInner.widenBreaks {cs : List Char} (h : IsInner cs) : IsInner (widenBreaks cs) := by
  refine ⟨?_, fun hclose => h.unclosed (infix_of_widenBreaks hclose)⟩
  obtain ⟨rest, rfl⟩ := h.star
  exact ⟨DocComment.widenBreaks rest, widenBreaks_cons (by decide) rest⟩

/-- **Delimiters and line breaks.** A comment is read the same from its inner text alone and with its
delimiters, and with a carriage return in front of every line feed. -/
theorem parse_ignores_delimiters_and_returns (comment : String) (h : IsInner comment.toList) :
    parse ("/*" ++ comment ++ "*/") = parse comment ∧
    parse (String.ofList (widenBreaks comment.toList)) = parse comment := by
  have hinner := h.parse_eq
  constructor
  · have hbody : body ("/*" ++ comment ++ "*/").toList = comment.toList := by
      have hlist : ("/*" ++ comment ++ "*/").toList = '/' :: '*' :: (comment.toList ++ ['*', '/']) := by
        simp
      rw [hlist, body_enclosed]
    rw [DocComment.parse_eq, hbody, hinner]
  · have hwide : IsInner (String.ofList (widenBreaks comment.toList)).toList := by
      rw [String.toList_ofList]
      exact h.widenBreaks
    rw [hwide.parse_eq, hinner, String.toList_ofList,
      map_cleanLine_eq (forall₂_splitOn_widenBreaks comment.toList)]

/-- **Note on a box.** Its default goes on in a second line, blanks of several kinds end its lines, and a
line of the gutter and a blank one stand at its end. -/
def boxNote : String :=
  "*\n * Size of\n *   the box.\n *\n * @default 4\u00a0\n *   pixels **\n *\t\n \u2028 "

/-- What the note says. -/
def boxDoc : DocComment where
  description := "Size of\n  the box."
  tags := [{ name := "default", text := some (.plain "4\n  pixels **") }]

theorem boxNote_read :
    IsInner boxNote.toList ∧ parse ("/*" ++ boxNote ++ "*/") = boxDoc ∧
      parse (String.ofList (widenBreaks boxNote.toList)) = boxDoc := by
  have hinner : IsInner boxNote.toList := ⟨⟨_, rfl⟩, by decide +kernel⟩
  have hread : parse boxNote = boxDoc := by decide +kernel
  obtain ⟨hdelimiters, hreturns⟩ := parse_ignores_delimiters_and_returns boxNote hinner
  exact ⟨hinner, hdelimiters.trans hread, hreturns.trans hread⟩

end DocComment

end PropDocs
