import PropDocs.Proofs.CommentLines

/-!
# Written comments are read back

A description and a list of tags, written as a block of lines with a gutter, are read back as they were:
in order, with the blank lines inside of them and the blanks at the start of their lines.

* `RawTag.Tidy`, `Tidy`: what may be written.  No line ends with a blank, and no line but the first one of
  a tag opens a tag;
* `exists_tagLines`: a tag is written on a line that opens it and lines that continue it, and is read from
  them;
* `ofLines_contentLines`: the lines of a comment are read as the comment;
* `toList_render`: between the delimiters stand these lines in their gutter, with a line in front of them
  and one behind that have no content;
* `parse_render`: the comment that is read is the one that was written.
-/

namespace PropDocs

/-! ### Texts and lines -/

namespace Text

/-- A text in front of the first line. -/
theorem joinLines_append_cons (front l : List Char) (ls : List (List Char)) :
    joinLines ((front ++ l) :: ls) = front ++ joinLines (l :: ls) := by
  cases ls with
  | nil => simp [joinLines]
  | cons l' ls => simp [joinLines, List.intercalate_cons_cons]

/-- A text behind the last line. -/
theorem joinLines_concat_append (ls : List (List Char)) (l behind : List Char) :
    joinLines (ls ++ [l ++ behind]) = joinLines (ls ++ [l]) ++ behind := by
  induction ls with
  | nil => simp [joinLines]
  | cons l' ls ih =>
    cases ls with
    | nil => simp [joinLines, List.intercalate_cons_cons]
    | cons l'' ls =>
      simp only [joinLines, List.cons_append, List.intercalate_cons_cons] at ih ⊢
      rw [ih]
      simp

theorem trimEnd_append_of_ne_nil {cs : List Char} (h : trimEnd cs ≠ []) (front : List Char) :
    trimEnd (front ++ cs) = front ++ trimEnd cs := by
  have hback : trimStart cs.reverse ≠ [] := fun hnil => h (congrArg List.reverse hnil)
  rw [trimEnd, List.reverse_append, ← trimStart, trimStart_append_of_ne_nil hback, List.reverse_append,
    List.reverse_reverse]
  rfl

theorem trimEnd_eq_self {cs : List Char} (h : ∀ c ∈ cs, isBlank c = false) : trimEnd cs = cs := by
  induction cs with
  | nil => rfl
  | cons c cs ih =>
    obtain ⟨hc, hcs⟩ := List.forall_mem_cons.1 h
    rw [trimEnd_cons hc, ih hcs]

end Text

open Text

/-! ### Tidy comments -/

/-- The first character of the line, other than blanks, is an at sign. -/
def OpensTag (l : List Char) : Prop :=
  (trimStart l).head? = some '@'

instance (l : List Char) : Decidable (OpensTag l) :=
  inferInstanceAs (Decidable (_ = _))

/-- **Tidy text** of a tag: it starts and ends with characters that are no blanks, its lines do not end
with blanks, and the lines behind its first one open no tag. -/
structure TidyText (cs : List Char) : Prop where
  ne_nil : cs ≠ []
  trimmed : trim cs = cs
  lines : ∀ l ∈ cs.splitOn '\n', trimEnd l = l
  continued : ∀ l ∈ (cs.splitOn '\n').tail, ¬ OpensTag l

theorem TidyText.trimEnd_eq {cs : List Char} (h : TidyText cs) : trimEnd cs = cs := by
  rw [← h.trimmed, trim, trimEnd_trimEnd]

theorem TidyText.exists_cons {cs : List Char} (h : TidyText cs) :
    ∃ c rest, cs = c :: rest ∧ isBlank c = false := by
  obtain ⟨c, rest, hc, hcs⟩ := trim_eq_cons (by rw [h.trimmed]; exact h.ne_nil)
  rw [h.trimmed] at hcs
  exact ⟨c, trimEnd rest, hcs, hc⟩

/-- The first line of a tidy text starts with a character that is no blank. -/
theorem TidyText.exists_splitOn {cs : List Char} (h : TidyText cs) :
    ∃ c p ps, cs.splitOn '\n' = (c :: p) :: ps ∧ isBlank c = false := by
  obtain ⟨c, rest, rfl, hc⟩ := h.exists_cons
  obtain ⟨p, ps, hrest⟩ := exists_splitOn_eq_cons '\n' rest
  refine ⟨c, p, ps, splitOn_cons_of_ne ?_ hrest, hc⟩
  rintro rfl
  cases hc

/-- **Tidy tag**: it has a name of name characters, and no text or a tidy one. -/
structure RawTag.Tidy (tag : RawTag) : Prop where
  name : ∀ c ∈ tag.name.toList, DocComment.isNameChar c = true
  text : ∀ text ∈ tag.text, ∃ s : String, text = .plain s ∧ TidyText s.toList

/-- **Tidy comment**: its description has no blanks around it, the lines of the description neither end
with blanks nor open a tag, and its tags are tidy. -/
structure DocComment.Tidy (doc : DocComment) : Prop where
  trimmed : trim doc.description.toList = doc.description.toList
  lines : ∀ l ∈ doc.description.toList.splitOn '\n', trimEnd l = l ∧ ¬ OpensTag l
  tags : ∀ tag ∈ doc.tags, tag.Tidy

namespace DocComment

/-! ### Tag lines -/

theorem tagLine?_at (cs : List Char) : tagLine? ('@' :: cs) = some cs := by
  rw [tagLine?, trimStart_cons rfl]
  rfl

theorem tagLine?_eq_none {l : List Char} (h : ¬ OpensTag l) : tagLine? l = none := by
  cases hl : tagLine? l with
  | none => rfl
  | some rest =>
    have hstart : ['@'] ++ rest = trimStart l := List.append_eq_of_isPrefixOf?_eq_some hl
    exact absurd (by rw [OpensTag, ← hstart]; rfl) h

theorem readTags_append_of_none {ls : List (List Char)} (h : ∀ l ∈ ls, tagLine? l = none)
    (rest : List (List Char)) : readTags (ls ++ rest) = readTags rest := by
  induction ls with
  | nil => rfl
  | cons l ls ih =>
    obtain ⟨hl, hls⟩ := List.forall_mem_cons.1 h
    rw [List.cons_append, readTags, hl]
    exact ih hls

theorem takeWhile_append_of_none {ls : List (List Char)} (h : ∀ l ∈ ls, tagLine? l = none)
    (rest : List (List Char)) :
    (ls ++ rest).takeWhile (fun l => (tagLine? l).isNone) =
      ls ++ rest.takeWhile fun l => (tagLine? l).isNone := by
  apply List.takeWhile_append_of_pos
  intro l hl
  rw [h l hl]
  rfl

/-! ### Tags -/

theorem isBlank_of_isNameChar {c : Char} (h : isNameChar c = true) : isBlank c = false := by
  by_contra hblank
  rw [isNameChar_of_isBlank (by simpa using hblank)] at h
  cases h

theorem readTag_name {name : List Char} (h : ∀ c ∈ name, isNameChar c = true) :
    readTag name [] = { name := String.ofList name } := by
  have hname : name.takeWhile isNameChar = name := List.takeWhile_eq_self_iff.2 h
  have hrest : name.dropWhile isNameChar = [] := List.dropWhile_eq_nil_iff.2 h
  rw [readTag, hname, hrest]
  rfl

theorem readTag_text {name cs p : List Char} {ps : List (List Char)}
    (h : ∀ c ∈ name, isNameChar c = true) (htext : TidyText cs) (hcs : cs.splitOn '\n' = p :: ps) :
    readTag (name ++ ' ' :: p) ps =
      { name := String.ofList name, text := some (.plain (String.ofList cs)) } := by
  have hspace : ¬ isNameChar ' ' = true := by rw [isNameChar_of_isBlank rfl]; exact Bool.false_ne_true
  have hname : (name ++ ' ' :: p).takeWhile isNameChar = name := by
    rw [List.takeWhile_append_of_pos h, List.takeWhile_cons_of_neg hspace, List.append_nil]
  have hrest : (name ++ ' ' :: p).dropWhile isNameChar = ' ' :: p := by
    rw [List.dropWhile_append_of_pos h, List.dropWhile_cons_of_neg hspace]
  have hstart : trimStart (' ' :: p) = p := by
    obtain ⟨c, q, qs, hfirst, hc⟩ := htext.exists_splitOn
    obtain ⟨rfl, -⟩ := List.cons.inj (hcs.symm.trans hfirst)
    exact (List.dropWhile_cons_of_pos rfl).trans (trimStart_cons hc q)
  have hjoin : joinLines (p :: ps) = cs := by rw [← hcs, joinLines, List.intercalate_splitOn]
  have hkept : cs.dropWhile (· == '\n') = cs := by
    obtain ⟨c, rest, rfl, hc⟩ := htext.exists_cons
    apply List.dropWhile_cons_of_neg
    intro hnewline
    rw [beq_iff_eq.1 hnewline] at hc
    cases hc
  have hempty : cs.isEmpty = false := List.isEmpty_eq_false_iff.2 htext.ne_nil
  simp only [readTag, hname, hrest, hstart, hjoin, htext.trimEnd_eq, hkept, hempty]
  rfl

theorem isBlank_of_mem_tagFront {name : List Char} (h : ∀ c ∈ name, isNameChar c = true) :
    ∀ c ∈ '@' :: name, isBlank c = false :=
  List.forall_mem_cons.2 ⟨rfl, fun c hc => isBlank_of_isNameChar (h c hc)⟩

theorem newline_notMem_tagFront {name : List Char} (h : ∀ c ∈ name, isNameChar c = true) :
    '\n' ∉ '@' :: name ++ [' '] := by
  intro hmem
  rcases List.mem_append.1 hmem with hmem | hmem
  · have hblank := isBlank_of_mem_tagFront h '\n' hmem
    cases hblank
  · cases List.mem_singleton.1 hmem

/-- The text of a tag starts behind its name and a space, and goes on in lines of its own. -/
theorem tagLines_text {name s : String} (h : ∀ c ∈ name.toList, isNameChar c = true) {p : List Char}
    {ps : List (List Char)} (hs : s.toList.splitOn '\n' = p :: ps) :
    tagLines ⟨name, some (.plain s)⟩ = ('@' :: (name.toList ++ ' ' :: p)) :: ps := by
  have hsplit := splitOn_append_of_notMem (newline_notMem_tagFront h) hs
  simpa [tagLines, TagText.toText] using hsplit

/-- **A tidy tag** is written on a line that opens it and lines that continue it, and is read from
them. -/
theorem exists_tagLines {tag : RawTag} (h : tag.Tidy) :
    ∃ afterAt continuation, tagLines tag = ('@' :: afterAt) :: continuation ∧
      (∀ l ∈ continuation, tagLine? l = none) ∧ readTag afterAt continuation = tag := by
  obtain ⟨name, text⟩ := tag
  cases text with
  | none =>
    refine ⟨name.toList, [], rfl, nofun, ?_⟩
    rw [readTag_name h.name, String.ofList_toList]
  | some text =>
    obtain ⟨s, rfl, htext⟩ := h.text text rfl
    obtain ⟨p, ps, hs⟩ := exists_splitOn_eq_cons '\n' s.toList
    refine ⟨_, ps, tagLines_text h.name hs, ?_, ?_⟩
    · intro l hl
      exact tagLine?_eq_none (htext.continued l (by rw [hs]; exact hl))
    · rw [readTag_text h.name htext hs, String.ofList_toList, String.ofList_toList]

/-- The lines of a tidy tag neither break nor end with a blank. -/
theorem tidy_tagLines {tag : RawTag} (h : tag.Tidy) :
    ∀ l ∈ tagLines tag, '\n' ∉ l ∧ trimEnd l = l := by
  obtain ⟨name, text⟩ := tag
  cases text with
  | none =>
    intro l hl
    rw [List.mem_singleton.1 hl]
    refine ⟨fun hmem => ?_, trimEnd_eq_self (isBlank_of_mem_tagFront h.name)⟩
    exact newline_notMem_tagFront h.name (List.mem_append_left [' '] hmem)
  | some text =>
    obtain ⟨s, rfl, htext⟩ := h.text text rfl
    obtain ⟨c, p, ps, hs, -⟩ := htext.exists_splitOn
    have hparts : ∀ l ∈ (c :: p) :: ps, '\n' ∉ l ∧ trimEnd l = l := by
      rw [← hs]
      intro l hl
      exact ⟨notMem_of_mem_splitOn hl, htext.lines l hl⟩
    obtain ⟨hfirst, hps⟩ := List.forall_mem_cons.1 hparts
    have hsplit : '@' :: (name.toList ++ ' ' :: c :: p) = ('@' :: name.toList ++ [' ']) ++ c :: p := by
      simp
    rw [tagLines_text h.name hs, hsplit]
    refine List.forall_mem_cons.2 ⟨⟨?_, ?_⟩, hps⟩
    · rw [List.mem_append, not_or]
      exact ⟨newline_notMem_tagFront h.name, hfirst.1⟩
    · have hne : trimEnd (c :: p) ≠ [] := by
        rw [hfirst.2]
        exact List.cons_ne_nil c p
      rw [trimEnd_append_of_ne_nil hne, hfirst.2]

/-! ### Comments -/

theorem takeWhile_tagLines {tags : List RawTag} (h : ∀ tag ∈ tags, tag.Tidy) :
    (tags.flatMap tagLines).takeWhile (fun l => (tagLine? l).isNone) = [] := by
  cases tags with
  | nil => rfl
  | cons tag tags =>
    obtain ⟨afterAt, continuation, hlines, -⟩ := exists_tagLines (h tag List.mem_cons_self)
    rw [List.flatMap_cons, hlines, List.cons_append, List.takeWhile_cons_of_neg]
    rw [tagLine?_at]
    exact Bool.false_ne_true

/-- **Tags are read back**, one after another. -/
theorem readTags_tagLines {tags : List RawTag} (h : ∀ tag ∈ tags, tag.Tidy) :
    readTags (tags.flatMap tagLines) = tags := by
  induction tags with
  | nil => rfl
  | cons tag tags ih =>
    obtain ⟨htag, htags⟩ := List.forall_mem_cons.1 h
    obtain ⟨afterAt, continuation, hlines, hcontinuation, hread⟩ := exists_tagLines htag
    rw [List.flatMap_cons, hlines, List.cons_append, readTags, tagLine?_at]
    simp only [takeWhile_append_of_none hcontinuation, takeWhile_tagLines htags, List.append_nil, hread,
      readTags_append_of_none hcontinuation, ih htags]

/-- The lines of a description are put together again. -/
theorem joinLines_description (doc : DocComment) :
    joinLines (if doc.description.isEmpty then [] else doc.description.toList.splitOn '\n') =
      doc.description.toList := by
  by_cases hempty : doc.description.isEmpty = true
  · rw [if_pos hempty, String.isEmpty_iff.1 hempty]
    rfl
  · rw [if_neg hempty, joinLines, List.intercalate_splitOn]

theorem mem_of_mem_description {doc : DocComment} {l : List Char}
    (h : l ∈ if doc.description.isEmpty then [] else doc.description.toList.splitOn '\n') :
    l ∈ doc.description.toList.splitOn '\n' := by
  split at h
  · cases h
  · exact h

/-- **The lines of a comment** are read as the comment. -/
theorem ofLines_contentLines {doc : DocComment} (h : doc.Tidy) : ofLines doc.contentLines = doc := by
  have hplain : ∀ l ∈ if doc.description.isEmpty then [] else doc.description.toList.splitOn '\n',
      tagLine? l = none :=
    fun l hl => tagLine?_eq_none (h.lines l (mem_of_mem_description hl)).2
  rw [ofLines, readTags_dropWhile, contentLines, takeWhile_append_of_none hplain,
    takeWhile_tagLines h.tags, List.append_nil, joinLines_description, h.trimmed,
    readTags_append_of_none hplain, readTags_tagLines h.tags, String.ofList_toList]

theorem tidy_contentLines {doc : DocComment} (h : doc.Tidy) :
    ∀ l ∈ doc.contentLines, '\n' ∉ l ∧ trimEnd l = l := by
  intro l hl
  rcases List.mem_append.1 hl with hl | hl
  · have hline := mem_of_mem_description hl
    exact ⟨notMem_of_mem_splitOn hline, (h.lines l hline).1⟩
  · obtain ⟨tag, htag, hl⟩ := List.mem_flatMap.1 hl
    exact tidy_tagLines (h.tags tag htag) l hl

/-! ### The written block -/

theorem cleanLine_gutter (l : List Char) : cleanLine (' ' :: '*' :: ' ' :: l) = trimEnd l := by
  have hstart : trimStart (' ' :: '*' :: ' ' :: l) = '*' :: ' ' :: l := rfl
  rw [cleanLine_star hstart]
  rfl

/-- An empty line in front of the others. -/
theorem ofLines_nil_cons (ls : List (List Char)) : ofLines ([] :: ls) = ofLines ls := by
  have htrim : ∀ ls : List (List Char), trim (joinLines ([] :: ls)) = trim (joinLines ls) := by
    intro ls
    cases ls with
    | nil => rfl
    | cons l ls =>
      show trim (['\n'].intercalate ([] :: l :: ls)) = _
      rw [List.intercalate_cons_cons, List.nil_append, trim,
        trimStart_append_of_blank (List.all_eq_true.1 rfl)]
      rfl
  rw [ofLines, ofLines, List.takeWhile_cons_of_pos rfl, List.dropWhile_cons_of_pos rfl, htrim]

/-- The lines between the delimiters of a written comment. -/
def gutterLines (doc : DocComment) : List (List Char) :=
  ['*'] :: (doc.contentLines.map (' ' :: '*' :: ' ' :: ·) ++ [[' ']])

theorem toList_render (doc : DocComment) :
    doc.render.toList = '/' :: '*' :: (joinLines doc.gutterLines ++ ['*', '/']) := by
  rw [render, String.toList_ofList]
  show joinLines (((['/', '*'] ++ ['*']) :: doc.contentLines.map (' ' :: '*' :: ' ' :: ·)) ++
    [[' '] ++ ['*', '/']]) = _
  rw [joinLines_concat_append, List.cons_append, joinLines_append_cons]
  rfl

/-- **Written comments are read back**: the description and the tags are those that were written. -/
theorem parse_render (doc : DocComment) (h : doc.Tidy) : parse doc.render = doc := by
  have hlines := tidy_contentLines h
  have hne : doc.gutterLines ≠ [] := List.cons_ne_nil _ _
  have hbreaks : ∀ l ∈ doc.gutterLines, '\n' ∉ l := by
    refine List.forall_mem_cons.2 ⟨by decide, List.forall_mem_append.2 ⟨?_, by decide⟩⟩
    intro l hl
    obtain ⟨content, hcontent, rfl⟩ := List.mem_map.1 hl
    simpa using (hlines content hcontent).1
  have hcontent : (doc.contentLines.map (' ' :: '*' :: ' ' :: ·)).map cleanLine = doc.contentLines := by
    have hgutter : ∀ l ∈ doc.contentLines, (cleanLine ∘ (' ' :: '*' :: ' ' :: ·)) l = id l := by
      intro l hl
      rw [Function.comp_apply, cleanLine_gutter, (hlines l hl).2, id]
    rw [List.map_map, List.map_congr_left hgutter, List.map_id]
  have hclean : doc.gutterLines.map cleanLine = [] :: (doc.contentLines ++ [[]]) := by
    rw [gutterLines, List.map_cons, List.map_append, hcontent]
    rfl
  rw [parse_eq, toList_render, body_enclosed, joinLines, List.splitOn_intercalate '\n' hbreaks hne, hclean, ofLines_nil_cons,
    ofLines_append_of_nil _ (by simp), ofLines_contentLines h]

/-- **Comment on a grid.** It has blank lines, indented lines and lines that start with a star, and texts
that start with a dot and a dash. -/
def gridDoc : DocComment where
  description := "Grid of\n\n    cells.\n* square"
  tags :=
    [{ name := "deprecated" }, { name := "default", text := some (.plain ".5") },
      { name := "example", text := some (.plain "- <Grid />\n\n  * two cells") }]

theorem tidy_gridDoc : gridDoc.Tidy := by
  have hname : ∀ tag ∈ gridDoc.tags, ∀ c ∈ tag.name.toList, isNameChar c = true := by
    have hall : (gridDoc.tags.all fun tag => tag.name.toList.all isNameChar) = true := by decide +kernel
    simpa only [List.all_eq_true] using hall
  have htext : ∀ tag ∈ gridDoc.tags, ∀ text ∈ tag.text, ∃ s : String, text = .plain s ∧
      TidyText s.toList := by
    intro tag htag text hmem
    rcases List.mem_cons.1 htag with rfl | htag
    · cases hmem
    · rcases List.mem_cons.1 htag with rfl | htag
      · cases hmem
        exact ⟨_, rfl, by decide +kernel, by decide +kernel, by decide +kernel, by decide +kernel⟩
      · obtain rfl := List.mem_singleton.1 htag
        cases hmem
        exact ⟨_, rfl, by decide +kernel, by decide +kernel, by decide +kernel, by decide +kernel⟩
  exact ⟨by decide +kernel, by decide +kernel, fun tag htag => ⟨hname tag htag, htext tag htag⟩⟩

theorem gridDoc_read_back :
    gridDoc.Tidy ∧
    gridDoc.render = "/**\n * Grid of\n * \n *     cells.\n * * square\n * @deprecated\n" ++
      " * @default .5\n * @example - <Grid />\n * \n *   * two cells\n */" ∧
    parse gridDoc.render = gridDoc :=
  ⟨tidy_gridDoc, by decide +kernel, parse_render gridDoc tidy_gridDoc⟩

end DocComment

end PropDocs
