import PropDocs.Proofs.ContractProps
import PropDocs.Proofs.TagLines

/-!
# Documented defaults

The default of a prop is what its comment writes after a tag named `default`.  On the way the tag is
read from the lines of the comment, written as a line of its own under a key, and looked up by that
key.  The key is not the name alone: a text that starts with a dot gives the key a second part, whether
or not blanks stand in front of the dot.

* `RawTag.contentFor?`: what a tag gives to a key, and `filterMap_contentUnder?`: the lines of tags give
  the same;
* `readTags_append`: what the tags of a comment come from;
* `DefaultLine`: the first tag line named `default` has a text, and no other line goes on with it;
* `documented_default`: such a text is the default of the prop, unless it starts with a dot and a
  character that is no blank; then the tag counts under another key, and the default is the one that
  later tags give;
* `half_step_lost`: a number without a digit in front of its point.
-/

namespace PropDocs

open Text

/-! ### Blanks -/

namespace Text

/-- The code points of the blanks. -/
def blankCodes : List Nat :=
  List.range' 9 5 ++ List.range' 0x2000 11 ++
    [0x20, 0x85, 0xa0, 0x1680, 0x2028, 0x2029, 0x202f, 0x205f, 0x3000]

theorem toNat_mem_blankCodes {c : Char} (h : isBlank c = true) : c.toNat ∈ blankCodes := by
  simp only [isBlank, Bool.or_eq_true, Bool.and_eq_true, decide_eq_true_eq, beq_iff_eq] at h
  simp only [blankCodes, List.mem_append, List.mem_range'_1, List.mem_cons, List.not_mem_nil,
    or_false]
  omega

theorem trimStart_append_of_blank {gap : List Char} (h : ∀ c ∈ gap, isBlank c = true)
    (cs : List Char) : trimStart (gap ++ cs) = trimStart cs :=
  List.dropWhile_append_of_pos h

theorem trimEnd_append_of_blank (cs : List Char) {gap : List Char}
    (h : ∀ c ∈ gap, isBlank c = true) : trimEnd (cs ++ gap) = trimEnd cs := by
  have hreverse : ∀ c ∈ gap.reverse, isBlank c = true := by
    intro c hc
    exact h c (List.mem_reverse.1 hc)
  rw [trimEnd, trimEnd, List.reverse_append, List.dropWhile_append_of_pos hreverse]

theorem trimEnd_trimEnd (cs : List Char) : trimEnd (trimEnd cs) = trimEnd cs := by
  rw [trimEnd, trimEnd, List.reverse_reverse, List.dropWhile_idempotent]

theorem trimEnd_cons {c : Char} (hc : isBlank c = false) (cs : List Char) :
    trimEnd (c :: cs) = c :: trimEnd cs := by
  have hlast : [c].dropWhile isBlank = [c] := List.dropWhile_cons_of_neg (by simp [hc])
  rw [trimEnd, trimEnd, List.reverse_cons, List.dropWhile_append, hlast]
  split
  · next h => simp [List.isEmpty_iff.1 h]
  · simp

/-- A text that is not blank starts, without its blanks, with a character that is none. -/
theorem trim_eq_cons {cs : List Char} (h : trim cs ≠ []) :
    ∃ c rest, isBlank c = false ∧ trim cs = c :: trimEnd rest := by
  cases hstart : trimStart cs with
  | nil =>
    rw [trim, hstart] at h
    exact absurd rfl h
  | cons c rest =>
    have hc : isBlank c = false := by
      have hhead := List.head?_dropWhile_not isBlank cs
      rw [show cs.dropWhile isBlank = c :: rest from hstart] at hhead
      simpa using hhead
    exact ⟨c, rest, hc, by rw [trim, hstart, trimEnd_cons hc]⟩

theorem trim_trim (cs : List Char) : trim (trim cs) = trim cs := by
  by_cases h : trim cs = []
  · rw [h]
    rfl
  · obtain ⟨c, rest, hc, hcs⟩ := trim_eq_cons h
    have hstart : trimStart (c :: trimEnd rest) = c :: trimEnd rest :=
      List.dropWhile_cons_of_neg (by simp [hc])
    rw [hcs, trim, hstart, trimEnd_cons hc, trimEnd_trimEnd]

/-- Blank lines add blanks to the line in front of them. -/
theorem joinLines_cons_of_blank (cs : List Char) {ls : List (List Char)}
    (h : ∀ l ∈ ls, ∀ c ∈ l, isBlank c = true) :
    ∃ gap, joinLines (cs :: ls) = cs ++ gap ∧ ∀ c ∈ gap, isBlank c = true := by
  induction ls generalizing cs with
  | nil => exact ⟨[], by simp [joinLines], by simp⟩
  | cons l ls ih =>
    obtain ⟨gap, hgap, hblank⟩ := ih l fun l' hl' => h l' (List.mem_cons_of_mem l hl')
    refine ⟨'\n' :: (l ++ gap), ?_, ?_⟩
    · show ['\n'].intercalate (cs :: l :: ls) = cs ++ '\n' :: (l ++ gap)
      rw [List.intercalate_cons_cons, ← hgap, joinLines]
      simp
    · intro c hc
      rcases List.mem_cons.1 hc with rfl | hc
      · rfl
      · rcases List.mem_append.1 hc with hc | hc
        · exact h l List.mem_cons_self c hc
        · exact hblank c hc

end Text

/-! ### Keys of tags -/

namespace RawTag

/-- **Content that a tag gives** to a key. -/
def contentFor? (key : List Char) (tag : RawTag) : Option String :=
  if tag.keyAndContent.1 = key then some (String.ofList tag.keyAndContent.2) else none

theorem contentFor?_eq_some {tag : RawTag} {key content : List Char}
    (h : tag.keyAndContent = (key, content)) :
    tag.contentFor? key = some (String.ofList content) := by
  rw [contentFor?, h, if_pos rfl]

theorem contentUnder?_format {tag : RawTag} (h : tag.PlainName) {key : List Char} (hkey : key ≠ []) :
    contentUnder? (String.ofList key) tag.format = tag.contentFor? key := by
  rw [contentUnder?, readTagLine?_format h, contentFor?]
  by_cases hnil : tag.keyAndContent.1 = []
  · rw [if_pos hnil, if_neg (by rw [hnil]; exact hkey.symm)]
    rfl
  · rw [if_neg hnil, Option.bind_some]
    simp only [String.ofList_inj]

/-- The lines of tags give to a key what the tags give to it. -/
theorem filterMap_contentUnder? {tags : List RawTag} (h : ∀ tag ∈ tags, tag.PlainName)
    {key : List Char} (hkey : key ≠ []) :
    (tags.map format).filterMap (contentUnder? (String.ofList key)) =
      tags.filterMap (contentFor? key) := by
  rw [List.filterMap_map]
  apply List.filterMap_congr
  intro tag htag
  rw [Function.comp_apply, contentUnder?_format (h tag htag) hkey]

/-- A tag of another name gives nothing to a key without dots. -/
theorem contentFor?_eq_none {tag : RawTag} {key : List Char} (hname : tag.name.toList ≠ key)
    (hdot : '.' ∉ key) : tag.contentFor? key = none := by
  rw [contentFor?, if_neg]
  rw [keyAndContent]
  split
  · intro hkey
    apply hdot
    rw [← hkey]
    exact List.mem_append_right _ List.mem_cons_self
  · exact hname

end RawTag

/-! ### Tags of a comment -/

namespace DocComment

/-- The test of a name's character, with the table as a list. -/
theorem isNameChar_eq (c : Char) :
    isNameChar c = ((if c.toNat < 0x80 then c.isAlphanum
      else alphanumericRanges.toList.any fun r => r.1 ≤ c.toNat && c.toNat ≤ r.2) ||
        c == '_' || c == '$') := by
  rw [isNameChar, isAlphanumeric, inRanges, ← Array.any_toList]

/-- A blank is no character of a tag's name. -/
theorem isNameChar_of_isBlank {c : Char} (h : isBlank c = true) : isNameChar c = false := by
  have hcodes : ∀ n ∈ blankCodes, isNameChar (Char.ofNat n) = false := by
    simp only [isNameChar_eq]
    decide +kernel
  have hchar := hcodes c.toNat (toNat_mem_blankCodes h)
  rwa [Char.ofNat_toNat] at hchar

theorem name_readTag (afterAt : List Char) (continuation : List (List Char)) :
    (readTag afterAt continuation).name.toList = afterAt.takeWhile isNameChar :=
  String.toList_ofList

/-- The lines in front of the first tag line give no tag. -/
theorem readTags_dropWhile (ls : List (List Char)) :
    readTags (ls.dropWhile fun l => (tagLine? l).isNone) = readTags ls := by
  induction ls with
  | nil => rfl
  | cons l ls ih =>
    cases hl : tagLine? l with
    | some afterAt => rw [List.dropWhile_cons_of_neg (by simp [hl])]
    | none => rw [List.dropWhile_cons_of_pos (by simp [hl]), ih, readTags, hl]

theorem tags_parse (comment : String) :
    (parse comment).tags = readTags (cleanLines comment.toList) := by
  rw [parse, ofLines, readTags_dropWhile]

/-- **Tags of lines one after another**: those of the first lines have the names that these lines
write, and those of the last lines are as they are without the first. -/
theorem readTags_append (before ls : List (List Char)) :
    ∃ earlier, readTags (before ++ ls) = earlier ++ readTags ls ∧
      ∀ tag ∈ earlier, ∃ l ∈ before, ∃ afterAt, tagLine? l = some afterAt ∧
        tag.name.toList = afterAt.takeWhile isNameChar := by
  induction before with
  | nil => exact ⟨[], rfl, by simp⟩
  | cons l before ih =>
    obtain ⟨earlier, htags, hnames⟩ := ih
    have hrest : ∀ tag ∈ earlier, ∃ l' ∈ l :: before, ∃ afterAt, tagLine? l' = some afterAt ∧
        tag.name.toList = afterAt.takeWhile isNameChar := by
      intro tag htag
      obtain ⟨l', hl', hname⟩ := hnames tag htag
      exact ⟨l', List.mem_cons_of_mem l hl', hname⟩
    rw [List.cons_append, readTags]
    cases hl : tagLine? l with
    | none => exact ⟨earlier, htags, hrest⟩
    | some afterAt =>
      refine ⟨_ :: earlier, congrArg (List.cons _) htags, ?_⟩
      intro tag htag
      rcases List.mem_cons.1 htag with rfl | htag
      · exact ⟨l, List.mem_cons_self, afterAt, hl, name_readTag _ _⟩
      · exact hrest tag htag

/-- The tags of a comment have names without blanks. -/
theorem plainName_of_mem_parse {comment : String} {tag : RawTag} (h : tag ∈ (parse comment).tags) :
    tag.PlainName := by
  obtain ⟨earlier, htags, hnames⟩ := readTags_append (cleanLines comment.toList) []
  rw [List.append_nil, readTags, List.append_nil] at htags
  rw [tags_parse, htags] at h
  obtain ⟨-, -, afterAt, -, hname⟩ := hnames tag h
  intro c hc
  rw [hname] at hc
  have hchar := List.mem_takeWhile_imp hc
  by_contra hblank
  rw [isNameChar_of_isBlank (by simpa using hblank)] at hchar
  cases hchar

/-- **Default line** of a comment: the first tag line named `default`.  Blanks and a text follow the
name, and the lines up to the next tag are blank. -/
structure DefaultLine (before : List (List Char)) (line : List Char) (after : List (List Char))
    (gap text : List Char) : Prop where
  first : ∀ l ∈ before, ∀ afterAt, tagLine? l = some afterAt →
    afterAt.takeWhile isNameChar ≠ "default".toList
  opens : tagLine? line = some ("default".toList ++ gap ++ text)
  gap_ne_nil : gap ≠ []
  gap_blank : ∀ c ∈ gap, isBlank c = true
  text_not_blank : trim text ≠ []
  alone : ∀ l ∈ after.takeWhile fun l => (tagLine? l).isNone, ∀ c ∈ l, isBlank c = true

/-- **Tag of a default line**: it has the text without the blanks around it. -/
def defaultTag (text : List Char) : RawTag where
  name := "default"
  text := some (.plain (String.ofList (trim text)))

/-- A text that makes no key of its own is the content of its tag. -/
theorem keyAndContent_defaultTag_of_none {text : List Char} (h : splitSubkey? (trim text) = none) :
    (defaultTag text).keyAndContent = ("default".toList, trim text) := by
  have htext : (((defaultTag text).text.map TagText.toText).getD "").toList = trim text :=
    String.toList_ofList
  rw [RawTag.keyAndContent]
  simp only [htext, h, trim_trim]
  rfl

/-- A text that makes a key of its own adds it to the name of its tag. -/
theorem keyAndContent_defaultTag_of_some {text sub rest : List Char}
    (h : splitSubkey? (trim text) = some (sub, rest)) :
    (defaultTag text).keyAndContent = ("default".toList ++ '.' :: sub, trim rest) := by
  have htext : (((defaultTag text).text.map TagText.toText).getD "").toList = trim text :=
    String.toList_ofList
  rw [RawTag.keyAndContent]
  simp only [htext, h]
  rfl

theorem DefaultLine.readTag {before after : List (List Char)} {line gap text : List Char}
    (h : DefaultLine before line after gap text) :
    readTag ("default".toList ++ gap ++ text) (after.takeWhile fun l => (tagLine? l).isNone) =
      defaultTag text := by
  have hname : ∀ c ∈ "default".toList, isNameChar c = true :=
    List.all_eq_true.1 (by decide +kernel)
  obtain ⟨b, gap', rfl⟩ : ∃ b gap', gap = b :: gap' := List.exists_cons_of_ne_nil h.gap_ne_nil
  have hb : isNameChar b = false := isNameChar_of_isBlank (h.gap_blank b List.mem_cons_self)
  have htake : ("default".toList ++ (b :: gap') ++ text).takeWhile isNameChar = "default".toList := by
    rw [List.append_assoc, List.takeWhile_append_of_pos hname, List.cons_append,
      List.takeWhile_cons_of_neg (by simp [hb]), List.append_nil]
  have hdrop : ("default".toList ++ (b :: gap') ++ text).dropWhile isNameChar =
      (b :: gap') ++ text := by
    rw [List.append_assoc, List.dropWhile_append_of_pos hname, List.cons_append,
      List.dropWhile_cons_of_neg (by simp [hb])]
  obtain ⟨blanks, hjoin, hblanks⟩ := joinLines_cons_of_blank (trimStart text) h.alone
  obtain ⟨c, rest, hc, htext⟩ := trim_eq_cons h.text_not_blank
  have hkept : (trim text).dropWhile (· == '\n') = trim text := by
    have hne : c ≠ '\n' := by
      rintro rfl
      cases hc
    rw [htext, List.dropWhile_cons_of_neg (by simpa using hne)]
  rw [DocComment.readTag]
  simp only [htake, hdrop, trimStart_append_of_blank h.gap_blank, hjoin,
    trimEnd_append_of_blank _ hblanks]
  rw [← trim, hkept, if_neg (by simpa using h.text_not_blank)]
  rfl

/-- **Tags of a comment with a default line**: tags of other names, the tag of that line, and the tags of
the lines after it. -/
theorem DefaultLine.tags {comment : String} {before after : List (List Char)}
    {line gap text : List Char} (h : DefaultLine before line after gap text)
    (hlines : cleanLines comment.toList = before ++ line :: after) :
    ∃ earlier, (parse comment).tags = earlier ++ defaultTag text :: readTags after ∧
      ∀ tag ∈ earlier, tag.name.toList ≠ "default".toList := by
  obtain ⟨earlier, htags, hnames⟩ := readTags_append before (line :: after)
  refine ⟨earlier, ?_, ?_⟩
  · rw [tags_parse, hlines, htags, readTags, h.opens]
    simp only [h.readTag]
  · intro tag htag hname
    obtain ⟨l, hl, afterAt, hopens, hwritten⟩ := hnames tag htag
    rw [hwritten] at hname
    exact h.first l hl afterAt hopens hname

end DocComment

/-! ### Defaults of props -/

namespace Program

open DocComment

@[simp] theorem tags_memberProp (p : Program) (cwd : Path) (enums : Bool) (m : ScopedMember) :
    (p.memberProp cwd enums m).tags = .ofLines (m.member.doc.tags.map RawTag.format) :=
  rfl

/-- **The default of a member** is what the first tag with the key `default` gives. -/
theorem defaultValue_memberProp (p : Program) (cwd : Path) (enums : Bool) {m : ScopedMember}
    (h : ∀ tag ∈ m.member.doc.tags, tag.PlainName) :
    (p.memberProp cwd enums m).defaultValue =
      m.member.doc.tags.findSome? (RawTag.contentFor? "default".toList) := by
  have hcontents : (m.member.doc.tags.map RawTag.format).filterMap (contentUnder? "default") =
      m.member.doc.tags.filterMap (RawTag.contentFor? "default".toList) := by
    rw [← RawTag.filterMap_contentUnder? h (by decide), String.ofList_toList]
  have hlookup : (p.memberProp cwd enums m).defaultValue =
      ((p.memberProp cwd enums m).tags.get? "default").map TagValue.first := rfl
  rw [hlookup, tags_memberProp, TagMap.first_ofLines, ← List.head?_filterMap, hcontents,
    List.head?_filterMap]

/-- A key that a tag gives a content to is among the keys of the prop. -/
theorem contains_tags_memberProp (p : Program) (cwd : Path) (enums : Bool) {m : ScopedMember}
    (h : ∀ tag ∈ m.member.doc.tags, tag.PlainName) {key : List Char} (hkey : key ≠ [])
    {tag : RawTag} (htag : tag ∈ m.member.doc.tags) {content : List Char}
    (hgives : tag.keyAndContent = (key, content)) :
    (p.memberProp cwd enums m).tags.contains (String.ofList key) = true := by
  have hne : m.member.doc.tags.filterMap (RawTag.contentFor? key) ≠ [] :=
    List.ne_nil_of_mem (List.mem_filterMap.2 ⟨tag, htag, RawTag.contentFor?_eq_some hgives⟩)
  have hvalues := TagMap.values_ofLines (m.member.doc.tags.map RawTag.format) (String.ofList key)
  rw [RawTag.filterMap_contentUnder? h hkey, if_neg hne] at hvalues
  have hsome := congrArg Option.isSome hvalues
  rw [Option.isSome_map] at hsome
  rw [tags_memberProp, OrderedMap.contains, hsome]
  rfl

/-- **Documented defaults.** The text of a default line is the default of the prop, unless it starts with
a dot and a character that is no blank.  Such a text makes a key of its own, and the default is what the
tags of later lines give. -/
theorem documented_default (p : Program) (cwd : Path) (enums : Bool) (m : ScopedMember)
    (comment : String) (hdoc : m.member.doc = .parse comment) (before after : List (List Char))
    (line gap text : List Char) (hlines : cleanLines comment.toList = before ++ line :: after)
    (h : DefaultLine before line after gap text) :
    (splitSubkey? (trim text) = none →
      (p.memberProp cwd enums m).defaultValue = some (String.ofList (trim text))) ∧
    ∀ sub rest, splitSubkey? (trim text) = some (sub, rest) →
      (p.memberProp cwd enums m).defaultValue =
        (readTags after).findSome? (RawTag.contentFor? "default".toList) ∧
      (p.memberProp cwd enums m).tags.contains
        (String.ofList ("default".toList ++ '.' :: sub)) = true := by
  obtain ⟨earlier, htags, hnames⟩ := h.tags hlines
  rw [← hdoc] at htags
  have hplain : ∀ tag ∈ m.member.doc.tags, tag.PlainName := by
    rw [hdoc]
    intro tag htag
    exact plainName_of_mem_parse htag
  have hearlier : earlier.findSome? (RawTag.contentFor? "default".toList) = none := by
    rw [List.findSome?_eq_none_iff]
    intro tag htag
    exact RawTag.contentFor?_eq_none (hnames tag htag) (by decide)
  have hdefault : (p.memberProp cwd enums m).defaultValue =
      ((defaultTag text).contentFor? "default".toList).or
        ((readTags after).findSome? (RawTag.contentFor? "default".toList)) := by
    rw [defaultValue_memberProp p cwd enums hplain, htags, List.findSome?_append, hearlier,
      Option.none_or, List.findSome?_cons]
    cases (defaultTag text).contentFor? "default".toList <;> rfl
  constructor
  · intro hsub
    rw [hdefault, RawTag.contentFor?_eq_some (keyAndContent_defaultTag_of_none hsub), Option.some_or]
  · intro sub rest hsub
    have hwritten := keyAndContent_defaultTag_of_some hsub
    constructor
    · have hlonger : "default".toList ++ '.' :: sub ≠ "default".toList := by simp
      rw [hdefault, RawTag.contentFor?, hwritten, if_neg hlonger, Option.none_or]
    · apply contains_tags_memberProp p cwd enums hplain (by simp) _ hwritten
      rw [htags]
      exact List.mem_append_right _ List.mem_cons_self

/-- **Paces.** The default of the one is written with a digit in front of the point, that of the other
without. -/
def paces : Workspace where
  overlays := OrderedMap.empty.insert "/paces.ts" <|
    "export interface Pace \x7b\n/** @default 1.5 */ walk: number;\n" ++
      "/** @default .5 */ step: number \x7d"

/-- The symbol that the file exports. -/
def pace : ProgramSymbol :=
  .exported "/paces.ts" "Pace" (some { file := "/paces.ts", name := "Pace" })

/-- **The half step is lost.** Its point is taken for the start of a second part of the key. -/
theorem half_step_lost :
    ∃ p, build paces {} ["/paces.ts"] = .ok p ∧
      (∃ m ∈ p.properties (p.declaredType pace), m.name = "walk" ∧
        (p.memberProp "/" false m).defaultValue = some "1.5") ∧
      (∃ m ∈ p.properties (p.declaredType pace), m.name = "step" ∧
        (p.memberProp "/" false m).defaultValue = none ∧
        (p.memberProp "/" false m).tags.contains "default.5" = true) := by
  have hrun : (build paces {} ["/paces.ts"]).toOption.map
      (fun p => (p.properties (p.declaredType pace)).map fun m => (m.name, m.member.doc)) =
      some [("walk", .parse "/** @default 1.5 */"), ("step", .parse "/** @default .5 */")] := by
    decide +kernel
  obtain ⟨p, hbuild, hseen⟩ := exists_ok_of_toOption_map hrun
  have hmember : ∀ e ∈ [("walk", parse "/** @default 1.5 */"), ("step", parse "/** @default .5 */")],
      ∃ m ∈ p.properties (p.declaredType pace), m.name = e.1 ∧ m.member.doc = e.2 := by
    rw [← hseen]
    intro e he
    obtain ⟨m, hm, rfl⟩ := List.mem_map.1 he
    exact ⟨m, hm, rfl, rfl⟩
  refine ⟨p, hbuild, ?_, ?_⟩
  · obtain ⟨m, hm, hname, hdoc⟩ := hmember _ List.mem_cons_self
    have hline : DefaultLine [] "@default 1.5".toList [] [' '] "1.5".toList :=
      ⟨by simp, by decide +kernel, by simp, List.all_eq_true.1 rfl, by decide +kernel, by simp⟩
    have hlines : cleanLines "/** @default 1.5 */".toList = [] ++ "@default 1.5".toList :: [] := by
      decide +kernel
    have hdefault := documented_default p "/" false m _ hdoc _ _ _ _ _ hlines hline
    have hvalue : String.ofList (trim "1.5".toList) = "1.5" := by decide +kernel
    refine ⟨m, hm, hname, ?_⟩
    rw [hdefault.1 (by decide +kernel), hvalue]
  · obtain ⟨m, hm, hname, hdoc⟩ := hmember _ (List.mem_cons_of_mem _ List.mem_cons_self)
    have hline : DefaultLine [] "@default .5".toList [] [' '] ".5".toList :=
      ⟨by simp, by decide +kernel, by simp, List.all_eq_true.1 rfl, by decide +kernel, by simp⟩
    have hlines : cleanLines "/** @default .5 */".toList = [] ++ "@default .5".toList :: [] := by
      decide +kernel
    have hdefault := documented_default p "/" false m _ hdoc _ _ _ _ _ hlines hline
    obtain ⟨hlost, hkey⟩ := hdefault.2 "5".toList [] (by decide +kernel)
    have hdotted : String.ofList ("default".toList ++ '.' :: "5".toList) = "default.5" := by
      decide +kernel
    rw [hdotted] at hkey
    exact ⟨m, hm, hname, hlost, hkey⟩

end Program

end PropDocs
