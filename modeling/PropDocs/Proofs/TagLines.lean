import Mathlib.Data.List.TakeWhile
import PropDocs.Proofs.FirstOccurrences
import PropDocs.TagMap

/-!
# Tag lines

A tag is written as one line, `@key content`, and lines are gathered in a map.  This file says what is
read from a line and what becomes of many lines, without the scanning and without the map's steps.

* `plainRun_eq_iff`: a text divided in front of its first blank;
* `IsTagLine`: a key without blanks between `@` and one space, and whatever follows as its content;
* `IsSubkey`: a dot and the longest run of characters without blanks, at the start of a text;
* `tag_lines_read_back`: exactly the tag lines are read, each in one way; and the line of a tag gives
  back its name, with the subkey of its text if there is one, and the rest of the text;
* `TagMap.get?_ofOccurrences`, `TagMap.values_ofLines`: what stands under a key of a map;
* `TagMap.GroupsByKey`: a map has the keys of some occurrences, each once, and all their contents;
* `TagMap.grouped_by_key`: occurrences that are added one by one, and lines that are read one by one,
  are grouped by their keys.
-/

namespace PropDocs

open Text

/-! ### Lines -/

/-- **Run without blanks.** A text is divided in front of its first blank. -/
theorem plainRun_eq_iff {cs run rest : List Char} :
    ((cs.takeWhile fun c => !isBlank c) = run ∧ (cs.dropWhile fun c => !isBlank c) = rest) ↔
      cs = run ++ rest ∧ (∀ c ∈ run, isBlank c = false) ∧ ∀ c ∈ rest.head?, isBlank c = true := by
  constructor
  · rintro ⟨rfl, rfl⟩
    refine ⟨List.takeWhile_append_dropWhile.symm, ?_, ?_⟩
    · intro c hc
      simpa using List.mem_takeWhile_imp hc
    · intro c hc
      have hhead := List.head?_dropWhile_not (fun c => !isBlank c) cs
      rw [Option.mem_def.1 hc] at hhead
      simpa using hhead
  · rintro ⟨rfl, hrun, hrest⟩
    have hrun' : ∀ c ∈ run, (!isBlank c) = true := by
      intro c hc
      rw [hrun c hc]
      rfl
    rw [List.takeWhile_append_of_pos hrun', List.dropWhile_append_of_pos hrun']
    cases rest with
    | nil => simp
    | cons c rest =>
      have hc : isBlank c = true := hrest c rfl
      rw [List.takeWhile_cons_of_neg (by simp [hc]), List.dropWhile_cons_of_neg (by simp [hc]),
        List.append_nil]
      exact ⟨rfl, rfl⟩

/-- **Tag line.** A key without blanks stands between `@` and one space, and a content follows. -/
structure IsTagLine (line key content : String) : Prop where
  written : line = "@" ++ key ++ " " ++ content
  key_ne_empty : key ≠ ""
  key_plain : ∀ c ∈ key.toList, isBlank c = false

/-- **Reading a line.** The lines that are read are the tag lines. -/
theorem readTagLine?_eq_some_iff {line key content : String} :
    readTagLine? line = some (key, content) ↔ IsTagLine line key content := by
  constructor
  · intro h
    rw [readTagLine?.eq_def] at h
    split at h
    · next cs hline =>
      simp only [Option.ite_none_left_eq_some] at h
      obtain ⟨hne, h⟩ := h
      split at h
      · next rest hrest =>
        simp only [Option.some.injEq, Prod.mk.injEq] at h
        obtain ⟨hkey, rfl⟩ := h
        rw [← String.toList_inj, String.toList_ofList] at hkey
        obtain ⟨rfl, hplain, -⟩ := plainRun_eq_iff.1 ⟨hkey, hrest⟩
        refine ⟨?_, ?_, hplain⟩
        · rw [← String.toList_inj, hline]
          simp
        · rintro rfl
          exact hne (by rw [hkey]; rfl)
      · cases h
    · cases h
  · rintro ⟨rfl, hne, hplain⟩
    have hspace : ∀ c ∈ (' ' :: content.toList).head?, isBlank c = true := by
      rintro c ⟨⟩
      rfl
    obtain ⟨hkey, hrest⟩ := plainRun_eq_iff.2 ⟨rfl, hplain, hspace⟩
    have hline : ("@" ++ key ++ " " ++ content).toList =
        '@' :: (key.toList ++ ' ' :: content.toList) := by
      simp
    rw [readTagLine?, hline]
    simp only [hkey, hrest, List.isEmpty_iff]
    simp [hne]

/-! ### Keys of tags -/

/-- **Subkey** of a text: after a dot, the characters up to the first blank or to the end. -/
structure IsSubkey (text sub rest : List Char) : Prop where
  written : text = '.' :: sub ++ rest
  sub_ne_nil : sub ≠ []
  sub_plain : ∀ c ∈ sub, isBlank c = false
  longest : ∀ c ∈ rest.head?, isBlank c = true

theorem splitSubkey?_eq_some_iff {text sub rest : List Char} :
    splitSubkey? text = some (sub, rest) ↔ IsSubkey text sub rest := by
  constructor
  · intro h
    rw [splitSubkey?.eq_def] at h
    split at h
    · next cs =>
      simp only [Option.ite_none_left_eq_some, Option.some.injEq, Prod.mk.injEq] at h
      obtain ⟨hne, hsub, hrest⟩ := h
      obtain ⟨rfl, hplain, hstop⟩ := plainRun_eq_iff.1 ⟨hsub, hrest⟩
      exact ⟨rfl, fun hnil => hne (by rw [hsub, hnil]; rfl), hplain, hstop⟩
    · cases h
  · rintro ⟨rfl, hne, hplain, hstop⟩
    obtain ⟨hsub, hrest⟩ := plainRun_eq_iff.2 ⟨rfl, hplain, hstop⟩
    rw [List.cons_append, splitSubkey?]
    simp only [hsub, hrest, List.isEmpty_iff]
    exact if_neg hne

namespace RawTag

/-- The name of a tag has no blanks, like every name that a comment gives. -/
def PlainName (tag : RawTag) : Prop :=
  ∀ c ∈ tag.name.toList, isBlank c = false

instance (tag : RawTag) : Decidable tag.PlainName :=
  List.decidableBAll (fun c => isBlank c = false) tag.name.toList

/-- The text of a tag; that of a bare tag is empty. -/
def renderedText (tag : RawTag) : List Char :=
  ((tag.text.map TagText.toText).getD "").toList

theorem keyAndContent_of_isSubkey {tag : RawTag} {sub rest : List Char}
    (h : IsSubkey tag.renderedText sub rest) :
    tag.keyAndContent = (tag.name.toList ++ '.' :: sub, trim rest) := by
  rw [renderedText, ← splitSubkey?_eq_some_iff] at h
  rw [keyAndContent]
  simp only [h]

theorem keyAndContent_of_not_isSubkey {tag : RawTag}
    (h : ∀ sub rest, ¬ IsSubkey tag.renderedText sub rest) :
    tag.keyAndContent = (tag.name.toList, trim tag.renderedText) := by
  have hnone : splitSubkey? tag.renderedText = none := by
    rw [Option.eq_none_iff_forall_ne_some]
    rintro ⟨sub, rest⟩ hsome
    exact h sub rest (splitSubkey?_eq_some_iff.1 hsome)
  rw [renderedText] at hnone ⊢
  rw [keyAndContent]
  simp only [hnone]

/-- The key of a tag has no blanks if the name has none. -/
theorem PlainName.key {tag : RawTag} (h : tag.PlainName) :
    ∀ c ∈ tag.keyAndContent.1, isBlank c = false := by
  by_cases hsub : ∃ sub rest, IsSubkey tag.renderedText sub rest
  · obtain ⟨sub, rest, hsub⟩ := hsub
    rw [keyAndContent_of_isSubkey hsub]
    intro c hc
    rcases List.mem_append.1 hc with hc | hc
    · exact h c hc
    · rcases List.mem_cons.1 hc with rfl | hc
      · rfl
      · exact hsub.sub_plain c hc
  · simp only [not_exists] at hsub
    rw [keyAndContent_of_not_isSubkey hsub]
    exact h

/-- **The line of a tag** is read back as its key and its content. -/
theorem readTagLine?_format {tag : RawTag} (h : tag.PlainName) :
    readTagLine? tag.format =
      if tag.keyAndContent.1 = [] then none
      else some (String.ofList tag.keyAndContent.1, String.ofList tag.keyAndContent.2) := by
  have hspace : ∀ c ∈ (' ' :: tag.keyAndContent.2).head?, isBlank c = true := by
    rintro c ⟨⟩
    rfl
  obtain ⟨hkey, hrest⟩ := plainRun_eq_iff.2 ⟨rfl, h.key, hspace⟩
  rw [readTagLine?, format, String.toList_ofList, List.cons_append]
  simp only [hkey, hrest, List.isEmpty_iff]

end RawTag

/-- **Tag lines are read back as they were written.** A line is read if and only if it is a tag line,
and then as its key and its content, of which a line has only one pair.  The line of a tag is read as
the tag's name and text; a subkey of the text goes to the name, and blanks at the ends of what is left
are dropped. -/
theorem tag_lines_read_back :
    (∀ line key content,
      readTagLine? line = some (key, content) ↔ IsTagLine line key content) ∧
    (∀ line key content key' content', IsTagLine line key content → IsTagLine line key' content' →
      key = key' ∧ content = content') ∧
    ∀ tag : RawTag, tag.name ≠ "" → tag.PlainName →
      (∀ sub rest, IsSubkey tag.renderedText sub rest →
        readTagLine? tag.format =
          some (tag.name ++ "." ++ String.ofList sub, String.ofList (trim rest))) ∧
      ((∀ sub rest, ¬ IsSubkey tag.renderedText sub rest) →
        readTagLine? tag.format = some (tag.name, String.ofList (trim tag.renderedText))) := by
  refine ⟨fun _ _ _ => readTagLine?_eq_some_iff, ?_, ?_⟩
  · intro line key content key' content' h h'
    rw [← readTagLine?_eq_some_iff] at h h'
    rw [h] at h'
    exact Prod.mk.inj (Option.some.inj h')
  · intro tag hname hplain
    have hne : tag.name.toList ≠ [] := by simpa using hname
    rw [RawTag.readTagLine?_format hplain]
    constructor
    · intro sub rest hsub
      rw [RawTag.keyAndContent_of_isSubkey hsub, if_neg (by simp)]
      simp [← String.toList_inj]
    · intro hsub
      rw [RawTag.keyAndContent_of_not_isSubkey hsub, if_neg hne, String.ofList_toList]

/-- **Slot tag.** Its text comes in two parts; the subkey runs across them, up to a no-break space. -/
def slotTag : RawTag where
  name := "slot"
  text := some (.parts [".hea", "der\u00a0 the top row "])

/-- **Step tag.** Its text is a dot that no subkey follows. -/
def stepTag : RawTag where
  name := "step"
  text := some (.plain ". 5")

/-- The subkey of the slot tag goes to its name, and the step tag keeps its dot. -/
theorem slotTag_read_back :
    readTagLine? slotTag.format = some ("slot.header", "the top row") ∧
      readTagLine? stepTag.format = some ("step", ". 5") ∧
      IsTagLine "@since 2 or 3" "since" "2 or 3" := by
  obtain ⟨hlines, -, htags⟩ := tag_lines_read_back
  have hsub : IsSubkey slotTag.renderedText "header".toList "\u00a0 the top row ".toList :=
    splitSubkey?_eq_some_iff.1 (by decide)
  have hdot : ∀ sub rest, ¬ IsSubkey stepTag.renderedText sub rest := by
    intro sub rest h
    have hnone : splitSubkey? stepTag.renderedText = none := by decide
    rw [← splitSubkey?_eq_some_iff, hnone] at h
    cases h
  refine ⟨?_, ?_, (hlines _ _ _).1 (by decide)⟩
  · exact (htags slotTag (by decide) (by decide)).1 _ _ hsub
  · exact (htags stepTag (by decide) (by decide)).2 hdot

/-! ### Contents of a tag map -/

/-- The content a line gives to a key. -/
def contentUnder? (key line : String) : Option String :=
  (readTagLine? line).bind fun e => if e.1 = key then some e.2 else none

namespace TagValue

/-- **Value of contents**: the content of a key seen once, or the contents of a key seen several
times. -/
def ofContents? : List String → Option TagValue
  | [] => none
  | [content] => some (.single content)
  | content :: next :: rest => some (.multiple (content :: next :: rest))

theorem ofContents?_concat (contents : List String) (content : String) :
    ofContents? (contents ++ [content]) =
      some (((ofContents? contents).map (push content)).getD (.single content)) := by
  match contents with
  | [] => rfl
  | [_] => rfl
  | _ :: _ :: _ => rfl

theorem values_ofContents? (contents : List String) :
    (ofContents? contents).map values = if contents = [] then none else some contents := by
  match contents with
  | [] => rfl
  | [_] => rfl
  | _ :: _ :: _ => rfl

theorem first_ofContents? (contents : List String) :
    (ofContents? contents).map first = contents.head? := by
  match contents with
  | [] => rfl
  | [_] => rfl
  | _ :: _ :: _ => rfl

end TagValue

namespace TagMap

/-- The map to which occurrences are added one after another; each is a key with a content. -/
def ofOccurrences (occurrences : List (String × String)) : TagMap :=
  occurrences.foldl (fun m e => m.add e.1 e.2) .empty

/-- The contents with which a key occurs. -/
def contentsUnder (key : String) (occurrences : List (String × String)) : List String :=
  occurrences.filterMap fun e => if e.1 = key then some e.2 else none

theorem contentsUnder_concat (key : String) (occurrences : List (String × String))
    (e : String × String) :
    contentsUnder key (occurrences ++ [e]) =
      contentsUnder key occurrences ++ if e.1 = key then [e.2] else [] := by
  rw [contentsUnder, List.filterMap_append, ← contentsUnder]
  by_cases he : e.1 = key <;> simp [he]

/-- **Value of a key**: that of the contents with which it occurs, in order. -/
theorem get?_ofOccurrences (occurrences : List (String × String)) (key : String) :
    (ofOccurrences occurrences).get? key =
      TagValue.ofContents? (contentsUnder key occurrences) := by
  induction occurrences using List.reverseRecOn with
  | nil => rfl
  | append_singleton occurrences e ih =>
    have hadd : ofOccurrences (occurrences ++ [e]) = (ofOccurrences occurrences).add e.1 e.2 := by
      simp only [ofOccurrences, List.foldl_append, List.foldl_cons, List.foldl_nil]
    rw [hadd, add, OrderedMap.get?_alter, contentsUnder_concat]
    by_cases he : e.1 = key
    · rw [if_pos he.symm, if_pos he, he, ih, TagValue.ofContents?_concat]
      cases TagValue.ofContents? (contentsUnder key occurrences) <;> rfl
    · rw [if_neg (Ne.symm he), if_neg he, ih, List.append_nil]

/-- Lines are read one after another, and those that cannot be split add nothing. -/
theorem ofLines_eq_ofOccurrences (ls : List String) :
    ofLines ls = ofOccurrences (ls.filterMap readTagLine?) := by
  rw [ofLines, ofOccurrences, List.foldl_filterMap]
  congr
  funext m line
  rw [addLine]
  cases readTagLine? line <;> rfl

/-- The contents that lines give to a key are those of the occurrences that the lines stand for. -/
theorem contentsUnder_filterMap (key : String) (ls : List String) :
    contentsUnder key (ls.filterMap readTagLine?) = ls.filterMap (contentUnder? key) :=
  List.filterMap_filterMap

/-- **Contents of a tag map.** Under a key stand the contents that the lines give to it, in order. -/
theorem values_ofLines (ls : List String) (key : String) :
    ((ofLines ls).get? key).map TagValue.values =
      if ls.filterMap (contentUnder? key) = [] then none
      else some (ls.filterMap (contentUnder? key)) := by
  rw [ofLines_eq_ofOccurrences, get?_ofOccurrences, contentsUnder_filterMap,
    TagValue.values_ofContents?]

/-- The first content under a key is that of the first line that gives one. -/
theorem first_ofLines (ls : List String) (key : String) :
    ((ofLines ls).get? key).map TagValue.first = ls.findSome? (contentUnder? key) := by
  rw [ofLines_eq_ofOccurrences, get?_ofOccurrences, contentsUnder_filterMap,
    TagValue.first_ofContents?, List.head?_filterMap]

/-! ### Groups -/

/-- **Value of given contents.** It holds all of them in order, as one content if there is only one,
and otherwise as several, which are two at least. -/
structure IsValueOf (contents : List String) (v : TagValue) : Prop where
  values : v.values = contents
  first : some v.first = contents.head?
  single_iff : (∃ content, v = .single content) ↔ contents.length = 1
  multiple_iff : (∃ several, v = .multiple several) ↔ 2 ≤ contents.length

/-- Contents that are not missing altogether have a value. -/
theorem exists_isValueOf {contents : List String} (h : contents ≠ []) :
    ∃ v, TagValue.ofContents? contents = some v ∧ IsValueOf contents v := by
  match contents with
  | [] => exact absurd rfl h
  | [content] => exact ⟨.single content, rfl, rfl, rfl, by simp, by simp⟩
  | content :: next :: rest =>
    exact ⟨.multiple (content :: next :: rest), rfl, rfl, rfl, by simp, by simp⟩

/-- **Grouping by keys.** The keys of a map are those of the occurrences, each where it occurred first.
Under a key stand the contents of all its occurrences. -/
structure GroupsByKey (m : TagMap) (occurrences : List (String × String)) : Prop where
  keys : m.keys = (occurrences.map Prod.fst).eraseDups
  value : ∀ key ∈ m.keys, ∃ v, m.get? key = some v ∧ IsValueOf (contentsUnder key occurrences) v
  absent : ∀ key, key ∉ m.keys → m.get? key = none

theorem groupsByKey_ofOccurrences (occurrences : List (String × String)) :
    GroupsByKey (ofOccurrences occurrences) occurrences := by
  have hkeys : (ofOccurrences occurrences).keys = (occurrences.map Prod.fst).eraseDups :=
    OrderedMap.keys_foldl_alter Prod.fst _ occurrences
  have hmem : ∀ key, key ∈ (ofOccurrences occurrences).keys ↔
      contentsUnder key occurrences ≠ [] := by
    intro key
    rw [hkeys, List.mem_eraseDups]
    simp [contentsUnder]
  refine ⟨hkeys, ?_, ?_⟩
  · intro key hkey
    rw [get?_ofOccurrences]
    exact exists_isValueOf ((hmem key).1 hkey)
  · intro key hkey
    rw [hmem, not_not] at hkey
    rw [get?_ofOccurrences, hkey]
    rfl

/-- **Tag maps group by key.** Occurrences that are added one after another to the empty map, whatever
their keys and contents are, are grouped by their keys.  So are the occurrences that lines stand for;
a line that cannot be split stands for none. -/
theorem grouped_by_key :
    (∀ occurrences, GroupsByKey (occurrences.foldl (fun m e => m.add e.1 e.2) .empty) occurrences) ∧
      ∀ ls, GroupsByKey (ofLines ls) (ls.filterMap readTagLine?) := by
  refine ⟨groupsByKey_ofOccurrences, ?_⟩
  intro ls
  rw [ofLines_eq_ofOccurrences]
  exact groupsByKey_ofOccurrences _

example : (ofLines ["@see a", "@slot b", "@ see c", "@see d"]).entries =
    [("see", .multiple ["a", "d"]), ("slot", .single "b")] := by decide

end TagMap

end PropDocs
