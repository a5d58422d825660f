import Mathlib.Data.List.Infix
import PropDocs.FileSystem
import PropDocs.Program.Specifier
import PropDocs.Proofs.NormalPaths

/-!
# Targets of specifiers

Whatever a specifier resolves to is a normal path or a relative one.  A normal path that leads to a
file is the very path under which the file system lists the file, so that the number of files bounds
the number of targets.

* `Specifier.mem_candidates`: the three forms of a candidate, with its extension;
* `Specifier.isNormal_of_resolve?`: an absolute target is normal, whatever the importing file is;
* `Specifier.isNormal_target`: unless the base directory is a relative path, every target of an
  absolute file is absolute, and then normal;
* `Specifier.exists_stem_of_mem_candidates`, `Specifier.candidates_sublist`: each candidate ends in
  one of the extensions, and with scripts allowed there are only more of them;
* `Specifier.targets_canonical`: hence what is known of a target;
* `FileSystem.mem_files_of_isFile`: a normal path that leads to a file is listed.
-/

namespace PropDocs.Specifier

open PropDocs.Path

theorem eq_withEnding_of_stem? {e : String} {p stem : Path} (h : stem? e p = some stem) :
    p = withEnding stem e := by
  rw [stem?, Option.map_eq_some_iff] at h
  obtain ⟨cs, hcs, rfl⟩ := h
  have hp : cs ++ '.' :: e.toList = p.toList := List.append_eq_of_isSuffixOf?_eq_some hcs
  apply String.toList_injective
  rw [← hp, withEnding, String.toList_append, String.toList_append, String.toList_ofList,
    List.append_assoc]
  rfl

/-- The endings of candidates: no slash, and at least two characters behind the dot. -/
def IsEnding (e : String) : Prop :=
  '/' ∉ e.toList ∧ 2 ≤ e.toList.length

theorem isEnding_of_mem_extensions {allowJs : Bool} {e : String} (h : e ∈ extensions allowJs) :
    IsEnding e := by
  have hall : e ∈ typedExtensions ++ scriptExtensions := by
    rw [extensions] at h
    cases allowJs <;> simp_all
  simp only [typedExtensions, scriptExtensions, List.cons_append, List.nil_append, List.mem_cons,
    List.not_mem_nil, or_false] at hall
  rcases hall with rfl | rfl | rfl | rfl | rfl <;> exact ⟨by decide, by decide⟩

theorem IsEnding.text {e : String} (h : IsEnding e) :
    '/' ∉ ("." ++ e).toList ∧ 3 ≤ ("." ++ e).toList.length := by
  rw [String.toList_append]
  refine ⟨?_, ?_⟩
  · rw [List.mem_append, not_or]
    exact ⟨by decide, h.1⟩
  · rw [List.length_append]
    have hdot : ".".toList.length = 1 := by decide
    have := h.2
    omega

theorem withEnding_eq (p : Path) (e : String) : withEnding p e = p ++ ("." ++ e) := by
  rw [withEnding, String.append_assoc]

theorem openEnd_withEnding {p : Path} {e : String} (he : IsEnding e) :
    OpenEnd (withEnding p e) ↔ OpenEnd p := by
  rw [withEnding_eq, openEnd_append he.text.1]

theorem isNormal_withEnding {p : Path} {e : String} (h : OpenEnd p) (he : IsEnding e) :
    IsNormal (withEnding p e) := by
  rw [withEnding_eq]
  exact isNormal_append h he.text.1 he.text.2

theorem isAbsolute_withEnding (p : Path) (e : String) :
    Path.isAbsolute (withEnding p e) = Path.isAbsolute p := by
  by_cases hp : p = ""
  · rw [hp, Path.isAbsolute, withEnding, String.toList_append, String.toList_append]
    rfl
  · rw [withEnding, String.append_assoc, isAbsolute_append hp]

theorem mem_extensions_of_typed {e : String} (allowJs : Bool) (h : e ∈ typedExtensions) :
    e ∈ extensions allowJs :=
  List.mem_append_left _ h

theorem exists_stem_of_endsIn {es : List String} {p : Path} (h : endsIn es p = true) :
    ∃ e ∈ es, ∃ stem, p = withEnding stem e := by
  obtain ⟨e, he, hstem⟩ := List.any_eq_true.1 h
  obtain ⟨stem, hstem⟩ := Option.isSome_iff_exists.1 hstem
  exact ⟨e, he, stem, eq_withEnding_of_stem? hstem⟩

/-- A source of a script differs from it in the ending only. -/
theorem mem_sourcesOfScript {base c : Path} (h : c ∈ sourcesOfScript base) :
    ∃ e ∈ typedExtensions, ∃ stem, c = withEnding stem e ∧
      ∃ e' ∈ scriptExtensions, base = withEnding stem e' := by
  cases hstem : stem? "js" base with
  | some stem =>
    rw [sourcesOfScript, hstem] at h
    obtain ⟨e, he, rfl⟩ := List.mem_map.1 h
    exact ⟨e, he, stem, rfl, "js", by decide, eq_withEnding_of_stem? hstem⟩
  | none =>
    cases hstem' : stem? "jsx" base with
    | some stem =>
      rw [sourcesOfScript, hstem, hstem'] at h
      rw [List.mem_singleton.1 h]
      exact ⟨"tsx", by decide, stem, rfl, "jsx", by decide, eq_withEnding_of_stem? hstem'⟩
    | none =>
      rw [sourcesOfScript, hstem, hstem'] at h
      exact absurd h List.not_mem_nil

/-- What a candidate is made from, and the extension that it ends in: the base path, when it ends in
one; the base path or what stands in front of its ending, with an ending; or a file of the directory
that the base path names. -/
theorem mem_candidates {allowJs : Bool} {base c : Path} (h : c ∈ candidates allowJs base) :
    ∃ e ∈ extensions allowJs,
      (c = base ∧ ∃ stem, base = withEnding stem e) ∨
      (∃ stem, c = withEnding stem e ∧
        (stem = base ∨ ∃ e', IsEnding e' ∧ base = withEnding stem e')) ∨
      c = join base (withEnding "index" e) := by
  simp only [candidates, List.mem_append, or_assoc] at h
  rcases h with h | h | h | h | h
  · split at h
    · next hends =>
      obtain ⟨e, he, hstem⟩ := exists_stem_of_endsIn hends
      exact ⟨e, mem_extensions_of_typed allowJs he, .inl ⟨List.mem_singleton.1 h, hstem⟩⟩
    · exact absurd h List.not_mem_nil
  · obtain ⟨e, he, stem, rfl, e', he', hbase⟩ := mem_sourcesOfScript h
    have hext : e' ∈ extensions true := List.mem_append_right _ he'
    exact ⟨e, mem_extensions_of_typed allowJs he,
      .inr (.inl ⟨stem, rfl, .inr ⟨e', isEnding_of_mem_extensions hext, hbase⟩⟩)⟩
  · split at h
    · next hends =>
      obtain ⟨hallow, hends⟩ := Bool.and_eq_true_iff.1 hends
      obtain ⟨e, he, hstem⟩ := exists_stem_of_endsIn hends
      rw [hallow]
      exact ⟨e, List.mem_append_right _ he, .inl ⟨List.mem_singleton.1 h, hstem⟩⟩
    · exact absurd h List.not_mem_nil
  · obtain ⟨e, he, rfl⟩ := List.mem_map.1 h
    exact ⟨e, he, .inr (.inl ⟨base, rfl, .inl rfl⟩)⟩
  · obtain ⟨e, he, rfl⟩ := List.mem_map.1 h
    exact ⟨e, he, .inr (.inr rfl)⟩

theorem isNormal_of_mem_candidates {allowJs : Bool} {base c : Path} (hb : IsNormal base)
    (h : c ∈ candidates allowJs base) : IsNormal c := by
  obtain ⟨e, he, hmade⟩ := mem_candidates h
  have hending := isEnding_of_mem_extensions he
  rcases hmade with ⟨rfl, -⟩ | ⟨stem, rfl, rfl | ⟨e', he', rfl⟩⟩ | rfl
  · exact hb
  · exact isNormal_withEnding hb.openEnd hending
  · exact isNormal_withEnding ((openEnd_withEnding he').1 hb.openEnd) hending
  · apply isNormal_join hb
    rw [withEnding_eq]
    exact plain_append (by decide) hending.text.1 hending.text.2

theorem not_isAbsolute_of_mem_candidates {allowJs : Bool} {base c : Path}
    (hb : Path.isAbsolute base = false) (hne : base ≠ "") (h : c ∈ candidates allowJs base) :
    Path.isAbsolute c = false := by
  obtain ⟨e, -, hmade⟩ := mem_candidates h
  rcases hmade with ⟨rfl, -⟩ | ⟨stem, rfl, rfl | ⟨e', he', rfl⟩⟩ | rfl
  · exact hb
  · rwa [isAbsolute_withEnding]
  · rwa [isAbsolute_withEnding] at hb ⊢
  · rw [isAbsolute_join_of_ne hne, hb]
    rw [isAbsolute_withEnding]
    decide

/-- Every candidate ends in one of the extensions. -/
theorem exists_stem_of_mem_candidates {allowJs : Bool} {base c : Path}
    (h : c ∈ candidates allowJs base) : ∃ e ∈ extensions allowJs, ∃ stem, c = withEnding stem e := by
  obtain ⟨e, he, hmade⟩ := mem_candidates h
  refine ⟨e, he, ?_⟩
  rcases hmade with ⟨rfl, hstem⟩ | ⟨stem, rfl, -⟩ | rfl
  · exact hstem
  · exact ⟨stem, rfl⟩
  · obtain ⟨front, hfront⟩ := exists_join_eq_append base (withEnding "index" e)
    exact ⟨front ++ "index", by rw [hfront, withEnding_eq, withEnding_eq, String.append_assoc]⟩

theorem base?_eq_normalize {options : CompilerOptions} {importer base : Path} {s : String}
    (h : base? options importer s = some base) : ∃ p, base = Path.normalize p := by
  rw [base?] at h
  split at h
  · obtain ⟨dir, -, rfl⟩ := Option.map_eq_some_iff.1 h
    exact ⟨_, rfl⟩
  · split at h
    · exact ⟨s, (Option.some.inj h).symm⟩
    · obtain ⟨dir, -, rfl⟩ := Option.map_eq_some_iff.1 h
      exact ⟨_, rfl⟩

/-- A target is a candidate of the base path. -/
theorem exists_base_of_resolve? {options : CompilerOptions} {present : Path → Bool}
    {importer target : Path} {s : String} (h : resolve? options present importer s = some target) :
    ∃ base, base? options importer s = some base ∧ target ∈ candidates options.allowJs base := by
  have hmem := List.mem_of_find?_eq_some h
  rw [lookupOrder] at hmem
  cases hbase : base? options importer s with
  | some base =>
    rw [hbase] at hmem
    exact ⟨base, rfl, hmem⟩
  | none =>
    rw [hbase] at hmem
    exact absurd hmem List.not_mem_nil

theorem isNormal_of_resolve? {options : CompilerOptions} {present : Path → Bool}
    {importer target : Path} {s : String} (h : resolve? options present importer s = some target)
    (ha : Path.isAbsolute target = true) : IsNormal target := by
  obtain ⟨base, hbase, hmem⟩ := exists_base_of_resolve? h
  obtain ⟨p, rfl⟩ := base?_eq_normalize hbase
  cases hp : Path.isAbsolute p with
  | true => exact isNormal_of_mem_candidates (isNormal_normalize hp) hmem
  | false =>
    obtain ⟨hrel, hne⟩ := not_isAbsolute_normalize hp
    rw [not_isAbsolute_of_mem_candidates hrel hne hmem] at ha
    cases ha

/-- **Absolute base.** The base directory of the options, when there is one, is an absolute path. -/
def AbsoluteBase (options : CompilerOptions) : Prop :=
  ∀ dir, options.baseUrl = some dir → Path.isAbsolute dir = true

theorem isNormal_base? {options : CompilerOptions} {importer base : Path} {s : String}
    (ho : AbsoluteBase options) (hi : Path.isAbsolute importer = true)
    (h : base? options importer s = some base) : IsNormal base := by
  rw [base?] at h
  split at h
  · obtain ⟨dir, hdir, rfl⟩ := Option.map_eq_some_iff.1 h
    exact isNormal_normalize (isAbsolute_join (isAbsolute_parent? hi hdir) s)
  · split at h
    · rename_i hs
      rw [← Option.some.inj h]
      exact isNormal_normalize hs
    · obtain ⟨dir, hdir, rfl⟩ := Option.map_eq_some_iff.1 h
      exact isNormal_normalize (isAbsolute_join (ho dir hdir) s)

/-- **Targets of absolute files.** -/
theorem isNormal_target {options : CompilerOptions} {present : Path → Bool}
    {importer target : Path} {s : String} (ho : AbsoluteBase options)
    (hi : Path.isAbsolute importer = true)
    (h : resolve? options present importer s = some target) : IsNormal target := by
  obtain ⟨base, hbase, hmem⟩ := exists_base_of_resolve? h
  exact isNormal_of_mem_candidates (isNormal_base? ho hi hbase) hmem

/-! ### Permitted targets -/

/-- **Permitted name** of a file to load: with types, or with scripts allowed also a script. -/
def Permitted (allowJs : Bool) (p : Path) : Prop :=
  ".ts".toList <:+ p.toList ∨ ".tsx".toList <:+ p.toList ∨
    (allowJs = true ∧ (".js".toList <:+ p.toList ∨ ".jsx".toList <:+ p.toList))

theorem permitted_withEnding {allowJs : Bool} {e : String} (he : e ∈ extensions allowJs)
    (stem : Path) : Permitted allowJs (withEnding stem e) := by
  have hends : ∀ ending : String, ending.toList <:+ ("." ++ e).toList →
      ending.toList <:+ (withEnding stem e).toList := by
    intro ending h
    rw [withEnding_eq, String.toList_append]
    exact h.trans (List.suffix_append _ _)
  rcases List.mem_append.1 he with he | he
  · simp only [typedExtensions, List.mem_cons, List.not_mem_nil, or_false] at he
    rcases he with rfl | rfl | rfl
    · exact .inl (hends _ (by decide))
    · exact .inr (.inl (hends _ (by decide)))
    · exact .inl (hends _ (by decide))
  · split at he
    · next hallow =>
      simp only [scriptExtensions, List.mem_cons, List.not_mem_nil, or_false] at he
      rcases he with rfl | rfl
      · exact .inr (.inr ⟨hallow, .inl (hends _ (by decide))⟩)
      · exact .inr (.inr ⟨hallow, .inr (hends _ (by decide))⟩)
    · exact absurd he List.not_mem_nil

/-- Every target has a permitted name. -/
theorem permitted_of_resolve? {options : CompilerOptions} {present : Path → Bool}
    {importer target : Path} {s : String} (h : resolve? options present importer s = some target) :
    Permitted options.allowJs target := by
  obtain ⟨base, -, hmem⟩ := exists_base_of_resolve? h
  obtain ⟨e, he, stem, rfl⟩ := exists_stem_of_mem_candidates hmem
  exact permitted_withEnding he stem

/-- With scripts allowed there are more candidates, and those without are in the same order. -/
theorem candidates_sublist (base : Path) :
    (candidates false base).Sublist (candidates true base) := by
  have hext : (extensions false).Sublist (extensions true) := by decide
  rw [candidates, candidates]
  refine ((List.Sublist.append ?_ ?_).append (hext.map _)).append (hext.map _)
  · exact .refl _
  · exact List.nil_sublist _

theorem resolve?_isSome_of_scripts (options : CompilerOptions) {present : Path → Bool}
    {importer : Path} {s : String}
    (h : (resolve? { options with allowJs := false } present importer s).isSome = true) :
    (resolve? { options with allowJs := true } present importer s).isSome = true := by
  have hbase : base? { options with allowJs := true } importer s =
      base? { options with allowJs := false } importer s := rfl
  rw [resolve?, lookupOrder] at h ⊢
  rw [hbase]
  cases hs : base? { options with allowJs := false } importer s with
  | some base =>
    rw [hs] at h
    exact (candidates_sublist base).find?_isSome h
  | none =>
    rw [hs] at h
    exact h

/-- **Targets are canonical.** For an absolute importing file, and a base directory that is absolute
or not given, let `present` say which files there are.  A target is present, absolute and in normal
form, and has a permitted name.  A specifier that is resolved without scripts is resolved with
scripts, too, though maybe to another file. -/
theorem targets_canonical (options : CompilerOptions) (present : Path → Bool) (importer : Path)
    (specifier : String) (ho : AbsoluteBase options) (hi : Path.isAbsolute importer = true) :
    (∀ target, resolve? options present importer specifier = some target →
      present target = true ∧ Path.isAbsolute target = true ∧ Path.normalize target = target ∧
        Permitted options.allowJs target) ∧
    ((resolve? { options with allowJs := false } present importer specifier).isSome = true →
      (resolve? { options with allowJs := true } present importer specifier).isSome = true) := by
  refine ⟨?_, resolve?_isSome_of_scripts options⟩
  intro target h
  have hnormal := isNormal_target ho hi h
  exact ⟨List.find?_some h, hnormal.isAbsolute, hnormal.normalize_eq, permitted_of_resolve? h⟩

/-- **Shelf.** The files of a project in which a script and a directory have one name. -/
def shelf (p : Path) : Bool :=
  p == "/lib.js" || p == "/lib/index.tsx"

/-- A specifier that climbs above the root, with a slash and a dot too many, has the script for its
target, or else the file in the directory. -/
theorem shelf_canonical :
    AbsoluteBase { allowJs := true } ∧ Path.isAbsolute "/src/app.ts" = true ∧
      resolve? { allowJs := true } shelf "/src/app.ts" "../..//../lib/." = some "/lib.js" ∧
      (shelf "/lib.js" = true ∧ Path.isAbsolute "/lib.js" = true ∧
        Path.normalize "/lib.js" = "/lib.js" ∧ Permitted true "/lib.js") ∧
      resolve? {} shelf "/src/app.ts" "../..//../lib/." = some "/lib/index.tsx" ∧
      (resolve? { allowJs := true } shelf "/src/app.ts" "../..//../lib/.").isSome = true := by
  have ho : AbsoluteBase { allowJs := true } := by
    rintro dir ⟨⟩
  have hi : Path.isAbsolute "/src/app.ts" = true := by decide
  have hscript : resolve? { allowJs := true } shelf "/src/app.ts" "../..//../lib/." =
      some "/lib.js" := by
    decide +kernel
  have htyped : resolve? {} shelf "/src/app.ts" "../..//../lib/." = some "/lib/index.tsx" := by
    decide +kernel
  obtain ⟨htarget, hsome⟩ :=
    targets_canonical { allowJs := true } shelf "/src/app.ts" "../..//../lib/." ho hi
  exact ⟨ho, hi, hscript, htarget _ hscript, htyped, hsome (by rw [htyped]; rfl)⟩

end PropDocs.Specifier

namespace PropDocs.FileSystem

open PropDocs.Path

theorem mem_files_of_walk {fs : FileSystem} {segments : List String} {bytes : ByteArray} :
    ∀ stack : List String, ".." ∉ segments → walk fs stack segments = .ok (.file bytes) →
      (pathOf (segments.reverse ++ stack), bytes) ∈ fs.files := by
  induction segments with
  | nil =>
    intro stack _ h
    simp [walk] at h
  | cons s rest ih =>
    intro stack hdots h
    obtain ⟨hs, hrest⟩ := List.ne_and_not_mem_of_not_mem_cons hdots
    rw [walk, if_neg fun e => hs e.symm] at h
    split at h
    · rename_i bytes' hfile
      split at h
      · rename_i hnil
        rw [List.isEmpty_iff.1 hnil]
        obtain rfl : bytes' = bytes := by simpa using h
        obtain ⟨f, hf, rfl⟩ := Option.map_eq_some_iff.1 hfile
        have hpath : f.1 = pathOf (s :: stack) := by simpa using List.find?_some hf
        rw [List.reverse_singleton, List.singleton_append, ← hpath]
        exact List.mem_of_find?_eq_some hf
      · simp at h
    · split at h
      · have := ih (s :: stack) hrest h
        rwa [List.reverse_cons, List.append_assoc, List.singleton_append]
      · simp at h

theorem mem_files_of_isFile {fs : FileSystem} {p : Path} (hp : IsNormal p)
    (h : fs.isFile p = true) : p ∈ fs.files.map Prod.fst := by
  rw [isFile] at h
  split at h
  · rename_i bytes hlookup
    rw [lookup] at hlookup
    have hwalk : walk fs [] (segments p) = .ok (.file bytes) := by
      rw [Path.join, hp.isAbsolute, if_pos rfl] at hlookup
      split at hlookup
      · simp at hlookup
      · split at hlookup
        · rename_i bytes' hwalk
          split at hlookup
          · simp at hlookup
          · rw [hwalk]
            exact hlookup
        · exact hlookup
    have hdots : ".." ∉ segments p := fun hmem => (hp.segments_plain ".." hmem).not_dots rfl
    have hmem := mem_files_of_walk [] hdots hwalk
    rw [List.append_nil, pathOf, List.reverse_reverse, ← hp.eq_join] at hmem
    exact List.mem_map_of_mem hmem
  · cases h

end PropDocs.FileSystem
