import PropDocs.Extraction
import PropDocs.Proofs.EngineAgreement
import PropDocs.Proofs.FirstOccurrences
import PropDocs.Proofs.Loading

/-!
# Extraction file by file

The documents of a list of files are those of each file by itself, put together, with the first
document of each name kept.

* `Program.exists_build_iff`: a program can be built exactly when each of its roots can be loaded, so
  that the roots are buildable one by one;
* `Program.BuiltFrom.paths_subset`, `Program.BuiltFrom.agreeOn`: the program of one root is part of
  the program of all, and holds the same files;
* `Program.extractFile_of_build`: hence a file has the same documents in both;
* `ComponentDoc.dedupe_flatMap_dedupe`: repeats may be left out part by part;
* `extractFiles_eq_dedupe_parts`: the statement for files on disk.
-/

namespace PropDocs

/-! ### First of each name -/

namespace ComponentDoc

/-- **Repeats in parts.** Documents may lose the repeats of each part before those of the whole. -/
theorem dedupe_flatMap_dedupe {α : Type} (g : α → List ComponentDoc) (l : List α) :
    dedupe (l.flatMap fun x => dedupe (g x)) = dedupe (l.flatMap g) := by
  have hparts : SameFirsts exportName (l.flatMap fun x => dedupe (g x)) (l.flatMap g) := by
    apply SameFirsts.flatMap
    intro x _
    rw [dedupe_eq_firstsFrom]
    exact .firsts (g x)
  rw [dedupe_eq_firstsFrom, dedupe_eq_firstsFrom, hparts []]

end ComponentDoc

namespace Program

variable {w : Workspace} {options : CompilerOptions} {roots roots' : List Path} {p q : Program}

/-! ### When a program can be built -/

theorem exists_mapM_load_iff {ps : List Path} :
    (∃ ms, ps.mapM w.load = .ok ms) ↔ ∀ path ∈ ps, ∃ m, w.load path = .ok m := by
  constructor
  · rintro ⟨ms, hms⟩ path hpath
    obtain ⟨hpaths, hload⟩ := load_of_mapM hms
    rw [← hpaths] at hpath
    obtain ⟨m, hm, rfl⟩ := List.mem_map.1 hpath
    exact ⟨m, hload m hm⟩
  · intro h
    refine ⟨ps.map w.loadOrEmpty, mapM_eq_ok_map fun path hpath => ?_⟩
    obtain ⟨m, hm⟩ := h path hpath
    rw [Workspace.loadOrEmpty_of_load hm, hm]

/-- **Buildable roots.** A program is built exactly when every root can be loaded. -/
theorem exists_build_iff :
    (∃ p, build w options roots = .ok p) ↔
      ∀ r ∈ roots, ∃ m, w.load (Path.absolute w.disk.cwd r) = .ok m := by
  have hroots : (∃ p, build w options roots = .ok p) ↔ ∃ ms, loadRoots w roots = .ok ms := by
    rw [build]
    cases loadRoots w roots with
    | error e =>
      constructor
      · rintro ⟨p, h⟩
        cases h
      · rintro ⟨ms, h⟩
        cases h
    | ok ms => exact ⟨fun _ => ⟨ms, rfl⟩, fun _ => ⟨_, rfl⟩⟩
  rw [hroots, loadRoots, exists_mapM_load_iff, fresh_nil]
  simp only [List.mem_eraseDups, List.mem_map, forall_exists_index, and_imp,
    forall_apply_eq_imp_iff₂]

/-! ### Programs with fewer roots -/

theorem BuiltFrom.mem_paths_of_root (h : BuiltFrom w options roots p) {r : Path} (hr : r ∈ roots) :
    Path.absolute w.disk.cwd r ∈ p.paths :=
  h.roots_first.subset (List.mem_eraseDups.2 (List.mem_map_of_mem hr))

/-- **Fewer roots, fewer files.** A program whose roots are files of another one is part of it: a
file beyond the roots is a target of an earlier one, which is a file of both. -/
theorem BuiltFrom.paths_subset (hp : BuiltFrom w options roots p) (hq : BuiltFrom w options roots' q)
    (hroots : rootPaths w roots' ⊆ p.paths) : q.paths ⊆ p.paths := by
  have hplace : ∀ (i : Nat) (f : SourceFile), q.files[i]? = some f → f.path ∈ p.paths := by
    intro i
    induction i using Nat.strongRecOn with
    | ind i ih =>
      intro f hf
      by_cases hi : i < (rootPaths w roots').length
      · have hpath : q.paths[i]? = some f.path := by
          rw [paths, List.getElem?_map, hf]
          rfl
        obtain ⟨rest, hrest⟩ := hq.roots_first
        rw [← hrest, List.getElem?_append_left hi] at hpath
        exact hroots (List.mem_of_getElem? hpath)
      · obtain ⟨j, g, hj, hg, ht⟩ := hq.found i f hf (by omega)
        obtain ⟨hmem, -⟩ := mem_of_file? (hp.file?_eq (ih j hj g hg))
        rw [hq.file_eq g (List.mem_of_getElem? hg)] at ht
        exact hp.closed _ hmem _ ht
  intro path hpath
  obtain ⟨f, hf, rfl⟩ := List.mem_map.1 hpath
  obtain ⟨i, hi⟩ := List.getElem?_of_mem hf
  exact hplace i f hi

/-- **Programs of one workspace agree** on the files of the one with fewer roots. -/
theorem BuiltFrom.agreeOn (hp : BuiltFrom w options roots p) (hq : BuiltFrom w options roots' q)
    (hroots : rootPaths w roots' ⊆ p.paths) : AgreeOn p q (· ∈ q.paths) := by
  have hfile : ∀ path ∈ q.paths, p.file? path = q.file? path := by
    intro path hpath
    rw [hp.file?_eq (hp.paths_subset hq hroots hpath), hq.file?_eq hpath]
  exact
    { options_eq := by rw [hp.options_eq, hq.options_eq]
      file_eq := hfile
      closed := by
        intro path hpath s t hlink
        rw [linked?, hfile path hpath, hq.file?_eq hpath] at hlink
        obtain ⟨hmem, -⟩ := mem_of_file? (hq.file?_eq hpath)
        have hlink' : (linksOf w options (w.loadOrEmpty path)).lookup s = some t := hlink
        obtain ⟨l₁, l₂, hlinks, -⟩ := List.lookup_eq_some_iff.1 hlink'
        refine hq.closed _ hmem t ?_
        show t ∈ (linksOf w options (w.loadOrEmpty path)).map Prod.snd
        rw [hlinks]
        simp }

/-- **A file by itself.** The documents of a root are those it has in the program of that root. -/
theorem extractFile_of_build (hp : build w options roots = .ok p) {f : Path} (hf : f ∈ roots)
    (o : ExtractionOptions) :
    ∃ q, build w options [f] = .ok q ∧
      (p.engine w.disk.cwd).extractFile o f = (q.engine w.disk.cwd).extractFile o f := by
  have hload := exists_build_iff.1 ⟨p, hp⟩ f hf
  obtain ⟨q, hq⟩ : ∃ q, build w options [f] = .ok q :=
    exists_build_iff.2 (by simpa using hload)
  have hbp := builtFrom_of_build hp
  have hbq := builtFrom_of_build hq
  have hroots : rootPaths w [f] ⊆ p.paths := by
    intro path hpath
    obtain ⟨r, hr, rfl⟩ := List.mem_map.1 (List.mem_eraseDups.1 hpath)
    rw [List.mem_singleton.1 hr]
    exact hbp.mem_paths_of_root hf
  refine ⟨q, hq, ?_⟩
  exact ((hbp.agreeOn hbq hroots).engine w.disk.cwd).extractFile
    (hbq.mem_paths_of_root (List.mem_singleton_self f)) o

end Program

/-! ### Composition -/

/-- **Extraction file by file.** When the documents of a list of files can be made, so can those of
each file, and the former are the latter in order, the first of each name. -/
theorem extractFiles_eq_dedupe_parts (disk : FileSystem) (compiler : CompilerOptions)
    (options : ExtractionOptions) (files : List Path) (docs : List ComponentDoc)
    (h : extractFiles disk compiler options files = .ok docs) :
    ∃ parts : List (List ComponentDoc),
      files.mapM (fun f => extractFiles disk compiler options [f]) = .ok parts ∧
        docs = ComponentDoc.dedupe parts.flatten := by
  rw [extractFiles] at h
  cases hp : Program.build { disk } compiler files with
  | error e =>
    rw [hp] at h
    cases h
  | ok p =>
    rw [hp] at h
    obtain rfl : (p.engine disk.cwd).extract options files = docs := Except.ok.inj h
    have hpart : ∀ f ∈ files, extractFiles disk compiler options [f] =
        .ok (ComponentDoc.dedupe ((p.engine disk.cwd).extractFile options f)) := by
      intro f hf
      obtain ⟨q, hq, heq⟩ := Program.extractFile_of_build hp hf options
      rw [extractFiles, hq]
      show Except.ok (ComponentDoc.dedupe ([f].flatMap _)) = .ok (ComponentDoc.dedupe _)
      rw [List.flatMap_singleton, heq]
    refine ⟨_, Program.mapM_eq_ok_map hpart, ?_⟩
    rw [← List.flatMap_def, ComponentDoc.dedupe_flatMap_dedupe]
    rfl

/-- **Mutual pair.** Two files that import each other; the first also exports again all of the
second. -/
def mutualPair : FileSystem where
  files :=
    [("/a.ts", ("import { B } from './b';\nexport * from './b';\n" ++
        "export interface A extends B { x: string }").toUTF8),
      ("/b.ts", "import { A } from './a';\nexport interface B { y?: A }".toUTF8)]

/-- The second file is a dependency of the first and a root as well, and both have a document `B`. -/
theorem mutualPair_extractFiles :
    ∃ docs parts, extractFiles mutualPair {} {} ["/a.ts", "/b.ts"] = .ok docs ∧
      docs.map ComponentDoc.exportName = ["A", "B"] ∧
      ["/a.ts", "/b.ts"].mapM (fun f => extractFiles mutualPair {} {} [f]) = .ok parts ∧
      docs = ComponentDoc.dedupe parts.flatten := by
  have hrun : (extractFiles mutualPair {} {} ["/a.ts", "/b.ts"]).toOption.map
      (fun docs => docs.map ComponentDoc.exportName) = some ["A", "B"] := by decide +kernel
  cases hdocs : extractFiles mutualPair {} {} ["/a.ts", "/b.ts"] with
  | error e =>
    rw [hdocs] at hrun
    cases hrun
  | ok docs =>
    rw [hdocs] at hrun
    obtain ⟨parts, hparts, heq⟩ := extractFiles_eq_dedupe_parts _ _ _ _ docs hdocs
    exact ⟨docs, parts, rfl, Option.some.inj hrun, hparts, heq⟩

end PropDocs
