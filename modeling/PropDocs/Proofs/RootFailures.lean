import PropDocs.Program.Symbols
import PropDocs.Proofs.Worklist

/-!
# Failures of roots and of dependencies

Roots and dependencies are loaded in the same way, but only a root that does not load is an error.  A
dependency that does not load becomes a file without contents.

* `Workspace.LoadFails`: the four reasons for which there is no module at a path, each with its
  error; `Workspace.load_eq_error_iff` says that these are all;
* `FirstFailure`: the error of the first path of a list that does not load.  Leaving out repeats does
  not change it (`mapM_fresh_eq_error_iff`), because a path that comes again has loaded before;
* `SourceFile.Inert`: a file without contents.  Nothing is loaded through it;
* `BrokenHarmless`: what becomes of the dependencies of a program that do not load;
* `build_fails_only_at_roots`: both together.
-/

namespace PropDocs

open PropDocs.Path

/-! ### Why a path does not load -/

namespace Workspace

/-- **Failure to load** the module at a path. -/
inductive LoadFails (w : Workspace) (path : Path) : LoadError → Prop where
  /-- There is nothing at the path. -/
  | missing : w.present path = false → LoadFails w path (.fileNotFound path)
  /-- There is a file that cannot be read, and no text in memory takes its place. -/
  | unreadable {cause : ReadFailure} : w.overlays.contains path = false →
      w.disk.isFile path = true → w.disk.read path = .error cause → LoadFails w path (.io cause)
  /-- There is a text, but the path cannot name a source. -/
  | invalidPath {text : String} : w.text path = .ok text → Path.isAbsolute path = false →
      LoadFails w path (.invalidPath path)
  /-- There is a text, but it is no source. -/
  | unparsable {text : String} : w.text path = .ok text → Path.isAbsolute path = true →
      Source.parseModule? (Source.Dialect.ofPath path) text = none →
      LoadFails w path (.sourceSyntax path)

variable {w : Workspace} {path : Path} {e : LoadError}

theorem load_of_text_error (h : w.text path = .error e) : w.load path = .error e := by
  rw [load, h]
  rfl

theorem load_of_text_ok {text : String} (h : w.text path = .ok text) :
    w.load path = SourceModule.ofText path text := by
  rw [load, h]
  rfl

theorem text_of_contains_eq_false (h : w.overlays.contains path = false) :
    w.text path =
      if w.disk.isFile path then (w.disk.read path).mapError .io
      else .error (.fileNotFound path) := by
  rw [OrderedMap.contains, Option.isSome_eq_false_iff, Option.isNone_iff_eq_none] at h
  rw [text, h]
  cases w.disk.read path with
  | ok text => rfl
  | error cause => rfl

theorem LoadFails.load_eq (h : w.LoadFails path e) : w.load path = .error e := by
  cases h with
  | missing hpresent =>
    rw [present, Bool.or_eq_false_iff] at hpresent
    apply load_of_text_error
    rw [text_of_contains_eq_false hpresent.1, hpresent.2]
    rfl
  | unreadable hnone hfile hread =>
    apply load_of_text_error
    rw [text_of_contains_eq_false hnone, if_pos hfile, hread]
    rfl
  | invalidPath htext habs =>
    rw [load_of_text_ok htext, SourceModule.ofText, habs]
    rfl
  | unparsable htext habs hparse => rw [load_of_text_ok htext, SourceModule.ofText, if_pos habs, hparse]

theorem loadFails_of_load_eq (h : w.load path = .error e) : w.LoadFails path e := by
  cases htext : w.text path with
  | error e' =>
    obtain rfl : e' = e := Except.error.inj ((load_of_text_error htext).symm.trans h)
    cases hnone : w.overlays.contains path with
    | true =>
      obtain ⟨held, hget⟩ := Option.isSome_iff_exists.1 hnone
      have hget' : w.overlays.get? path = some held := hget
      rw [text, hget'] at htext
      cases htext
    | false =>
      rw [text_of_contains_eq_false hnone] at htext
      cases hfile : w.disk.isFile path with
      | false =>
        rw [hfile] at htext
        obtain rfl : LoadError.fileNotFound path = e' := Except.error.inj htext
        exact .missing (by rw [present, hnone, hfile]; rfl)
      | true =>
        rw [if_pos hfile] at htext
        cases hread : w.disk.read path with
        | ok text =>
          rw [hread] at htext
          cases htext
        | error cause =>
          rw [hread] at htext
          obtain rfl : LoadError.io cause = e' := Except.error.inj htext
          exact .unreadable hnone hfile hread
  | ok text =>
    rw [load_of_text_ok htext, SourceModule.ofText] at h
    split at h
    · rename_i habs
      split at h
      · cases h
      · rename_i hparse
        obtain rfl : LoadError.sourceSyntax path = e := Except.error.inj h
        exact .unparsable htext habs hparse
    · rename_i habs
      obtain rfl : LoadError.invalidPath path = e := Except.error.inj h
      exact .invalidPath htext (by simpa using habs)

theorem load_eq_error_iff : w.load path = .error e ↔ w.LoadFails path e :=
  ⟨loadFails_of_load_eq, LoadFails.load_eq⟩

end Workspace

namespace Program

variable {w : Workspace} {options : CompilerOptions} {roots : List Path} {p : Program}

/-! ### The first failing root -/

/-- **First failure.** The first path of a list that does not load, and its error. -/
inductive FirstFailure (w : Workspace) : List Path → LoadError → Prop where
  | here {path : Path} {ps : List Path} {e : LoadError} :
      w.LoadFails path e → FirstFailure w (path :: ps) e
  | later {path : Path} {ps : List Path} {e : LoadError} {m : SourceModule} :
      w.load path = .ok m → FirstFailure w ps e → FirstFailure w (path :: ps) e

theorem firstFailure_cons_of_ok {path : Path} {ps : List Path} {e : LoadError} {m : SourceModule}
    (h : w.load path = .ok m) : FirstFailure w (path :: ps) e ↔ FirstFailure w ps e := by
  constructor
  · intro hfirst
    cases hfirst with
    | here hfails =>
      rw [hfails.load_eq] at h
      cases h
    | later _ hrest => exact hrest
  · exact .later h

theorem firstFailure_cons_of_error {path : Path} {ps : List Path} {e e' : LoadError}
    (h : w.load path = .error e') : FirstFailure w (path :: ps) e ↔ e' = e := by
  constructor
  · intro hfirst
    cases hfirst with
    | here hfails => exact Except.error.inj (h.symm.trans hfails.load_eq)
    | later hok _ =>
      rw [h] at hok
      cases hok
  · rintro rfl
    exact .here (Workspace.load_eq_error_iff.1 h)

theorem exists_firstFailure_iff {ps : List Path} :
    (∃ e, FirstFailure w ps e) ↔ ∃ path ∈ ps, ∃ e, w.LoadFails path e := by
  induction ps with
  | nil =>
    constructor
    · rintro ⟨e, h⟩
      cases h
    · rintro ⟨path, h, -⟩
      cases h
  | cons path ps ih =>
    cases hload : w.load path with
    | error e =>
      have hfails := Workspace.load_eq_error_iff.1 hload
      exact iff_of_true ⟨e, .here hfails⟩ ⟨path, List.mem_cons_self, e, hfails⟩
    | ok m =>
      have hok : ¬ ∃ e, w.LoadFails path e := by
        rintro ⟨e, hfails⟩
        rw [hfails.load_eq] at hload
        cases hload
      simp only [firstFailure_cons_of_ok hload, ih, List.mem_cons, exists_eq_or_imp, hok, false_or]

/-- **Repeats do not matter**: paths that are known have loaded, so leaving them out leaves out no
failure. -/
theorem mapM_fresh_eq_error_iff {e : LoadError} (ps : List Path) :
    ∀ known : List Path, (∀ q ∈ known, ∃ m, w.load q = .ok m) →
      ((fresh known ps).mapM w.load = .error e ↔ FirstFailure w ps e) := by
  induction ps with
  | nil =>
    intro known _
    constructor
    · intro h
      cases h
    · intro h
      cases h
  | cons path ps ih =>
    intro known hknown
    rw [fresh]
    by_cases hmem : path ∈ known
    · obtain ⟨m, hload⟩ := hknown path hmem
      rw [if_pos (List.contains_iff_mem.2 hmem), ih known hknown, firstFailure_cons_of_ok hload]
    · rw [if_neg (by simpa using hmem), List.mapM_cons]
      cases hload : w.load path with
      | error e' =>
        rw [firstFailure_cons_of_error hload]
        exact ⟨Except.error.inj, congrArg Except.error⟩
      | ok m =>
        have hknown' : ∀ q ∈ known ++ [path], ∃ m, w.load q = .ok m := by
          intro q hq
          rcases List.mem_append.1 hq with hq | hq
          · exact hknown q hq
          · rw [List.mem_singleton.1 hq]
            exact ⟨m, hload⟩
        rw [firstFailure_cons_of_ok hload, ← ih (known ++ [path]) hknown']
        cases (fresh (known ++ [path]) ps).mapM w.load with
        | error e' => exact Iff.rfl
        | ok ms =>
          constructor
          · intro h
            cases h
          · intro h
            cases h

theorem build_eq_error_iff {e : LoadError} :
    build w options roots = .error e ↔
      FirstFailure w (roots.map (Path.absolute w.disk.cwd)) e := by
  rw [← mapM_fresh_eq_error_iff _ [] (by simp), build, loadRoots]
  cases (fresh [] (roots.map (Path.absolute w.disk.cwd))).mapM w.load with
  | error e' =>
    constructor
    · intro h
      exact congrArg Except.error (Except.error.inj h)
    · intro h
      exact congrArg Except.error (Except.error.inj h)
  | ok start =>
    constructor
    · intro h
      cases h
    · intro h
      cases h

/-! ### Files without contents -/

/-- **Inert file**: no module, nothing in it, and no links. -/
structure Inert (f : SourceFile) : Prop where
  not_module : f.module.isModule = false
  declarations : f.module.declarations = .empty
  imports : f.module.imports = .empty
  exports : f.module.exports = []
  starExports : f.module.starExports = []
  specifiers : f.module.specifiers = []
  links : f.links = []

theorem inert_fileAt {path : Path} {e : LoadError} (h : w.LoadFails path e) :
    Inert (fileAt w options path) := by
  have hempty : w.loadOrEmpty path = { path } := by
    rw [Workspace.loadOrEmpty, h.load_eq]
  rw [fileAt, hempty]
  exact ⟨rfl, rfl, rfl, rfl, rfl, rfl, rfl⟩

/-! ### Broken dependencies -/

/-- **Broken dependencies do no harm** in a program with the given roots. -/
structure BrokenHarmless (w : Workspace) (options : CompilerOptions) (roots : List Path)
    (p : Program) : Prop where
  /-- A dependency that does not load is a file of the program under its own path. -/
  present : ∀ g ∈ p.files, ∀ s ∈ g.module.specifiers, ∀ t e,
    Specifier.resolve? options w.present g.path s = some t → w.LoadFails t e →
    ∃ f ∈ p.files, f.path = t
  /-- A file that does not load is inert. -/
  inert : ∀ f ∈ p.files, ∀ e, w.LoadFails f.path e → Inert f
  /-- Every file beyond the roots was found through one that did load. -/
  found : ∀ i f, p.files[i]? = some f →
    (roots.map (Path.absolute w.disk.cwd)).eraseDups.length ≤ i →
    ∃ j g s m, j < i ∧ p.files[j]? = some g ∧ w.load g.path = .ok m ∧ g.module = m ∧
      s ∈ m.specifiers ∧ Specifier.resolve? options w.present g.path s = some f.path
  /-- A file that does not load has no module symbol under its path, if that is absolute. -/
  no_symbol : ∀ f ∈ p.files, ∀ e, w.LoadFails f.path e → Path.isAbsolute f.path = true →
    p.module? w.disk.cwd f.path = none
  /-- All paths are absolute when the base directory is absent or absolute. -/
  absolute : (∀ dir, options.baseUrl = some dir → Path.isAbsolute dir = true) →
    ∀ f ∈ p.files, Path.isAbsolute f.path = true

/-- An absolute path of a program is normalised: it is that of a root or of a target. -/
theorem BuiltFrom.isNormal_path (h : BuiltFrom w options roots p) {f : SourceFile}
    (hf : f ∈ p.files) (habs : Path.isAbsolute f.path = true) : IsNormal f.path := by
  obtain ⟨i, hi⟩ := List.getElem?_of_mem hf
  by_cases hroot : i < (rootPaths w roots).length
  · have hpath : p.paths[i]? = some f.path := by
      rw [paths, List.getElem?_map, hi]
      rfl
    obtain ⟨rest, hrest⟩ := h.roots_first
    rw [← hrest, List.getElem?_append_left hroot] at hpath
    exact h.roots_normal _ (List.mem_of_getElem? hpath)
  · obtain ⟨j, g, -, -, ht⟩ := h.found i f hi (by omega)
    obtain ⟨s, -, hr⟩ := mem_targets_iff.1 ht
    exact Specifier.isNormal_of_resolve? hr habs

theorem brokenHarmless_of_build (h : build w options roots = .ok p) :
    BrokenHarmless w options roots p := by
  have hb := builtFrom_of_build h
  have hinert : ∀ f ∈ p.files, ∀ e, w.LoadFails f.path e → Inert f := by
    intro f hf e hfails
    rw [hb.file_eq f hf]
    exact inert_fileAt hfails
  refine ⟨?_, hinert, ?_, ?_, ?_⟩
  · intro g hg s hs t e hr _
    have ht : t ∈ p.paths := hb.closed g hg t (mem_targets_iff.2 ⟨s, hs, hr⟩)
    exact List.mem_map.1 ht
  · intro i f hf hi
    obtain ⟨j, g, hj, hg, ht⟩ := hb.found i f hf hi
    obtain ⟨s, hs, hr⟩ := mem_targets_iff.1 ht
    have hmem : g ∈ p.files := List.mem_of_getElem? hg
    cases hload : w.load g.path with
    | error e =>
      -- a file that does not load mentions no specifiers
      rw [(hinert g hmem e (Workspace.load_eq_error_iff.1 hload)).specifiers] at hs
      cases hs
    | ok m =>
      have hmodule : g.module = m := by
        rw [hb.file_eq g hmem]
        exact Workspace.loadOrEmpty_of_load hload
      exact ⟨j, g, s, m, hj, hg, hload, hmodule, hmodule ▸ hs, hr⟩
  · intro f hf e hfails habs
    have hpath : Path.absolute w.disk.cwd f.path = f.path := by
      rw [Path.absolute, if_pos habs]
      exact (hb.isNormal_path hf habs).normalize_eq
    rw [module?, hpath, hb.file?_eq (List.mem_map_of_mem hf)]
    show (if (fileAt w options f.path).module.isModule = true then _ else none) = none
    rw [(inert_fileAt hfails).not_module]
    rfl
  · intro ho f hf
    exact (path_mem_existing ho h f hf).1

/-- **Only roots can make a program fail.** Building fails exactly when a root does not load, with
the error of the first one that does not; and in a program that is built, dependencies that do not
load do no harm. -/
theorem build_fails_only_at_roots (w : Workspace) (options : CompilerOptions)
    (roots : List Path) :
    ((∃ e, build w options roots = .error e) ↔
        ∃ r ∈ roots, ∃ e, w.LoadFails (Path.absolute w.disk.cwd r) e) ∧
      (∀ e, build w options roots = .error e ↔
        FirstFailure w (roots.map (Path.absolute w.disk.cwd)) e) ∧
      ∀ p, build w options roots = .ok p → BrokenHarmless w options roots p := by
  refine ⟨?_, fun e => build_eq_error_iff, fun p => brokenHarmless_of_build⟩
  simp only [build_eq_error_iff, exists_firstFailure_iff, List.mem_map, exists_exists_and_eq_and]

/-- **Patchy workspace.** A source that depends on a text that is no source. -/
def patchy : Workspace where
  overlays := OrderedMap.empty
    |>.insert "/ok.ts" "import './broken';\nexport interface P { x: string }"
    |>.insert "/broken.ts" "import './ok';\nexport interface \x7b"

/-- As a dependency the broken text is a file without a symbol.  As a root it is an error, but not
the first one when a root that is missing stands in front of it. -/
theorem patchy_failures :
    (∃ p, build patchy {} ["/ok.ts", "/./ok.ts"] = .ok p ∧ p.paths = ["/ok.ts", "/broken.ts"] ∧
      BrokenHarmless patchy {} ["/ok.ts", "/./ok.ts"] p ∧ p.module? "/" "/broken.ts" = none) ∧
    build patchy {} ["/ok.ts", "/gone.ts", "/broken.ts"] = .error (.fileNotFound "/gone.ts") := by
  have hrun : (build patchy {} ["/ok.ts", "/./ok.ts"]).toOption.map paths =
      some ["/ok.ts", "/broken.ts"] := by decide +kernel
  constructor
  · cases hbuild : build patchy {} ["/ok.ts", "/./ok.ts"] with
    | error e =>
      rw [hbuild] at hrun
      cases hrun
    | ok p =>
      rw [hbuild] at hrun
      have hpaths : p.paths = ["/ok.ts", "/broken.ts"] := Option.some.inj hrun
      have hharmless := (build_fails_only_at_roots patchy {} ["/ok.ts", "/./ok.ts"]).2.2 p hbuild
      have hmem : "/broken.ts" ∈ p.paths := by
        rw [hpaths]
        decide
      obtain ⟨f, hf, hpath⟩ := List.mem_map.1 hmem
      have hfails : patchy.LoadFails f.path (.sourceSyntax f.path) := by
        rw [hpath]
        refine .unparsable rfl (by decide) ?_
        exact Option.isNone_iff_eq_none.1 (by decide +kernel)
      have hnone := hharmless.no_symbol f hf _ hfails (by rw [hpath]; decide)
      rw [hpath] at hnone
      exact ⟨p, rfl, hpaths, hharmless, hnone⟩
  · obtain ⟨m, hok⟩ : ∃ m, patchy.load "/ok.ts" = .ok m := by
      cases hload : patchy.load "/ok.ts" with
      | error e =>
        have hsome : (patchy.load "/ok.ts").toOption.isSome = true := by decide +kernel
        rw [hload] at hsome
        cases hsome
      | ok m => exact ⟨m, rfl⟩
    have hgone : patchy.LoadFails "/gone.ts" (.fileNotFound "/gone.ts") :=
      .missing (by decide +kernel)
    exact ((build_fails_only_at_roots patchy {} ["/ok.ts", "/gone.ts", "/broken.ts"]).2.1 _).2
      (.later hok (.here hgone))

/-- **Relative base.** A file that is a root, and is imported through a base directory that is not
absolute. -/
def relativeBase : Workspace where
  disk :=
    { files :=
        [("/lib/a.ts", "export interface A { x: string }".toUTF8),
          ("/main.ts", "import { A } from 'a';\nexport interface Panel { a: A }".toUTF8)] }

/-- The dependency `lib/a.ts` does not load, for its path is not absolute.  Yet there is a module symbol
under that path: paths are made absolute before they are looked up, and the root is found. -/
theorem relativeBase_symbol :
    ∃ p, build relativeBase { baseUrl := some "lib" } ["lib/a.ts", "main.ts"] = .ok p ∧
      p.paths = ["/lib/a.ts", "/main.ts", "lib/a.ts"] ∧
      p.linked? "/main.ts" "a" = some "lib/a.ts" ∧
      relativeBase.LoadFails "lib/a.ts" (.invalidPath "lib/a.ts") ∧
      p.module? relativeBase.disk.cwd "lib/a.ts" ≠ none := by
  have hrun : (build relativeBase { baseUrl := some "lib" } ["lib/a.ts", "main.ts"]).toOption.map
      (fun p => (p.paths, p.linked? "/main.ts" "a",
        (p.module? relativeBase.disk.cwd "lib/a.ts").isSome)) =
        some (["/lib/a.ts", "/main.ts", "lib/a.ts"], some "lib/a.ts", true) := by decide +kernel
  have htext : relativeBase.text "lib/a.ts" = .ok "export interface A { x: string }" := by
    decide +kernel
  cases hbuild : build relativeBase { baseUrl := some "lib" } ["lib/a.ts", "main.ts"] with
  | error e =>
    rw [hbuild] at hrun
    cases hrun
  | ok p =>
    rw [hbuild] at hrun
    obtain ⟨hpaths, hlink, hsome⟩ : p.paths = ["/lib/a.ts", "/main.ts", "lib/a.ts"] ∧
        p.linked? "/main.ts" "a" = some "lib/a.ts" ∧
        (p.module? relativeBase.disk.cwd "lib/a.ts").isSome = true := by
      simpa [Except.toOption] using hrun
    refine ⟨p, rfl, hpaths, hlink, .invalidPath htext (by decide), ?_⟩
    intro hnone
    rw [hnone] at hsome
    cases hsome

end Program

end PropDocs
