import PropDocs.Program.Build
import PropDocs.Proofs.MentionedSpecifiers
import PropDocs.Proofs.SpecifierTargets

/-!
# Loading all files

A program is loaded generation by generation, and the loop has a bound on the number of its rounds.
This file shows that the bound is never what stops it, and says what a built program holds.

* `Workspace.load_ok`, `Workspace.mentions_loadOrEmpty`: what is known of one loaded module;
* `Stage`: the invariant of the loop.  `Stage.next` is one round, `Stage.expand` all of them.  Each
  round that does not end the loop takes a new place of the workspace, so the number of places not
  seen yet is enough fuel;
* `loadRoots_ok`: the loop starts from the distinct roots, and they satisfy the invariant;
* `BuiltFrom`: a built program described **by path**.  Its file at a path is `fileAt`, which the
  roots do not enter, so two programs of one workspace have the same file at a path they share.
-/

namespace PropDocs

open PropDocs.Path

/-! ### Places -/

namespace Workspace

/-- **Places.** The paths under which texts in memory and files are listed. -/
def places (w : Workspace) : List Path :=
  w.overlays.keys ++ w.disk.files.map Prod.fst

theorem length_places (w : Workspace) : w.places.length = w.size := by
  simp [places, size, OrderedMap.keys, Entries.keys]

theorem mem_places {w : Workspace} {path : Path} (hn : IsNormal path)
    (h : w.present path = true) : path ∈ w.places := by
  rw [present, Bool.or_eq_true] at h
  rcases h with h | h
  · exact List.mem_append_left _ (OrderedMap.mem_keys_of_contains h)
  · exact List.mem_append_right _ (FileSystem.mem_files_of_isFile hn h)

theorem present_of_text {w : Workspace} {path : Path} {text : String}
    (h : w.text path = .ok text) : w.present path = true := by
  rw [present, Bool.or_eq_true]
  rw [Workspace.text] at h
  split at h
  · rename_i text' hget
    left
    rw [OrderedMap.contains, hget]
    rfl
  · split at h
    · rename_i hfile
      exact .inr hfile
    · cases h

/-- **Loading a module.** A module that loads keeps its path and lists what it mentions; its path is
absolute and present. -/
theorem load_ok {w : Workspace} {path : Path} {m : SourceModule} (h : w.load path = .ok m) :
    m.path = path ∧ m.Mentions ∧ Path.isAbsolute path = true ∧ w.present path = true := by
  rw [load] at h
  cases htext : w.text path with
  | error e =>
    rw [htext] at h
    cases h
  | ok text =>
    rw [htext] at h
    change SourceModule.ofText path text = .ok m at h
    rw [SourceModule.ofText] at h
    split at h
    · rename_i habs
      split at h
      · rename_i items _
        obtain rfl : SourceModule.ofItems path items = m := by simpa using h
        exact ⟨SourceModule.path_ofItems path items, SourceModule.mentions_ofItems path items, habs,
          present_of_text htext⟩
      · cases h
    · cases h

theorem loadOrEmpty_of_load {w : Workspace} {path : Path} {m : SourceModule}
    (h : w.load path = .ok m) : w.loadOrEmpty path = m := by
  rw [loadOrEmpty, h]

theorem path_loadOrEmpty (w : Workspace) (path : Path) : (w.loadOrEmpty path).path = path := by
  rw [loadOrEmpty]
  split
  · rename_i m h
    exact (load_ok h).1
  · rfl

theorem mentions_loadOrEmpty (w : Workspace) (path : Path) : (w.loadOrEmpty path).Mentions := by
  rw [loadOrEmpty]
  split
  · rename_i m h
    exact (load_ok h).2.1
  · exact SourceModule.mentions_empty path

theorem isAbsolute_of_specifiers {w : Workspace} {path : Path}
    (h : (w.loadOrEmpty path).specifiers ≠ []) : Path.isAbsolute path = true := by
  rw [loadOrEmpty] at h
  split at h
  · rename_i m hload
    exact (load_ok hload).2.2.1
  · exact absurd rfl h

end Workspace

namespace Program

/-! ### Distinct paths -/

theorem fresh_eq_eraseDups (known ps : List Path) :
    fresh known ps = (ps.filter fun q => !known.contains q).eraseDups := by
  induction ps generalizing known with
  | nil => rfl
  | cons q ps ih =>
    rw [fresh]
    split
    · rename_i hq
      rw [ih, List.filter_cons_of_neg (by simpa using hq)]
    · rename_i hq
      rw [ih, List.filter_cons_of_pos (by simpa using hq), List.eraseDups_cons, List.filter_filter]
      congr 3
      funext r
      by_cases hr : r = q <;> simp [hr]

theorem fresh_nil (ps : List Path) : fresh [] ps = ps.eraseDups := by
  rw [fresh_eq_eraseDups, List.filter_eq_self.2 (by simp)]

theorem mem_fresh {known ps : List Path} {q : Path} : q ∈ fresh known ps ↔ q ∈ ps ∧ q ∉ known := by
  rw [fresh_eq_eraseDups, List.mem_eraseDups, List.mem_filter]
  simp

theorem nodup_fresh (known ps : List Path) : (fresh known ps).Nodup := by
  induction ps generalizing known with
  | nil => exact List.nodup_nil
  | cons q ps ih =>
    rw [fresh]
    split
    · exact ih known
    · rw [List.nodup_cons]
      refine ⟨fun hq => ?_, ih _⟩
      exact (mem_fresh.1 hq).2 (by simp)

/-! ### Generations -/

section

variable {w : Workspace} {options : CompilerOptions}

/-- **Targets.** The paths that the specifiers of a module stand for. -/
def targets (w : Workspace) (options : CompilerOptions) (m : SourceModule) : List Path :=
  (linksOf w options m).map Prod.snd

theorem mem_targets_iff {m : SourceModule} {t : Path} :
    t ∈ targets w options m ↔
      ∃ s ∈ m.specifiers, Specifier.resolve? options w.present m.path s = some t := by
  simp only [targets, linksOf, List.mem_map, List.mem_filterMap, Option.map_eq_some_iff]
  constructor
  · rintro ⟨l, ⟨s, hs, t', ht, rfl⟩, rfl⟩
    exact ⟨s, hs, ht⟩
  · rintro ⟨s, hs, ht⟩
    exact ⟨(s, t), ⟨s, hs, t, ht, rfl⟩, rfl⟩

/-- **Stage of loading.** What holds of the modules `done ++ last` after any number of generations
that began with `start`. -/
structure Stage (w : Workspace) (options : CompilerOptions) (start done last : List SourceModule) :
    Prop where
  /-- The modules that loading began with come first. -/
  start_first : start <+: done ++ last
  /-- No path is loaded twice. -/
  nodup : ((done ++ last).map SourceModule.path).Nodup
  /-- A module is what its path alone determines. -/
  loaded : ∀ m ∈ done ++ last, m = w.loadOrEmpty m.path
  /-- A module with specifiers has a text of its own. -/
  placed : ∀ m ∈ done ++ last, m.specifiers ≠ [] → m.path ∈ w.places
  /-- What the modules of earlier generations depend on is there. -/
  closed : ∀ m ∈ done, ∀ t ∈ targets w options m, t ∈ (done ++ last).map SourceModule.path
  /-- A module that loading did not begin with is a target of one before it. -/
  found : ∀ front m back, done ++ last = front ++ m :: back → start.length ≤ front.length →
    ∃ m' ∈ front, m.path ∈ targets w options m'

theorem map_path_nextGeneration (known last : List SourceModule) :
    (nextGeneration w options known last).map SourceModule.path =
      fresh (known.map SourceModule.path) (last.flatMap (targets w options)) := by
  rw [nextGeneration, List.map_map]
  apply List.map_id''
  intro t
  exact w.path_loadOrEmpty t

theorem mem_nextGeneration {known last : List SourceModule} {m : SourceModule}
    (h : m ∈ nextGeneration w options known last) :
    m = w.loadOrEmpty m.path ∧ m.path ∉ known.map SourceModule.path ∧
      ∃ m' ∈ last, m.path ∈ targets w options m' := by
  obtain ⟨t, ht, rfl⟩ := List.mem_map.1 h
  obtain ⟨hmem, hnew⟩ := mem_fresh.1 ht
  rw [w.path_loadOrEmpty t]
  exact ⟨rfl, hnew, List.mem_flatMap.1 hmem⟩

/-- A target that is loaded and mentions specifiers is listed as a place. -/
theorem mem_places_of_target {m m' : SourceModule} (ht : m.path ∈ targets w options m')
    (hm : m = w.loadOrEmpty m.path) (hs : m.specifiers ≠ []) : m.path ∈ w.places := by
  obtain ⟨s, -, hr⟩ := mem_targets_iff.1 ht
  have habs : Path.isAbsolute m.path = true := Workspace.isAbsolute_of_specifiers (hm ▸ hs)
  exact Workspace.mem_places (Specifier.isNormal_of_resolve? hr habs) (List.find?_some hr)

/-- **One generation** keeps the invariant.  Only `found` looks at the order of the modules: a module
is either one of the new generation, and then a target of the last one, or it was there before. -/
theorem Stage.next {start done last : List SourceModule} (h : Stage w options start done last) :
    Stage w options start (done ++ last) (nextGeneration w options (done ++ last) last) where
  start_first := h.start_first.trans (List.prefix_append _ _)
  nodup := by
    rw [List.map_append, List.nodup_append, map_path_nextGeneration]
    refine ⟨h.nodup, nodup_fresh _ _, ?_⟩
    intro t ht t' ht' heq
    exact (mem_fresh.1 ht').2 (heq ▸ ht)
  loaded := by
    intro m hm
    rcases List.mem_append.1 hm with hm | hm
    · exact h.loaded m hm
    · exact (mem_nextGeneration hm).1
  placed := by
    intro m hm hs
    rcases List.mem_append.1 hm with hm | hm
    · exact h.placed m hm hs
    · obtain ⟨hload, -, m', -, ht⟩ := mem_nextGeneration hm
      exact mem_places_of_target ht hload hs
  closed := by
    intro m hm t ht
    rw [List.map_append, List.mem_append, map_path_nextGeneration, mem_fresh]
    by_cases hknown : t ∈ (done ++ last).map SourceModule.path
    · exact .inl hknown
    · rcases List.mem_append.1 hm with hm | hm
      · exact .inl (h.closed m hm t ht)
      · exact .inr ⟨List.mem_flatMap.2 ⟨m, hm, ht⟩, hknown⟩
  found := by
    intro front m back heq hlen
    rcases List.append_eq_append_iff.1 heq with ⟨new, hfront, hnext⟩ | ⟨old, hdone, hback⟩
    · have hm : m ∈ nextGeneration w options (done ++ last) last := by
        rw [hnext]
        exact List.mem_append_right _ List.mem_cons_self
      obtain ⟨-, -, m', hm', ht⟩ := mem_nextGeneration hm
      refine ⟨m', ?_, ht⟩
      rw [hfront]
      exact List.mem_append_left _ (List.mem_append_right _ hm')
    · cases old with
      | nil =>
        have hm : m ∈ nextGeneration w options (done ++ last) last := by
          rw [List.nil_append] at hback
          rw [← hback]
          exact List.mem_cons_self
        obtain ⟨-, -, m', hm', ht⟩ := mem_nextGeneration hm
        refine ⟨m', ?_, ht⟩
        rw [List.append_nil] at hdone
        rw [← hdone]
        exact List.mem_append_right _ hm'
      | cons m'' old =>
        obtain ⟨rfl, -⟩ : m = m'' ∧ back = old ++ _ := by simpa using hback
        exact h.found front m old hdone hlen

theorem nextGeneration_eq_nil {known last : List SourceModule}
    (h : ∀ m ∈ last, m.specifiers = []) : nextGeneration w options known last = [] := by
  have hnone : last.flatMap (targets w options) = [] := by
    rw [List.flatMap_eq_nil_iff]
    intro m hm
    rw [targets, linksOf, h m hm]
    rfl
  have hpaths : (nextGeneration w options known last).map SourceModule.path =
      fresh (known.map SourceModule.path) (last.flatMap (targets w options)) :=
    map_path_nextGeneration known last
  rw [hnone] at hpaths
  exact List.map_eq_nil_iff.1 hpaths

/-- A generation without specifiers is the last one, whatever fuel is left. -/
theorem expand_of_no_specifiers (fuel : Nat) (done last : List SourceModule)
    (h : ∀ m ∈ last, m.specifiers = []) : expand w options fuel done last = done ++ last := by
  cases fuel with
  | zero => rfl
  | succ fuel =>
    cases last with
    | nil => rw [expand, List.append_nil]
    | cons m ms =>
      rw [expand, nextGeneration_eq_nil h]
      cases fuel with
      | zero => rw [expand, List.append_nil]
      | succ fuel => rw [expand]

theorem Stage.finish {start done last : List SourceModule} (h : Stage w options start done last)
    (hlast : ∀ m ∈ last, m.specifiers = []) : Stage w options start (done ++ last) [] := by
  have hnext := h.next
  rwa [nextGeneration_eq_nil hlast] at hnext

/-- **All generations.** With more fuel than places remain, loading stops because nothing is left to
load.  A new generation in which some module has specifiers uses up a place; one without
specifiers is the last, and needs no fuel. -/
theorem Stage.expand {start : List SourceModule} (fuel : Nat) :
    ∀ done last : List SourceModule, Stage w options start done last →
      (remaining w.places ((done ++ last).map SourceModule.path)).length < fuel →
      Stage w options start (Program.expand w options fuel done last) [] := by
  induction fuel with
  | zero =>
    intro done last _ hfuel
    exact absurd hfuel (Nat.not_lt_zero _)
  | succ fuel ih =>
    intro done last h hfuel
    cases last with
    | nil =>
      rw [Program.expand]
      exact h
    | cons m ms =>
      rw [Program.expand]
      by_cases hmore : ∃ m' ∈ nextGeneration w options (done ++ m :: ms) (m :: ms),
          m'.specifiers ≠ []
      · obtain ⟨m', hm', hs⟩ := hmore
        obtain ⟨hload, hnew, m'', -, ht⟩ := mem_nextGeneration hm'
        have hlt := length_remaining_lt (mem_places_of_target ht hload hs)
          (List.mem_map_of_mem hm') hnew
        rw [← List.map_append] at hlt
        exact ih _ _ h.next (by omega)
      · have hnone : ∀ m' ∈ nextGeneration w options (done ++ m :: ms) (m :: ms),
            m'.specifiers = [] := fun m' hm' =>
          Classical.byContradiction fun hs => hmore ⟨m', hm', hs⟩
        rw [expand_of_no_specifiers fuel _ _ hnone]
        exact h.next.finish hnone

/-! ### Roots -/

/-- **Root paths.** The roots of a program, absolute and normalised, each at its first occurrence. -/
def rootPaths (w : Workspace) (roots : List Path) : List Path :=
  (roots.map (Path.absolute w.disk.cwd)).eraseDups

theorem mapM_eq_ok_map {α β ε : Type} {f : α → Except ε β} {g : α → β} {l : List α}
    (h : ∀ x ∈ l, f x = .ok (g x)) : l.mapM f = .ok (l.map g) := by
  induction l with
  | nil => rfl
  | cons x l ih =>
    rw [List.mapM_cons, h x List.mem_cons_self, ih fun y hy => h y (List.mem_cons_of_mem x hy)]
    rfl

theorem load_of_mapM {ps : List Path} :
    ∀ {ms : List SourceModule}, ps.mapM w.load = .ok ms →
      ms.map SourceModule.path = ps ∧ ∀ m ∈ ms, w.load m.path = .ok m := by
  induction ps with
  | nil =>
    intro ms h
    obtain rfl : [] = ms := by simpa [pure, Except.pure] using h
    exact ⟨rfl, by simp⟩
  | cons q ps ih =>
    intro ms h
    rw [List.mapM_cons] at h
    cases hload : w.load q with
    | error e =>
      rw [hload] at h
      cases h
    | ok m =>
      rw [hload] at h
      cases hrest : ps.mapM w.load with
      | error e =>
        rw [hrest] at h
        cases h
      | ok rest =>
        rw [hrest] at h
        obtain rfl : m :: rest = ms := by simpa [bind, Except.bind, pure, Except.pure] using h
        obtain ⟨hpaths, hall⟩ := ih hrest
        have hpath : m.path = q := (Workspace.load_ok hload).1
        refine ⟨by rw [List.map_cons, hpath, hpaths], ?_⟩
        intro m' hm'
        rcases List.mem_cons.1 hm' with rfl | hm'
        · rwa [hpath]
        · exact hall m' hm'

theorem isNormal_absolute {cwd p : Path} (h : Path.isAbsolute (Path.absolute cwd p) = true) :
    IsNormal (Path.absolute cwd p) := by
  have hnormal : ∀ q, Path.isAbsolute (Path.normalize q) = true → IsNormal (Path.normalize q) := by
    intro q hq
    cases habs : Path.isAbsolute q with
    | true => exact isNormal_normalize habs
    | false =>
      rw [(not_isAbsolute_normalize habs).1] at hq
      cases hq
  rw [Path.absolute] at h ⊢
  split at h
  · rename_i habs
    rw [if_pos habs]
    exact hnormal _ h
  · rename_i habs
    rw [if_neg habs]
    exact hnormal _ h

/-- **Roots that load** are a stage, with nothing done. -/
theorem loadRoots_ok (options : CompilerOptions) {roots : List Path} {start : List SourceModule}
    (h : loadRoots w roots = .ok start) :
    start.map SourceModule.path = rootPaths w roots ∧
      (∀ q ∈ rootPaths w roots, IsNormal q) ∧ Stage w options start [] start := by
  rw [loadRoots, fresh_nil] at h
  obtain ⟨hpaths, hload⟩ : start.map SourceModule.path = rootPaths w roots ∧
      ∀ m ∈ start, w.load m.path = .ok m := load_of_mapM h
  have hnormal : ∀ m ∈ start, IsNormal m.path := by
    intro m hm
    have hmem : m.path ∈ rootPaths w roots := hpaths ▸ List.mem_map_of_mem hm
    obtain ⟨r, -, hr⟩ := List.mem_map.1 (List.mem_eraseDups.1 hmem)
    have habs := (Workspace.load_ok (hload m hm)).2.2.1
    rw [← hr] at habs ⊢
    exact isNormal_absolute habs
  refine ⟨hpaths, ?_, ?_⟩
  · intro q hq
    have hq' : q ∈ start.map SourceModule.path := hpaths ▸ hq
    obtain ⟨m, hm, rfl⟩ := List.mem_map.1 hq'
    exact hnormal m hm
  · exact
      { start_first := List.prefix_rfl
        nodup := by
          rw [List.nil_append, hpaths, rootPaths, ← fresh_nil]
          exact nodup_fresh _ _
        loaded := fun m hm => (Workspace.loadOrEmpty_of_load (hload m hm)).symm
        placed := fun m hm _ =>
          Workspace.mem_places (hnormal m hm) (Workspace.load_ok (hload m hm)).2.2.2
        closed := by simp
        found := by
          intro front m back heq hlen
          have := congrArg List.length heq
          rw [List.nil_append, List.length_append, List.length_cons] at this
          omega }

/-! ### Built programs -/

/-- A module of a program with its links. -/
def sourceFile (w : Workspace) (options : CompilerOptions) (m : SourceModule) : SourceFile :=
  { module := m, links := linksOf w options m }

/-- **Built programs.** A program that is built is the last stage of loading. -/
theorem build_ok {roots : List Path} {p : Program} (h : build w options roots = .ok p) :
    ∃ start modules : List SourceModule,
      start.map SourceModule.path = rootPaths w roots ∧
      (∀ q ∈ rootPaths w roots, IsNormal q) ∧
      Stage w options start modules [] ∧
      p = { options, files := modules.map (sourceFile w options) } := by
  rw [build] at h
  cases hroots : loadRoots w roots with
  | error e =>
    rw [hroots] at h
    cases h
  | ok start =>
    rw [hroots] at h
    obtain ⟨hpaths, hnormal, hstage⟩ := loadRoots_ok options hroots
    have hfuel : (remaining w.places (([] ++ start).map SourceModule.path)).length < w.size + 2 := by
      have hle := length_remaining_le w.places (([] ++ start).map SourceModule.path)
      rw [w.length_places] at hle
      omega
    refine ⟨start, _, hpaths, hnormal, hstage.expand _ _ _ hfuel, ?_⟩
    exact (Except.ok.inj h).symm

/-! ### Files by path -/

variable {roots : List Path} {p : Program}

/-- **File at a path.** What a program holds at a path, whatever its roots are. -/
def fileAt (w : Workspace) (options : CompilerOptions) (path : Path) : SourceFile :=
  sourceFile w options (w.loadOrEmpty path)

/-- **Built programs by path.** The program of the given roots, as a list of paths that begins with
the roots and is closed under targets, with `fileAt` at each path. -/
structure BuiltFrom (w : Workspace) (options : CompilerOptions) (roots : List Path) (p : Program) :
    Prop where
  options_eq : p.options = options
  /-- No two files have one path. -/
  nodup : p.paths.Nodup
  /-- A file is what its path alone determines. -/
  file_eq : ∀ f ∈ p.files, f = fileAt w options f.path
  /-- The roots come first. -/
  roots_first : rootPaths w roots <+: p.paths
  /-- Roots are normalised and absolute. -/
  roots_normal : ∀ q ∈ rootPaths w roots, IsNormal q
  /-- What a file depends on is there. -/
  closed : ∀ f ∈ p.files, ∀ t ∈ targets w options f.module, t ∈ p.paths
  /-- A file that is no root is a target of one before it. -/
  found : ∀ i f, p.files[i]? = some f → (rootPaths w roots).length ≤ i →
    ∃ j g, j < i ∧ p.files[j]? = some g ∧ f.path ∈ targets w options g.module

theorem builtFrom_of_build (h : build w options roots = .ok p) : BuiltFrom w options roots p := by
  obtain ⟨start, modules, hstart, hnormal, hstage, rfl⟩ := build_ok h
  have hpaths : paths { options, files := modules.map (sourceFile w options) } =
      modules.map SourceModule.path := by
    rw [paths, List.map_map]
    rfl
  have hmodule : ∀ f ∈ modules.map (sourceFile w options),
      f.module ∈ modules ∧ f = sourceFile w options f.module := by
    intro f hf
    obtain ⟨m, hm, rfl⟩ := List.mem_map.1 hf
    exact ⟨hm, rfl⟩
  have hnodup := hstage.nodup
  have hfirst := hstage.start_first
  rw [List.append_nil] at hnodup hfirst
  exact
    { options_eq := rfl
      nodup := by rwa [hpaths]
      file_eq := by
        intro f hf
        obtain ⟨hm, heq⟩ := hmodule f hf
        have hload := hstage.loaded f.module (List.mem_append_left _ hm)
        rw [fileAt, SourceFile.path, ← hload]
        exact heq
      roots_first := by
        rw [hpaths, ← hstart]
        exact hfirst.map SourceModule.path
      roots_normal := hnormal
      closed := by
        intro f hf t ht
        have hclosed := hstage.closed f.module (hmodule f hf).1 t ht
        rwa [List.append_nil, ← hpaths] at hclosed
      found := by
        intro i f hf hi
        rw [List.getElem?_map, Option.map_eq_some_iff] at hf
        obtain ⟨m, hm, rfl⟩ := hf
        obtain ⟨hlt, rfl⟩ := List.getElem?_eq_some_iff.1 hm
        have hsplit : modules ++ [] = modules.take i ++ modules[i] :: modules.drop (i + 1) := by
          rw [List.append_nil, List.getElem_cons_drop, List.take_append_drop]
        have hlen : start.length ≤ (modules.take i).length := by
          rw [← hstart, List.length_map] at hi
          rw [List.length_take, Nat.min_eq_left (Nat.le_of_lt hlt)]
          exact hi
        obtain ⟨m', hm', ht⟩ := hstage.found _ _ _ hsplit hlen
        obtain ⟨j, hj, rfl⟩ := List.mem_take_iff_getElem.1 hm'
        refine ⟨j, sourceFile w options modules[j], by omega, ?_, ht⟩
        rw [List.getElem?_map, List.getElem?_eq_getElem (by omega)]
        rfl }

theorem BuiltFrom.file?_eq (h : BuiltFrom w options roots p) {path : Path} (hp : path ∈ p.paths) :
    p.file? path = some (fileAt w options path) := by
  obtain ⟨f, hf, rfl⟩ := List.mem_map.1 hp
  cases hfind : p.file? f.path with
  | none =>
    rw [file?, List.find?_eq_none] at hfind
    exact absurd (hfind f hf) (by simp)
  | some g =>
    obtain ⟨hg, hpath⟩ := mem_of_file? hfind
    rw [h.file_eq g hg, hpath]

end

end Program

end PropDocs
