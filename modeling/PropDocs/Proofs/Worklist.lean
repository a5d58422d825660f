import Mathlib.Data.Set.Card
import PropDocs.Proofs.Loading

/-!
# The worklist ends

Loading by generations, as `expand` does it, follows the specifiers of a whole generation at once and
has a bound on the number of generations.  Here it is seen as a **worklist without a bound**: a turn
takes one module from the front of the queue, follows its specifiers, and puts the modules at
paths that are not known yet at the end.

* `Workspace.existing`: the paths there are to load, finitely many;
* `Worklist.turn?`, `Worklist.turns?`: one turn of the loop, and a number of them;
* `Worklist.turns?_generation`, `Worklist.reaches_expand`: a generation is as many turns as it has
  modules, so that whatever `expand` finds within its bound is found by turns;
* `Worklist.turns?_closed`: when all targets are known the remaining turns load nothing;
* `Worklist.Sound`: every module stands at an existing path of its own.  One turn keeps it, hence all
  turns do;
* `worklist_ends`: the loop ends, after one turn for each file, and there are at most as many files
  as existing paths.
-/

namespace PropDocs

open PropDocs.Path

/-! ### Existing paths -/

namespace Workspace

/-- **Existing paths**: the normalised absolute paths with a text in memory or a file on disk. -/
def existing (w : Workspace) : Set Path :=
  {q | Path.isAbsolute q = true ∧ Path.normalize q = q ∧ w.present q = true}

theorem mem_existing_iff {w : Workspace} {q : Path} :
    q ∈ w.existing ↔ IsNormal q ∧ w.present q = true := by
  constructor
  · rintro ⟨habs, hnormal, hpresent⟩
    have h := isNormal_normalize habs
    rw [hnormal] at h
    exact ⟨h, hpresent⟩
  · rintro ⟨hnormal, hpresent⟩
    exact ⟨hnormal.isAbsolute, hnormal.normalize_eq, hpresent⟩

theorem finite_existing (w : Workspace) : w.existing.Finite := by
  apply (List.finite_toSet w.places).subset
  intro q hq
  obtain ⟨hnormal, hpresent⟩ := mem_existing_iff.1 hq
  exact mem_places hnormal hpresent

end Workspace

namespace Program

variable {w : Workspace} {options : CompilerOptions}

/-! ### Generations in parts -/

theorem fresh_append (known ps qs : List Path) :
    fresh known (ps ++ qs) = fresh known ps ++ fresh (known ++ fresh known ps) qs := by
  induction ps generalizing known with
  | nil => rw [List.nil_append, fresh, List.nil_append, List.append_nil]
  | cons p ps ih =>
    rw [List.cons_append, fresh, fresh]
    by_cases hp : known.contains p = true
    · rw [if_pos hp, if_pos hp]
      exact ih known
    · rw [if_neg hp, if_neg hp, ih (known ++ [p]), List.cons_append, List.append_assoc,
        List.singleton_append]

/-- The first part of a generation is known when the second part is looked at. -/
theorem nextGeneration_append (known ms ms' : List SourceModule) :
    nextGeneration w options known (ms ++ ms') =
      nextGeneration w options known ms ++
        nextGeneration w options (known ++ nextGeneration w options known ms) ms' := by
  have hpaths : (nextGeneration w options known ms).map SourceModule.path =
      fresh (known.map SourceModule.path) (ms.flatMap (targets w options)) :=
    map_path_nextGeneration known ms
  rw [nextGeneration, List.flatMap_append, fresh_append, List.map_append]
  congr 1
  rw [nextGeneration, List.map_append, hpaths]
  rfl

theorem nextGeneration_eq_nil_of_known {known ms : List SourceModule}
    (h : ∀ m ∈ ms, ∀ t ∈ targets w options m, t ∈ known.map SourceModule.path) :
    nextGeneration w options known ms = [] := by
  rw [List.eq_nil_iff_forall_not_mem]
  intro m hm
  obtain ⟨-, hnew, m', hm', ht⟩ := mem_nextGeneration hm
  exact hnew (h m' hm' _ ht)

/-! ### Turns -/

/-- **Worklist.** `done` are the modules whose specifiers have been followed, `queue` the modules
whose specifiers have not. -/
structure Worklist where
  done : List SourceModule
  queue : List SourceModule

namespace Worklist

/-- All modules loaded so far, in loading order. -/
def modules (s : Worklist) : List SourceModule :=
  s.done ++ s.queue

/-- **One turn** of the loop.  With an empty queue the loop has ended, and there is none. -/
def turn? (w : Workspace) (options : CompilerOptions) (s : Worklist) : Option Worklist :=
  match s.queue with
  | [] => none
  | m :: rest =>
    some { done := s.done ++ [m], queue := rest ++ nextGeneration w options s.modules [m] }

/-- **A number of turns**; none when the loop ends before. -/
def turns? (w : Workspace) (options : CompilerOptions) : Nat → Worklist → Option Worklist
  | 0, s => some s
  | n + 1, s => (s.turn? w options).bind (turns? w options n)

theorem turns?_add (m n : Nat) (s : Worklist) :
    turns? w options (m + n) s = (turns? w options m s).bind (turns? w options n) := by
  induction m generalizing s with
  | zero => rw [Nat.zero_add, turns?, Option.bind_some]
  | succ m ih =>
    rw [Nat.succ_add, turns?, turns?, Option.bind_assoc]
    congr 1
    funext s'
    exact ih s'

/-- What one turn does, with what was loaded before and after it. -/
theorem turn?_cases {s s' : Worklist} (h : s.turn? w options = some s') :
    ∃ m ∈ s.modules, s'.done.length = s.done.length + 1 ∧
      s'.modules = s.modules ++ nextGeneration w options s.modules [m] := by
  rw [turn?] at h
  split at h
  · cases h
  · rename_i m rest hqueue
    obtain rfl := Option.some.inj h
    refine ⟨m, ?_, ?_, ?_⟩
    · rw [modules, hqueue]
      exact List.mem_append_right _ List.mem_cons_self
    · rw [List.length_append]
      rfl
    · show s.done ++ [m] ++ (rest ++ _) = s.modules ++ _
      rw [modules, hqueue]
      simp only [List.append_assoc, List.cons_append, List.nil_append]

theorem length_done_turns? (n : Nat) :
    ∀ {s s' : Worklist}, turns? w options n s = some s' → s'.done.length = s.done.length + n := by
  induction n with
  | zero =>
    intro s s' h
    rw [Option.some.inj h, Nat.add_zero]
  | succ n ih =>
    intro s s' h
    obtain ⟨s₁, hturn, hrest⟩ := Option.bind_eq_some_iff.1 h
    obtain ⟨_, -, hlen, -⟩ := turn?_cases hturn
    have := ih hrest
    omega

/-! ### Turns and generations -/

/-- **A generation in turns.** `front` has been taken, `back` is still to be taken, and behind `back`
stand the modules that `front` depends on. -/
theorem turns?_generation (w : Workspace) (options : CompilerOptions)
    (done back : List SourceModule) :
    ∀ front : List SourceModule,
      turns? w options back.length
          ⟨done ++ front, back ++ nextGeneration w options (done ++ (front ++ back)) front⟩ =
        some ⟨done ++ (front ++ back),
          nextGeneration w options (done ++ (front ++ back)) (front ++ back)⟩ := by
  induction back with
  | nil =>
    intro front
    rw [List.append_nil]
    rfl
  | cons m back ih =>
    intro front
    have hsplit : front ++ m :: back = front ++ [m] ++ back := by
      rw [List.append_assoc, List.singleton_append]
    have hturn : turn? w options
          ⟨done ++ front, m :: back ++ nextGeneration w options (done ++ (front ++ m :: back)) front⟩ =
        some ⟨done ++ (front ++ [m]),
          back ++ nextGeneration w options (done ++ (front ++ m :: back)) (front ++ [m])⟩ := by
      rw [nextGeneration_append]
      simp only [turn?, modules, List.cons_append, List.append_assoc]
    rw [List.length_cons, turns?, hturn, Option.bind_some, hsplit]
    exact ih (front ++ [m])

/-- **Whatever the bound**, the modules that `expand` finds are those of the worklist after some
number of turns. -/
theorem reaches_expand (w : Workspace) (options : CompilerOptions) (fuel : Nat) :
    ∀ done last : List SourceModule, ∃ n s,
      turns? w options n ⟨done, last⟩ = some s ∧ s.modules = expand w options fuel done last := by
  induction fuel with
  | zero =>
    intro done last
    exact ⟨0, ⟨done, last⟩, rfl, rfl⟩
  | succ fuel ih =>
    intro done last
    cases last with
    | nil =>
      refine ⟨0, ⟨done, []⟩, rfl, ?_⟩
      rw [expand, modules, List.append_nil]
    | cons m ms =>
      obtain ⟨n, s, hturns, hmodules⟩ := ih (done ++ m :: ms)
        (nextGeneration w options (done ++ m :: ms) (m :: ms))
      refine ⟨(m :: ms).length + n, s, ?_, ?_⟩
      · have hgen := turns?_generation w options done (m :: ms) []
        have hnone : nextGeneration w options (done ++ ([] ++ m :: ms)) [] = [] := rfl
        rw [hnone, List.append_nil, List.append_nil] at hgen
        rw [turns?_add, hgen]
        exact hturns
      · rw [hmodules, expand]

/-- When every target is known, the queue only gets shorter. -/
theorem turns?_closed (queue : List SourceModule) :
    ∀ done : List SourceModule,
      (∀ m ∈ done ++ queue, ∀ t ∈ targets w options m, t ∈ (done ++ queue).map SourceModule.path) →
      turns? w options queue.length ⟨done, queue⟩ = some ⟨done ++ queue, []⟩ := by
  induction queue with
  | nil =>
    intro done _
    rw [List.append_nil]
    rfl
  | cons m queue ih =>
    intro done hclosed
    have hnone : nextGeneration w options (done ++ m :: queue) [m] = [] := by
      apply nextGeneration_eq_nil_of_known
      intro m' hm'
      rw [List.mem_singleton.1 hm']
      exact hclosed m (by simp)
    have hturn : turn? w options ⟨done, m :: queue⟩ = some ⟨done ++ [m], queue⟩ := by
      show some _ = some _
      rw [modules, hnone, List.append_nil]
    have hsplit : done ++ m :: queue = done ++ [m] ++ queue := by
      rw [List.append_assoc, List.singleton_append]
    rw [List.length_cons, turns?, hturn, Option.bind_some, hsplit]
    rw [hsplit] at hclosed
    exact ih (done ++ [m]) hclosed

/-! ### Paths of the worklist -/

/-- **Sound worklists.** Every module stands at an existing path, and no two at one path. -/
structure Sound (w : Workspace) (s : Worklist) : Prop where
  existing : ∀ m ∈ s.modules, m.path ∈ w.existing
  nodup : (s.modules.map SourceModule.path).Nodup

/-- **One turn** loads modules at existing paths that were not known.  The module taken has an
absolute path, so what its specifiers stand for is absolute and normalised. -/
theorem Sound.turn? (ho : Specifier.AbsoluteBase options) {s s' : Worklist} (h : Sound w s)
    (hs : s.turn? w options = some s') : Sound w s' := by
  obtain ⟨m, hm, -, hmodules⟩ := turn?_cases hs
  constructor
  · intro m' hm'
    rw [hmodules] at hm'
    rcases List.mem_append.1 hm' with hold | hnew
    · exact h.existing m' hold
    · obtain ⟨-, -, m'', hm'', ht⟩ := mem_nextGeneration hnew
      rw [List.mem_singleton.1 hm''] at ht
      obtain ⟨specifier, -, hr⟩ := mem_targets_iff.1 ht
      have hnormal := Specifier.isNormal_target ho (h.existing m hm).1 hr
      exact Workspace.mem_existing_iff.2 ⟨hnormal, List.find?_some hr⟩
  · rw [hmodules, List.map_append, List.nodup_append, map_path_nextGeneration]
    refine ⟨h.nodup, nodup_fresh _ _, ?_⟩
    intro t ht t' ht' heq
    exact (mem_fresh.1 ht').2 (heq ▸ ht)

theorem Sound.turns? (ho : Specifier.AbsoluteBase options) (n : Nat) :
    ∀ {s s' : Worklist}, Sound w s → turns? w options n s = some s' → Sound w s' := by
  induction n with
  | zero =>
    intro s s' h hs
    rwa [← Option.some.inj hs]
  | succ n ih =>
    intro s s' h hs
    obtain ⟨s₁, hturn, hrest⟩ := Option.bind_eq_some_iff.1 hs
    exact ih (h.turn? ho hturn) hrest

/-- No more modules than there are existing paths. -/
theorem Sound.length_le {s : Worklist} (h : Sound w s) : s.modules.length ≤ w.existing.ncard := by
  have hsubset : ((s.modules.map SourceModule.path).toFinset : Set Path) ⊆ w.existing := by
    intro q hq
    rw [List.coe_toFinset] at hq
    obtain ⟨m, hm, rfl⟩ := List.mem_map.1 hq
    exact h.existing m hm
  have hcard := Set.ncard_le_ncard hsubset w.finite_existing
  rwa [Set.ncard_coe_finset, List.toFinset_card_of_nodup h.nodup, List.length_map] at hcard

end Worklist

/-! ### The whole loop -/

/-- Roots that load are a sound worklist. -/
theorem sound_roots {roots : List Path} {start : List SourceModule}
    (h : loadRoots w roots = .ok start) : Worklist.Sound w ⟨[], start⟩ := by
  obtain ⟨hpaths, hnormal, hstage⟩ := loadRoots_ok {} h
  rw [loadRoots] at h
  obtain ⟨-, hload⟩ := load_of_mapM h
  constructor
  · intro m hm
    have hmem : m.path ∈ rootPaths w roots := hpaths ▸ List.mem_map_of_mem hm
    have hpresent := (Workspace.load_ok (hload m hm)).2.2.2
    exact Workspace.mem_existing_iff.2 ⟨hnormal _ hmem, hpresent⟩
  · exact hstage.nodup

/-- **The loop in turns.** It ends with an empty queue, after one turn for each module, and its
modules are the files of the program. -/
theorem turns?_build (options : CompilerOptions) {roots : List Path} {start : List SourceModule}
    (h : loadRoots w roots = .ok start) :
    ∃ modules : List SourceModule,
      Worklist.turns? w options modules.length ⟨[], start⟩ = some ⟨modules, []⟩ ∧
      build w options roots = .ok { options, files := modules.map (sourceFile w options) } := by
  obtain ⟨n, s, hturns, hmodules⟩ :=
    Worklist.reaches_expand w options (w.size + 2) [] start
  have hbuild : build w options roots =
      .ok { options, files := s.modules.map (sourceFile w options) } := by
    rw [hmodules, build, h]
    rfl
  have hclosed : ∀ m ∈ s.modules, ∀ t ∈ targets w options m,
      t ∈ s.modules.map SourceModule.path := by
    intro m hm t ht
    have hfile := (builtFrom_of_build hbuild).closed _ (List.mem_map_of_mem hm) t ht
    rw [paths, List.map_map] at hfile
    exact hfile
  have hend : Worklist.turns? w options (n + s.queue.length) ⟨[], start⟩ =
      some ⟨s.modules, []⟩ := by
    rw [Worklist.turns?_add, hturns]
    exact Worklist.turns?_closed s.queue s.done hclosed
  have hlength : s.modules.length = n + s.queue.length := by
    have := Worklist.length_done_turns? _ hend
    simpa using this
  refine ⟨s.modules, ?_, hbuild⟩
  rw [hlength]
  exact hend

/-- Every file of a program stands at an existing path, unless the base directory is relative. -/
theorem path_mem_existing (ho : Specifier.AbsoluteBase options) {roots : List Path} {p : Program}
    (h : build w options roots = .ok p) : ∀ f ∈ p.files, f.path ∈ w.existing := by
  cases hroots : loadRoots w roots with
  | error e =>
    rw [build, hroots] at h
    cases h
  | ok start =>
    obtain ⟨modules, hturns, hbuild⟩ := turns?_build options hroots
    rw [hbuild] at h
    obtain rfl := Except.ok.inj h
    have hsound := (sound_roots hroots).turns? ho _ hturns
    intro f hf
    obtain ⟨m, hm, rfl⟩ := List.mem_map.1 hf
    exact hsound.existing m (List.mem_append_left _ hm)

/-- **The worklist ends.** Let the base directory be absent or absolute.  Either a root fails, and the
loop is never entered; or the loop ends after one turn for each module, with the files of the
program.  Then no path is loaded twice, and there are at most as many files as existing paths, of
which there are finitely many. -/
theorem worklist_ends (w : Workspace) (options : CompilerOptions)
    (ho : ∀ dir, options.baseUrl = some dir → Path.isAbsolute dir = true) (roots : List Path) :
    (∃ e, loadRoots w roots = .error e ∧ build w options roots = .error e) ∨
      ∃ start modules : List SourceModule,
        loadRoots w roots = .ok start ∧
        Worklist.turns? w options modules.length ⟨[], start⟩ = some ⟨modules, []⟩ ∧
        build w options roots = .ok { options, files := modules.map (sourceFile w options) } ∧
        (modules.map SourceModule.path).Nodup ∧
        (∀ m ∈ modules, m.path ∈ w.existing) ∧
        w.existing.Finite ∧ modules.length ≤ w.existing.ncard := by
  cases hroots : loadRoots w roots with
  | error e =>
    refine .inl ⟨e, rfl, ?_⟩
    rw [build, hroots]
    rfl
  | ok start =>
    obtain ⟨modules, hturns, hbuild⟩ := turns?_build options hroots
    have hsound := (sound_roots hroots).turns? ho _ hturns
    have hmodules : Worklist.modules ⟨modules, []⟩ = modules := List.append_nil modules
    refine .inr ⟨start, modules, rfl, hturns, hbuild, ?_, ?_, w.finite_existing, ?_⟩
    · exact hmodules ▸ hsound.nodup
    · intro m hm
      exact hsound.existing m (hmodules.symm ▸ hm)
    · exact hmodules ▸ hsound.length_le

/-- **Many spellings.** Three files that import themselves and each other under different names, and
a fourth that is no source text. -/
def manySpellings : Workspace where
  overlays := OrderedMap.empty
    |>.insert "/src/a.ts" "import './../src/a';\nimport { B } from './b.js';"
    |>.insert "/src/b.ts" "import '/src/x/../a.ts';\nexport * from './broken';\nimport 'c';"
    |>.insert "/src/broken.ts" "export interface \x7b"
    |>.insert "/lib/c.ts" "import '../src/./b';\nimport 'c.js';"

/-- Four turns load the four files, each once. -/
theorem manySpellings_worklist_ends :
    ∃ start modules : List SourceModule,
      loadRoots manySpellings ["/src/a.ts"] = .ok start ∧
      Worklist.turns? manySpellings { baseUrl := some "/lib" } 4 ⟨[], start⟩ =
        some ⟨modules, []⟩ ∧
      modules.map SourceModule.path = ["/src/a.ts", "/src/b.ts", "/src/broken.ts", "/lib/c.ts"] ∧
      4 ≤ manySpellings.existing.ncard := by
  have hrun : (build manySpellings { baseUrl := some "/lib" } ["/src/a.ts"]).toOption.map paths =
      some ["/src/a.ts", "/src/b.ts", "/src/broken.ts", "/lib/c.ts"] := by decide +kernel
  have hbase : ∀ dir, some "/lib" = some dir → Path.isAbsolute dir = true := by
    rintro dir ⟨⟩
    decide
  rcases worklist_ends manySpellings { baseUrl := some "/lib" } hbase ["/src/a.ts"] with
    ⟨e, -, hbuild⟩ | ⟨start, modules, hstart, hturns, hbuild, -, -, -, hle⟩
  · rw [hbuild] at hrun
    cases hrun
  · rw [hbuild] at hrun
    have hpaths : modules.map SourceModule.path =
        ["/src/a.ts", "/src/b.ts", "/src/broken.ts", "/lib/c.ts"] := by
      have hfiles := Option.some.inj hrun
      rw [paths, List.map_map] at hfiles
      exact hfiles
    have hlen : modules.length = 4 := by
      rw [← List.length_map SourceModule.path, hpaths]
      rfl
    rw [hlen] at hturns hle
    exact ⟨start, modules, hstart, hturns, hpaths, hle⟩

end Program

end PropDocs
