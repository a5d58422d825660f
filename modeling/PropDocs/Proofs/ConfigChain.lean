import Mathlib.Data.List.Nodup
import PropDocs.Compiler.Config
import PropDocs.Proofs.Loading

/-!
# Chains of configurations

A configuration names the one it extends, and so on.  The paths of this chain are a sequence that
does not depend on how it is walked; the walk is described by where the sequence repeats, where a
file of it cannot be loaded, and where it ends.

* `path?`: the sequence of paths;
* `RepeatsFirst`, `FailsFirst`, `IsComplete`: the three ways the sequence can end;
* `Outcome`: the result that belongs to each, and `Outcome.unique`: there is only one;
* `outcome_configChain`: the walk has that result, because no more files can be passed than there
  are;
* `Inherits`: a value is that of the first configuration that sets it; `Merged`: all options are;
* `load_iff`: what loading options returns, in these terms.
-/

namespace PropDocs

open PropDocs.Path

/-! ### Paths and files -/

namespace Path

theorem components_of_isNormal {p : Path} (h : IsNormal p) :
    components p = { rooted := true, segments := segments p } := by
  have hdot : startsWithDot p = false := by
    obtain ⟨ss, -, rfl⟩ := h
    rw [startsWithDot, toList_root_append, splitOn_cons_self]
  rw [components, h.isAbsolute, hdot]
  rfl

/-- The part of a name in front of its extension is made of characters of the name. -/
theorem mem_of_mem_splitName {name : List Char} {c : Char} (h : c ∈ (splitName name).1) :
    c ∈ name := by
  rw [splitName] at h
  split at h
  · rename_i dot stem hback
    split at h
    · exact h
    · have hstem : c ∈ name.reverse.dropWhile (· != '.') := by
        rw [hback]
        exact List.mem_cons_of_mem _ (List.mem_reverse.1 h)
      exact List.mem_reverse.1 ((List.dropWhile_sublist _).subset hstem)
  · exact h

theorem isNormal_withExtension {p : Path} (h : IsNormal p) : IsNormal (withExtension p "json") := by
  rw [withExtension]
  split
  · exact h
  · rename_i name hname
    have hmem : name ∈ segments p := by
      rw [fileName?, components_of_isNormal h] at hname
      dsimp only at hname
      split at hname
      · rename_i s hlast
        split at hname
        · cases hname
        · rw [← Option.some.inj hname]
          exact List.mem_of_getLast? hlast
      · cases hname
    have hstem : '/' ∉ (String.ofList (splitName name.toList).1).toList := by
      rw [String.toList_ofList]
      exact fun hslash => (h.segments_plain name hmem).no_slash (mem_of_mem_splitName hslash)
    dsimp only
    rw [components_of_isNormal h, if_neg (by decide), String.append_assoc]
    refine ⟨_, ?_, rfl⟩
    intro s hs
    rcases List.mem_append.1 hs with hs | hs
    · exact h.segments_plain s ((List.dropLast_sublist _).subset hs)
    · rw [List.mem_singleton.1 hs]
      exact plain_append hstem (by decide) (by decide)

end Path

theorem FileSystem.isFile_of_read {fs : FileSystem} {path : Path} {text : String}
    (h : fs.read path = .ok text) : fs.isFile path = true := by
  rw [FileSystem.read] at h
  rw [FileSystem.isFile]
  split at h
  · rename_i bytes hlookup
    rw [hlookup]
  · cases h
  · cases h

namespace ConfigFile

variable {fs : FileSystem} {path : Path} {c : ConfigFile}

theorem isAbsolute_directory (h : isAbsolute c.path = true) : isAbsolute c.directory = true := by
  rw [directory]
  cases hparent : Path.parent? c.path with
  | none => rfl
  | some dir => exact isAbsolute_parent? h hparent

theorem isNormal_parent? {parent : Path} (h : isAbsolute c.path = true)
    (hparent : c.parent? = some parent) : IsNormal parent := by
  have htarget : ∀ name, IsNormal (normalize (join c.directory name)) := fun name =>
    isNormal_normalize (isAbsolute_join (isAbsolute_directory h) name)
  rw [ConfigFile.parent?] at hparent
  split at hparent
  · rename_i name _
    split at hparent
    · rw [← Option.some.inj hparent]
      split
      · exact isNormal_withExtension (htarget name)
      · exact htarget name
    · cases hparent
  · cases hparent

/-! ### Loading one file -/

theorem path_of_readOptions? {parentName : Option String} {v : Json}
    (h : readOptions? path parentName v = some c) : c.path = path := by
  rw [readOptions?] at h
  split at h
  · simp only [Option.bind_eq_bind, Option.bind_eq_some_iff, Option.pure_def,
      Option.some.injEq] at h
    obtain ⟨_, -, _, -, _, -, _, -, rfl⟩ := h
    rfl
  · cases h

theorem path_of_ofJson? {v : Json} (h : ofJson? path v = some c) : c.path = path := by
  rw [ofJson?] at h
  split at h
  · rename_i parent options _
    obtain ⟨parentName, -, hoptions⟩ := Option.bind_eq_some_iff.1 h
    cases options with
    | present v => exact path_of_readOptions? hoptions
    | missing | cut =>
      rw [← Option.some.inj hoptions]
  · cases h

theorem path_of_read? {text : String} (h : read? path text = some c) : c.path = path := by
  obtain ⟨v, -, hv⟩ := Option.bind_eq_some_iff.1 h
  exact path_of_ofJson? hv

/-- A configuration that is loaded knows its path, which leads to a file. -/
theorem load_ok (h : load fs path = .ok c) : c.path = path ∧ fs.isFile path = true := by
  rw [load] at h
  split at h
  · cases h
  · rename_i text hread
    split at h
    · rename_i c' hc
      rw [← Except.ok.inj h]
      exact ⟨path_of_read? hc, FileSystem.isFile_of_read hread⟩
    · cases h

/-- The error of a file that is not loaded names its path, and no circle. -/
theorem load_error {e : LoadError} (h : load fs path = .error e) :
    ∃ fault, fault ≠ .circular ∧ e = .config path fault := by
  rw [load] at h
  split at h
  · exact ⟨_, by simp, (Except.error.inj h).symm⟩
  · split at h
    · cases h
    · exact ⟨_, by simp, (Except.error.inj h).symm⟩

end ConfigFile

/-! ### The sequence of paths -/

namespace ConfigChain

/-- The path that follows a path: what the configuration there extends. -/
def next? (fs : FileSystem) (path : Path) : Option Path :=
  match ConfigFile.load fs path with
  | .ok c => c.parent?
  | .error _ => none

/-- **Sequence of paths** from `start` on.  It ends behind a configuration that extends none, or
that cannot be loaded. -/
def path? (fs : FileSystem) (start : Path) : Nat → Option Path
  | 0 => some start
  | k + 1 => (path? fs start k).bind (next? fs)

/-- The first `k` paths are different from each other. -/
def Distinct (fs : FileSystem) (start : Path) (k : Nat) : Prop :=
  ∀ i < k, ∀ j < i, path? fs start j ≠ path? fs start i

section Sequence

variable {fs : FileSystem} {start path : Path} {k : Nat}

theorem path?_succ_of_load {c : ConfigFile} (hk : path? fs start k = some path)
    (hload : ConfigFile.load fs path = .ok c) : path? fs start (k + 1) = c.parent? := by
  rw [path?, hk, Option.bind_some, next?, hload]

theorem path?_succ_of_error {e : LoadError} (hk : path? fs start k = some path)
    (hload : ConfigFile.load fs path = .error e) : path? fs start (k + 1) = none := by
  rw [path?, hk, Option.bind_some, next?, hload]

/-- In front of a path of the sequence stands a configuration that is loaded. -/
theorem exists_load_of_lt (hk : path? fs start k = some path) :
    ∀ i < k, ∃ c, path? fs start i = some c.path ∧ ConfigFile.load fs c.path = .ok c := by
  induction k generalizing path with
  | zero => exact fun i hi => absurd hi (Nat.not_lt_zero i)
  | succ k ih =>
    obtain ⟨q, hq, hnext⟩ := Option.bind_eq_some_iff.1 hk
    intro i hi
    rcases Nat.lt_succ_iff_lt_or_eq.1 hi with hlt | rfl
    · exact ih hq i hlt
    · cases hload : ConfigFile.load fs q with
      | error e =>
        rw [next?, hload] at hnext
        cases hnext
      | ok c =>
        obtain ⟨hpath, -⟩ := ConfigFile.load_ok hload
        exact ⟨c, by rw [hq, hpath], by rw [hpath, hload]⟩

/-- Behind its end the sequence has no path. -/
theorem lt_of_path?_none {n : Nat} (hk : path? fs start k = some path)
    (hn : path? fs start n = none) : k < n := by
  rcases Nat.lt_trichotomy k n with hlt | rfl | hlt
  · exact hlt
  · rw [hn] at hk
    cases hk
  · obtain ⟨c, hc, -⟩ := exists_load_of_lt hk n hlt
    rw [hn] at hc
    cases hc

theorem isNormal_path? (hstart : IsNormal start) (hk : path? fs start k = some path) :
    IsNormal path := by
  induction k generalizing path with
  | zero =>
    rw [← Option.some.inj hk]
    exact hstart
  | succ k ih =>
    obtain ⟨c, hc, hload⟩ := exists_load_of_lt hk k (Nat.lt_succ_self k)
    rw [path?_succ_of_load hc hload] at hk
    exact ConfigFile.isNormal_parent? (ih hc).isAbsolute hk

/-- **The sequence is short.** A path with distinct paths in front of it has no more of them than
there are files. -/
theorem le_length_files (hstart : IsNormal start) (hk : path? fs start k = some path)
    (hdistinct : Distinct fs start k) : k ≤ fs.files.length := by
  have hnodup : ((List.range k).map (path? fs start)).Nodup := by
    rw [List.nodup_map_iff_inj_on List.nodup_range]
    intro i hi j hj heq
    rw [List.mem_range] at hi hj
    rcases Nat.lt_trichotomy i j with hlt | rfl | hlt
    · exact absurd heq (hdistinct j hj i hlt)
    · rfl
    · exact absurd heq.symm (hdistinct i hi j hlt)
  have hsubset : (List.range k).map (path? fs start) ⊆ (fs.files.map Prod.fst).map some := by
    intro q hq
    obtain ⟨i, hi, rfl⟩ := List.mem_map.1 hq
    obtain ⟨c, hc, hload⟩ := exists_load_of_lt hk i (List.mem_range.1 hi)
    have hfile := FileSystem.mem_files_of_isFile (isNormal_path? hstart hc)
      (ConfigFile.load_ok hload).2
    rw [hc]
    exact List.mem_map_of_mem hfile
  have hlength := hnodup.length_le_of_subset hsubset
  simpa using hlength

theorem Distinct.succ (h : Distinct fs start k) (hk : path? fs start k = some path)
    (hnew : ∀ j < k, path? fs start j ≠ some path) : Distinct fs start (k + 1) := by
  intro i hi j hj
  rcases Nat.lt_succ_iff_lt_or_eq.1 hi with hlt | rfl
  · exact h i hlt j hj
  · rw [hk]
    exact hnew j hj

end Sequence

/-! ### Three ways to end -/

section Outcome

variable (fs : FileSystem) (start : Path)

/-- **First repetition.** The path `q` is the first of the sequence that stands in it before. -/
def RepeatsFirst (q : Path) : Prop :=
  ∃ k, path? fs start k = some q ∧ (∃ j < k, path? fs start j = some q) ∧
    Distinct fs start k

/-- **First failure.** The file at `q` cannot be loaded, and no path up to it repeats. -/
def FailsFirst (q : Path) (fault : ConfigFault) : Prop :=
  ∃ k, path? fs start k = some q ∧ Distinct fs start (k + 1) ∧
    ConfigFile.load fs q = .error (.config q fault)

/-- The configurations are loaded from the first paths of the sequence. -/
def LoadedFrom (chain : List ConfigFile) : Prop :=
  ∀ i c, chain[i]? = some c →
    path? fs start i = some c.path ∧ ConfigFile.load fs c.path = .ok c

/-- **Complete chain.** The configurations are loaded from all paths of the sequence, which are
different from each other. -/
structure IsComplete (chain : List ConfigFile) : Prop where
  loaded : LoadedFrom fs start chain
  ends : path? fs start chain.length = none
  distinct : Distinct fs start chain.length

/-- **Outcome.** The result that belongs to each of the three ends. -/
inductive Outcome : Except LoadError (List ConfigFile) → Prop
  | circular {q : Path} : RepeatsFirst fs start q → Outcome (.error (.config q .circular))
  | failed {q : Path} {fault : ConfigFault} :
    FailsFirst fs start q fault → Outcome (.error (.config q fault))
  | complete {chain : List ConfigFile} : IsComplete fs start chain → Outcome (.ok chain)

end Outcome

section Unique

variable {fs : FileSystem} {start q q' : Path} {fault fault' : ConfigFault}
  {chain chain' : List ConfigFile}

/-- **Last path.** The sequence ends behind it without a repetition. -/
structure IsLast (fs : FileSystem) (start : Path) (k : Nat) (q : Path) : Prop where
  reached : path? fs start k = some q
  ends : path? fs start (k + 1) = none
  distinct : Distinct fs start (k + 1)

theorem IsLast.unique {k k' : Nat} (h : IsLast fs start k q) (h' : IsLast fs start k' q') :
    k = k' ∧ q = q' := by
  have hle := lt_of_path?_none h.reached h'.ends
  have hge := lt_of_path?_none h'.reached h.ends
  obtain rfl : k = k' := by omega
  exact ⟨rfl, Option.some.inj (h.reached.symm.trans h'.reached)⟩

/-- A sequence that repeats does not end. -/
theorem RepeatsFirst.not_isLast {k : Nat} (h : RepeatsFirst fs start q) :
    ¬ IsLast fs start k q' := by
  rintro ⟨hreached, hends, hdistinct⟩
  obtain ⟨i, hi, ⟨j, hj, hrepeat⟩, -⟩ := h
  have hlt := lt_of_path?_none hi hends
  exact hdistinct i hlt j hj (hrepeat.trans hi.symm)

theorem RepeatsFirst.unique (h : RepeatsFirst fs start q) (h' : RepeatsFirst fs start q') :
    q = q' := by
  obtain ⟨k, hk, ⟨j, hj, hrepeat⟩, hdistinct⟩ := h
  obtain ⟨k', hk', ⟨j', hj', hrepeat'⟩, hdistinct'⟩ := h'
  rcases Nat.lt_trichotomy k k' with hlt | rfl | hlt
  · exact absurd (hrepeat.trans hk.symm) (hdistinct' k hlt j hj)
  · exact Option.some.inj (hk.symm.trans hk')
  · exact absurd (hrepeat'.trans hk'.symm) (hdistinct k' hlt j' hj')

theorem FailsFirst.ne_circular (h : FailsFirst fs start q fault) : fault ≠ .circular := by
  obtain ⟨k, -, -, hload⟩ := h
  obtain ⟨fault', hne, he⟩ := ConfigFile.load_error hload
  cases he
  exact hne

theorem FailsFirst.exists_isLast (h : FailsFirst fs start q fault) :
    ∃ k, IsLast fs start k q ∧ ConfigFile.load fs q = .error (.config q fault) := by
  obtain ⟨k, hk, hdistinct, hload⟩ := h
  exact ⟨k, ⟨hk, path?_succ_of_error hk hload, hdistinct⟩, hload⟩

/-- The last configuration of a complete chain lies at the last path. -/
theorem IsComplete.exists_isLast (h : IsComplete fs start chain) :
    ∃ k c, chain.length = k + 1 ∧ IsLast fs start k c.path ∧
      ConfigFile.load fs c.path = .ok c := by
  cases hlength : chain.length with
  | zero =>
    have hends := h.ends
    rw [hlength] at hends
    cases hends
  | succ k =>
    have hlast : chain[k]? = some (chain.get ⟨k, by omega⟩) := List.getElem?_eq_getElem (by omega)
    obtain ⟨hpath, hload⟩ := h.loaded k _ hlast
    exact ⟨k, _, rfl, ⟨hpath, hlength ▸ h.ends, hlength ▸ h.distinct⟩, hload⟩

theorem FailsFirst.unique (h : FailsFirst fs start q fault) (h' : FailsFirst fs start q' fault') :
    LoadError.config q fault = .config q' fault' := by
  obtain ⟨k, hlast, hload⟩ := h.exists_isLast
  obtain ⟨k', hlast', hload'⟩ := h'.exists_isLast
  obtain rfl := (hlast.unique hlast').2
  exact Except.error.inj (hload.symm.trans hload')

theorem FailsFirst.not_isComplete (h : FailsFirst fs start q fault) :
    ¬ IsComplete fs start chain := by
  intro hchain
  obtain ⟨k, hlast, hload⟩ := h.exists_isLast
  obtain ⟨k', c, -, hlast', hload'⟩ := hchain.exists_isLast
  rw [(hlast.unique hlast').2, hload'] at hload
  cases hload

theorem IsComplete.unique (h : IsComplete fs start chain) (h' : IsComplete fs start chain') :
    chain = chain' := by
  obtain ⟨k, c, hlength, hlast, -⟩ := h.exists_isLast
  obtain ⟨k', c', hlength', hlast', -⟩ := h'.exists_isLast
  have hk := (hlast.unique hlast').1
  apply List.ext_getElem (by omega)
  intro i hi hi'
  obtain ⟨hpath, hload⟩ := h.loaded i _ (List.getElem?_eq_getElem hi)
  obtain ⟨hpath', hload'⟩ := h'.loaded i _ (List.getElem?_eq_getElem hi')
  rw [Option.some.inj (hpath.symm.trans hpath'), hload'] at hload
  exact (Except.ok.inj hload).symm

/-- **One outcome.** A sequence ends in one way only. -/
theorem Outcome.unique {r r' : Except LoadError (List ConfigFile)} (h : Outcome fs start r)
    (h' : Outcome fs start r') : r = r' := by
  have hcircular : ∀ {q r}, RepeatsFirst fs start q → Outcome fs start r →
      r = .error (.config q .circular) := by
    intro q r hrepeat hr
    cases hr with
    | circular hrepeat' => rw [hrepeat.unique hrepeat']
    | failed hfail =>
      obtain ⟨k, hlast, -⟩ := hfail.exists_isLast
      exact absurd hlast hrepeat.not_isLast
    | complete hchain =>
      obtain ⟨k, c, -, hlast, -⟩ := hchain.exists_isLast
      exact absurd hlast hrepeat.not_isLast
  cases h with
  | circular hrepeat => exact (hcircular hrepeat h').symm
  | failed hfail =>
    cases h' with
    | circular hrepeat' => exact hcircular hrepeat' (.failed hfail)
    | failed hfail' => rw [hfail.unique hfail']
    | complete hchain' => exact absurd hchain' hfail.not_isComplete
  | complete hchain =>
    cases h' with
    | circular hrepeat' => exact hcircular hrepeat' (.complete hchain)
    | failed hfail' => exact absurd hchain hfail'.not_isComplete
    | complete hchain' => rw [hchain.unique hchain']

end Unique

/-! ### The walk -/

section Walk

variable {fs : FileSystem} {start : Path}

/-- **Stage of the walk.** The configurations passed so far are loaded from distinct paths, and
`path` comes next. -/
structure Stage (fs : FileSystem) (start : Path) (passed : List ConfigFile) (path : Path) :
    Prop where
  loaded : LoadedFrom fs start passed
  reached : path? fs start passed.length = some path
  distinct : Distinct fs start passed.length

theorem Stage.initial : Stage fs start [] start :=
  ⟨fun i c h => by simp at h, rfl, fun i hi => absurd hi (Nat.not_lt_zero i)⟩

section Stage

variable {passed : List ConfigFile} {path : Path}

/-- A path has been passed when it stands in the sequence before. -/
theorem Stage.mem_passed_iff (h : Stage fs start passed path) {q : Path} :
    q ∈ passed.map ConfigFile.path ↔ ∃ j < passed.length, path? fs start j = some q := by
  rw [List.mem_map]
  constructor
  · rintro ⟨c, hc, rfl⟩
    obtain ⟨j, hj⟩ := List.mem_iff_getElem?.1 hc
    exact ⟨j, (List.getElem?_eq_some_iff.1 hj).1, (h.loaded j c hj).1⟩
  · rintro ⟨j, hj, hq⟩
    obtain ⟨hpath, -⟩ := h.loaded j _ (List.getElem?_eq_getElem hj)
    exact ⟨_, List.getElem_mem hj, Option.some.inj (hpath.symm.trans hq)⟩

theorem Stage.distinct_succ (h : Stage fs start passed path)
    (hnew : path ∉ passed.map ConfigFile.path) : Distinct fs start (passed.length + 1) :=
  h.distinct.succ h.reached fun j hj hpath => hnew (h.mem_passed_iff.2 ⟨j, hj, hpath⟩)

theorem Stage.loaded_concat {c : ConfigFile} (h : Stage fs start passed path)
    (hload : ConfigFile.load fs path = .ok c) : LoadedFrom fs start (passed ++ [c]) := by
  intro i d hd
  obtain ⟨hpath, -⟩ := ConfigFile.load_ok hload
  rcases Nat.lt_trichotomy i passed.length with hlt | rfl | hlt
  · rw [List.getElem?_append_left hlt] at hd
    exact h.loaded i d hd
  · rw [List.getElem?_concat_length] at hd
    rw [← Option.some.inj hd, hpath]
    exact ⟨h.reached, hload⟩
  · rw [List.getElem?_eq_none (by rw [List.length_append]; exact hlt)] at hd
    cases hd

/-- **Step.** A new path whose configuration is loaded is passed, and the one it extends comes
next. -/
theorem Stage.next {c : ConfigFile} {parent : Path} (h : Stage fs start passed path)
    (hnew : path ∉ passed.map ConfigFile.path) (hload : ConfigFile.load fs path = .ok c)
    (hparent : c.parent? = some parent) : Stage fs start (passed ++ [c]) parent := by
  refine ⟨h.loaded_concat hload, ?_, ?_⟩
  · rw [List.length_append, List.length_singleton, path?_succ_of_load h.reached hload, hparent]
  · rw [List.length_append, List.length_singleton]
    exact h.distinct_succ hnew

theorem Stage.finish {c : ConfigFile} (h : Stage fs start passed path)
    (hnew : path ∉ passed.map ConfigFile.path) (hload : ConfigFile.load fs path = .ok c)
    (hparent : c.parent? = none) : IsComplete fs start (passed ++ [c]) := by
  refine ⟨h.loaded_concat hload, ?_, ?_⟩
  · rw [List.length_append, List.length_singleton, path?_succ_of_load h.reached hload, hparent]
  · rw [List.length_append, List.length_singleton]
    exact h.distinct_succ hnew

end Stage

/-- **Run.** From a stage on, a walk that may still pass as many files as are left has the outcome
of the sequence. -/
theorem Stage.outcome (hstart : IsNormal start) (fuel : Nat) :
    ∀ passed path, Stage fs start passed path → fs.files.length < passed.length + fuel →
      Outcome fs start
        ((configChain fs fuel (passed.map ConfigFile.path) path).map (passed ++ ·)) := by
  induction fuel with
  | zero =>
    -- more distinct paths would have been passed than there are files
    intro passed path h hfuel
    have hle := le_length_files hstart h.reached h.distinct
    omega
  | succ fuel ih =>
    intro passed path h hfuel
    rw [configChain]
    by_cases hmem : path ∈ passed.map ConfigFile.path
    · rw [if_pos (List.contains_iff_mem.2 hmem)]
      exact .circular ⟨passed.length, h.reached, h.mem_passed_iff.1 hmem, h.distinct⟩
    · rw [if_neg (by simpa using hmem)]
      cases hload : ConfigFile.load fs path with
      | error e =>
        obtain ⟨fault, -, rfl⟩ := ConfigFile.load_error hload
        exact .failed ⟨passed.length, h.reached, h.distinct_succ hmem, hload⟩
      | ok c =>
        obtain ⟨hpath, -⟩ := ConfigFile.load_ok hload
        dsimp only [bind, Except.bind]
        cases hparent : c.parent? with
        | none => exact .complete (h.finish hmem hload hparent)
        | some parent =>
          have hrest := ih (passed ++ [c]) parent (h.next hmem hload hparent)
            (by rw [List.length_append, List.length_singleton]; omega)
          rw [List.map_append, List.map_singleton, hpath] at hrest
          dsimp only
          cases hwalk : configChain fs fuel (passed.map ConfigFile.path ++ [path]) parent with
          | error e =>
            rw [hwalk] at hrest
            exact hrest
          | ok rest =>
            rw [hwalk] at hrest
            show Outcome fs start (.ok (passed ++ c :: rest))
            rw [List.append_cons]
            exact hrest

/-- **Outcome of the walk** from the start, for every number of steps above the number of files. -/
theorem outcome_configChain (hstart : IsNormal start) {fuel : Nat}
    (hfuel : fs.files.length < fuel) :
    Outcome fs start (configChain fs fuel [] start) := by
  have houtcome := Stage.outcome hstart fuel [] start Stage.initial (by simpa using hfuel)
  rw [List.map_nil] at houtcome
  cases hwalk : configChain fs fuel [] start with
  | error e | ok chain =>
    rw [hwalk] at houtcome
    exact houtcome

end Walk

/-! ### Merging -/

section Merge

variable {α β : Type}

/-- **First to set.** The configuration `c` sets an option to `v`, and those in front of it do not
set it. -/
def SetsFirst (option : ConfigFile → Option α) (chain : List ConfigFile) (c : ConfigFile) (v : α) :
    Prop :=
  ∃ nearer farther, chain = nearer ++ c :: farther ∧ (∀ b ∈ nearer, option b = none) ∧
    option c = some v

/-- **Inherited value.** What the first configuration that sets an option makes of its value;
`unset` when none does. -/
structure Inherits (option : ConfigFile → Option α) (value : ConfigFile → α → β) (unset : β)
    (chain : List ConfigFile) (b : β) : Prop where
  set : ∀ c v, SetsFirst option chain c v → b = value c v
  absent : (∀ c ∈ chain, option c = none) → b = unset

variable {option : ConfigFile → Option α} {value : ConfigFile → α → β} {unset b : β}
  {chain : List ConfigFile}

theorem findSome?_of_setsFirst {c : ConfigFile} {v : α} (h : SetsFirst option chain c v) :
    chain.findSome? (fun c => (option c).map (value c)) = some (value c v) := by
  obtain ⟨nearer, farther, rfl, hnearer, hc⟩ := h
  rw [List.findSome?_append, List.findSome?_eq_none_iff.2 (fun b hb => by rw [hnearer b hb]; rfl),
    Option.none_or, List.findSome?_cons, hc]
  rfl

/-- A value is inherited exactly when a search along the chain finds it. -/
theorem inherits_iff :
    Inherits option value unset chain b ↔
      b = (chain.findSome? fun c => (option c).map (value c)).getD unset := by
  cases hfind : chain.findSome? fun c => (option c).map (value c) with
  | none =>
    have hnone : ∀ c ∈ chain, option c = none := fun c hc =>
      Option.map_eq_none_iff.1 (List.findSome?_eq_none_iff.1 hfind c hc)
    constructor
    · intro h
      exact h.absent hnone
    · intro h
      refine ⟨fun c v hset => ?_, fun _ => h⟩
      rw [findSome?_of_setsFirst hset] at hfind
      cases hfind
  | some found =>
    obtain ⟨nearer, c, farther, hchain, hc, hnearer⟩ := List.findSome?_eq_some_iff.1 hfind
    obtain ⟨v, hv, rfl⟩ := Option.map_eq_some_iff.1 hc
    have hset : SetsFirst option chain c v :=
      ⟨nearer, farther, hchain, fun b hb => Option.map_eq_none_iff.1 (hnearer b hb), hv⟩
    constructor
    · intro h
      exact h.set c v hset
    · intro h
      refine ⟨fun c' v' hset' => ?_, fun hnone => ?_⟩
      · rw [findSome?_of_setsFirst hset'] at hfind
        rw [h, Option.getD_some, Option.some.inj hfind]
      · rw [hnone c (hchain ▸ List.mem_append_right _ List.mem_cons_self)] at hv
        cases hv

theorem inherits_plain_iff {unset b : α} :
    Inherits option (fun _ v => v) unset chain b ↔ b = (chain.findSome? option).getD unset := by
  rw [inherits_iff]
  simp only [Option.map_id']

theorem inherits_some_iff {b : Option β} :
    Inherits option (fun c v => some (value c v)) none chain b ↔
      b = chain.findSome? fun c => (option c).map (value c) := by
  have hflat : (chain.findSome? fun c => (option c).map fun v => some (value c v)).getD none =
      chain.findSome? fun c => (option c).map (value c) := by
    induction chain with
    | nil => rfl
    | cons c chain ih => cases hc : option c <;> simp [hc, ih]
  rw [inherits_iff, hflat]

end Merge

/-- **Merged options.** Every option has the value of the first configuration that sets it, a base
directory being seen from the directory of that configuration. -/
structure Merged (chain : List ConfigFile) (o : CompilerOptions) : Prop where
  strict : Inherits ConfigFile.strict (fun _ v => v) false chain o.strict
  strictNullChecks :
    Inherits ConfigFile.strictNullChecks (fun _ v => some v) none chain o.strictNullChecks
  allowJs : Inherits ConfigFile.allowJs (fun _ v => v) false chain o.allowJs
  baseUrl :
    Inherits ConfigFile.baseUrl (fun c v => some (normalize (join c.directory v))) none chain
      o.baseUrl

theorem merged_iff {chain : List ConfigFile} {o : CompilerOptions} :
    Merged chain o ↔ .ofChain chain = o := by
  have hnullChecks : ∀ b, Inherits ConfigFile.strictNullChecks (fun _ v => some v) none chain b ↔
      b = chain.findSome? ConfigFile.strictNullChecks := by
    intro b
    rw [inherits_some_iff]
    simp only [Option.map_id']
  constructor
  · rintro ⟨hstrict, hnull, hallow, hbase⟩
    obtain ⟨strict, nullChecks, baseUrl, allowJs⟩ := o
    obtain rfl := inherits_plain_iff.1 hstrict
    obtain rfl := (hnullChecks _).1 hnull
    obtain rfl := inherits_plain_iff.1 hallow
    obtain rfl := inherits_some_iff.1 hbase
    rfl
  · rintro rfl
    exact ⟨inherits_plain_iff.2 rfl, (hnullChecks _).2 rfl, inherits_plain_iff.2 rfl,
      inherits_some_iff.2 rfl⟩

/-! ### Loading options -/

section Load

variable {fs : FileSystem} {path : Path}

theorem isNormal_start (hcwd : isAbsolute fs.cwd = true) (path : Path) :
    IsNormal (absolute fs.cwd path) := by
  rw [absolute]
  split
  · rename_i habs
    exact isNormal_normalize habs
  · exact isNormal_normalize (isAbsolute_join hcwd path)

/-- The walk returns what the sequence of paths says, and nothing else. -/
theorem configChain_eq_iff (hcwd : isAbsolute fs.cwd = true)
    {r : Except LoadError (List ConfigFile)} :
    configChain fs (fs.files.length + 1) [] (absolute fs.cwd path) = r ↔
      Outcome fs (absolute fs.cwd path) r := by
  have houtcome := outcome_configChain (isNormal_start hcwd path) (Nat.lt_succ_self fs.files.length)
  constructor
  · rintro rfl
    exact houtcome
  · exact houtcome.unique

theorem load_eq_error_iff (hcwd : isAbsolute fs.cwd = true) {e : LoadError} :
    CompilerOptions.load fs path = .error e ↔ Outcome fs (absolute fs.cwd path) (.error e) := by
  rw [← configChain_eq_iff hcwd, CompilerOptions.load]
  cases configChain fs (fs.files.length + 1) [] (absolute fs.cwd path) with
  | error e' =>
    show Except.error e' = Except.error e ↔ _
    rw [Except.error.injEq, Except.error.injEq]
  | ok chain =>
    constructor <;> intro h <;> cases h

theorem load_eq_ok_iff (hcwd : isAbsolute fs.cwd = true) {o : CompilerOptions} :
    CompilerOptions.load fs path = .ok o ↔
      ∃ chain, IsComplete fs (absolute fs.cwd path) chain ∧ Merged chain o := by
  have hchain : ∀ chain, IsComplete fs (absolute fs.cwd path) chain ↔
      configChain fs (fs.files.length + 1) [] (absolute fs.cwd path) = .ok chain := by
    intro chain
    rw [configChain_eq_iff hcwd]
    constructor
    · exact .complete
    · rintro ⟨⟩
      assumption
  simp only [hchain, merged_iff]
  rw [CompilerOptions.load]
  cases configChain fs (fs.files.length + 1) [] (absolute fs.cwd path) with
  | error e =>
    constructor
    · intro h
      cases h
    · rintro ⟨_, h, _⟩
      cases h
  | ok chain =>
    constructor
    · intro h
      exact ⟨chain, rfl, Except.ok.inj h⟩
    · rintro ⟨chain', h, rfl⟩
      rw [Except.ok.inj h]
      rfl

/-- A sequence that repeats a path repeats one first. -/
theorem exists_repeatsFirst {start : Path} (k : Nat) :
    ∀ q, path? fs start k = some q → (∃ j < k, path? fs start j = some q) →
      ∃ q', RepeatsFirst fs start q' := by
  induction k using Nat.strongRecOn with
  | ind k ih =>
    intro q hk hrepeat
    by_cases hdistinct : Distinct fs start k
    · exact ⟨q, k, hk, hrepeat, hdistinct⟩
    · -- an earlier path repeats
      simp only [Distinct, not_forall, not_not] at hdistinct
      obtain ⟨i, hi, j, hj, heq⟩ := hdistinct
      obtain ⟨c, hc, -⟩ := exists_load_of_lt hk i hi
      exact ih i hi c.path hc ⟨j, hj, heq.trans hc⟩

/-- **Loading options.** Let the current directory be absolute, and take the sequence of paths from
the start on.

* Loading fails at a repetition exactly when a path repeats, and then names the first that does.
* It fails with another fault exactly when this is the fault of a file that cannot be loaded, and no
  path up to it repeats; there are no other errors.
* It succeeds exactly when the sequence ends with a configuration that extends none, and then every
  option is that of the first configuration that sets it.
* No more distinct paths are passed than there are files. -/
theorem load_iff (fs : FileSystem) (path : Path) (hcwd : isAbsolute fs.cwd = true) :
    (∀ q, CompilerOptions.load fs path = .error (.config q .circular) ↔
      RepeatsFirst fs (absolute fs.cwd path) q) ∧
    ((∃ q, CompilerOptions.load fs path = .error (.config q .circular)) ↔
      ∃ k q, path? fs (absolute fs.cwd path) k = some q ∧
        ∃ j < k, path? fs (absolute fs.cwd path) j = some q) ∧
    (∀ q fault, fault ≠ .circular →
      (CompilerOptions.load fs path = .error (.config q fault) ↔
        FailsFirst fs (absolute fs.cwd path) q fault)) ∧
    (∀ e, CompilerOptions.load fs path = .error e → ∃ q fault, e = .config q fault) ∧
    (∀ o, CompilerOptions.load fs path = .ok o ↔
      ∃ chain, IsComplete fs (absolute fs.cwd path) chain ∧ Merged chain o) ∧
    (∀ k q, path? fs (absolute fs.cwd path) k = some q → Distinct fs (absolute fs.cwd path) k →
      k ≤ fs.files.length) := by
  have hcircular : ∀ q, CompilerOptions.load fs path = .error (.config q .circular) ↔
      RepeatsFirst fs (absolute fs.cwd path) q := by
    intro q
    rw [load_eq_error_iff hcwd]
    constructor
    · intro h
      cases h with
      | circular hrepeat => exact hrepeat
      | failed hfail => exact absurd rfl hfail.ne_circular
    · exact .circular
  refine ⟨hcircular, ?_, ?_, ?_, fun o => load_eq_ok_iff hcwd,
    fun k q => le_length_files (isNormal_start hcwd path)⟩
  · simp only [hcircular]
    constructor
    · rintro ⟨q, k, hk, hrepeat, -⟩
      exact ⟨k, q, hk, hrepeat⟩
    · rintro ⟨k, q, hk, hrepeat⟩
      exact exists_repeatsFirst k q hk hrepeat
  · intro q fault hfault
    rw [load_eq_error_iff hcwd]
    constructor
    · intro h
      cases h with
      | circular hrepeat => exact absurd rfl hfault
      | failed hfail => exact hfail
    · exact .failed
  · intro e h
    rw [load_eq_error_iff hcwd] at h
    cases h with
    | circular _ | failed _ => exact ⟨_, _, rfl⟩

end Load

/-- **Workshop.** A chain through two directories, a circle of two files, and a file that extends
one that does not exist. -/
def workshop : FileSystem where
  cwd := "/work/app"
  files :=
    [("/work/app/project.json",
        ("\x7b\"extends\":\"../shared/base\"," ++
          "\"compilerOptions\":\x7b\"allowJs\":false\x7d\x7d").toUTF8),
      ("/work/shared/base.json",
        ("\x7b\"extends\":\"./strict.json\"," ++
          "\"compilerOptions\":\x7b\"baseUrl\":\"./src\",\"allowJs\":true\x7d\x7d").toUTF8),
      ("/work/shared/strict.json",
        "\x7b\"compilerOptions\":\x7b\"baseUrl\":\"lib\",\"strict\":true\x7d\x7d".toUTF8),
      ("/work/app/round.json", "\x7b\"extends\":\"./trip\"\x7d".toUTF8),
      ("/work/app/trip.json", "\x7b\"extends\":\"../app/round.json\"\x7d".toUTF8),
      ("/work/app/lost.json", "\x7b\"extends\":\"./found\"\x7d".toUTF8)]

/-- The nearest file turns scripts off, the next one sets the base directory, seen from where it
lies, and the last one is strict. -/
theorem workshop_loads :
    isAbsolute workshop.cwd = true ∧
    (∃ chain, IsComplete workshop "/work/app/project.json" chain ∧
      Merged chain { strict := true, baseUrl := some "/work/shared/src" }) ∧
    RepeatsFirst workshop "/work/app/round.json" "/work/app/round.json" ∧
    FailsFirst workshop "/work/app/lost.json" "/work/app/found.json" (.unreadable .notFound) := by
  have hproject : CompilerOptions.load workshop "project.json" =
      .ok { strict := true, baseUrl := some "/work/shared/src" } := by
    decide +kernel
  have hround : CompilerOptions.load workshop "./round.json" =
      .error (.config "/work/app/round.json" .circular) := by
    decide +kernel
  have hlost : CompilerOptions.load workshop "lost.json" =
      .error (.config "/work/app/found.json" (.unreadable .notFound)) := by
    decide +kernel
  refine ⟨rfl, ?_, ?_, ?_⟩
  · exact ((load_iff workshop "project.json" rfl).2.2.2.2.1 _).1 hproject
  · exact ((load_iff workshop "./round.json" rfl).1 _).1 hround
  · exact ((load_iff workshop "lost.json" rfl).2.2.1 _ _ (by decide)).1 hlost

end ConfigChain

end PropDocs
