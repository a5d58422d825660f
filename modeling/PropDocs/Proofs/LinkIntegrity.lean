import PropDocs.Proofs.Loading

/-!
# Link integrity

Files are known by path, and every path of a program has one place, its number in loading order.
`LinkIntegrity` says that the places, the paths and the links of a program fit together;
`build_linkIntegrity` shows it of every program that is built, from what loading keeps (`BuiltFrom`).
-/

namespace PropDocs.Program

open PropDocs.Path

/-! ### Places of files -/

/-- **Place of a file**: its number in loading order. -/
def place? (p : Program) (path : Path) : Option Nat :=
  p.paths.idxOf? path

/-- The place of the file that a specifier stands for in the file at place `i`. -/
def linkPlace? (p : Program) (i : Nat) (s : String) : Option Nat := do
  let f ← p.files[i]?
  let t ← p.linked? f.path s
  p.place? t

section

variable {w : Workspace} {options : CompilerOptions} {roots : List Path} {p : Program}

theorem lookup_linksOf (w : Workspace) (options : CompilerOptions) (m : SourceModule) (s : String) :
    (linksOf w options m).lookup s =
      if s ∈ m.specifiers then Specifier.resolve? options w.present m.path s else none := by
  rw [linksOf]
  induction m.specifiers with
  | nil => rfl
  | cons t ts ih =>
    rw [List.filterMap_cons]
    by_cases hs : s = t
    · subst hs
      rw [if_pos List.mem_cons_self]
      cases hr : Specifier.resolve? options w.present m.path s with
      | none =>
        rw [Option.map_none, ih, hr]
        split <;> rfl
      | some target => simp
    · have hmem : s ∈ t :: ts ↔ s ∈ ts := by simp [hs]
      simp only [hmem]
      cases hr : Specifier.resolve? options w.present m.path t with
      | none => exact ih
      | some target =>
        rw [Option.map_some, List.lookup_cons, beq_false_of_ne hs]
        exact ih

theorem getElem?_paths (p : Program) (i : Nat) :
    p.paths[i]? = p.files[i]?.map SourceFile.path :=
  List.getElem?_map

theorem place?_eq_some_iff (hnodup : p.paths.Nodup) {path : Path} {i : Nat} :
    p.place? path = some i ↔ ∃ f, p.files[i]? = some f ∧ f.path = path := by
  have hpath : p.paths[i]? = some path ↔ ∃ f, p.files[i]? = some f ∧ f.path = path := by
    rw [getElem?_paths, Option.map_eq_some_iff]
  rw [place?, List.idxOf?_eq_some_iff, ← hpath, List.getElem?_eq_some_iff]
  constructor
  · rintro ⟨hi, heq, -⟩
    exact ⟨hi, heq⟩
  · rintro ⟨hi, heq⟩
    refine ⟨hi, heq, ?_⟩
    intro j hj hji
    exact List.pairwise_iff_getElem.1 hnodup j i (Nat.lt_trans hj hi) hi hj (hji.trans heq.symm)

theorem exists_place? {path : Path} (h : path ∈ p.paths) :
    ∃ i, i < p.files.length ∧ p.place? path = some i := by
  have hsome : (p.paths.idxOf? path).isSome := List.isSome_idxOf?.2 h
  obtain ⟨i, hi⟩ := Option.isSome_iff_exists.1 hsome
  obtain ⟨hlt, -, -⟩ := List.idxOf?_eq_some_iff.1 hi
  rw [paths, List.length_map] at hlt
  exact ⟨i, hlt, hi⟩

/-! ### Links of a built program -/

theorem BuiltFrom.linked?_eq (h : BuiltFrom w options roots p) {f : SourceFile} (hf : f ∈ p.files)
    {s : String} (hs : s ∈ f.module.specifiers) :
    p.linked? f.path s = Specifier.resolve? options w.present f.path s := by
  have hmem : f.path ∈ p.paths := List.mem_map_of_mem hf
  have heq := h.file_eq f hf
  rw [linked?, h.file?_eq hmem, ← heq]
  have hlinks : f.links = linksOf w options f.module := by
    rw [heq]
    rfl
  show f.links.lookup s = _
  rw [hlinks, lookup_linksOf, if_pos hs]
  rfl

/-! ### Link integrity -/

/-- **Link integrity** of a program with the given roots. -/
structure LinkIntegrity (w : Workspace) (options : CompilerOptions) (roots : List Path)
    (p : Program) : Prop where
  /-- Paths and places determine each other, and a file stands at the place of its path. -/
  place_iff : ∀ path i, p.place? path = some i ↔ ∃ f, p.files[i]? = some f ∧ f.path = path
  /-- The first files are the distinct roots in order. -/
  roots_first : (roots.map (Path.absolute w.disk.cwd)).eraseDups <+: p.paths
  /-- Roots are absolute and normalised. -/
  roots_normal : ∀ q ∈ (roots.map (Path.absolute w.disk.cwd)).eraseDups,
    Path.isAbsolute q = true ∧ Path.normalize q = q
  /-- Every later file is what a specifier of an earlier file stands for. -/
  later_found : ∀ i f, p.files[i]? = some f →
    (roots.map (Path.absolute w.disk.cwd)).eraseDups.length ≤ i →
    ∃ j g s, j < i ∧ p.files[j]? = some g ∧ s ∈ g.module.specifiers ∧
      Specifier.resolve? options w.present g.path s = some f.path
  /-- Every specifier in use is listed, and none is listed twice. -/
  mentions : ∀ f ∈ p.files, f.module.Mentions
  /-- A specifier is linked to the file at a place exactly when it resolves to its path. -/
  link_iff : ∀ i f s id, p.files[i]? = some f → s ∈ f.module.specifiers →
    (p.linkPlace? i s = some id ↔
      ∃ t g, Specifier.resolve? options w.present f.path s = some t ∧
        p.files[id]? = some g ∧ g.path = t)
  /-- What a specifier resolves to is a file of the program. -/
  target_loaded : ∀ f ∈ p.files, ∀ s ∈ f.module.specifiers, ∀ t,
    Specifier.resolve? options w.present f.path s = some t → ∃ i, p.place? t = some i
  /-- Every link is one of a listed specifier and leads to a place within bounds. -/
  link_bounded : ∀ f ∈ p.files, ∀ l ∈ f.links, l.1 ∈ f.module.specifiers ∧
    ∃ i, i < p.files.length ∧ p.place? l.2 = some i

theorem build_linkIntegrity (w : Workspace) (options : CompilerOptions) (roots : List Path)
    (p : Program) (h : build w options roots = .ok p) : LinkIntegrity w options roots p := by
  have hb := builtFrom_of_build h
  have hloaded : ∀ f ∈ p.files, ∀ s ∈ f.module.specifiers, ∀ t,
      Specifier.resolve? options w.present f.path s = some t → t ∈ p.paths :=
    fun f hf s hs t ht => hb.closed f hf t (mem_targets_iff.2 ⟨s, hs, ht⟩)
  exact
    { place_iff := fun path i => place?_eq_some_iff hb.nodup
      roots_first := hb.roots_first
      roots_normal := by
        intro q hq
        have hnormal := hb.roots_normal q hq
        exact ⟨hnormal.isAbsolute, hnormal.normalize_eq⟩
      later_found := by
        intro i f hf hi
        obtain ⟨j, g, hj, hg, ht⟩ := hb.found i f hf hi
        obtain ⟨s, hs, hr⟩ := mem_targets_iff.1 ht
        exact ⟨j, g, s, hj, hg, hs, hr⟩
      mentions := by
        intro f hf
        rw [hb.file_eq f hf]
        exact w.mentions_loadOrEmpty _
      link_iff := by
        intro i f s id hf hs
        have hmem : f ∈ p.files := List.mem_of_getElem? hf
        rw [linkPlace?, hf]
        simp only [Option.bind_eq_bind, Option.bind_some, hb.linked?_eq hmem hs]
        rw [Option.bind_eq_some_iff]
        constructor
        · rintro ⟨t, ht, hid⟩
          obtain ⟨g, hg, hpath⟩ := (place?_eq_some_iff hb.nodup).1 hid
          exact ⟨t, g, ht, hg, hpath⟩
        · rintro ⟨t, g, ht, hg, hpath⟩
          exact ⟨t, ht, (place?_eq_some_iff hb.nodup).2 ⟨g, hg, hpath⟩⟩
      target_loaded := by
        intro f hf s hs t ht
        obtain ⟨i, -, hi⟩ := exists_place? (hloaded f hf s hs t ht)
        exact ⟨i, hi⟩
      link_bounded := by
        intro f hf l hl
        have hlinks : f.links = linksOf w options f.module := by
          rw [hb.file_eq f hf]
          rfl
        rw [hlinks, linksOf, List.mem_filterMap] at hl
        obtain ⟨s, hs, hr⟩ := hl
        obtain ⟨t, ht, rfl⟩ := Option.map_eq_some_iff.1 hr
        exact ⟨hs, exists_place? (hloaded f hf s hs t ht)⟩ }

/-- **Cyclic pair.** A file that imports from itself, and exports again all of a file that imports
it. -/
def cyclicPair : Workspace where
  overlays := OrderedMap.empty
    |>.insert "/a.ts" "export * from './b';\nimport { A } from './a';\nimport './gone';"
    |>.insert "/b.ts" "import './a';\nexport interface A { x: string }"

/-- The root given twice is loaded once, and the specifier without a file has no link. -/
theorem cyclicPair_linkIntegrity :
    ∃ p, build cyclicPair {} ["/a.ts", "/./a.ts"] = .ok p ∧
      LinkIntegrity cyclicPair {} ["/a.ts", "/./a.ts"] p ∧ p.paths = ["/a.ts", "/b.ts"] ∧
      p.linkPlace? 0 "./b" = some 1 ∧ p.linkPlace? 1 "./a" = some 0 ∧
      p.linkPlace? 0 "./gone" = none := by
  have hrun : (build cyclicPair {} ["/a.ts", "/./a.ts"]).toOption.map
      (fun p => (p.paths, p.linkPlace? 0 "./b", p.linkPlace? 1 "./a", p.linkPlace? 0 "./gone")) =
        some (["/a.ts", "/b.ts"], some 1, some 0, none) := by decide +kernel
  cases hbuild : build cyclicPair {} ["/a.ts", "/./a.ts"] with
  | error e =>
    rw [hbuild] at hrun
    cases hrun
  | ok p =>
    rw [hbuild] at hrun
    obtain ⟨hpaths, hb, ha, hgone⟩ : p.paths = ["/a.ts", "/b.ts"] ∧ p.linkPlace? 0 "./b" = some 1 ∧
        p.linkPlace? 1 "./a" = some 0 ∧ p.linkPlace? 0 "./gone" = none := by
      simpa [Except.toOption] using hrun
    exact ⟨p, rfl, build_linkIntegrity _ _ _ p hbuild, hpaths, hb, ha, hgone⟩

end

end PropDocs.Program
