import PropDocs.Engine.SymbolTable
import PropDocs.Proofs.FirstOccurrences

/-!
# Extraction with one engine

One engine serves any number of extractions.  The documents of a list of files are then the first ones
of their names along the files and their exports, however the list is cut into runs.

* `traversal`: the exports of the files with their files, in the order in which they are visited;
* `firstContracts`: of the contracts among them the first one of each name;
* `forall₂_extract_firstContracts`: the documents are those of the first contracts, in their order;
* `ComponentDoc.dedupe_append`: two runs may leave out their repeats each by itself first; and
  `ComponentDoc.dedupe_append_of_covered`: documents of names that are there already add nothing;
* `extract_append`: the statement for two lists of files.
-/

namespace PropDocs

namespace ComponentDoc

theorem sameFirsts_dedupe (docs : List ComponentDoc) : SameFirsts exportName (dedupe docs) docs := by
  rw [dedupe_eq_firstsFrom]
  exact .firsts docs

/-- **Repeats in runs.** Two runs may leave out their repeats each by itself first. -/
theorem dedupe_append (xs ys : List ComponentDoc) :
    dedupe (dedupe xs ++ dedupe ys) = dedupe (xs ++ ys) := by
  rw [dedupe_eq_firstsFrom, dedupe_eq_firstsFrom (xs ++ ys)]
  exact (sameFirsts_dedupe xs).append (sameFirsts_dedupe ys) []

theorem nodup_exportNames_dedupe (docs : List ComponentDoc) :
    ((dedupe docs).map exportName).Nodup := by
  rw [dedupe_eq_firstsFrom]
  exact nodup_map_firstsFrom exportName [] docs

/-- Documents whose names are there already add nothing. -/
theorem dedupe_append_of_covered {xs ys : List ComponentDoc}
    (h : ∀ d ∈ ys, d.exportName ∈ xs.map exportName) : dedupe (xs ++ ys) = dedupe xs := by
  rw [dedupe_eq_firstsFrom, dedupe_eq_firstsFrom, firstsFrom_append]
  have hseen : ∀ d ∈ ys,
      d.exportName ∈ ((firstsFrom exportName [] xs).map exportName).reverse ++ [] := by
    intro d hd
    rw [List.append_nil, List.mem_reverse, mem_map_firstsFrom]
    exact ⟨h d hd, List.not_mem_nil⟩
  rw [firstsFrom_eq_nil hseen, List.append_nil]

end ComponentDoc

namespace Engine

variable {σ τ δ : Type} (e : Engine σ τ δ)

/-! ### Traversal -/

/-- **Traversal.** The exports of the files, each with its file: file after file, and in each the
exports of its module in order.  A file that is no module has none. -/
def traversal (files : List Path) : List (Path × σ) :=
  files.flatMap fun file =>
    (e.module? file).toList.flatMap fun m => (e.exports m).map fun s => (file, s)

/-- **First contracts.** Of the exports along the traversal whose first declaration is an interface, a
type alias or a class, the first one of each name. -/
def firstContracts (files : List Path) : List (Path × σ) :=
  ((e.traversal files).filter fun x => e.isContract x.2).eraseDupsBy fun x y =>
    e.name x.2 == e.name y.2

theorem extractFile_eq_filterMap (o : ExtractionOptions) (file : Path) :
    e.extractFile o file =
      ((e.module? file).toList.flatMap fun m => (e.exports m).map fun s => (file, s)).filterMap
        fun x => e.describe? o x.2 := by
  rw [extractFile]
  cases e.module? file with
  | none => rfl
  | some m =>
    rw [Option.toList_some, List.flatMap_singleton, List.filterMap_map]
    rfl

/-- All documents of the files, with their repeats, are those of the traversal. -/
theorem flatMap_extractFile (o : ExtractionOptions) (files : List Path) :
    files.flatMap (e.extractFile o) = (e.traversal files).filterMap fun x => e.describe? o x.2 := by
  rw [traversal, List.filterMap_flatMap]
  exact List.flatMap_congr fun file _ => e.extractFile_eq_filterMap o file

/-- **The document is that of the export**, and has its name. -/
def DocumentOf (o : ExtractionOptions) (x : Path × σ) (d : ComponentDoc) : Prop :=
  e.describe? o x.2 = some d ∧ d.exportName = e.name x.2

/-- Contracts have documents, and nothing else has one. -/
theorem rel_describe? (o : ExtractionOptions) (x : Path × σ) :
    Option.Rel (e.DocumentOf o) (Option.guard (fun x => e.isContract x.2) x)
      (e.describe? o x.2) := by
  rw [Option.guard]
  cases hdescribed : e.describe? o x.2 with
  | none =>
    rw [describe?] at hdescribed
    split at hdescribed
    · cases hdescribed
    · next hcontract =>
      rw [if_neg (by simpa using hcontract)]
      exact .none
  | some d =>
    have hname : d.exportName = e.name x.2 ∧ e.isContract x.2 = true := by
      rw [describe?] at hdescribed
      split at hdescribed
      · next hcontract =>
        rw [← Option.some.inj hdescribed]
        exact ⟨rfl, hcontract⟩
      · cases hdescribed
    rw [if_pos hname.2]
    exact .some ⟨hdescribed, hname.1⟩

theorem forall₂_contracts (o : ExtractionOptions) (files : List Path) :
    List.Forall₂ (e.DocumentOf o) ((e.traversal files).filter fun x => e.isContract x.2)
      (files.flatMap (e.extractFile o)) := by
  rw [flatMap_extractFile, ← List.filterMap_eq_filter]
  refine List.rel_filterMap (R := Eq) ?_ (List.forall₂_refl _)
  rintro x _ rfl
  exact e.rel_describe? o x

/-- **Documents of first contracts.** The documents of a list of files are those of the first contracts
along their traversal, one by one. -/
theorem forall₂_extract_firstContracts (o : ExtractionOptions) (files : List Path) :
    List.Forall₂ (e.DocumentOf o) (e.firstContracts files) (e.extract o files) := by
  rw [extract, ComponentDoc.dedupe_eq_firstsFrom, firstContracts,
    ← firstsFrom_nil fun x : Path × σ => e.name x.2]
  exact forall₂_firstsFrom (fun _ _ h => h.2.symm) (e.forall₂_contracts o files) []

/-! ### Runs -/

/-- Files that were visited already add nothing. -/
theorem extract_append_of_subset (o : ExtractionOptions) {fs gs : List Path} (h : gs ⊆ fs) :
    e.extract o (fs ++ gs) = e.extract o fs := by
  rw [extract, extract, List.flatMap_append]
  apply ComponentDoc.dedupe_append_of_covered
  intro d hd
  obtain ⟨file, hfile, hd⟩ := List.mem_flatMap.1 hd
  exact List.mem_map_of_mem (List.mem_flatMap.2 ⟨file, h hfile, hd⟩)

/-- **Runs with one engine.** The documents of two lists of files are those of the first run and of the
second one, with repeats left out.  Documents have distinct names; they are those of the first contracts
along the files, in their order.  A second run over files of the first one adds and changes nothing. -/
theorem extract_append (o : ExtractionOptions) (fs gs : List Path) :
    e.extract o (fs ++ gs) = ComponentDoc.dedupe (e.extract o fs ++ e.extract o gs) ∧
      ((e.extract o fs).map ComponentDoc.exportName).Nodup ∧
      List.Forall₂ (e.DocumentOf o) (e.firstContracts fs) (e.extract o fs) ∧
      (gs ⊆ fs → ComponentDoc.dedupe (e.extract o fs ++ e.extract o gs) = e.extract o fs) := by
  have hruns : e.extract o (fs ++ gs) =
      ComponentDoc.dedupe (e.extract o fs ++ e.extract o gs) := by
    rw [extract, extract, extract, ComponentDoc.dedupe_append, List.flatMap_append]
  refine ⟨hruns, ComponentDoc.nodup_exportNames_dedupe _, e.forall₂_extract_firstContracts o fs, ?_⟩
  intro h
  rw [← hruns, e.extract_append_of_subset o h]

/-- **Lamps.** A name that is exported three times: as a function and then as an interface by one file,
and as a type alias by another. -/
def lamps : SymbolTable :=
  (SymbolTable.mk
      [{ name := "Lamp" }, { name := "Lamp", kind := .interface, doc := "floor" },
        { name := "Lamp", kind := .typeAlias, doc := "desk" }, { name := "Chair", kind := .classDecl }]
      [])
    |>.addModule "/floor.ts" [0, 1]
    |>.addModule "/desk.ts" [2, 3]

/-- The desk lamp comes first when its file does, and running over the other file again leaves it. -/
theorem lamps_extract_append :
    ["/floor.ts"] ⊆ ["/desk.ts", "/floor.ts"] ∧
      (lamps.engine.extract {} (["/desk.ts", "/floor.ts"] ++ ["/floor.ts"])).map
          (fun d => (d.exportName, d.description)) = [("Lamp", "desk"), ("Chair", "")] ∧
      (lamps.engine.extract {} (["/floor.ts"] ++ ["/desk.ts"])).map
          (fun d => (d.exportName, d.description)) = [("Lamp", "floor"), ("Chair", "")] := by
  have hcovered : ["/floor.ts"] ⊆ ["/desk.ts", "/floor.ts"] := by decide
  obtain ⟨hruns, -, -, hrerun⟩ :=
    extract_append lamps.engine {} ["/desk.ts", "/floor.ts"] ["/floor.ts"]
  obtain ⟨hruns', -⟩ := extract_append lamps.engine {} ["/floor.ts"] ["/desk.ts"]
  refine ⟨hcovered, ?_, ?_⟩
  · rw [hruns, hrerun hcovered]
    decide +kernel
  · rw [hruns']
    decide +kernel

end Engine

end PropDocs
