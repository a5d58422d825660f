import Mathlib.Logic.Relation
import PropDocs.Program.Symbols

/-!
# Listing and resolving exports

Two walks answer questions about exported names.  `exportTarget?` follows one name, with a bound on
the number of hops.  `exportedNames` lists all names, and its walk along star exports is bounded by
the number of **files** it has visited.  This file says how far the two agree.

* `StarReaches`: the files whose exports a file exports again, in any number of steps;
* `starOrder`: these files in depth-first order, found by a walk without any bound.  It holds every
  file that is reached, once (`mem_starOrder_iff`, `nodup_starOrder`);
* `take_starClosure`: the bounded walk visits the first `maxDepth` files of that order;
* `resolved_export_listed_iff`: a name that resolves is listed exactly when one of these first files
  has it in its own table.  So a file that exports again at most `maxDepth` files, itself counted,
  lists every name that an importer can resolve;
* `barrel_omits_part31`: with one file more, a name that resolves in a single hop is not listed.
-/

namespace PropDocs.Program

/-! ### Files reached through star exports -/

/-- **Star reachability.** `g` is `f` itself, or its exports are exported again by `f` through any
number of star exports. -/
def StarReaches (p : Program) : Path → Path → Prop :=
  Relation.ReflTransGen fun f g => g ∈ p.starTargets f

theorem starTargets_eq_nil {p : Program} {f : Path} (h : f ∉ p.paths) : p.starTargets f = [] := by
  unfold starTargets
  split
  · rename_i m hm
    exact absurd (mem_paths_of_file? hm) h
  · rfl

/-! ### The walk without a bound -/

/-- **Star walk.** Visits the files of a list and what they export again, depth first, each file
once.  A file of the program is taken from those not visited; any other path has no star exports, so
that the list gets shorter. -/
def starWalk (p : Program) (visited : List Path) : List Path → List Path
  | [] => visited
  | f :: todo =>
    if f ∈ visited then p.starWalk visited todo
    else p.starWalk (visited ++ [f]) (p.starTargets f ++ todo)
termination_by todo => ((remaining p.paths visited).length, todo.length)
decreasing_by
  · exact Prod.Lex.right _ (by simp)
  · by_cases hf : f ∈ p.paths
    · exact Prod.Lex.left _ _ (length_remaining_lt hf (List.mem_singleton_self f) ‹_›)
    · rw [starTargets_eq_nil hf]
      apply Prod.Lex.right'
      · rw [remaining_append]
        exact length_remaining_le _ _
      · simp

/-- **Star order.** The files reached from a file through star exports, in depth-first order. -/
def starOrder (p : Program) (f : Path) : List Path :=
  p.starWalk [] [f]

theorem starWalk_append (p : Program) (visited xs ys : List Path) :
    p.starWalk visited (xs ++ ys) = p.starWalk (p.starWalk visited xs) ys := by
  fun_induction starWalk p visited xs with
  | case1 visited => rfl
  | case2 visited f todo hf ih => rw [List.cons_append, starWalk, if_pos hf, ih]
  | case3 visited f todo hf ih =>
    rw [List.cons_append, starWalk, if_neg hf, ← List.append_assoc, ih]

theorem prefix_starWalk (p : Program) (visited todo : List Path) :
    visited <+: p.starWalk visited todo := by
  fun_induction starWalk p visited todo with
  | case1 visited => exact List.prefix_rfl
  | case2 visited f todo hf ih => exact ih
  | case3 visited f todo hf ih => exact (List.prefix_append visited [f]).trans ih

theorem nodup_starWalk (p : Program) {visited todo : List Path} (h : visited.Nodup) :
    (p.starWalk visited todo).Nodup := by
  fun_induction starWalk p visited todo with
  | case1 visited => exact h
  | case2 visited f todo hf ih => exact ih h
  | case3 visited f todo hf ih =>
    apply ih
    rw [List.nodup_append]
    exact ⟨h, by simp, fun a ha b hb e => hf (by simp_all)⟩

theorem nodup_starOrder (p : Program) (f : Path) : (p.starOrder f).Nodup :=
  p.nodup_starWalk List.nodup_nil

/-- **Nothing beyond reach.** What a walk adds is reached from a file it had to visit. -/
theorem reaches_of_mem_starWalk {p : Program} {visited todo : List Path} {g : Path}
    (h : g ∈ p.starWalk visited todo) : g ∈ visited ∨ ∃ f ∈ todo, p.StarReaches f g := by
  fun_induction starWalk p visited todo with
  | case1 visited => exact .inl h
  | case2 visited f todo hf ih =>
    rcases ih h with hg | ⟨f', hf', hr⟩
    · exact .inl hg
    · exact .inr ⟨f', List.mem_cons_of_mem f hf', hr⟩
  | case3 visited f todo hf ih =>
    rcases ih h with hg | ⟨f', hf', hr⟩
    · rcases List.mem_append.1 hg with hg | hg
      · exact .inl hg
      · rw [List.mem_singleton.1 hg]
        exact .inr ⟨f, List.mem_cons_self, .refl⟩
    · rcases List.mem_append.1 hf' with hf' | hf'
      · exact .inr ⟨f, List.mem_cons_self, .head hf' hr⟩
      · exact .inr ⟨f', List.mem_cons_of_mem f hf', hr⟩

/-- **Closedness.** If all that visited files export again is visited or still to be visited, then
the result of the walk holds the files it had to visit and all that its files export again. -/
theorem starWalk_closed {p : Program} {visited todo : List Path}
    (h : ∀ f ∈ visited, ∀ g ∈ p.starTargets f, g ∈ visited ∨ g ∈ todo) :
    (∀ f ∈ todo, f ∈ p.starWalk visited todo) ∧
      ∀ f ∈ p.starWalk visited todo, ∀ g ∈ p.starTargets f, g ∈ p.starWalk visited todo := by
  fun_induction starWalk p visited todo with
  | case1 visited => exact ⟨by simp, fun f hf g hg => by simpa using h f hf g hg⟩
  | case2 visited f todo hf ih =>
    obtain ⟨htodo, hclosed⟩ := ih fun f' hf' g hg => by
      rcases h f' hf' g hg with hg | hg
      · exact .inl hg
      · rcases List.mem_cons.1 hg with rfl | hg
        · exact .inl hf
        · exact .inr hg
    refine ⟨?_, hclosed⟩
    intro f' hf'
    rcases List.mem_cons.1 hf' with rfl | hf'
    · exact (p.prefix_starWalk visited todo).subset hf
    · exact htodo f' hf'
  | case3 visited f todo hf ih =>
    -- The star exports of `f` move from its table to the front of what is still to be visited.
    obtain ⟨htodo, hclosed⟩ := ih fun f' hf' g hg => by
      rcases List.mem_append.1 hf' with hf' | hf'
      · rcases h f' hf' g hg with hg | hg
        · exact .inl (List.mem_append_left _ hg)
        · rcases List.mem_cons.1 hg with rfl | hg
          · exact .inl (List.mem_append_right _ (List.mem_singleton_self _))
          · exact .inr (List.mem_append_right _ hg)
      · rw [List.mem_singleton.1 hf'] at hg
        exact .inr (List.mem_append_left _ hg)
    refine ⟨?_, hclosed⟩
    intro f' hf'
    rcases List.mem_cons.1 hf' with rfl | hf'
    · exact (p.prefix_starWalk _ _).subset (by simp)
    · exact htodo f' (List.mem_append_right _ hf')

/-- **The star order is the set of files reached.** -/
theorem mem_starOrder_iff {p : Program} {f g : Path} :
    g ∈ p.starOrder f ↔ p.StarReaches f g := by
  constructor
  · intro h
    rcases reaches_of_mem_starWalk h with h | ⟨f', hf', hr⟩
    · exact absurd h List.not_mem_nil
    · rwa [List.mem_singleton.1 hf'] at hr
  · intro h
    have hnone : ∀ f' ∈ ([] : List Path), ∀ g ∈ p.starTargets f', g ∈ [] ∨ g ∈ [f] := by simp
    obtain ⟨hstart, hclosed⟩ := starWalk_closed hnone
    induction h with
    | refl => exact hstart f (List.mem_singleton_self f)
    | tail _ hstep ih => exact hclosed _ ih _ hstep

/-! ### The bounded walk against the unbounded one -/

/-- Two lists are the same, or both have `n` entries and the first `n` are the same. -/
def AgreeUpTo (n : Nat) (a b : List Path) : Prop :=
  a = b ∨ (n ≤ a.length ∧ n ≤ b.length ∧ a.take n = b.take n)

theorem AgreeUpTo.take_eq {n : Nat} {a b : List Path} (h : AgreeUpTo n a b) :
    a.take n = b.take n := by
  rcases h with rfl | ⟨_, _, h⟩
  · rfl
  · exact h

theorem take_grown {n : Nat} {a a' : List Path} (hn : n ≤ a.length) (h : a <+: a') :
    a'.take n = a.take n := by
  obtain ⟨rest, rfl⟩ := h
  exact List.take_append_of_le_length hn

/-- Lists that are long enough agree however they grow. -/
theorem agreeUpTo_grown {n : Nat} {a a' b b' : List Path} (ha : n ≤ a.length)
    (hb : n ≤ b.length) (h : a.take n = b.take n) (ha' : a <+: a') (hb' : b <+: b') :
    AgreeUpTo n a' b' := by
  refine .inr ⟨Nat.le_trans ha ha'.length_le, Nat.le_trans hb hb'.length_le, ?_⟩
  rw [take_grown ha ha', take_grown hb hb', h]

theorem prefix_foldl {step : List Path → Path → List Path} (h : ∀ v f, v <+: step v f)
    (visited fs : List Path) : visited <+: fs.foldl step visited := by
  induction fs generalizing visited with
  | nil => exact List.prefix_rfl
  | cons f fs ih => exact (h visited f).trans (ih (step visited f))

theorem prefix_starClosure (p : Program) (fuel : Nat) :
    ∀ (visited : List Path) (f : Path), visited <+: p.starClosure fuel visited f := by
  induction fuel with
  | zero =>
    intro visited f
    exact List.prefix_rfl
  | succ fuel ih =>
    intro visited f
    rw [starClosure]
    split
    · exact List.prefix_rfl
    · split
      · exact (List.prefix_append visited [f]).trans (prefix_foldl ih _ _)
      · exact List.prefix_append visited [f]

/-- A step that agrees with the star walk on one file agrees with it on a list of files. -/
theorem agreeUpTo_foldl {p : Program} {n bound : Nat} {step : List Path → Path → List Path}
    (hgrow : ∀ v f, v <+: step v f)
    (hstep : ∀ v f, bound ≤ v.length → AgreeUpTo n (step v f) (p.starWalk v [f])) :
    ∀ (fs a b : List Path), bound ≤ a.length → AgreeUpTo n a b →
      AgreeUpTo n (fs.foldl step a) (p.starWalk b fs) := by
  intro fs
  induction fs with
  | nil =>
    intro a b _ hab
    rwa [starWalk]
  | cons f fs ih =>
    intro a b ha hab
    rw [List.foldl_cons, ← List.singleton_append, starWalk_append]
    apply ih (step a f) _ (Nat.le_trans ha (hgrow a f).length_le)
    rcases hab with rfl | ⟨hna, hnb, htake⟩
    · exact hstep a f ha
    · exact agreeUpTo_grown hna hnb htake (hgrow a f) (p.prefix_starWalk b [f])

/-- **One bounded walk.** The fuel and the files visited together exceed the bound, so that the walk
stops at the bound and not for want of fuel. -/
theorem agreeUpTo_starClosure (p : Program) (fuel : Nat) :
    ∀ (visited : List Path) (f : Path), maxDepth + 1 - fuel ≤ visited.length →
      AgreeUpTo maxDepth (p.starClosure fuel visited f) (p.starWalk visited [f]) := by
  induction fuel with
  | zero =>
    intro visited f hlen
    have hlong : maxDepth ≤ visited.length := by omega
    exact agreeUpTo_grown hlong hlong rfl List.prefix_rfl (p.prefix_starWalk visited [f])
  | succ fuel ih =>
    intro visited f hlen
    by_cases hf : f ∈ visited
    · rw [starClosure, if_pos (by simpa using hf), starWalk, if_pos hf, starWalk]
      exact .inl rfl
    · rw [starClosure, if_neg (by simpa using hf), starWalk, if_neg hf, List.append_nil]
      split
      · have hgrown : maxDepth + 1 - fuel ≤ (visited ++ [f]).length := by
          rw [List.length_append, List.length_singleton]
          omega
        exact agreeUpTo_foldl (p.prefix_starClosure fuel) ih _ _ _ hgrown (.inl rfl)
      · -- Beyond the bound the file is still visited, but nothing behind it.
        have hlong : maxDepth ≤ (visited ++ [f]).length := by
          rw [List.length_append]
          omega
        exact agreeUpTo_grown hlong hlong rfl List.prefix_rfl (p.prefix_starWalk _ _)

theorem take_starClosure (p : Program) (f : Path) :
    (p.starClosure (maxDepth + 1) [] f).take maxDepth = (p.starOrder f).take maxDepth :=
  (p.agreeUpTo_starClosure (maxDepth + 1) [] f (by simp)).take_eq

/-! ### Names that are listed -/

theorem mem_exportedNames_iff {p : Program} {f : Path} {n : String} (hn : n ≠ "default") :
    n ∈ p.exportedNames f ↔ ∃ g ∈ (p.starOrder f).take maxDepth, n ∈ p.ownExportNames g := by
  rw [exportedNames, take_starClosure]
  split
  · rename_i hnil
    simp [hnil]
  · rename_i own others hcons
    rw [List.mem_eraseDups, hcons]
    simp [hn]

theorem exported_mem_exports_iff {p : Program} {f : Path} {n : String} {r : Option GroupRef} :
    .exported f n r ∈ p.exports (.module f) ↔
      n ∈ p.exportedNames f ∧ p.exportTarget? (maxDepth + 1) f n = r := by
  simp only [exports, List.mem_map, ProgramSymbol.exported.injEq, true_and]
  constructor
  · rintro ⟨m, hm, rfl, hr⟩
    exact ⟨hm, hr⟩
  · rintro ⟨hn, hr⟩
    exact ⟨n, hn, rfl, hr⟩

/-! ### Names that resolve -/

/-- **One step of resolution.** A name that resolves stands in the file's own table or resolves, with
one hop less, in a file that the file exports again. -/
theorem ownExportNames_or_star {p : Program} {hops : Nat} {f : Path} {n : String} {r : GroupRef}
    (h : p.exportTarget? (hops + 1) f n = some r) :
    n ∈ p.ownExportNames f ∨ ∃ g ∈ p.starTargets f, p.exportTarget? hops g n = some r := by
  rw [exportTarget?] at h
  cases hf : p.file? f with
  | none => simp [hf] at h
  | some m =>
    simp only [hf, Option.bind_eq_bind, Option.bind_some] at h
    cases he : m.module.exports.find? fun e => e.exported == n with
    | some e =>
      left
      have hmem := List.mem_of_find?_eq_some he
      have hname : e.exported = n := by simpa using List.find?_some he
      rw [ownExportNames, hf, ← hname]
      exact List.mem_map_of_mem hmem
    | none =>
      right
      simp only [he] at h
      split at h
      · cases h
      · obtain ⟨s, hs, hr⟩ := List.exists_of_findSome?_eq_some h
        split at hr
        · rename_i g hg
          refine ⟨g, ?_, hr⟩
          rw [starTargets, hf]
          exact List.mem_filterMap.2 ⟨s, hs, hg⟩
        · cases hr

theorem exists_own_of_exportTarget? {p : Program} {hops : Nat} {f : Path} {n : String}
    {r : GroupRef} (h : p.exportTarget? hops f n = some r) :
    ∃ g, p.StarReaches f g ∧ n ∈ p.ownExportNames g := by
  induction hops generalizing f with
  | zero => simp [exportTarget?] at h
  | succ hops ih =>
    rcases ownExportNames_or_star h with hown | ⟨g, hg, hr⟩
    · exact ⟨f, .refl, hown⟩
    · obtain ⟨g', hg', hown⟩ := ih hr
      exact ⟨g', .head hg hg', hown⟩

/-! ### Where listing and resolving agree -/

/-- **Listing against resolving.** A name that resolves to `r`, other than the default export, is
listed with the target `r` exactly when one of the first `maxDepth` files in star order has it in
its own table.  When there are no more files than that, every name that resolves is listed. -/
theorem resolved_export_listed_iff (p : Program) (f : Path) (n : String) (r : GroupRef)
    (hn : n ≠ "default") (hr : p.exportTarget? (maxDepth + 1) f n = some r) :
    (.exported f n (some r) ∈ p.exports (.module f) ↔
      ∃ g ∈ (p.starOrder f).take maxDepth, n ∈ p.ownExportNames g) ∧
    ((p.starOrder f).length ≤ maxDepth → .exported f n (some r) ∈ p.exports (.module f)) := by
  have hiff : .exported f n (some r) ∈ p.exports (.module f) ↔
      ∃ g ∈ (p.starOrder f).take maxDepth, n ∈ p.ownExportNames g := by
    rw [exported_mem_exports_iff, mem_exportedNames_iff hn]
    exact and_iff_left hr
  refine ⟨hiff, ?_⟩
  intro hshort
  obtain ⟨g, hg, hown⟩ := exists_own_of_exportTarget? hr
  rw [hiff, List.take_of_length_le hshort]
  exact ⟨g, mem_starOrder_iff.2 hg, hown⟩

/-- **Barrel.** An index file that exports again all of `n` files, each with one interface. -/
def barrel (n : Nat) : Program where
  files :=
    { module :=
        { path := "/index.ts", isModule := true
          starExports := (List.range n).map fun i => "./part" ++ toString i }
      links := (List.range n).map fun i => ("./part" ++ toString i, "/part" ++ toString i) } ::
    (List.range n).map fun i =>
      { module :=
          { path := "/part" ++ toString i, isModule := true
            declarations := OrderedMap.empty.insert ("Part" ++ toString i)
              [{ name := "Part" ++ toString i, body := .interface [] [], doc := {} }]
            exports := [.own ("Part" ++ toString i) ("Part" ++ toString i)] }
        links := [] }

/-- **The name of the last part is lost.** The index file and 32 parts are one file too many: the
name resolves in one hop, none of the first 32 files has it, and it is not listed. -/
theorem barrel_omits_part31 :
    (barrel 32).exportTarget? (maxDepth + 1) "/index.ts" "Part31" =
        some { file := "/part31", name := "Part31" } ∧
      (¬ ∃ g ∈ ((barrel 32).starOrder "/index.ts").take maxDepth,
        "Part31" ∈ (barrel 32).ownExportNames g) ∧
      .exported "/index.ts" "Part31" (some { file := "/part31", name := "Part31" }) ∉
        (barrel 32).exports (.module "/index.ts") := by
  have hr : (barrel 32).exportTarget? (maxDepth + 1) "/index.ts" "Part31" =
      some { file := "/part31", name := "Part31" } := by decide +kernel
  have hnot : .exported "/index.ts" "Part31" (some { file := "/part31", name := "Part31" }) ∉
      (barrel 32).exports (.module "/index.ts") := by
    rw [exported_mem_exports_iff]
    have hnames : "Part31" ∉ (barrel 32).exportedNames "/index.ts" := by decide +kernel
    exact fun h => hnames h.1
  have hiff := (resolved_export_listed_iff (barrel 32) "/index.ts" "Part31" _ (by decide) hr).1
  exact ⟨hr, fun h => hnot (hiff.2 h), hnot⟩

end PropDocs.Program
