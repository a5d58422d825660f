import PropDocs.Module.Loading

/-!
# Mentioned specifiers

A module lists every specifier it mentions, without repeats.  This file shows that each specifier
that an import binding, an export entry or a star export uses is on that list, by one lemma for each
operation that fills a module, and then for whole lists of items.  The same induction shows that a
module keeps the path it was started with.
-/

namespace PropDocs

open Source

/-- The specifier of the module a binding comes from. -/
def ImportBinding.specifier : ImportBinding → String
  | .named specifier _ | .wholeModule specifier => specifier

/-- The specifier of the module an entry exports from, if it is another one. -/
def ExportEntry.specifier? : ExportEntry → Option String
  | .own _ _ => none
  | .reexport _ specifier _ | .wholeModule _ specifier => some specifier

namespace SourceModule

/-- **Mentions.** Every specifier that a module uses is among those it lists, and none is listed
twice. -/
structure Mentions (m : SourceModule) : Prop where
  imports : ∀ name b, m.imports.get? name = some b → b.specifier ∈ m.specifiers
  exports : ∀ e ∈ m.exports, ∀ s, e.specifier? = some s → s ∈ m.specifiers
  stars : ∀ s ∈ m.starExports, s ∈ m.specifiers
  nodup : m.specifiers.Nodup

theorem mentions_empty (path : Path) : Mentions { path } :=
  { imports := by
      intro name b h
      cases h
    exports := by simp
    stars := by simp
    nodup := List.nodup_nil }

/-! ### What each operation keeps -/

theorem mem_addSpecifier (m : SourceModule) (s : String) : s ∈ (m.addSpecifier s).specifiers := by
  rw [addSpecifier]
  split
  · rename_i h
    simpa using h
  · simp

theorem Mentions.addSpecifier {m : SourceModule} (h : m.Mentions) (s : String) :
    (m.addSpecifier s).Mentions := by
  rw [SourceModule.addSpecifier]
  split
  · exact h
  · rename_i hs
    exact
      { imports := fun name b hb => List.mem_append_left _ (h.imports name b hb)
        exports := fun e he t ht => List.mem_append_left _ (h.exports e he t ht)
        stars := fun t ht => List.mem_append_left _ (h.stars t ht)
        nodup := by
          rw [List.nodup_append]
          exact ⟨h.nodup, by simp, fun a ha b hb e => hs (by simp_all)⟩ }

theorem Mentions.markModule {m : SourceModule} (h : m.Mentions) : m.markModule.Mentions :=
  { imports := h.imports, exports := h.exports, stars := h.stars, nodup := h.nodup }

theorem Mentions.declare {m : SourceModule} (h : m.Mentions) (d : Decl) : (m.declare d).Mentions :=
  { imports := h.imports, exports := h.exports, stars := h.stars, nodup := h.nodup }

theorem Mentions.addExport {m : SourceModule} (h : m.Mentions) {e : ExportEntry}
    (he : ∀ s, e.specifier? = some s → s ∈ m.specifiers) : (m.addExport e).Mentions :=
  { imports := h.imports
    exports := by
      intro e' he' s hs
      rcases List.mem_append.1 he' with he' | he'
      · exact h.exports e' he' s hs
      · rw [List.mem_singleton.1 he'] at hs
        exact he s hs
    stars := h.stars
    nodup := h.nodup }

theorem Mentions.addOwnExport {m : SourceModule} (h : m.Mentions) (exported localName : String) :
    (m.addExport (.own exported localName)).Mentions :=
  h.addExport (by simp [ExportEntry.specifier?])

theorem Mentions.insertImport {m : SourceModule} (h : m.Mentions) {b : ImportBinding}
    (hb : b.specifier ∈ m.specifiers) (name : String) :
    Mentions { m with imports := m.imports.insert name b } :=
  { imports := by
      intro name' b' hb'
      rw [OrderedMap.insert, OrderedMap.get?_alter] at hb'
      split at hb'
      · rwa [← Option.some.inj hb']
      · exact h.imports name' b' hb'
    exports := h.exports
    stars := h.stars
    nodup := h.nodup }

/-- What every step keeps, a whole list of steps keeps. -/
theorem foldl_keeps {α : Type} (P : SourceModule → Prop) (step : SourceModule → α → SourceModule)
    (hstep : ∀ m a, P m → P (step m a)) (l : List α) {m : SourceModule} (h : P m) :
    P (l.foldl step m) := by
  induction l generalizing m with
  | nil => exact h
  | cons a l ih => exact ih (hstep m a h)

theorem Mentions.addImports {m : SourceModule} (h : m.Mentions) {specifier : String}
    (hs : specifier ∈ m.specifiers) (bindings : List ImportNode) :
    (bindings.foldl (addImport specifier) m).Mentions := by
  refine (foldl_keeps (fun m => m.Mentions ∧ specifier ∈ m.specifiers) _ ?_ bindings ⟨h, hs⟩).1
  intro m b ⟨hm, hs⟩
  cases b with
  | named localName imported =>
    exact ⟨hm.insertImport (b := .named specifier imported) hs localName, hs⟩
  | all localName => exact ⟨hm.insertImport (b := .wholeModule specifier) hs localName, hs⟩

theorem Mentions.addExports {m : SourceModule} (h : m.Mentions) {specifier : Option String}
    (hs : ∀ s ∈ specifier, s ∈ m.specifiers) (names : List ExportNode) :
    (names.foldl (addExportNode specifier) m).Mentions := by
  refine (foldl_keeps (fun m => m.Mentions ∧ ∀ s ∈ specifier, s ∈ m.specifiers) _ ?_ names
    ⟨h, hs⟩).1
  intro m e ⟨hm, hs⟩
  cases specifier with
  | none =>
    cases e with
    | named exported origin => exact ⟨hm.addOwnExport exported origin, hs⟩
    | all exported => exact ⟨hm, hs⟩
  | some t =>
    have ht : t ∈ m.specifiers := hs t rfl
    cases e with
    | named exported origin =>
      exact ⟨hm.addExport (by simpa [ExportEntry.specifier?] using ht), hs⟩
    | all exported =>
      exact ⟨hm.addExport (by simpa [ExportEntry.specifier?] using ht), hs⟩

theorem Mentions.addStar {m : SourceModule} (h : m.Mentions) {specifier : String}
    (hs : specifier ∈ m.specifiers) :
    Mentions { m with starExports := m.starExports ++ [specifier] } :=
  { imports := h.imports
    exports := h.exports
    stars := by
      intro s hs'
      rcases List.mem_append.1 hs' with hs' | hs'
      · exact h.stars s hs'
      · rwa [List.mem_singleton.1 hs']
    nodup := h.nodup }

/-- **One item** keeps the specifiers in use among those mentioned. -/
theorem Mentions.addItem {m : SourceModule} (h : m.Mentions) (item : Item) :
    (m.addItem item).Mentions := by
  cases item with
  | importFrom specifier bindings =>
    exact (h.markModule.addSpecifier specifier).addImports (mem_addSpecifier _ specifier) bindings
  | exportDecl doc decl =>
    exact foldl_keeps Mentions exportDecl (fun m d hm => (hm.addOwnExport _ _).declare d) _
      h.markModule
  | exportDefaultDecl doc decl =>
    exact foldl_keeps Mentions exportDefault (fun m d hm => (hm.addOwnExport _ _).declare d) _
      h.markModule
  | exportDefaultExpr doc value =>
    cases value with
    | name n => exact h.markModule.addOwnExport "default" n
    | _ => exact (h.markModule.declare _).addOwnExport "default" "default"
  | exportNames specifier names =>
    cases specifier with
    | none => exact h.markModule.addExports (by simp) names
    | some s =>
      exact (h.markModule.addSpecifier s).addExports
        (by simpa using mem_addSpecifier m.markModule s) names
  | exportAll specifier =>
    exact (h.markModule.addSpecifier specifier).addStar (mem_addSpecifier _ specifier)
  | marker => exact h.markModule
  | decl decl =>
    exact foldl_keeps Mentions SourceModule.declare (fun m d hm => hm.declare d) _ h
  | statement => exact h

theorem mentions_ofItems (path : Path) (items : List Item) : (ofItems path items).Mentions :=
  foldl_keeps Mentions addItem (fun _ item hm => hm.addItem item) items (mentions_empty path)

/-! ### The path of a module -/

theorem path_addSpecifier (m : SourceModule) (s : String) : (m.addSpecifier s).path = m.path := by
  rw [addSpecifier]
  split <;> rfl

theorem path_addItem (m : SourceModule) (item : Item) : (m.addItem item).path = m.path := by
  have hfold : ∀ {α : Type} (step : SourceModule → α → SourceModule),
      (∀ m a, (step m a).path = m.path) → ∀ (l : List α) (m : SourceModule),
      (l.foldl step m).path = m.path :=
    fun step hstep l m =>
      foldl_keeps (fun m' => m'.path = m.path) step (fun m' a h => (hstep m' a).trans h) l rfl
  cases item with
  | importFrom specifier bindings =>
    have himport : ∀ m b, (addImport specifier m b).path = m.path := by
      intro m b
      cases b <;> rfl
    exact (hfold _ himport _ _).trans (path_addSpecifier _ _)
  | exportDecl doc decl => exact hfold exportDecl (fun _ _ => rfl) _ _
  | exportDefaultDecl doc decl => exact hfold exportDefault (fun _ _ => rfl) _ _
  | exportDefaultExpr doc value => cases value <;> rfl
  | exportNames specifier names =>
    have hexport : ∀ m e, (addExportNode specifier m e).path = m.path := by
      intro m e
      cases specifier <;> cases e <;> rfl
    refine (hfold _ hexport _ _).trans ?_
    cases specifier with
    | none => rfl
    | some s => exact path_addSpecifier _ s
  | exportAll specifier => exact path_addSpecifier m.markModule specifier
  | marker => rfl
  | decl decl => exact hfold declare (fun _ _ => rfl) _ _
  | statement => rfl

theorem path_ofItems (path : Path) (items : List Item) : (ofItems path items).path = path :=
  foldl_keeps (fun m => m.path = path) addItem (fun m item h => (path_addItem m item).trans h)
    items rfl

end SourceModule

end PropDocs
