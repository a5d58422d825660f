import PropDocs.Docs.Component
import PropDocs.Program.Symbols
import PropDocs.Proofs.Agreement

/-!
# Engines that agree

Documents are made by asking an engine.  Every question starts from a file, and goes on from the
answers before it.  So two engines that agree inside a scope of questions, and whose answers stay in
it, make the same documents of the files in scope.

* `Engine.AgreeOn`: agreement, one field for each question an engine answers;
* `Engine.AgreeOn.extractFile`: the documents of a file are the same;
* `Program.AgreeOn.engine`: programs that agree have engines that agree.
-/

namespace PropDocs

/-! ### Engines -/

namespace Engine

variable {σ τ δ : Type}

/-- **Scope of questions**: the files, symbols, types and declarations that are asked about. -/
structure Scope (σ τ δ : Type) where
  file : Path → Prop
  symbol : σ → Prop
  type : τ → Prop
  decl : δ → Prop

/-- **Engines that agree.** Inside the scope they give the same answers, and no answer leaves it. -/
structure AgreeOn (e e' : Engine σ τ δ) (c : Scope σ τ δ) : Prop where
  module? : ∀ f, c.file f → SameWithin c.symbol (e.module? f) (e'.module? f)
  exports : ∀ s, c.symbol s → SameWithin c.symbol (e.exports s) (e'.exports s)
  name : ∀ s, c.symbol s → e.name s = e'.name s
  declarations : ∀ s, c.symbol s → SameWithin c.decl (e.declarations s) (e'.declarations s)
  kind : ∀ d, c.decl d → e.kind d = e'.kind d
  valueDeclaration? : ∀ s, c.symbol s →
    SameWithin c.decl (e.valueDeclaration? s) (e'.valueDeclaration? s)
  documentation? : ∀ s, c.symbol s → e.documentation? s = e'.documentation? s
  tags : ∀ s, c.symbol s → e.tags s = e'.tags s
  declaredType : ∀ s, c.symbol s → e.declaredType s = e'.declaredType s ∧ c.type (e.declaredType s)
  flags : ∀ s, c.symbol s → e.flags s = e'.flags s
  typeAt : ∀ s d, c.symbol s → c.decl d → e.typeAt s d = e'.typeAt s d ∧ c.type (e.typeAt s d)
  properties : ∀ t, c.type t → SameWithin c.symbol (e.properties t) (e'.properties t)
  unionParts? : ∀ t, c.type t →
    SameWithin (fun parts => ∀ u ∈ parts, c.type u) (e.unionParts? t) (e'.unionParts? t)
  intersectionParts? : ∀ t, c.type t →
    SameWithin (fun parts => ∀ u ∈ parts, c.type u) (e.intersectionParts? t)
      (e'.intersectionParts? t)
  stringLiteral? : ∀ t, c.type t → e.stringLiteral? t = e'.stringLiteral? t
  print : ∀ t, c.type t → e.print t = e'.print t

namespace AgreeOn

variable {e e' : Engine σ τ δ} {c : Scope σ τ δ}

theorem documentation (h : AgreeOn e e' c) {s : σ} (hs : c.symbol s) :
    e.documentation s = e'.documentation s := by
  rw [Engine.documentation, Engine.documentation, h.documentation? s hs, h.tags s hs]

theorem literalUnion? (h : AgreeOn e e' c) {t : τ} (ht : c.type t) :
    e.literalUnion? t = e'.literalUnion? t := by
  obtain ⟨heq, hscope⟩ := h.unionParts? t ht
  rw [Engine.literalUnion?, Engine.literalUnion?, ← heq]
  cases hparts : e.unionParts? t with
  | none => rfl
  | some parts =>
    have hliterals : parts.mapM e.stringLiteral? = parts.mapM e'.stringLiteral? :=
      mapM_congr_of_mem fun u hu => h.stringLiteral? u (hscope parts hparts u hu)
    simp only [Option.bind_eq_bind, Option.bind_some, hliterals]

theorem describeType (h : AgreeOn e e' c) {t : τ} (ht : c.type t) (extractEnums : Bool) :
    e.describeType extractEnums t = e'.describeType extractEnums t := by
  rw [Engine.describeType, Engine.describeType, h.literalUnion? ht, h.print t ht]

theorem descriptionSite? (h : AgreeOn e e' c) {s : σ} (hs : c.symbol s) :
    SameWithin c.decl (e.descriptionSite? s) (e'.descriptionSite? s) := by
  obtain ⟨hvalue, hscope⟩ := h.valueDeclaration? s hs
  obtain ⟨hdecls, hscope'⟩ := h.declarations s hs
  rw [Engine.descriptionSite?, Engine.descriptionSite?, ← hvalue, ← hdecls]
  cases hd : e.valueDeclaration? s with
  | some d => exact .some (hscope d hd)
  | none => exact ⟨rfl, fun d hd' => hscope' d (List.mem_of_head? hd')⟩

theorem propOf? (h : AgreeOn e e' c) {s : σ} (hs : c.symbol s) (extractEnums : Bool) :
    e.propOf? extractEnums s = e'.propOf? extractEnums s := by
  obtain ⟨hsite, hscope⟩ := h.descriptionSite? hs
  rw [Engine.propOf?, Engine.propOf?, ← hsite]
  cases hd : e.descriptionSite? s with
  | none => rfl
  | some site =>
    obtain ⟨htype, ht⟩ := h.typeAt s site hs (hscope site hd)
    dsimp only
    rw [h.documentation hs, h.name s hs, h.flags s hs, ← htype, h.describeType ht]

theorem candidates (h : AgreeOn e e' c) {s : σ} (hs : c.symbol s) :
    SameWithin c.symbol (e.candidates s) (e'.candidates s) := by
  obtain ⟨hdeclared, ht⟩ := h.declaredType s hs
  obtain ⟨hprops, hscope⟩ := h.properties _ ht
  obtain ⟨hunion, huscope⟩ := h.unionParts? _ ht
  obtain ⟨hinter, hiscope⟩ := h.intersectionParts? _ ht
  rw [Engine.candidates, Engine.candidates, ← hdeclared, ← hprops, ← hunion, ← hinter]
  cases hown : e.properties (e.declaredType s) with
  | cons own rest => exact ⟨rfl, fun m hm => hscope m (hown ▸ hm)⟩
  | nil =>
    refine .flatMap_self fun u hu => h.properties u ?_
    cases hparts : e.unionParts? (e.declaredType s) with
    | some parts =>
      rw [hparts] at hu
      exact huscope parts hparts u hu
    | none =>
      rw [hparts] at hu
      cases hparts' : e.intersectionParts? (e.declaredType s) with
      | some parts =>
        rw [hparts'] at hu
        exact hiscope parts hparts' u hu
      | none =>
        rw [hparts'] at hu
        cases hu

theorem propsOf (h : AgreeOn e e' c) {s : σ} (hs : c.symbol s) (extractEnums : Bool) :
    e.propsOf extractEnums s = e'.propsOf extractEnums s := by
  obtain ⟨heq, hscope⟩ := h.candidates hs
  rw [Engine.propsOf, Engine.propsOf, ← heq]
  have hflags : ((e.candidates s).filter fun m => (e.flags m).property) =
      (e.candidates s).filter fun m => (e'.flags m).property :=
    List.filter_congr fun m hm => by rw [h.flags m (hscope m hm)]
  rw [hflags]
  congr 1
  apply List.filterMap_congr
  intro m hm
  rw [h.propOf? (hscope m (List.mem_filter.1 hm).1)]

theorem describe? (h : AgreeOn e e' c) {s : σ} (hs : c.symbol s) (o : ExtractionOptions) :
    e.describe? o s = e'.describe? o s := by
  have hcontract : e.isContract s = e'.isContract s := by
    obtain ⟨heq, hscope⟩ := h.declarations s hs
    rw [isContract, isContract, ← heq]
    cases hdecls : e.declarations s with
    | nil => rfl
    | cons d ds =>
      dsimp only
      rw [h.kind d (hscope d (hdecls ▸ List.mem_cons_self))]
  rw [Engine.describe?, Engine.describe?, hcontract, h.documentation hs, h.name s hs,
    h.propsOf hs]

/-- **Documents agree** for every file of the scope. -/
theorem extractFile (h : AgreeOn e e' c) {f : Path} (hf : c.file f) (o : ExtractionOptions) :
    e.extractFile o f = e'.extractFile o f := by
  obtain ⟨hmodule, hscope⟩ := h.module? f hf
  rw [Engine.extractFile, Engine.extractFile, ← hmodule]
  cases hm : e.module? f with
  | none => rfl
  | some m =>
    obtain ⟨hexports, hscope'⟩ := h.exports m (hscope m hm)
    dsimp only
    rw [← hexports]
    exact List.filterMap_congr fun s hs => h.describe? (hscope' s hs) o

end AgreeOn

end Engine

/-! ### Engines of programs -/

namespace Program

/-- A symbol lies in a scope: its module, what it leads to, or the file of a member. -/
def SymbolWithin (scope : Path → Prop) : ProgramSymbol → Prop
  | .module file => scope file
  | .exported file _ target => scope file ∧ ∀ r ∈ target, scope r.file
  | .member m => scope m.file

/-- A declaration lies in a scope.  Only members are looked at beyond their kind. -/
def DeclWithin (scope : Path → Prop) : ProgramDecl → Prop
  | .member m => scope m.file
  | .item _ _ | .unresolved => True

/-- What is asked about a program from the directory `cwd` inside a scope of files. -/
def questions (cwd : Path) (scope : Path → Prop) :
    Engine.Scope ProgramSymbol TypeHandle ProgramDecl where
  file f := scope (Path.absolute cwd f)
  symbol := SymbolWithin scope
  type t := scope t.file
  decl := DeclWithin scope

namespace AgreeOn

variable {p q : Program} {scope : Path → Prop}

theorem module? (h : AgreeOn p q scope) {cwd f : Path} (hf : scope (Path.absolute cwd f)) :
    SameWithin (SymbolWithin scope) (p.module? cwd f) (q.module? cwd f) := by
  rw [Program.module?, Program.module?, h.file_eq _ hf]
  refine .bind_self fun m hm => ?_
  split
  · have hm' : scope m.path := by
      rw [(mem_of_file? hm).2]
      exact hf
    exact .some hm'
  · exact .none

theorem exports (h : AgreeOn p q scope) {s : ProgramSymbol} (hs : SymbolWithin scope s) :
    SameWithin (SymbolWithin scope) (p.exports s) (q.exports s) := by
  cases s with
  | module file =>
    rw [Program.exports, Program.exports, h.exportedNames hs]
    have hnames : SameWithin (fun _ => True) (q.exportedNames file) (q.exportedNames file) :=
      ⟨rfl, by simp⟩
    refine hnames.map fun name _ => ?_
    obtain ⟨heq, hscope⟩ := h.exportTarget? (maxDepth + 1) file name hs
    rw [← heq]
    exact ⟨rfl, hs, hscope⟩
  | exported file name target => exact .nil
  | member m => exact .nil

theorem nameOf (h : AgreeOn p q scope) {s : ProgramSymbol} (hs : SymbolWithin scope s) :
    p.nameOf s = q.nameOf s := by
  cases s with
  | module file => rw [Program.nameOf, Program.nameOf, h.file_eq file hs]
  | exported file name target => rfl
  | member m => rfl

theorem declarations (h : AgreeOn p q scope) {s : ProgramSymbol} (hs : SymbolWithin scope s) :
    SameWithin (DeclWithin scope) (p.declarations s) (q.declarations s) := by
  match s with
  | .module file => exact .nil
  | .exported file name none => exact ⟨rfl, by simp [Program.declarations, DeclWithin]⟩
  | .exported file name (some r) =>
    rw [Program.declarations, Program.declarations, h.group (hs.2 r rfl)]
    exact ⟨rfl, by simp [DeclWithin]⟩
  | .member m => exact ⟨rfl, by simpa [Program.declarations, DeclWithin, SymbolWithin] using hs⟩

theorem valueDeclaration? (h : AgreeOn p q scope) {s : ProgramSymbol}
    (hs : SymbolWithin scope s) :
    SameWithin (DeclWithin scope) (p.valueDeclaration? s) (q.valueDeclaration? s) := by
  match s with
  | .module file => exact .none
  | .exported file name none => exact .none
  | .exported file name (some r) =>
    rw [Program.valueDeclaration?, Program.valueDeclaration?, h.group (hs.2 r rfl)]
    refine ⟨rfl, ?_⟩
    intro d hd
    obtain ⟨d', -, rfl⟩ := Option.map_eq_some_iff.1 hd
    trivial
  | .member m => exact .some hs

theorem documentation? (h : AgreeOn p q scope) {s : ProgramSymbol} (hs : SymbolWithin scope s) :
    p.documentation? s = q.documentation? s := by
  match s with
  | .module file => rfl
  | .exported file name none => rfl
  | .exported file name (some r) =>
    rw [Program.documentation?, Program.documentation?, h.group (hs.2 r rfl)]
  | .member m => rfl

theorem tagsOf (h : AgreeOn p q scope) {s : ProgramSymbol} (hs : SymbolWithin scope s) :
    p.tagsOf s = q.tagsOf s := by
  match s with
  | .module file => rfl
  | .exported file name none => rfl
  | .exported file name (some r) => rw [Program.tagsOf, Program.tagsOf, h.group (hs.2 r rfl)]
  | .member m => rfl

theorem declaredType (h : AgreeOn p q scope) {s : ProgramSymbol} (hs : SymbolWithin scope s) :
    p.declaredType s = q.declaredType s ∧ scope (p.declaredType s).file := by
  match s with
  | .module file => exact ⟨rfl, hs⟩
  | .exported file name none => exact ⟨rfl, hs.1⟩
  | .exported file name (some r) => exact ⟨rfl, hs.2 r rfl⟩
  | .member m => exact ⟨h.typeOfMember m, hs⟩

theorem typeAt (h : AgreeOn p q scope) {s : ProgramSymbol} {d : ProgramDecl}
    (hs : SymbolWithin scope s) (hd : DeclWithin scope d) :
    p.typeAt s d = q.typeAt s d ∧ scope (p.typeAt s d).file := by
  cases d with
  | item file decl => exact h.declaredType hs
  | member m => exact ⟨h.typeOfMember m, hd⟩
  | unresolved => exact h.declaredType hs

/-- **Engines of programs that agree** agree on what is asked inside the scope. -/
theorem engine (h : AgreeOn p q scope) (cwd : Path) :
    Engine.AgreeOn (p.engine cwd) (q.engine cwd) (questions cwd scope) where
  module? _ hf := h.module? hf
  exports _ hs := h.exports hs
  name _ hs := h.nameOf hs
  declarations _ hs := h.declarations hs
  kind _ _ := rfl
  valueDeclaration? _ hs := h.valueDeclaration? hs
  documentation? _ hs := h.documentation? hs
  tags _ hs := h.tagsOf hs
  declaredType _ hs := h.declaredType hs
  flags _ _ := rfl
  typeAt _ _ hs hd := h.typeAt hs hd
  properties _ ht := (h.properties ht).map fun _ hm => ⟨rfl, hm⟩
  unionParts? _ ht := h.unionParts? ht
  intersectionParts? _ ht := h.intersectionParts? ht
  stringLiteral? _ ht := h.stringLiteral? ht
  print _ _ := rfl

end AgreeOn

end Program

end PropDocs
