import PropDocs.Proofs.ContractProps
import PropDocs.Proofs.PrintedFront

/-!
# Line breaks in printed types

A printed type is meant to stand on one line.  The printer adds no line break of its own and escapes
those of string literals, but it writes all other texts of a type as they are.

* `WrittenText`: a text that a type writes as it is, with its place; `TypeExpr.texts`: all of them;
* `OneLine`: a text without line breaks;
* `breaks_print`: the printed type has a line break exactly when one of its texts has;
* `print_oneLine_iff`: hence, as long as its words stay on one line, a type is printed on one line
  exactly when its template texts, its members' names, the arguments of its imports and the names it
  queries do;
* `notes_printed_on_two_lines`: a program in which they do not.
-/

namespace PropDocs

/-! ### Texts of a type -/

/-- **Written text.** A text that stands in the printed type as it is in the type. -/
inductive WrittenText where
  /-- An identifier, dotted or not, or the digits of a big integer. -/
  | word (text : String)
  /-- A piece of a template between its holes. -/
  | templateText (text : String)
  /-- The name of a member, which may be quoted where it is declared. -/
  | memberName (text : String)
  /-- The argument of an import. -/
  | importArgument (text : String)
  /-- The name behind `typeof`: an identifier, dotted or not, or an import with its argument. -/
  | queriedName (text : String)
  deriving DecidableEq, Repr

namespace WrittenText

/-- The text without its place. -/
def text : WrittenText → String
  | .word s | .templateText s | .memberName s | .importArgument s | .queriedName s => s

/-- A text that is a word by its place. -/
def isWord : WrittenText → Bool
  | .word _ => true
  | _ => false

end WrittenText

namespace TypeExpr

mutual

/-- **Texts of a type**, its own and those of the types inside it, from left to right. -/
def texts : TypeExpr → List WrittenText
  | .keyword _ | .string _ | .number _ | .boolean _ | .thisType => []
  | .bigint digits => [.word digits]
  | .template parts => textsOfParts parts
  | .reference name args => .word name :: textsOfAll args
  | .array t | .optional t | .rest t | .operator _ t => texts t
  | .tuple elements => textsOfElements elements
  | .union types | .intersection types => textsOfAll types
  | .function signature _ => textsOfSignature signature
  | .object members => textsOfMembers members
  | .indexed base index => texts base ++ texts index
  | .conditional check bound yes no => texts check ++ texts bound ++ texts yes ++ texts no
  | .mapped m => textsOfMapped m
  | .infer name => [.word name]
  | .query name => [.queriedName name]
  | .imported argument qualifier args =>
    .importArgument argument :: (qualifier.toList.map .word ++ textsOfAll args)
  | .predicate _ param type => .word param :: textsOfOption type

/-- The texts of several types. -/
def textsOfAll : List TypeExpr → List WrittenText
  | [] => []
  | t :: ts => texts t ++ textsOfAll ts

/-- The texts of a type that may be missing. -/
def textsOfOption : Option TypeExpr → List WrittenText
  | none => []
  | some t => texts t

/-- The texts of a template. -/
def textsOfParts : List TemplatePart → List WrittenText
  | [] => []
  | .text s :: ps => .templateText s :: textsOfParts ps
  | .type t :: ps => texts t ++ textsOfParts ps

/-- The texts of tuple elements. -/
def textsOfElements : List TupleElement → List WrittenText
  | [] => []
  | ⟨label, t⟩ :: es => label.toList.map .word ++ (texts t ++ textsOfElements es)

/-- The texts of type parameters. -/
def textsOfTypeParams : List TypeParam → List WrittenText
  | [] => []
  | ⟨name, constraint, default⟩ :: ps =>
    .word name :: (textsOfOption constraint ++ (textsOfOption default ++ textsOfTypeParams ps))

/-- The texts of parameters. -/
def textsOfParams : List Param → List WrittenText
  | [] => []
  | ⟨name, _, _, type⟩ :: ps => .word name :: (textsOfOption type ++ textsOfParams ps)

/-- The texts of a signature. -/
def textsOfSignature : Signature → List WrittenText
  | ⟨typeParams, params, returns⟩ =>
    textsOfTypeParams typeParams ++ (textsOfParams params ++ texts returns)

/-- The texts of members. -/
def textsOfMembers : List Member → List WrittenText
  | [] => []
  | ⟨name, _, _, _, type, _, _⟩ :: ms =>
    .memberName name :: (textsOfOption type ++ textsOfMembers ms)

/-- The texts of a mapped type. -/
def textsOfMapped : MappedType → List WrittenText
  | ⟨_, param, constraint, nameType, _, type⟩ =>
    .word param :: (textsOfOption constraint ++ (textsOfOption nameType ++ textsOfOption type))

end

end TypeExpr

/-! ### Line breaks -/

/-- Among the characters is a line feed or a carriage return. -/
def breaks (cs : List Char) : Bool :=
  cs.any fun c => c == '\n' || c == '\r'

@[simp] theorem breaks_nil : breaks [] = false := rfl

@[simp] theorem breaks_cons (c : Char) (cs : List Char) :
    breaks (c :: cs) = (c == '\n' || c == '\r' || breaks cs) := rfl

@[simp] theorem breaks_append (cs ds : List Char) : breaks (cs ++ ds) = (breaks cs || breaks ds) :=
  List.any_append

/-- A separator on one line adds no break to what it joins. -/
theorem breaks_intercalate {sep : List Char} (hsep : breaks sep = false) (xs : List (List Char)) :
    breaks (sep.intercalate xs) = xs.any breaks := by
  induction xs with
  | nil => rfl
  | cons x xs ih =>
    cases xs with
    | nil => simp
    | cons y ys => rw [List.intercalate_cons_cons, breaks_append, breaks_append, hsep, ih]; simp

/-- **On one line.** A text with neither a line feed nor a carriage return. -/
def OneLine (s : String) : Prop :=
  '\n' ∉ s.toList ∧ '\r' ∉ s.toList

theorem oneLine_iff {s : String} : OneLine s ↔ breaks s.toList = false := by
  rw [breaks, List.any_eq_false, OneLine]
  constructor
  · rintro ⟨hfeed, hreturn⟩ c hc hbreak
    simp only [Bool.or_eq_true, beq_iff_eq] at hbreak
    rcases hbreak with rfl | rfl
    · exact hfeed hc
    · exact hreturn hc
  · intro h
    exact ⟨fun hc => h _ hc rfl, fun hc => h _ hc rfl⟩

instance decidableOneLine (s : String) : Decidable (OneLine s) :=
  decidable_of_iff _ oneLine_iff.symm

/-- A string literal is printed on one line. -/
@[simp] theorem breaks_quoteString (s : String) : breaks (quoteString s).toList = false := by
  have hchar : ∀ c, breaks (quoteChar c) = false := by
    intro c
    unfold quoteChar
    split_ifs <;> simp_all
  have hbody : breaks (s.toList.flatMap quoteChar) = false := by
    induction s.toList with
    | nil => rfl
    | cons c cs ih => rw [List.flatMap_cons, breaks_append, hchar, ih, Bool.false_or]
  rw [quoteString, String.toList_ofList]
  simp [hbody]

/-- A number is printed on one line. -/
@[simp] theorem breaks_render (x : Double) : breaks x.render.toList = false := by
  have hpositional : ∀ (digits : Nat) (exponent : Int),
      breaks (Double.positional digits exponent).toList = false := by
    intro digits exponent
    have hall := (Double.isNumeral_positional digits exponent).all_isNumeralChar
    rw [List.all_eq_true] at hall
    rw [← oneLine_iff]
    exact ⟨fun h => absurd (hall _ h) (by decide), fun h => absurd (hall _ h) (by decide)⟩
  unfold Double.render
  generalize x.shortest = shortest
  obtain ⟨digits, exponent⟩ := shortest
  generalize Double.infinityBits = infinity
  have hbody : breaks (if x.magnitude = 0 then "0" else if x.magnitude = infinity then "inf"
      else if infinity < x.magnitude then "NaN"
      else Double.positional digits exponent).toList = false := by
    split_ifs
    · rfl
    · rfl
    · rfl
    · exact hpositional _ _
  dsimp only
  split
  · rw [String.toList_append, breaks_append, hbody]
    rfl
  · exact hbody

@[simp] theorem Keyword.breaks_text (k : Keyword) : breaks k.text.toList = false := by
  cases k <;> rfl

@[simp] theorem TypeOperator.breaks_text (op : TypeOperator) : breaks op.text.toList = false := by
  cases op <;> rfl

namespace TypeExpr

@[simp] theorem breaks_parenthesize (t : TypeExpr) (min : Nat) (s : String) :
    breaks (t.parenthesize min s).toList = breaks s.toList := by
  rw [parenthesize]
  split
  · simp
  · rfl

@[simp] theorem breaks_mark (flag : Bool) (s : String) :
    breaks (mark flag s).toList = (flag && breaks s.toList) := by
  cases flag <;> rfl

@[simp] theorem breaks_modifierText (m : Option MappedModifier) (word : String) :
    breaks (modifierText m word).toList = (m.isSome && breaks word.toList) := by
  cases m with
  | none => rfl
  | some m => cases m <;> rw [modifierText, String.toList_append, breaks_append] <;> rfl

/-! ### Breaks of the printer's pieces -/

/-- One of the texts has a line break. -/
def breaksIn (ws : List WrittenText) : Bool :=
  ws.any fun w => breaks w.text.toList

@[simp] theorem breaksIn_nil : breaksIn [] = false := rfl

@[simp] theorem breaksIn_cons (w : WrittenText) (ws : List WrittenText) :
    breaksIn (w :: ws) = (breaks w.text.toList || breaksIn ws) := rfl

@[simp] theorem breaksIn_append (ws vs : List WrittenText) :
    breaksIn (ws ++ vs) = (breaksIn ws || breaksIn vs) :=
  List.any_append

attribute [local simp] print printOperands printArgs printParts printElements printElement printHead
  printReturn printTypeParams printTypeParam printAfter printParams printParam printOr printMembers
  printMember printMapped printIs texts textsOfAll textsOfOption textsOfParts textsOfElements
  textsOfTypeParams textsOfParams textsOfSignature textsOfMembers textsOfMapped WrittenText.text

/-- A label and the marks of its element add no break of their own. -/
theorem breaks_printElement (label : Option String) (t : TypeExpr) :
    breaks (printElement ⟨label, t⟩).toList =
      (breaksIn (label.toList.map .word) || breaks t.print.toList) := by
  cases label with
  | none => simp
  | some label => cases t <;> simp

/-- A member, of whatever kind, breaks where its name or its type does. -/
theorem breaks_printMember (m : Member) :
    breaks (printMember m).toList =
      (breaks m.name.toList || breaks (printOr "any" m.type).toList) := by
  obtain ⟨name, kind, isOptional, isReadonly, type, initializer, doc⟩ := m
  cases kind with
  | property | getter | setter => simp
  | method =>
    cases type with
    | none => simp
    | some t => cases t <;> simp

theorem breaks_printParam (name : String) (isOptional isRest : Bool) (type : Option TypeExpr) :
    breaks (printParam ⟨name, isOptional, isRest, type⟩).toList =
      (breaks name.toList || breaks (printOr "any" type).toList) := by
  cases type with
  | none => cases isRest <;> simp
  | some t => simp

theorem breaks_printOperands {sep : String} (hsep : breaks sep.toList = false) (min : Nat)
    (ts : List TypeExpr) :
    breaks (printOperands min sep ts).toList = ts.any fun t => breaks t.print.toList := by
  rw [toList_printOperands, breaks_intercalate hsep, List.any_map]
  simp only [Function.comp_def, chars, breaks_parenthesize]

theorem breaks_printArgs (ts : List TypeExpr) :
    breaks (printArgs ts).toList = ts.any fun t => breaks t.print.toList := by
  cases ts with
  | nil => simp
  | cons t ts =>
    have hargs : breaks (printOperands 0 ", " (t :: ts)).toList = _ := breaks_printOperands rfl 0 _
    rw [printArgs, ← hargs]
    simp

theorem breaks_printElements (es : List TupleElement) :
    breaks (printElements es).toList = es.any fun e => breaks (printElement e).toList := by
  rw [toList_printElements, breaks_intercalate rfl, List.any_map]
  rfl

theorem breaks_printTypeParams (ps : List TypeParam) :
    breaks (printTypeParams ps).toList = ps.any fun p => breaks (printTypeParam p).toList := by
  rw [toList_printTypeParams, breaks_intercalate rfl, List.any_map]
  rfl

theorem breaks_printParams (ps : List Param) :
    breaks (printParams ps).toList = ps.any fun p => breaks (printParam p).toList := by
  rw [toList_printParams, breaks_intercalate rfl, List.any_map]
  rfl

theorem breaks_printHead (s : Signature) :
    breaks (printHead s).toList =
      ((s.typeParams.any fun p => breaks (printTypeParam p).toList) ||
        s.params.any fun p => breaks (printParam p).toList) := by
  obtain ⟨typeParams, params, returns⟩ := s
  rw [← breaks_printTypeParams, ← breaks_printParams]
  cases typeParams with
  | nil => simp
  | cons p ps =>
    rw [printHead]
    simp only [String.toList_append, breaks_append]
    simp

/-! ### A printed type breaks where one of its texts does -/

mutual

/-- **Breaks of a printed type.** It has a line break exactly when one of its texts has one. -/
theorem breaks_print : ∀ t : TypeExpr, breaks t.print.toList = breaksIn t.texts
  | .keyword k => by simp
  | .string s => by simp
  | .number x => by simp
  | .bigint digits => by simp
  | .boolean b => by cases b <;> simp
  | .template parts => by simp [breaks_printParts parts]
  | .reference name args => by simp [breaks_printArgs, breaks_all args]
  | .array t => by simp [breaks_print t]
  | .tuple elements => by simp [breaks_printElements, breaks_elements elements]
  | .optional t => by simp [breaks_print t]
  | .rest t => by simp [breaks_print t]
  | .union types => by
    rw [print, texts, breaks_printOperands rfl, breaks_all types]
  | .intersection types => by
    rw [print, texts, breaks_printOperands rfl, breaks_all types]
  | .function signature isConstructor => by simp [← breaks_signature signature]
  | .object [] => by simp
  | .object (m :: ms) => by
    rw [print, texts, ← breaks_printMembers (m :: ms)]
    simp
  | .operator op t => by simp [breaks_print t]
  | .indexed base index => by simp [breaks_print base, breaks_print index]
  | .conditional check bound yes no => by
    simp [breaks_print check, breaks_print bound, breaks_print yes, breaks_print no]
  | .mapped m => by simp [breaks_printMapped m]
  | .infer name => by simp
  | .query name => by simp
  | .imported argument qualifier args => by
    cases qualifier <;> simp [breaks_printArgs, breaks_all args]
  | .predicate asserts param type => by
    cases asserts <;> simp [breaks_printIs type]
  | .thisType => by simp

theorem breaks_all : ∀ ts : List TypeExpr,
    (ts.any fun t => breaks t.print.toList) = breaksIn (textsOfAll ts)
  | [] => by simp
  | t :: ts => by simp [breaks_print t, breaks_all ts]

theorem breaks_printParts : ∀ ps : List TemplatePart,
    breaks (printParts ps).toList = breaksIn (textsOfParts ps)
  | [] => by simp
  | .text s :: ps => by simp [breaks_printParts ps]
  | .type t :: ps => by simp [breaks_print t, breaks_printParts ps]

theorem breaks_elements : ∀ es : List TupleElement,
    (es.any fun e => breaks (printElement e).toList) = breaksIn (textsOfElements es)
  | [] => by simp
  | ⟨label, t⟩ :: es => by
    rw [List.any_cons, breaks_printElement, breaks_print t, breaks_elements es]
    simp [Bool.or_assoc]

theorem breaks_signature : ∀ s : Signature,
    (breaks (printHead s).toList || breaks (printReturn s).toList) = breaksIn (textsOfSignature s)
  | ⟨typeParams, params, returns⟩ => by
    rw [breaks_printHead, breaks_typeParams typeParams, breaks_params params]
    simp [breaks_print returns, Bool.or_assoc]

theorem breaks_typeParams : ∀ ps : List TypeParam,
    (ps.any fun p => breaks (printTypeParam p).toList) = breaksIn (textsOfTypeParams ps)
  | [] => by simp
  | ⟨name, constraint, default⟩ :: ps => by
    simp [breaks_printAfter " extends " rfl constraint, breaks_printAfter " = " rfl default,
      breaks_typeParams ps, Bool.or_assoc]

theorem breaks_params : ∀ ps : List Param,
    (ps.any fun p => breaks (printParam p).toList) = breaksIn (textsOfParams ps)
  | [] => by simp
  | ⟨name, isOptional, isRest, type⟩ :: ps => by
    rw [List.any_cons, breaks_printParam, breaks_printOr type, breaks_params ps]
    simp [Bool.or_assoc]

theorem breaks_printMembers : ∀ ms : List Member,
    breaks (printMembers ms).toList = breaksIn (textsOfMembers ms)
  | [] => by simp
  | ⟨name, kind, isOptional, isReadonly, type, initializer, doc⟩ :: ms => by
    rw [printMembers, String.toList_append, String.toList_append, breaks_append, breaks_append,
      breaks_printMember, breaks_printOr type, breaks_printMembers ms]
    simp [Bool.or_assoc]

theorem breaks_printMapped : ∀ m : MappedType,
    breaks (printMapped m).toList = breaksIn (textsOfMapped m)
  | ⟨readonlyMod, param, constraint, nameType, optionalMod, type⟩ => by
    rw [textsOfMapped, breaksIn_cons, breaksIn_append, breaksIn_append, ← breaks_printOr constraint,
      ← breaks_printAfter " as " rfl nameType, ← breaks_printOr type]
    simp

theorem breaks_printOr : ∀ type : Option TypeExpr,
    breaks (printOr "any" type).toList = breaksIn (textsOfOption type)
  | none => by simp
  | some t => by simp [breaks_print t]

theorem breaks_printAfter (word : String) (hword : breaks word.toList = false) :
    ∀ type : Option TypeExpr, breaks (printAfter word type).toList = breaksIn (textsOfOption type)
  | none => by simp
  | some t => by simp [hword, breaks_print t]

theorem breaks_printIs : ∀ type : Option TypeExpr,
    breaks (printIs type).toList = breaksIn (textsOfOption type)
  | none => by simp
  | some t => by simp [breaks_print t]

end

/-- **Printed lines.** Let the words of a type stay on one line.  The type is printed on one line
exactly when its template texts, its members' names, the arguments of its imports and the names it
queries stay on one line too. -/
theorem print_oneLine_iff (t : TypeExpr)
    (hwords : ∀ w ∈ t.texts, w.isWord = true → OneLine w.text) :
    OneLine t.print ↔ ∀ w ∈ t.texts, w.isWord = false → OneLine w.text := by
  have htexts : OneLine t.print ↔ ∀ w ∈ t.texts, OneLine w.text := by
    rw [oneLine_iff, breaks_print, breaksIn, List.any_eq_false]
    simp only [Bool.not_eq_true, oneLine_iff]
  rw [htexts]
  constructor
  · intro h w hw _
    exact h w hw
  · intro h w hw
    cases hword : w.isWord with
    | true => exact hwords w hw hword
    | false => exact h w hw hword

/-- **Notes.** A template with a line feed in it, and a member's name and two imports with an
escaped one. -/
def notes : String :=
  "export interface Notes \x7b\n" ++
  "  first: `one\ntwo`;\n" ++
  "  second: \x7b 'one\\ntwo': string \x7d;\n" ++
  "  third: import('./one\\ntwo').Three;\n" ++
  "  fourth: typeof import('./one\\ntwo');\n" ++
  "\x7d\n"

/-- The types of a declaration's members. -/
def memberTypes (m : SourceModule) (name : String) : List TypeExpr :=
  ((m.group name).flatMap Decl.ownMembers).filterMap Member.type

/-- **Two lines.** Every member of the notes has a type whose words stay on one line, and which is
printed on two. -/
theorem notes_printed_on_two_lines :
    ∃ m, SourceModule.ofText "/notes.ts" notes = .ok m ∧ (memberTypes m "Notes").length = 4 ∧
      ∀ t ∈ memberTypes m "Notes",
        (∀ w ∈ t.texts, w.isWord = true → OneLine w.text) ∧ ¬ OneLine t.print := by
  have hrun : (SourceModule.ofText "/notes.ts" notes).toOption.map
      (fun m => (memberTypes m "Notes").map texts) =
      some [[.templateText "one\ntwo"], [.memberName "one\ntwo"],
        [.importArgument "./one\ntwo", .word "Three"],
        [.queriedName "import(\"./one\ntwo\")"]] := by
    decide +kernel
  obtain ⟨m, hmodule, htexts⟩ := exists_ok_of_toOption_map hrun
  have hlength := congrArg List.length htexts
  rw [List.length_map] at hlength
  refine ⟨m, hmodule, hlength, fun t ht => ?_⟩
  have hseen := htexts ▸ List.mem_map_of_mem (f := texts) ht
  have hbroken : (∀ w ∈ t.texts, w.isWord = true → OneLine w.text) ∧
      ∃ w ∈ t.texts, w.isWord = false ∧ ¬ OneLine w.text := by
    revert hseen
    generalize t.texts = ws
    revert ws
    decide
  obtain ⟨hwords, w, hw, hplace, hbreak⟩ := hbroken
  exact ⟨hwords, fun h => hbreak ((print_oneLine_iff t hwords).1 h w hw hplace)⟩

end TypeExpr

end PropDocs
