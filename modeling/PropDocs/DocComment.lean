import PropDocs.Text.Blank
import PropDocs.Text.CharClass

/-!
# Documentation comments

A documentation comment is a block comment with a gutter of stars.  Reading one takes it apart
into a description and a list of tags:

* `cleanLines`: the comment without its delimiters and without the star gutter, line by line;
* `DocComment.parse`: everything in front of the first line starting with `@` is the
  description, and every such line opens a tag that runs to the next one;
* `DocComment.render`: the block of lines that documents a description and a list of tags.
-/

namespace PropDocs

open Text

/-- **Tag text.** What follows a tag's name: one string, or display parts that are put together
without anything between them. -/
inductive TagText where
  | plain (text : String)
  | parts (pieces : List String)
  deriving DecidableEq, Repr, Inhabited

/-- The text as a single string. -/
def TagText.toText : TagText → String
  | .plain text => text
  | .parts pieces => String.join pieces

/-- **Raw tag.** The name after `@`, and its text; a bare tag has none. -/
structure RawTag where
  name : String
  text : Option TagText := none
  deriving DecidableEq, Repr, Inhabited

/-- **Documentation comment.** The text in front of the first tag, and the tags in order. -/
structure DocComment where
  description : String := ""
  tags : List RawTag := []
  deriving DecidableEq, Repr, Inhabited

namespace DocComment

/-- A comment that says nothing. -/
def isEmpty (doc : DocComment) : Bool :=
  doc.description.isEmpty && doc.tags.isEmpty

/-! ### Lines of a comment -/

/-- The text of a comment between its delimiters; either delimiter may be missing. -/
def body (comment : List Char) : List Char :=
  let cs := trim comment
  let cs := (afterWord? ['/', '*'] cs).getD cs
  (beforeWord? ['*', '/'] cs).getD cs

/-- A line without its gutter: leading blanks, one star and one space, and without its trailing
blanks. -/
def cleanLine (line : List Char) : List Char :=
  match trimStart line with
  | '*' :: ' ' :: rest => trimEnd rest
  | '*' :: rest => trimEnd rest
  | rest => trimEnd rest

/-- The cleaned lines of a comment. -/
def cleanLines (comment : List Char) : List (List Char) :=
  (lines (body comment)).map cleanLine

/-! ### Tags -/

/-- The characters of a tag's name. -/
def isNameChar (c : Char) : Bool :=
  isAlphanumeric c || c == '_' || c == '$'

/-- **Tag line.** A line whose first character other than blanks is `@` opens a tag; the result is
what follows the `@`. -/
def tagLine? (line : List Char) : Option (List Char) :=
  afterWord? ['@'] (trimStart line)

/-- The tag opened by a line (what follows its `@`) and the cleaned lines that continue it. -/
def readTag (afterAt : List Char) (continuation : List (List Char)) : RawTag :=
  let name := afterAt.takeWhile isNameChar
  let rest := afterAt.dropWhile isNameChar
  let text := trimEnd (joinLines (trimStart rest :: continuation))
  let text := text.dropWhile (· == '\n')
  { name := String.ofList name
    text := if text.isEmpty then none else some (.plain (String.ofList text)) }

/-- The tags of the lines that follow a description.  Lines in front of the first tag line belong
to no tag. -/
def readTags : List (List Char) → List RawTag
  | [] => []
  | line :: rest =>
    match tagLine? line with
    | some afterAt =>
      readTag afterAt (rest.takeWhile fun l => (tagLine? l).isNone) :: readTags rest
    | none => readTags rest

/-- **Reading.** The description is everything in front of the first tag line. -/
def ofLines (ls : List (List Char)) : DocComment :=
  { description := String.ofList (trim (joinLines (ls.takeWhile fun l => (tagLine? l).isNone)))
    tags := readTags (ls.dropWhile fun l => (tagLine? l).isNone) }

/-- The documentation comment written in a text, with or without the comment's delimiters. -/
def parse (comment : String) : DocComment :=
  ofLines (cleanLines comment.toList)

/-! ### Writing -/

/-- The lines a tag is written on. -/
def tagLines (tag : RawTag) : List (List Char) :=
  match tag.text with
  | none => ['@' :: tag.name.toList]
  | some text => ('@' :: tag.name.toList ++ ' ' :: text.toText.toList).splitOn '\n'

/-- The lines a documentation comment is written on, without gutter and delimiters.  An empty
description takes no line. -/
def contentLines (doc : DocComment) : List (List Char) :=
  (if doc.description.isEmpty then [] else doc.description.toList.splitOn '\n') ++
    doc.tags.flatMap tagLines

/-- **Writing.** The block comment with one gutter line per content line. -/
def render (doc : DocComment) : String :=
  String.ofList <| joinLines <|
    ['/', '*', '*'] :: (contentLines doc).map (' ' :: '*' :: ' ' :: ·) ++ [[' ', '*', '/']]

end DocComment

end PropDocs
