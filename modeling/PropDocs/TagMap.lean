import PropDocs.DocComment
import PropDocs.OrderedMap

/-!
# Tag lines and tag maps

A raw tag is written as one line, `@key content`, and lines of that form are collected into a map
from keys to contents:

* `formatTag`: a tag whose text starts with `.subkey` is written under the compound key
  `name.subkey`, any other tag under its name; a space always follows the key;
* `readTagLine?`: the key is the run of characters other than blanks after `@`, and exactly one
  space divides it from the content;
* `TagMap.add`: repeated keys collect their contents in order.
-/

namespace PropDocs

open Text

/-! ### Tag lines -/

/-- **Compound key.** A text that starts with a dot and at least one character other than a
blank, divided after the run of such characters. -/
def splitSubkey? : List Char → Option (List Char × List Char)
  | '.' :: rest =>
    let sub := rest.takeWhile fun c => !isBlank c
    if sub.isEmpty then none else some (sub, rest.dropWhile fun c => !isBlank c)
  | _ => none

/-- The key and the content a tag is written with. -/
def RawTag.keyAndContent (tag : RawTag) : List Char × List Char :=
  let text := ((tag.text.map TagText.toText).getD "").toList
  match splitSubkey? text with
  | some (sub, rest) => (tag.name.toList ++ '.' :: sub, trim rest)
  | none => (tag.name.toList, trim text)

/-- **Writing a tag.** The line `@key content`. -/
def RawTag.format (tag : RawTag) : String :=
  String.ofList ('@' :: tag.keyAndContent.1 ++ ' ' :: tag.keyAndContent.2)

/-- **Reading a tag line.** `none` for a line that is not of the form `@key content`. -/
def readTagLine? (line : String) : Option (String × String) :=
  match line.toList with
  | '@' :: rest =>
    let key := rest.takeWhile fun c => !isBlank c
    if key.isEmpty then none
    else
      match rest.dropWhile fun c => !isBlank c with
      | ' ' :: content => some (String.ofList key, String.ofList content)
      | _ => none
  | _ => none

/-! ### Tag maps -/

/-- **Tag value.** The content of a key seen once, or the contents of a key seen several times. -/
inductive TagValue where
  | single (content : String)
  | multiple (contents : List String)
  deriving DecidableEq, Repr, Inhabited

namespace TagValue

/-- All contents in order. -/
def values : TagValue → List String
  | .single content => [content]
  | .multiple contents => contents

/-- The content seen first. -/
def first (v : TagValue) : String :=
  v.values.headD ""

/-- Adds one more content. -/
def push (content : String) : TagValue → TagValue
  | .single c => .multiple [c, content]
  | .multiple cs => .multiple (cs ++ [content])

@[simp] theorem values_push (content : String) (v : TagValue) :
    (v.push content).values = v.values ++ [content] := by
  cases v <;> rfl

end TagValue

/-- **Tag map.** Contents by key, keys in first-seen order. -/
abbrev TagMap := OrderedMap TagValue

namespace TagMap

/-- Adds one occurrence of a key. -/
def add (m : TagMap) (key content : String) : TagMap :=
  m.alter key fun
    | none => .single content
    | some v => v.push content

/-- Adds the occurrence a line stands for; a line that cannot be split adds nothing. -/
def addLine (m : TagMap) (line : String) : TagMap :=
  match readTagLine? line with
  | some (key, content) => m.add key content
  | none => m

/-- The tag map of a list of lines. -/
def ofLines (ls : List String) : TagMap :=
  ls.foldl addLine .empty

end TagMap

end PropDocs
