import PropDocs.Text.Blank

/-!
# JSON with comments

Configuration files are JSON with comments and trailing commas.  `plainText` turns such a text
into plain JSON in two passes, and both leave strings alone:

* `dropComments` removes line comments, keeping the line feed that ends them, and block comments;
* `dropTrailingCommas` removes a comma when the next character that is not a blank closes an
  array or an object.
-/

namespace PropDocs.Json

open Text

/-- **Mode** of the comment pass: outside of strings and comments, inside a string, just behind a
backslash inside a string, inside a line comment, or inside a block comment (and whether the
character before was a star). -/
inductive CommentMode where
  | plain
  | inString
  | escaped
  | lineComment
  | blockComment (afterStar : Bool)
  deriving DecidableEq, Repr, Inhabited

/-- **Comment pass.** -/
def dropComments : CommentMode → List Char → List Char
  | _, [] => []
  | .plain, '/' :: '/' :: cs => dropComments .lineComment cs
  | .plain, '/' :: '*' :: cs => dropComments (.blockComment false) cs
  | .plain, c :: cs => c :: dropComments (if c = '"' then .inString else .plain) cs
  | .inString, c :: cs =>
    c :: dropComments (if c = '\\' then .escaped else if c = '"' then .plain else .inString) cs
  | .escaped, c :: cs => c :: dropComments .inString cs
  | .lineComment, c :: cs =>
    if c = '\n' then c :: dropComments .plain cs else dropComments .lineComment cs
  | .blockComment afterStar, c :: cs =>
    if afterStar && c == '/' then dropComments .plain cs
    else dropComments (.blockComment (c == '*')) cs

/-- **Mode** of the comma pass: outside of strings, inside one, or just behind a backslash inside
one. -/
inductive CommaMode where
  | plain
  | inString
  | escaped
  deriving DecidableEq, Repr, Inhabited

/-- The next character that is not a blank closes an array or an object. -/
def closesNext (cs : List Char) : Bool :=
  match trimStart cs with
  | '}' :: _ | ']' :: _ => true
  | _ => false

/-- **Comma pass.** -/
def dropTrailingCommas : CommaMode → List Char → List Char
  | _, [] => []
  | .plain, c :: cs =>
    if c = ',' ∧ closesNext cs then dropTrailingCommas .plain cs
    else c :: dropTrailingCommas (if c = '"' then .inString else .plain) cs
  | .inString, c :: cs =>
    c :: dropTrailingCommas
      (if c = '\\' then .escaped else if c = '"' then .plain else .inString) cs
  | .escaped, c :: cs => c :: dropTrailingCommas .inString cs

/-- **Stripping.** The plain JSON text of a JSON text with comments and trailing commas. -/
def plainText (text : String) : String :=
  String.ofList (dropTrailingCommas .plain (dropComments .plain text.toList))

end PropDocs.Json
