/-!
# Blanks and lines

Texts are handled as lists of Unicode scalar values.  This file fixes the two notions every
reader of documentation text shares:

* `isBlank`: the Unicode property White_Space, with `trimStart`, `trimEnd` and `trim`
  removing blanks from one or both ends;
* `lines`: a text cut at its line feeds, a carriage return directly in front of a line feed
  being part of the line break.
-/

namespace PropDocs.Text

/-! ### Blanks -/

/-- **Blank.** The Unicode property White_Space.  The zero-width space and the byte order mark
are not in it. -/
def isBlank (c : Char) : Bool :=
  let n := c.toNat
  (9 ≤ n && n ≤ 13) || n == 0x20 || n == 0x85 || n == 0xa0 || n == 0x1680 ||
    (0x2000 ≤ n && n ≤ 0x200a) || n == 0x2028 || n == 0x2029 || n == 0x202f || n == 0x205f ||
    n == 0x3000

/-- A text without the blanks it starts with. -/
def trimStart (cs : List Char) : List Char :=
  cs.dropWhile isBlank

/-- A text without the blanks it ends with. -/
def trimEnd (cs : List Char) : List Char :=
  (cs.reverse.dropWhile isBlank).reverse

/-- A text without the blanks at either end. -/
def trim (cs : List Char) : List Char :=
  trimEnd (trimStart cs)

/-! ### Leading and trailing words -/

/-- **Leading word.** What follows `p` in `cs`, when `cs` starts with `p`. -/
def afterWord? (p cs : List Char) : Option (List Char) :=
  p.isPrefixOf? cs

/-- **Trailing word.** What stands in front of `s` in `cs`, when `cs` ends with `s`. -/
def beforeWord? (s cs : List Char) : Option (List Char) :=
  s.isSuffixOf? cs

/-! ### Lines -/

/-- A line without the carriage return it ends with. -/
def dropReturn (line : List Char) : List Char :=
  (beforeWord? ['\r'] line).getD line

/-- Turns the pieces between line feeds into lines: every piece but the last was ended by a line
feed, and the last one counts only when it is not empty. -/
def closeLines : List (List Char) → List (List Char)
  | [] => []
  | [last] => if last.isEmpty then [] else [last]
  | p :: ps => dropReturn p :: closeLines ps

/-- **Lines.** A line ends at a line feed, or at a carriage return directly followed by one.  The
empty text has no lines. -/
def lines (cs : List Char) : List (List Char) :=
  closeLines (cs.splitOn '\n')

/-- Lines put together again with single line feeds between them. -/
def joinLines (ls : List (List Char)) : List Char :=
  ['\n'].intercalate ls

/-- **Line breaks made uniform.** Every carriage return directly in front of a line feed is
dropped. -/
def unifyBreaks : List Char → List Char
  | [] => []
  | [c] => [c]
  | c :: d :: cs =>
    if c = '\r' ∧ d = '\n' then unifyBreaks (d :: cs) else c :: unifyBreaks (d :: cs)

/-! ### The same operations on strings -/

/-- A string without the blanks at either end. -/
def trimString (s : String) : String :=
  String.ofList (trim s.toList)

/-- A string in which every carriage return directly in front of a line feed is dropped. -/
def unifyString (s : String) : String :=
  String.ofList (unifyBreaks s.toList)

end PropDocs.Text
