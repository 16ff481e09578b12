import ComponentDocs.Fence.Mark
import ComponentDocs.Text.Lines

/-!
# Inline examples

An example inside a comment is a block of code, perhaps with a caption above it. Its header stands
on the line with the fence mark; a closing line of three backticks is no part of it. Blank lines are
dropped.
-/

namespace ComponentDocs

/-- The header and the code of an inline example. -/
structure InlineExample where
  header : List Char
  content : List Char
  deriving DecidableEq, Repr

/-- The lines of a text that are not blank, cut at every line break. -/
def visibleLines (text : List Char) : List (List Char) :=
  ((Text.breakLines text).map Text.BrokenLine.text).filter fun line => Text.trim line != []

/-- Lines from the first one with a fence mark on; all of them when there is none. -/
def fromFenceMark (lines : List (List Char)) : List (List Char) :=
  match lines.dropWhile (!hasFenceMark ·) with
  | [] => lines
  | found => found

/-- Lines without a last one that is three backticks. -/
def dropClosingLine (lines : List (List Char)) : List (List Char) :=
  if lines.getLast?.any (Text.trim · == fenceMark) then lines.dropLast else lines

/-- Split the body of an inline example into its header and its code. -/
def InlineExample.ofChars (body : List Char) : InlineExample :=
  match fromFenceMark (visibleLines body) with
  | [] => ⟨[], []⟩
  | first :: rest =>
    ⟨Text.trim ((Text.trim first).drop fenceMark.length), Text.unlines (dropClosingLine rest)⟩

end ComponentDocs
