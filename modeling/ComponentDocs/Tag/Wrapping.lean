import ComponentDocs.Text.Blank
import ComponentDocs.Text.Lines

/-!
# Block comments

A block comment stands between its delimiters and has a gutter: white space and a star at the front
of its lines. Unwrapping takes both away.
-/

namespace ComponentDocs

/-- A line without its gutter: white space, a star and one space after the star. -/
def dropGutter (line : List Char) : List Char :=
  match Text.trimLeft line with
  | '*' :: ' ' :: rest => rest
  | '*' :: rest => rest
  | _ => line

/-- A text without the closing delimiter and the white space after it. -/
def dropClosing (text : List Char) : List Char :=
  match (Text.trimRight text).reverse with
  | '/' :: '*' :: rest => rest.reverse
  | _ => text

/-- A text without a star at its front. -/
def dropStar : List Char → List Char
  | '*' :: rest => rest
  | text => text

/-- The text of a block comment. A text that is no block comment is its own. -/
def unwrapChars (comment : List Char) : List Char :=
  match Text.trimLeft comment with
  | '/' :: '*' :: rest =>
    Text.trimNewlines (Text.unlines ((Text.lines (dropClosing (dropStar rest))).map dropGutter))
  | _ => comment

def unwrap (comment : String) : String :=
  String.ofList (unwrapChars comment.toList)

/-- A text that does not start, after white space, with the opening delimiter is its own. -/
theorem unwrapChars_of_not_block {text : List Char}
    (h : ¬ ['/', '*'].isPrefixOf (Text.trimLeft text)) : unwrapChars text = text := by
  unfold unwrapChars
  split
  · rename_i heq
    simp [heq] at h
  · rfl

end ComponentDocs
