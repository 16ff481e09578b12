import ComponentDocs.Fence.Mark
import ComponentDocs.Sections
import ComponentDocs.Tag.Identifier
import ComponentDocs.Tag.TypeExpression
import ComponentDocs.Text.Lines
import ComponentDocs.Text.Marker

/-!
# Documentation comments

A comment is cut at its tag lines: the lines outside fenced code that start with an at sign and a
word. The lines before the first of them are the description, and each tag line with the lines up to
the next one is a tag. The first tag that cannot be read makes the comment unreadable.
-/

namespace ComponentDocs

/-- A line of a comment with its number, counted from one, and whether it stands inside fenced
code. -/
structure CommentLine where
  number : Nat
  fenced : Bool
  text : List Char
  deriving DecidableEq, Repr

def commentLines (text : List Char) : List CommentLine :=
  let found := Text.lines text
  ((fenceStates false found).zip found).zipIdx 1 |>.map fun ((fenced, line), number) =>
    ⟨number, fenced, line⟩

/-- The first line of a tag: its title and the text after the title. -/
structure TagLine where
  number : Nat
  title : List Char
  rest : List Char
  deriving DecidableEq, Repr

/-- The title and the rest of a line that starts, after white space, with an at sign and a word. -/
def titled? (line : List Char) : Option (List Char × List Char) :=
  Text.marker? (Text.trimLeft line)

/-- A line as the first line of a tag. Inside fenced code no line is one. -/
def CommentLine.tagLine? (line : CommentLine) : Option TagLine :=
  if line.fenced then none
  else (titled? line.text).map fun (title, rest) => ⟨line.number, title, rest⟩

/-- A description without the dash that may introduce it. -/
def cleanText (text : List Char) : List Char :=
  match Text.trim text with
  | '-' :: ' ' :: rest => Text.trim rest
  | trimmed => trimmed

/-- The text of a tag that is kept as it is written. A first line without text is left out, and so
is white space at the end. -/
def verbatimText (first : List Char) (body : List (List Char)) : List Char :=
  let first := Text.trim first
  Text.trimRight (Text.unlines (if first = [] then body else first :: body))

/-- Read a tag from its title, the text after the title and the lines below. -/
def tagOfLines (sloppy : Bool) (title : String) (first : List Char) (body : List (List Char)) :
    Except TagFlaw Tag :=
  let text := Text.unlines (first :: body)
  match TagForm.ofTitle title with
  | .verbatim => .ok ⟨title, String.ofList (verbatimText first body), none, none, none⟩
  | .parameter => do
    let (type, rest) ← takeType text
    let found ← readName title sloppy rest
    return ⟨title, String.ofList (cleanText found.rest), some (String.ofList found.name),
      type.map String.ofList, found.default.map String.ofList⟩
  | .result => do
    let (type, rest) ← takeType text
    return ⟨title, String.ofList (cleanText rest), none, type.map String.ofList, none⟩
  | .plain => .ok ⟨title, String.ofList (Text.trim text), none, none, none⟩

/-- Read the tag that a tag line opens. -/
def TagLine.read (sloppy : Bool) (line : TagLine) (body : List CommentLine) :
    Except TagError Tag :=
  match tagOfLines sloppy (String.ofList line.title) line.rest (body.map CommentLine.text) with
  | .ok tag => .ok tag
  | .error flaw => .error ⟨flaw.problem, line.number, String.ofList flaw.text⟩

/-- A comment that has been read. -/
structure Comment where
  description : String
  tags : List Tag
  deriving DecidableEq, Repr, Inhabited

/-- The lines before the first tag, and each tag line with the lines of its tag. -/
def commentSections (text : List Char) : List CommentLine × List (TagLine × List CommentLine) :=
  sections CommentLine.tagLine? (commentLines text)

/-- Read a comment. Sloppy mode accepts brackets around the names of parameters. -/
def Comment.read (sloppy : Bool) (text : String) : Except TagError Comment := do
  let (head, found) := commentSections text.toList
  let tags ← found.mapM fun (line, body) => line.read sloppy body
  return ⟨String.ofList (Text.trim (Text.unlines (head.map CommentLine.text))), tags⟩

end ComponentDocs
