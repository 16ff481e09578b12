import ComponentDocs.Text.Blank

/-!
# Lines inside fenced code

A line whose first visible characters are three backticks switches between running text and code.
This simple rule decides where markers of running text are ignored; which blocks of code are well
formed is decided elsewhere.
-/

namespace ComponentDocs

/-- Three backticks. -/
def fenceMark : List Char := ['\x60', '\x60', '\x60']

/-- Whether the first characters of a line that are not white space are three backticks. -/
def hasFenceMark (line : List Char) : Bool :=
  fenceMark.isPrefixOf (Text.trimLeft line)

/-- Whether each line stands inside fenced code, when the first one does iff `inside`. A line with a
fence mark counts with the lines before it. -/
def fenceStates (inside : Bool) : List (List Char) → List Bool
  | [] => []
  | line :: rest => inside :: fenceStates (inside != hasFenceMark line) rest

end ComponentDocs
