import ComponentDocs.Doclet.Basic
import ComponentDocs.Fence.Mark
import ComponentDocs.Sections
import ComponentDocs.Text.Blank
import ComponentDocs.Text.Lines
import ComponentDocs.Text.Marker

/-!
# Doclets in running text

A doclet starts at a marker in the first column of a line, blanks apart, when white space or the end
of the line follows its word. With nothing after the word the doclet is its own line; otherwise its
value reaches to the line before the next marker. Where markers are is decided on a copy of the text
in which the lines of fenced code have lost their first at sign; values are read from the text
itself.
-/

namespace ComponentDocs

/-- A line with its first at sign blanked. -/
def blankMarker : List Char → List Char
  | [] => []
  | c :: rest => if c = '@' then ' ' :: rest else c :: blankMarker rest

/-- The text with the first at sign of each line of fenced code blanked. Every line break counts. -/
def maskCode (text : List Char) : List Char :=
  let found := Text.breakLines text
  let states := fenceStates false (found.map Text.BrokenLine.text)
  (states.zip found).flatMap fun (inside, line) =>
    if inside && !hasFenceMark line.text then blankMarker line.toList else line.toList

/-- A line of the text beside the same line of the masked copy. -/
structure MaskedLine where
  text : List Char
  masked : List Char
  deriving DecidableEq, Repr

/-- The lines of a text beside those of its masked copy. -/
def maskedLines (text : List Char) : List MaskedLine :=
  ((Text.lines text).zip (Text.lines (maskCode text))).map fun (text, masked) => ⟨text, masked⟩

/-- The word of the marker in the first column of a line, blanks apart, and what follows it. -/
def lineMarker? (line : List Char) : Option (List Char × List Char) :=
  Text.marker? (line.dropWhile Text.isIndent)

/-- A line with a marker: the line, the word, and what follows the word. -/
structure MarkerLine where
  text : List Char
  name : List Char
  rest : List Char
  deriving DecidableEq, Repr

/-- A line of which the masked copy has a marker. What follows the word is read from the text. -/
def MaskedLine.markerLine? (line : MaskedLine) : Option MarkerLine :=
  (lineMarker? line.masked).map fun (name, rest) =>
    ⟨line.text, name, line.text.drop (line.text.length - rest.length)⟩

inductive MarkerForm where
  /-- A doclet that is its own line. -/
  | bare
  /-- A doclet with a value. -/
  | valued
  /-- No doclet, but the end of a value above it. -/
  | other
  deriving DecidableEq, Repr

/-- The form of a marker line, from the character after the word. -/
def MarkerLine.form (line : MarkerLine) : MarkerForm :=
  match line.rest with
  | [] => .bare
  | c :: _ => if Text.isBlank c then .valued else .other

/-- A marker line with the lines up to the next one. -/
abbrev DocletSection : Type := MarkerLine × List MaskedLine

namespace DocletSection

/-- The value of a doclet: its trimmed text, or a mark when that is empty. -/
def value (s : DocletSection) : DocletValue :=
  match Text.trim (Text.unlines (s.1.rest :: s.2.map MaskedLine.text)) with
  | [] => .flag true
  | text => .text (String.ofList text)

/-- The doclet of a section, if its marker line starts one. -/
def doclet? (s : DocletSection) : Option (String × DocletValue) :=
  match s.1.form with
  | .bare => some (String.ofList s.1.name, .flag true)
  | .valued => some (String.ofList s.1.name, s.value)
  | .other => none

/-- The lines that are left of a section without its doclet, whose place an empty line takes. -/
def kept (s : DocletSection) : List (List Char) :=
  match s.1.form with
  | .bare => [] :: s.2.map MaskedLine.text
  | .valued => [[]]
  | .other => s.1.text :: s.2.map MaskedLine.text

end DocletSection

/-- The lines before the first marker line, and the sections of the marker lines. -/
def docletSections (text : List Char) : List MaskedLine × List DocletSection :=
  sections MaskedLine.markerLine? (maskedLines text)

/-- The doclets of a text, in order, with repetitions. -/
def docletList (text : List Char) : List (String × DocletValue) :=
  (docletSections text).2.filterMap DocletSection.doclet?

/-- The doclets of a text. A repeated one keeps its first place and its last value. -/
def readDoclets (text : String) : Doclets :=
  Dict.ofList (docletList text.toList)

def removeDoclets (text : String) : String :=
  let (head, found) := docletSections text.toList
  String.ofList (Text.trim
    (Text.unlines (head.map MaskedLine.text ++ found.flatMap DocletSection.kept)))

end ComponentDocs
