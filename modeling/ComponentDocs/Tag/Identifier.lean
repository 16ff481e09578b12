import ComponentDocs.Tag.Basic
import ComponentDocs.Text.Blank
import ComponentDocs.Text.Word

/-!
# Names of parameters

A name is a run of word characters, dollar signs and dots that does not start with a dot; an empty
pair of brackets may follow it, and after the brackets dotted names again, as in `items[].key`. A
parameter that may be left out is written between brackets, with its default after an equals sign.
-/

namespace ComponentDocs

/-- A character that a name may hold besides dots. -/
def isNameChar (c : Char) : Bool :=
  Text.isWord c || c == '$'

/-- The longest run of dotted names at the front, and the text after it; inside a name its
characters go on without a dot. -/
def takeDotted (inside : Bool) : List Char → List Char × List Char
  | [] => ([], [])
  | c :: rest =>
    if (inside && isNameChar c) || (c == '.' && rest.head?.any isNameChar) then
      let (run, after) := takeDotted true rest
      (c :: run, after)
    else
      ([], c :: rest)

/-- The longest name at the front of a text, and the text after it. -/
def takeName? : List Char → Option (List Char × List Char)
  | [] => none
  | c :: rest =>
    if isNameChar c then
      let (run, after) := rest.span fun d => isNameChar d || d == '.'
      match after with
      | '[' :: ']' :: after =>
        let (dotted, after) := takeDotted false after
        some (c :: run ++ '[' :: ']' :: dotted, after)
      | _ => some (c :: run, after)
    else
      none

/-- Whether a text is a name from its first character to its last. -/
def isName (text : List Char) : Bool :=
  match takeName? text with
  | some (_, []) => true
  | _ => false

/-- The name in a parameter's text, its default, and the text after it. -/
structure NameReading where
  name : List Char
  default : Option (List Char)
  rest : List Char
  deriving DecidableEq, Repr

/-- A text that is absent when it is empty. -/
def nonEmpty? (s : List Char) : Option (List Char) :=
  if s = [] then none else some s

/-- Read the name of a parameter. Brackets around it are accepted in sloppy mode only. -/
def readName (title : String) (sloppy : Bool) (text : List Char) : Except TagFlaw NameReading :=
  match Text.trimLeft text with
  | '[' :: rest =>
    if !sloppy then .error ⟨.optionalName title, '[' :: rest⟩
    else
      match rest.span (· != ']') with
      | (_, []) => .error ⟨.unclosedBracket title, '[' :: rest⟩
      | (inner, _ :: after) =>
        let (before, assigned) := inner.span (· != '=')
        let name := Text.trim before
        if isName name then .ok ⟨name, nonEmpty? (Text.trim (assigned.drop 1)), after⟩
        else .error ⟨.invalidIdentifier title, inner⟩
  | trimmed =>
    match takeName? trimmed with
    | some (name, after) => .ok ⟨name, none, after⟩
    | none => .error ⟨.missingIdentifier title, trimmed⟩

end ComponentDocs
