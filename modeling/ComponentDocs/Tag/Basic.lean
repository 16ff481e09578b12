/-!
# Tags

A documentation comment is a description followed by tags: a title after an at sign, and text whose
form depends on the title.
-/

namespace ComponentDocs

/-- One tag of a comment. Only tags that document a parameter have a name and a default, and only
those and the ones that document a result have a type. -/
structure Tag where
  title : String
  description : String
  name : Option String
  type : Option String
  default : Option String
  deriving DecidableEq, Repr, Inhabited

/-- What the text of a tag is made of. -/
inductive TagForm where
  /-- Text that is kept as it is written. -/
  | verbatim
  /-- A type, a name and a description. -/
  | parameter
  /-- A type and a description. -/
  | result
  /-- A description. -/
  | plain
  deriving DecidableEq, Repr

/-- The titles of tags that document a parameter or a property. -/
def parameterTitles : List String := ["param", "arg", "argument", "prop", "property"]

/-- The titles of tags that document a result. -/
def resultTitles : List String := ["return", "returns"]

/-- The title of tags that hold an example. -/
def exampleTitle : String := "example"

def TagForm.ofTitle (title : String) : TagForm :=
  if title = exampleTitle then .verbatim
  else if parameterTitles.contains title then .parameter
  else if resultTitles.contains title then .result
  else .plain

/-- Why the text of a tag has not the form that its title calls for. -/
inductive TagProblem where
  /-- A type expression without its closing brace. -/
  | unbalancedBraces
  /-- Brackets around a name where they are not accepted. -/
  | optionalName (title : String)
  /-- Brackets around a name without the closing one. -/
  | unclosedBracket (title : String)
  /-- Text inside brackets that is no name. -/
  | invalidIdentifier (title : String)
  /-- No name where there has to be one. -/
  | missingIdentifier (title : String)
  deriving DecidableEq, Repr

def TagProblem.message : TagProblem → String
  | .unbalancedBraces => "Unbalanced braces in type expression"
  | .optionalName title => "Optional name syntax in @" ++ title ++ " requires sloppy mode"
  | .unclosedBracket title => "Unclosed [ in @" ++ title
  | .invalidIdentifier title => "Invalid identifier in @" ++ title
  | .missingIdentifier title => "Missing identifier in @" ++ title

/-- A problem with the text at which it was found. -/
structure TagFlaw where
  problem : TagProblem
  text : List Char
  deriving DecidableEq, Repr

/-- A tag that cannot be read: the problem, the line of the tag in its comment, counted from one,
and the text at which the problem was found. -/
structure TagError where
  problem : TagProblem
  line : Nat
  text : String
  deriving DecidableEq, Repr

def TagError.message (e : TagError) : String :=
  e.problem.message ++ " (line " ++ toString e.line ++ ")"

end ComponentDocs
