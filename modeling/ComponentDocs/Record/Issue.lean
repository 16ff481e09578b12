import ComponentDocs.Json.LaxBool

/-!
# Issues of a document

Reading a document as a record reports every issue and not only the first one. `Checked` is the
result of such a reading: a value, or issues with their places. Joining two readings joins their
issues in order.
-/

namespace ComponentDocs

inductive Step where
  | key (name : String)
  | index (n : Nat)
  deriving DecidableEq, Repr

/-- What is wrong at a place of a document. -/
inductive IssueKind where
  /-- Not an object of the named schema. -/
  | notModel (schema : String)
  | notList
  | notDict
  | notString
  /-- A value that could mean yes or no, but does not. -/
  | unknownBool
  | notBool
  | missing
  deriving DecidableEq, Repr

/-- The short name of a kind of issue. -/
def IssueKind.code : IssueKind → String
  | .notModel _ => "model_type"
  | .notList => "list_type"
  | .notDict => "dict_type"
  | .notString => "string_type"
  | .unknownBool => "bool_parsing"
  | .notBool => "bool_type"
  | .missing => "missing"

def IssueKind.message : IssueKind → String
  | .notModel schema => "Input should be a valid dictionary or instance of " ++ schema
  | .notList => "Input should be a valid list"
  | .notDict => "Input should be a valid dictionary"
  | .notString => "Input should be a valid string"
  | .unknownBool => "Input should be a valid boolean, unable to interpret input"
  | .notBool => "Input should be a valid boolean"
  | .missing => "Field required"

/-- An issue with its place: the steps from the top of the document. -/
structure Issue where
  place : List Step
  kind : IssueKind
  deriving DecidableEq, Repr

def Issue.under (step : Step) (i : Issue) : Issue := ⟨step :: i.place, i.kind⟩

def issuesHeading (issues : List Issue) : String :=
  match issues.length with
  | 1 => "1 validation error for RecordSchema"
  | n => toString n ++ " validation errors for RecordSchema"

/-- A step as a report names it. A name with a point in it stands between backticks. -/
def Step.text : Step → String
  | .key name => if '.' ∈ name.toList then "\x60" ++ name ++ "\x60" else name
  | .index n => toString n

/-- An issue in a report: its place, unless that is the whole document, and what is wrong there. The
note behind it tells of the value that was found. -/
def Issue.text (note : Issue → String) (i : Issue) : String :=
  (if i.place = [] then "" else ".".intercalate (i.place.map Step.text) ++ "\n") ++
    "  " ++ i.kind.message ++ " [type=" ++ i.kind.code ++ note i

/-- Issues in a report, below their heading. -/
def issuesText (note : Issue → String) (issues : List Issue) : String :=
  "\n".intercalate (issuesHeading issues :: issues.map (Issue.text note))

/-- A value that has been read, or the issues that prevent it. -/
inductive Checked (α : Type) where
  | valid (a : α)
  | invalid (issues : List Issue)

namespace Checked

variable {α β : Type}

def map (f : α → β) : Checked α → Checked β
  | .valid a => .valid (f a)
  | .invalid issues => .invalid issues

/-- Apply a function that has been read to a value that has been read, with the issues of both. -/
def apply : Checked (α → β) → Checked α → Checked β
  | .valid f, .valid a => .valid (f a)
  | .valid _, .invalid issues => .invalid issues
  | .invalid issues, .valid _ => .invalid issues
  | .invalid issues, .invalid more => .invalid (issues ++ more)

instance : Applicative Checked where
  pure := .valid
  map := map
  seq f a := apply f (a ())

/-- One issue at the top of what is read. -/
def issue (kind : IssueKind) : Checked α := .invalid [⟨[], kind⟩]

/-- The reading of what stands one step further down. -/
def under (step : Step) : Checked α → Checked α
  | .valid a => .valid a
  | .invalid issues => .invalid (issues.map (Issue.under step))

/-- The value, or the issues as an error. -/
def toExcept : Checked α → Except (List Issue) α
  | .valid a => .ok a
  | .invalid issues => .error issues

def collect : List (Checked α) → Checked (List α)
  | [] => .valid []
  | c :: rest => apply (map List.cons c) (collect rest)

end Checked

end ComponentDocs
