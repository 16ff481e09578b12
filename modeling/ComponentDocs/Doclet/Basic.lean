import ComponentDocs.Dict
import ComponentDocs.Json.Literal

/-!
# Doclets

A doclet is a name, with a text or on its own. The doclets of a component are a dictionary; a doclet
is set when it is there with anything but an empty text or an explicit no.
-/

namespace ComponentDocs

/-- The value of a doclet: a mark that it is there or not, or a text. -/
inductive DocletValue where
  | flag (b : Bool)
  | text (s : String)
  deriving DecidableEq, Repr

namespace DocletValue

def isSet : DocletValue → Bool
  | .flag b => b
  | .text s => s ≠ ""

def toJson : DocletValue → Json
  | .flag b => .bool b
  | .text s => .str s

/-- Whether a JSON value says the same: a mark may also be written as the number one or zero. -/
def agrees : DocletValue → Json → Bool
  | .flag b, .bool c => b == c
  | .flag b, .int n => n == if b then 1 else 0
  | .flag b, .float x => x == if b then 1 else 0
  | .text s, .str t => s == t
  | _, _ => false

end DocletValue

abbrev Doclets : Type := Dict DocletValue

namespace Doclets

/-- The doclet that makes a method part of the documentation. -/
def publicName : String := "public"

def exampleName : String := "example"

def isSet (d : Doclets) (name : String) : Bool :=
  (d.get? name).any DocletValue.isSet

/-- Whether any of the named doclets is set. -/
def anySet (d : Doclets) (names : List String) : Bool :=
  names.any d.isSet

def wantsExample (d : Doclets) : Bool := d.isSet exampleName

def isPublic (d : Doclets) : Bool := d.isSet publicName

def toJson (d : Doclets) : Json :=
  .obj (d.map DocletValue.toJson).entries

/-- Whether a JSON object has the same names with values that agree, in any order. -/
def agrees (d : Doclets) : Json → Bool
  | .obj members =>
    members.length == d.size &&
      d.entries.all fun (name, value) => (members.lookup name).any value.agrees
  | _ => false

def text (d : Doclets) : String :=
  "Doclets(" ++ d.toJson.literal ++ ")"

end Doclets

end ComponentDocs
