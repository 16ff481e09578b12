import ComponentDocs.Decimal.Number
import ComponentDocs.Json.Basic
import ComponentDocs.Text.Quoted

/-!
# Values as running text

How a value reads in a sentence: strings inside a list or an object are quoted, a string on its own
is not.
-/

namespace ComponentDocs.Json

mutual

/-- A value as it stands inside another one. -/
def literal : Json → String
  | .null => "None"
  | .bool true => "True"
  | .bool false => "False"
  | .int n => toString n
  | .float x => Decimal.text .plain x
  | .str s => Text.quotedString s
  | .arr items => "[" ++ ", ".intercalate (literalItems items) ++ "]"
  | .obj members => "\x7b" ++ ", ".intercalate (literalMembers members) ++ "\x7d"

def literalItems : List Json → List String
  | [] => []
  | item :: rest => literal item :: literalItems rest

def literalMembers : List (String × Json) → List String
  | [] => []
  | (key, item) :: rest =>
    (Text.quotedString key ++ ": " ++ literal item) :: literalMembers rest

end

def plain : Json → String
  | .str s => s
  | j => literal j

end ComponentDocs.Json
