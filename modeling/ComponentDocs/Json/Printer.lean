import ComponentDocs.Decimal.Number
import ComponentDocs.Json.Basic
import ComponentDocs.Text.Quoted

/-!
# Writing JSON

Documents are written in ASCII, one member or item a line. Everything outside printable ASCII is
escaped, beyond the first plane by a surrogate pair.
-/

namespace ComponentDocs.Json

def unitEscape (unit : Nat) : List Char :=
  '\\' :: 'u' :: Text.hex 4 unit

def escapedChar (c : Char) : List Char :=
  if c = '"' then ['\\', '"']
  else if c = '\\' then ['\\', '\\']
  else if c = '\n' then ['\\', 'n']
  else if c = '\r' then ['\\', 'r']
  else if c = '\t' then ['\\', 't']
  else if c.toNat = 8 then ['\\', 'b']
  else if c.toNat = 12 then ['\\', 'f']
  else if 32 ≤ c.toNat && c.toNat < 127 then [c]
  else if c.toNat < 0x10000 then unitEscape c.toNat
  else
    let n := c.toNat - 0x10000
    unitEscape (0xD800 + n / 0x400) ++ unitEscape (0xDC00 + n % 0x400)

def escaped (s : String) : String :=
  String.ofList ('"' :: s.toList.flatMap escapedChar ++ ['"'])

/-- A line break and the indentation of the line after it. -/
def newline (width : Nat) : String :=
  String.ofList ('\n' :: List.replicate width ' ')

/-- Lines between brackets, indented by `inner`, the closing bracket by `outer`. -/
def block (opening closing : String) (inner outer : Nat) (lines : List String) : String :=
  match lines with
  | [] => opening ++ closing
  | _ =>
    opening ++ newline inner ++ ("," ++ newline inner).intercalate lines ++ newline outer ++ closing

mutual

/-- Write a value that stands at indentation `outer`. -/
def renderAt (indent outer : Nat) : Json → String
  | .null => "null"
  | .bool true => "true"
  | .bool false => "false"
  | .int n => toString n
  | .float x => Decimal.text .json x
  | .str s => escaped s
  | .arr items => block "[" "]" (outer + indent) outer (renderItems indent (outer + indent) items)
  | .obj members =>
    block "\x7b" "\x7d" (outer + indent) outer (renderMembers indent (outer + indent) members)

def renderItems (indent outer : Nat) : List Json → List String
  | [] => []
  | item :: rest => renderAt indent outer item :: renderItems indent outer rest

def renderMembers (indent outer : Nat) : List (String × Json) → List String
  | [] => []
  | (key, item) :: rest =>
    (escaped key ++ ": " ++ renderAt indent outer item) :: renderMembers indent outer rest

end

/-- Write a document with `indent` spaces a level. -/
def render (indent : Nat) (j : Json) : String :=
  renderAt indent 0 j

end ComponentDocs.Json
