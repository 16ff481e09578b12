import ComponentDocs.Record.Basic
import ComponentDocs.Record.Issue

/-!
# Reading records

A record is read from a JSON document with the spelling of introspection. Every field has its
reader; what no field stands for is kept. Fields are read in the order in which their issues are
reported.
-/

namespace ComponentDocs.Record

open Checked

variable {α : Type}

/-! ## Values -/

def readString : Json → Checked String
  | .str s => .valid s
  | _ => issue .notString

def readBool (j : Json) : Checked Bool :=
  match j.toBool with
  | .ok b => .valid b
  | .error .unknown => issue .unknownBool
  | .error .unfit => issue .notBool

def readOption (read : Json → Checked α) : Json → Checked (Option α)
  | .null => .valid none
  | j => map some (read j)

def readList (read : Json → Checked α) : Json → Checked (List α)
  | .arr items => collect (items.zipIdx.map fun (item, n) => (read item).under (.index n))
  | _ => issue .notList

def readDict (read : Json → Checked α) : Json → Checked (Dict α)
  | .obj members =>
    map Dict.ofList (collect ((Dict.ofList members).entries.map fun (key, item) =>
      map (key, ·) ((read item).under (.key key))))
  | _ => issue .notDict

def readModel (schema : String) (read : Dict Json → Checked α) : Json → Checked α
  | .obj members => read (Dict.ofList members)
  | _ => issue (.notModel schema)

def optionalField (members : Dict Json) (key : String) (absent : α) (read : Json → Checked α) :
    Checked α :=
  match members.get? key with
  | some j => (read j).under (.key key)
  | none => .valid absent

def requiredField (members : Dict Json) (key : String) (read : Json → Checked α) : Checked α :=
  match members.get? key with
  | some j => (read j).under (.key key)
  | none => (issue .missing).under (.key key)

/-- Which of the two spellings of a field a document uses. The first one goes before the second
one, which is read only when the first one is not there. -/
def spelling (members : Dict Json) (first second : String) : String :=
  if members.contains first then first
  else if members.contains second then second
  else first

/-! ## Parts of a record -/

/-- The description of a type as an object. -/
def readTypeObject : Json → Checked TypeInfo :=
  readModel "TypeSchema" fun members =>
    map (⟨·, members.without ["name"]⟩) (requiredField members "name" readString)

/-- A type: its name, or an object. A value that is neither has the issues of both. -/
def readType (j : Json) : Checked TypeInfo :=
  match j with
  | .str name => .valid ⟨name, Dict.empty⟩
  | _ =>
    match readTypeObject j with
    | .valid type => .valid type
    | .invalid issues =>
      .invalid (issues.map (Issue.under (.key "TypeSchema")) ++ [⟨[.key "str"], .notString⟩])

/-- A type that may be left out or null. -/
def typeField (members : Dict Json) : Checked (Option TypeInfo) :=
  optionalField members "type" none (readOption readType)

/-- A text that may be left out or null. -/
def textField (members : Dict Json) (key : String) : Checked (Option String) :=
  optionalField members key none (readOption readString)

def readTag : Json → Checked Tag :=
  readModel "TagSchema" fun members =>
    Tag.mk
      <$> requiredField members "title" readString
      <*> map (·.getD "") (textField members "description")
      <*> textField members "name"
      <*> map (Option.map TypeInfo.name) (typeField members)
      <*> textField members "default"

def tagsField (members : Dict Json) : Checked TagGroups :=
  optionalField members "tags" Dict.empty (readDict (readList readTag))

def readParam : Json → Checked Param :=
  readModel "ParamSchema" fun members =>
    Param.mk
      <$> requiredField members "name" readString
      <*> typeField members
      <*> textField members "description"
      <*> textField members "default"
      <*> .valid (members.without ["name", "type", "description", "default"])

def readReturns : Json → Checked Returns :=
  readModel "ReturnsSchema" fun members =>
    Returns.mk
      <$> typeField members
      <*> textField members "description"
      <*> .valid (members.without ["type", "description"])

/-- The names of the fields of a method. -/
def methodFields : List String :=
  ["name", "docblock", "description", "modifiers", "params", "returns", "tags"]

def readMethod : Json → Checked Method :=
  readModel "MethodSchema" fun members =>
    (fun name docblock description modifiers (params : Option (List Param)) returns tags =>
      ⟨name, docblock, params.getD [], returns, modifiers, tags, description,
        members.without methodFields⟩)
      <$> requiredField members "name" readString
      <*> textField members "docblock"
      <*> textField members "description"
      <*> optionalField members "modifiers" [] (readList readString)
      <*> optionalField members "params" none (readOption (readList readParam))
      <*> optionalField members "returns" none (readOption readReturns)
      <*> tagsField members

/-- The text of a default: none for null, else the value as running text. -/
def defaultText : Json → Option String
  | .null => none
  | j => some j.plain

def readDefaultValue : Json → Checked DefaultValue :=
  readModel "DefaultValueSchema" fun members =>
    DefaultValue.mk ((members.get? "value").bind defaultText)
      <$> optionalField members "computed" false readBool

def readProperty : Json → Checked Property :=
  readModel "PropSchema" fun members =>
    let defaultKey := spelling members "defaultValue" "default_value"
    (fun description type required (default : Option DefaultValue) tags =>
      ⟨description, type, required, default.getD ⟨none, false⟩, tags,
        members.without ["description", "type", "required", defaultKey, "tags"]⟩)
      <$> textField members "description"
      <*> typeField members
      <*> optionalField members "required" false readBool
      <*> optionalField members defaultKey none (readOption readDefaultValue)
      <*> tagsField members

/-- The value of a doclet: a truth value and a string stand for themselves, anything else has to
mean yes or no. -/
def readDocletValue (j : Json) : Checked DocletValue :=
  match j with
  | .bool b => .valid (.flag b)
  | .str s => .valid (.text s)
  | _ =>
    match readBool j with
    | .valid b => .valid (.flag b)
    | .invalid issues =>
      .invalid (issues.map (Issue.under (.key "bool")) ++ [⟨[.key "str"], .notString⟩])

/-- The names of the fields of a record, with the spellings that a document uses. -/
def recordFields (displayKey visibleKey : String) : List String :=
  ["description", displayKey, "methods", "props", "doclets", "tags", "examples", "example",
    visibleKey]

/-- A record, from the members of a document. -/
def readMembers (members : Dict Json) : Checked Record :=
  let displayKey := spelling members "displayName" "display_name"
  let visibleKey := spelling members "visibleName" "visible_name"
  (fun description displayName (methods : Option (List Method)) props doclets tags examples
      external visibleName =>
    ⟨description, displayName, methods.getD [], props, doclets, tags, examples, external,
      visibleName, members.without (recordFields displayKey visibleKey)⟩)
    <$> textField members "description"
    <*> textField members displayKey
    <*> optionalField members "methods" none (readOption (readList readMethod))
    <*> optionalField members "props" none (readOption (readDict readProperty))
    <*> optionalField members "doclets" Dict.empty (readDict readDocletValue)
    <*> tagsField members
    <*> optionalField members "examples" [] (readList readString)
    <*> .valid (.value ((members.get? "example").getD .null))
    <*> textField members visibleKey

/-- Read a document as a record, or list all its issues. -/
def ofJson (j : Json) : Except (List Issue) Record :=
  (readModel "RecordSchema" readMembers j).toExcept

end ComponentDocs.Record
