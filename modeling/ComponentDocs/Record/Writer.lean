import ComponentDocs.Record.Basic

/-!
# Writing records

A record as a JSON document, in the spelling in which it is read. What no field stands for goes
first, in its order; fields that are optional in the document are left out when they are absent.
-/

namespace ComponentDocs

open Json

def Dict.objectWith (base : Dict Json) (members : List (String × Json)) : Json :=
  .obj (base.insertMany members).entries

def TypeInfo.toJson (t : TypeInfo) : Json :=
  .obj ((Dict.ofList [("name", .str t.name)]).merge t.details).entries

/-- A tag. The type of a tag has only its name. -/
def Tag.toJson (t : Tag) : Json :=
  .obj ([("title", .str t.title), ("description", .str t.description)] ++
    member? "name" .str t.name ++
    member? "type" (fun name => .obj [("name", .str name)]) t.type ++
    member? "default" .str t.default)

def TagGroups.toJson (groups : TagGroups) : Json :=
  .obj (groups.map fun tags => .arr (tags.map Tag.toJson)).entries

def Param.toJson (p : Param) : Json :=
  p.extra.objectWith ([("name", .str p.name)] ++ member? "type" TypeInfo.toJson p.type ++
    member? "description" .str p.description ++ member? "default" .str p.default)

def Returns.toJson (r : Returns) : Json :=
  r.extra.objectWith (member? "type" TypeInfo.toJson r.type ++
    member? "description" .str r.description)

def Method.toJson (m : Method) : Json :=
  m.extra.objectWith ([("name", .str m.name), ("docblock", ofString? m.docblock),
    ("modifiers", ofStrings m.modifiers), ("params", .arr (m.params.map Param.toJson)),
    ("returns", (m.returns.map Returns.toJson).getD .null), ("tags", m.tags.toJson)] ++
    member? "description" .str m.description)

/-- The default of a property, when it has a text. -/
def DefaultValue.members (d : DefaultValue) : List (String × Json) :=
  member? "defaultValue"
    (fun text => .obj [("value", .str text), ("computed", .bool d.computed)]) d.text

def Property.toJson (p : Property) : Json :=
  p.extra.objectWith ([("description", ofString? p.description), ("required", .bool p.required),
    ("tags", p.tags.toJson)] ++ member? "type" TypeInfo.toJson p.type ++ p.default.members)

/-- An external example. A reference is written as what has to be loaded. -/
def ExternalExample.toJson : ExternalExample → Json
  | .value j => j
  | .ref m => .obj [("require", .str m.specifier)]

def Record.toJson (r : Record) : Json :=
  r.extra.objectWith ([("description", ofString? r.description),
    ("displayName", ofString? r.displayName), ("methods", .arr (r.methods.map Method.toJson)),
    ("doclets", r.doclets.toJson), ("tags", r.tags.toJson), ("examples", ofStrings r.examples),
    ("example", r.external.toJson)] ++
    member? "props" (fun props => .obj (props.map Property.toJson).entries) r.props ++
    member? "visibleName" .str r.visibleName)

end ComponentDocs
