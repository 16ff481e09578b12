import ComponentDocs.Doclet.Basic
import ComponentDocs.Tag.Groups

/-!
# Records

A record holds what is known about one component: what introspection found and what the comments
say. Data that introspection found beyond the fields here is kept beside them, in `details` for the
description of a type and in `extra` for everything else.
-/

namespace ComponentDocs

/-- A type by its name, with the rest of its description. -/
structure TypeInfo where
  name : String
  details : Dict Json
  deriving BEq, Inhabited

structure Param where
  name : String
  type : Option TypeInfo
  description : Option String
  default : Option String
  extra : Dict Json
  deriving BEq, Inhabited

structure Returns where
  type : Option TypeInfo
  description : Option String
  extra : Dict Json
  deriving BEq, Inhabited

structure Method where
  name : String
  docblock : Option String
  params : List Param
  returns : Option Returns
  modifiers : List String
  tags : TagGroups
  description : Option String
  extra : Dict Json
  deriving BEq, Inhabited

/-- The default of a property: the text of its value, and whether it is computed. A default without
a text may still be marked as computed. -/
structure DefaultValue where
  text : Option String
  computed : Bool
  deriving DecidableEq, Repr, Inhabited

structure Property where
  description : Option String
  type : Option TypeInfo
  required : Bool
  default : DefaultValue
  tags : TagGroups
  extra : Dict Json
  deriving BEq, Inhabited

/-- A reference to an examples file: how it is loaded, and the languages of the playground. The file
is read only when its chunks are asked for. -/
structure ModuleRef where
  specifier : String
  langs : List String
  deriving DecidableEq, Repr, Inhabited

/-- What a record holds as its external example. -/
inductive ExternalExample where
  /-- Data as it was given or made by a loader. -/
  | value (j : Json)
  /-- A reference to an examples file. -/
  | ref (m : ModuleRef)
  deriving BEq, Inhabited

/-- The documentation record of a component. -/
structure Record where
  description : Option String
  displayName : Option String
  methods : List Method
  props : Option (Dict Property)
  doclets : Doclets
  tags : TagGroups
  examples : List String
  external : ExternalExample
  visibleName : Option String
  extra : Dict Json
  deriving BEq, Inhabited

end ComponentDocs
