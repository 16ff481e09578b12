import ComponentDocs.Doclet.Scan
import ComponentDocs.Log
import ComponentDocs.Normal.Context
import ComponentDocs.Tag.Wrapping

/-!
# Methods

Only methods that a doclet makes public are documented. What their tags say about parameters and
results is put beside what introspection found; the other tags stay as they are.
-/

namespace ComponentDocs

/-- Whether the comment of a method makes it public. -/
def Method.isPublic (m : Method) : Bool :=
  match m.docblock with
  | some docblock => (readDoclets (unwrap docblock)).isPublic
  | none => false

/-- The type that a tag gives a parameter. One of another name takes the place of the type that was
found, with its details. -/
def Param.typeFrom (p : Param) (tag : Tag) : Option TypeInfo :=
  match tag.type with
  | none => p.type
  | some name => if p.type.map TypeInfo.name = some name then p.type else some ⟨name, Dict.empty⟩

/-- A parameter with what a tag says about it. -/
def Param.withTag (p : Param) (tag : Tag) : Param :=
  { p with
    description := some tag.description
    type := p.typeFrom tag
    default := tag.default <|> p.default }

/-- A parameter with what the first tag of its name says about it. -/
def Param.document (tags : List Tag) (p : Param) : Param :=
  match tags.find? fun tag => tag.name = some p.name with
  | some tag => p.withTag tag
  | none => p

def Returns.ofTag (tag : Tag) : Returns :=
  ⟨tag.type.map (⟨·, Dict.empty⟩), some tag.description, Dict.empty⟩

def Settings.synonyms (s : Settings) (group : String) : Except Fault (List String) :=
  match s.tagSynonyms.get? group with
  | some titles => .ok titles
  | none => .error (.noSynonyms group)

/-- The result of a method: what introspection found, or what the first of its tags says. -/
def Method.documentedReturns (settings : Settings) (tags : TagGroups) (m : Method) :
    Except Fault (Option Returns) :=
  match m.returns with
  | some returns => .ok (some returns)
  | none => do
    let titles ← settings.synonyms Settings.returnsGroup
    return (tags.select titles).head?.map Returns.ofTag

/-- The tags of the comment of a method. -/
def Method.readTags (m : Method) : Except Fault TagGroups :=
  Fault.ofTag (ComponentDocs.readTags true (unwrap (m.docblock.getD "")))

def Method.normalize (settings : Settings) (m : Method) : Except Fault Method := do
  let tags ← m.readTags
  let titles ← settings.synonyms Settings.paramsGroup
  let returns ← m.documentedReturns settings tags
  return { m with
    params := m.params.map (Param.document (tags.select titles))
    returns := returns
    tags := tags.without settings.allSynonyms }

/-- The public methods of a record, with what their tags say. -/
def normalizeMethods (ctx : Context) (r : Record) : Logged Record :=
  Logged.ofExcept do
    let methods ← (r.methods.filter Method.isPublic).mapM (Method.normalize ctx.settings)
    return { r with methods := methods }

end ComponentDocs
