import ComponentDocs.Doclet.Scan
import ComponentDocs.Log
import ComponentDocs.Normal.Context

/-!
# Properties

Properties that a doclet hides are left out. The others have the tags of their descriptions taken
out of the text and added to their tags.
-/

namespace ComponentDocs

/-- Whether a doclet in the description hides a property. -/
def Property.isHidden (settings : Settings) (p : Property) : Bool :=
  (readDoclets (p.description.getD "")).anySet settings.hiddenDoclets

def Property.withComment (p : Property) (comment : Comment) : Property :=
  { p with
    description := some comment.description
    tags := p.tags.merge (TagGroups.ofTags comment.tags) }

/-- One property: left out when it is hidden. Its comment has to be readable in any case. -/
def normalizeProperty (ctx : Context) (name : String) (p : Property) :
    Logged (Option Property) := do
  let comment ← Logged.ofExcept (Fault.ofTag (Comment.read false (p.description.getD "")))
  if p.isHidden ctx.settings then
    ⟨[.hiddenPropertyDropped name ctx.source], .ok none⟩
  else
    pure (some (p.withComment comment))

/-- Properties in order, the hidden ones left out. -/
def normalizeEntries (ctx : Context) :
    List (String × Property) → Logged (List (String × Property))
  | [] => pure []
  | (name, p) :: rest => do
    let found ← normalizeProperty ctx name p
    let others ← normalizeEntries ctx rest
    pure ((found.map (name, ·)).toList ++ others)

/-- The record with what the comments of its properties say. -/
def normalizeProperties (ctx : Context) (r : Record) : Logged Record :=
  match r.props with
  | none => pure r
  | some props => do
    let entries ← normalizeEntries ctx props.entries
    pure { r with props := some (Dict.ofList entries) }

end ComponentDocs
