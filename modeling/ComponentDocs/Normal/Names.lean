import ComponentDocs.DisplayName
import ComponentDocs.Log
import ComponentDocs.Normal.Context

/-!
# Names

A component without a display name is named after its source file, and the text of the label doclet
becomes its visible name.
-/

namespace ComponentDocs

/-- Whether there is a text that is not empty. -/
def hasText (s : Option String) : Bool := s.any (· != "")

/-- The record with a display name, if it has one or its source file is known. -/
def fillDisplayName (ctx : Context) (r : Record) : Logged Record :=
  match ctx.source with
  | none | some "" => pure r
  | some source =>
    if hasText r.displayName then pure r
    else pure { r with displayName := some (displayNameOf source) }

/-- The record with the label doclet as its visible name. A doclet without a text only goes away. -/
def Record.promote (r : Record) (name : String) (label : DocletValue) : Record :=
  { r with
    visibleName :=
      match label with
      | .text s => some s
      | .flag _ => r.visibleName
    doclets := r.doclets.without [name]
    tags := r.tags.without [name] }

/-- The record without the label doclet, if it is set: its text is the visible name. -/
def promoteVisibleName (ctx : Context) (r : Record) : Logged Record :=
  match r.doclets.get? ctx.settings.labelDoclet with
  | some label => pure (if label.isSet then r.promote ctx.settings.labelDoclet label else r)
  | none => pure r

end ComponentDocs
