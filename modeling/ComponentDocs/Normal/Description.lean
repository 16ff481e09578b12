import ComponentDocs.Doclet.Scan
import ComponentDocs.Example.Resolve
import ComponentDocs.Highlight

/-!
# Descriptions

The description of a component gives it its doclets and its tags. What is left of the text has its
code highlighted, and the examples that the tags name are resolved.
-/

namespace ComponentDocs

/-- A text without its doclets and with its code as HTML. -/
def cleanDescription (lexers : Lexers) (cssClass text : String) : String :=
  highlightText lexers cssClass (removeDoclets text)

/-- The record with doclets, tags and text from its description, when its tags have been read. -/
def Record.describe (lexers : Lexers) (cssClass text : String) (tags : TagGroups) (r : Record) :
    Record :=
  { r with
    doclets := readDoclets text
    tags := r.tags.merge tags
    description := some (cleanDescription lexers cssClass text) }

/-- The record with what its description says. Without a description it has no doclets. -/
def normalizeDescription (ctx : Context) (r : Record) : Logged Record :=
  match r.description with
  | none | some "" => pure { r with doclets := Dict.empty }
  | some text => do
    let tags ← Logged.ofExcept (Fault.ofTag (readTags false text))
    resolveExamples ctx (r.describe ctx.lexers ctx.settings.highlightCssClass text tags)

end ComponentDocs
