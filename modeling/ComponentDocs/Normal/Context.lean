import ComponentDocs.FileSystem
import ComponentDocs.Highlight
import ComponentDocs.Record.Basic
import ComponentDocs.Settings

/-!
# The context of a run

What all stages of a run share besides the record.
-/

namespace ComponentDocs

structure Context where
  /-- The source file of the component. -/
  source : Option String
  settings : Settings
  /-- The loader of examples files. -/
  loadExample : String → ExternalExample
  files : FileSystem
  /-- The lexers that code is set as HTML with. -/
  lexers : Lexers
  /-- How many arrays and objects may stand inside one another in the modifiers of an example. -/
  room : Nat

/-- The loader that makes references to examples files for a playground. -/
def referTo (langs : List String) (specifier : String) : ExternalExample :=
  .ref ⟨specifier, langs⟩

end ComponentDocs
