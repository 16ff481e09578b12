import ComponentDocs.Normal.Description
import ComponentDocs.Normal.Methods
import ComponentDocs.Normal.Names
import ComponentDocs.Normal.Properties

/-!
# Normal records

A record is normalized in stages, each of which takes a record to a record. A fault in one of them
ends the run; the log tells how far it had come.
-/

namespace ComponentDocs

/-- A stage. -/
inductive Stage where
  | methods
  | description
  | props
  | displayName
  | visibleName
  deriving DecidableEq, Repr

namespace Stage

/-- The stages in the order of a run. -/
def all : List Stage := [.methods, .description, .props, .displayName, .visibleName]

def name : Stage → String
  | .methods => "methods"
  | .description => "description"
  | .props => "props"
  | .displayName => "display_name"
  | .visibleName => "visible_name"

def run (ctx : Context) : Stage → Record → Logged Record
  | .methods => normalizeMethods ctx
  | .description => normalizeDescription ctx
  | .props => normalizeProperties ctx
  | .displayName => fillDisplayName ctx
  | .visibleName => promoteVisibleName ctx

end Stage

/-- Run stages one after another, each with an event. -/
def runStages (ctx : Context) (r : Record) : List Stage → Logged Record
  | [] => pure r
  | stage :: rest => do
    Logged.event (.stageStarted stage.name ctx.source)
    let r ← stage.run ctx r
    runStages ctx r rest

/-- The normal form of a record. -/
def normalize (ctx : Context) (r : Record) : Logged Record :=
  runStages ctx r Stage.all

end ComponentDocs
