import ComponentDocs.Example.Chunk
import ComponentDocs.Path
import ComponentDocs.Tag.Basic

/-!
# Events and logged results

Work on a record leaves a log of events, in order, and ends in a result or a fault. The log is kept
also when the work fails: it tells what had happened before.
-/

namespace ComponentDocs

inductive LogLevel where
  | debug
  | warning
  deriving DecidableEq, Repr

def LogLevel.name : LogLevel → String
  | .debug => "DEBUG"
  | .warning => "WARNING"

/-- Something that is reported. Events about a component name its source file, if it is known. -/
inductive Event where
  /-- A stage begins. -/
  | stageStarted (stage : String) (source : Option String)
  /-- A property is left out because a doclet hides it. -/
  | hiddenPropertyDropped (name : String) (source : Option String)
  /-- An example was found as a file. -/
  | exampleFileResolved (file : Path) (source : Option String)
  /-- An inline example does not ask to be rendered. -/
  | renderMissing (source : Option String)
  /-- An example is neither a file nor inline. -/
  | exampleNotFound (reference : String) (source : Option String)
  /-- An examples file was cut into chunks. -/
  | chunksLoaded (count : Nat) (path : String)
  deriving DecidableEq, Repr

namespace Event

def level : Event → LogLevel
  | .renderMissing _ | .exampleNotFound .. => .warning
  | _ => .debug

/-- The part of the program that reports an event. -/
def logger : Event → String
  | .stageStarted .. | .hiddenPropertyDropped .. => "docnorm.pipeline"
  | .exampleFileResolved .. | .renderMissing _ | .exampleNotFound .. => "docnorm.examples"
  | .chunksLoaded .. => "docnorm.examples_loader"

def sourceText (source : Option String) : String := source.getD "None"

def message : Event → String
  | .stageStarted stage source => "Running stage " ++ stage ++ " for " ++ sourceText source
  | .hiddenPropertyDropped name source =>
    "Dropping hidden prop " ++ name ++ " in " ++ sourceText source
  | .exampleFileResolved file source =>
    "Resolved example file " ++ file.text ++ " for " ++ sourceText source
  | .renderMissing source =>
    "An inline example defined in " ++ sourceText source ++
      " is missing the required \x60render\x60 modifier."
  | .exampleNotFound reference source =>
    "An example file " ++ reference ++ " defined in " ++ sourceText source ++
      " component not found."
  | .chunksLoaded count path =>
    "Loaded " ++ toString count ++ " example chunks from " ++ path

end Event

inductive Fault where
  /-- A comment has a tag that cannot be read. -/
  | tag (e : TagError)
  /-- The settings have no synonyms for what they are asked for. -/
  | noSynonyms (group : String)
  /-- A header is refused whatever its form is. -/
  | refused (refusal : Json.Refusal)
  deriving DecidableEq, Repr

/-- A result or a fault, after the events of a log. -/
structure Logged (α : Type) where
  log : List Event
  result : Except Fault α

namespace Logged

variable {α β : Type}

def value (a : α) : Logged α := ⟨[], .ok a⟩

def fail (fault : Fault) : Logged α := ⟨[], .error fault⟩

def event (e : Event) : Logged Unit := ⟨[e], .ok ()⟩

def ofExcept (result : Except Fault α) : Logged α := ⟨[], result⟩

/-- The events of the first work, and then those of the second one, if there is a result to go on
with. -/
def andThen (x : Logged α) (f : α → Logged β) : Logged β :=
  match x.result with
  | .ok a => ⟨x.log ++ (f a).log, (f a).result⟩
  | .error fault => ⟨x.log, .error fault⟩

instance : Monad Logged where
  pure := value
  bind := andThen

@[simp] theorem pure_def (a : α) : (pure a : Logged α) = ⟨[], .ok a⟩ := rfl

@[simp] theorem bind_ok (log : List Event) (a : α) (f : α → Logged β) :
    (⟨log, .ok a⟩ : Logged α) >>= f = ⟨log ++ (f a).log, (f a).result⟩ := rfl

@[simp] theorem bind_error (log : List Event) (fault : Fault) (f : α → Logged β) :
    (⟨log, .error fault⟩ : Logged α) >>= f = ⟨log, .error fault⟩ := rfl

end Logged

/-- A tag that cannot be read, as a fault. -/
def Fault.ofTag {α : Type} : Except TagError α → Except Fault α
  | .ok a => .ok a
  | .error e => .error (.tag e)

end ComponentDocs
