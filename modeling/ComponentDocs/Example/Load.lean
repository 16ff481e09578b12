import ComponentDocs.Example.Specifier
import ComponentDocs.FileSystem
import ComponentDocs.Log
import ComponentDocs.Record.Basic
import ComponentDocs.Settings
import ComponentDocs.Text.Utf8

/-!
# Loading examples files

The file of a reference is found through its specifier, read as UTF-8 text with uniform line
endings, and cut into chunks.
-/

namespace ComponentDocs

inductive ReadFault where
  /-- The path holds a null character. -/
  | nullCharacter
  | file (fault : FileFault)
  | encoding (fault : Text.Utf8.Fault)
  deriving DecidableEq, Repr

def FileSystem.readText (fs : FileSystem) (path : Path) : Except ReadFault (List Char) :=
  if hasNull path then .error .nullCharacter
  else
    match fs.read path with
    | .error fault => .error (.file fault)
    | .ok bytes =>
      match Text.Utf8.decode bytes with
      | .error fault => .error (.encoding fault)
      | .ok text => .ok (Text.normalizeNewlines text)

inductive LoadFault where
  /-- The text of the reference is no specifier. -/
  | notSpecifier (text : String)
  /-- The file at a path, as the specifier has it, cannot be read. -/
  | unreadable (path : String) (fault : FileFault)
  /-- The path holds a null character. -/
  | nullCharacter
  | encoding (fault : Text.Utf8.Fault)
  | refused (refusal : Json.Refusal)
  deriving DecidableEq, Repr

/-- The wording for a path with a null character. -/
def nullCharacterMessage : String := "embedded null byte"

def LoadFault.message : LoadFault → String
  | .notSpecifier text => Specifier.refusal text
  | .unreadable path fault =>
    "Failed to read " ++ path ++ ": " ++ fault.message (Path.ofString path)
  | .nullCharacter => nullCharacterMessage
  | .encoding fault => fault.message
  | .refused refusal => refusal.message

namespace ModuleRef

def parts (m : ModuleRef) : Except LoadFault Specifier :=
  match Specifier.ofString? m.specifier with
  | some s => .ok s
  | none => .error (.notSpecifier m.specifier)

def path (m : ModuleRef) : Except LoadFault Path := do
  let s ← m.parts
  return Path.ofString s.path

def text (fs : FileSystem) (s : Specifier) : Except LoadFault (List Char) :=
  match fs.readText (Path.ofString s.path) with
  | .ok text => .ok text
  | .error .nullCharacter => .error .nullCharacter
  | .error (.file fault) => .error (.unreadable s.path fault)
  | .error (.encoding fault) => .error (.encoding fault)

/-- The chunks of the examples file, and the events of loading it. -/
def load (room : Nat) (fs : FileSystem) (m : ModuleRef) :
    Except LoadFault (List Chunk × List Event) := do
  let s ← m.parts
  let text ← text fs s
  match chunkify room m.langs (String.ofList text) with
  | .ok chunks => return (chunks, [.chunksLoaded chunks.length s.path])
  | .error refusal => throw (.refused refusal)

end ModuleRef

end ComponentDocs
