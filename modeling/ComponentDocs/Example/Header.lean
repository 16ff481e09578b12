import ComponentDocs.Dict
import ComponentDocs.Json.LaxBool
import ComponentDocs.Json.Reader
import ComponentDocs.Text.Blank
import ComponentDocs.Text.Word

/-!
# Headers of examples

The header of a block of code is a language and modifiers. Modifiers are words, each of which sets
itself, or a JSON object. Modifiers that are neither leave the settings at their defaults and mark
the header as faulty.
-/

namespace ComponentDocs

/-- The settings of an example. Settings without a meaning here are kept. -/
structure ExampleSettings where
  render : Bool
  static : Bool
  showcode : Bool
  noeditor : Bool
  extra : Dict Json

namespace ExampleSettings

def default : ExampleSettings := ⟨false, false, false, false, Dict.empty⟩

instance : Inhabited ExampleSettings := ⟨default⟩

/-- The names of the settings that have a meaning. -/
def flagNames : List String := ["render", "static", "showcode", "noeditor"]

/-- The value of a flag, which is off when it is not there. -/
def flag (members : Dict Json) (name : String) : Except Json.BoolFault Bool :=
  match members.get? name with
  | some j => j.toBool
  | none => .ok false

/-- The settings of an object, if its flags mean yes or no. -/
def ofMembers (members : Dict Json) : Except Json.BoolFault ExampleSettings := do
  let render ← flag members "render"
  let static ← flag members "static"
  let showcode ← flag members "showcode"
  let noeditor ← flag members "noeditor"
  return ⟨render, static, showcode, noeditor, members.without flagNames⟩

def flags (s : ExampleSettings) : List (String × Bool) :=
  [("render", s.render), ("static", s.static), ("showcode", s.showcode), ("noeditor", s.noeditor)]

/-- All settings as the members of an object. -/
def members (s : ExampleSettings) : Dict Json :=
  Dict.merge (Dict.ofList (s.flags.map fun (name, b) => (name, .bool b))) s.extra

/-- The settings that differ from their defaults, as the members of an object. -/
def changes (s : ExampleSettings) : Dict Json :=
  Dict.merge
    (Dict.ofList ((s.flags.filter Prod.snd).map fun (name, b) => (name, .bool b))) s.extra

end ExampleSettings

inductive ModifierFault where
  /-- Neither words nor JSON. -/
  | malformed
  /-- JSON, but no object of settings. -/
  | invalid
  /-- JSON that is refused whatever its form is. -/
  | refused (refusal : Json.Refusal)
  deriving DecidableEq, Repr

structure Header where
  lang : Option String
  modifiers : String
  settings : ExampleSettings
  fault : Option ModifierFault

instance : Inhabited Header := ⟨⟨none, "", .default, none⟩⟩

/-- Whether modifiers are words with spaces between them. -/
def areWords (modifiers : List Char) : Bool :=
  modifiers.all fun c => c == ' ' || Text.isWord c

def wordMembers (modifiers : List Char) : Dict Json :=
  Dict.ofList ((Text.words modifiers).map fun word => (String.ofList word, .bool true))

/-- The settings that an object of modifiers spells. -/
def readSettings (members : Dict Json) : Except ModifierFault ExampleSettings :=
  match ExampleSettings.ofMembers members with
  | .ok settings => .ok settings
  | .error _ => .error .invalid

/-- The settings that modifiers spell, read with room for `room` arrays and objects inside one
another. -/
def readModifiers (room : Nat) (modifiers : List Char) : Except ModifierFault ExampleSettings :=
  if areWords modifiers then readSettings (wordMembers modifiers)
  else
    match Json.readChars room modifiers with
    | .ok (.obj members) => readSettings (Dict.ofList members)
    | .ok _ => .error .invalid
    | .error (.malformed ..) => .error .malformed
    | .error (.refused refusal) => .error (.refused refusal)

namespace Header

/-- Read a header: a language up to the first space, and modifiers after it. -/
def readChars (room : Nat) (header : List Char) : Header :=
  match Text.trim header with
  | [] => ⟨none, "", .default, none⟩
  | text =>
    let lang := String.ofList (text.takeWhile (· != ' '))
    match Text.trim ((text.dropWhile (· != ' ')).drop 1) with
    | [] => ⟨some lang, "", .default, none⟩
    | modifiers =>
      match readModifiers room modifiers with
      | .ok settings => ⟨some lang, String.ofList modifiers, settings, none⟩
      | .error fault => ⟨some lang, String.ofList modifiers, .default, some fault⟩

def read (room : Nat) (header : String) : Header :=
  readChars room header.toList

/-- Whether the header asks for the example to be rendered. -/
def renders (h : Header) : Bool :=
  h.fault.isNone && h.settings.render

/-- Why the modifiers are refused, if they are JSON that is refused whatever its form is. -/
def refusal? (h : Header) : Option Json.Refusal :=
  match h.fault with
  | some (.refused refusal) => some refusal
  | _ => none

def faultMessage (modifiers : String) (fault : ModifierFault) : String :=
  let kind :=
    match fault with
    | .invalid => "ValidationError"
    | _ => "JSONDecodeError"
  "Cannot parse modifiers for \"" ++ modifiers ++
    "\". Use space-separated strings or JSON: " ++ kind

/-- What is wrong with the header, in words. -/
def error? (h : Header) : Option String :=
  h.fault.map (faultMessage h.modifiers)

end Header

end ComponentDocs
