import ComponentDocs.CommandLine.Arguments
import ComponentDocs.Example.Load
import ComponentDocs.Json.Printer
import ComponentDocs.Normal.Stage
import ComponentDocs.Record.Reader
import ComponentDocs.Record.Writer

/-!
# A run of the command

The command reads one record as JSON, normalizes it, and writes the normal form as JSON. A run is a
function of its arguments, its input, the environment, the files and what it runs on; it ends with a
status and two texts, or it breaks down on input that it does not provide for.
-/

namespace ComponentDocs.CommandLine

/-- What a run is given by the system it runs on. -/
structure Host where
  /-- The lexers that code is set as HTML with. -/
  lexers : Lexers
  /-- How many arrays and objects may stand inside one another in the record. -/
  recordRoom : Nat
  /-- How many arrays and objects may stand inside one another in the modifiers of an example. -/
  modifierRoom : Nat
  /-- What the clock shows at an event of the log, by its place in the log. -/
  clock : Nat → String
  /-- What is said about an issue of a document behind its kind: the value that was found. -/
  note : Json → Issue → String

structure Input where
  arguments : List String
  stdin : String
  env : String → Option String
  files : FileSystem
  host : Host

/-- How a run ends: its status and what it wrote. -/
structure Output where
  status : Nat
  stdout : String
  stderr : String
  deriving DecidableEq, Repr

inductive Breakdown where
  /-- The record file is no UTF-8 text. -/
  | encoding (fault : Text.Utf8.Fault)
  /-- The path of the record file holds a null character. -/
  | nullCharacter
  /-- The record or the modifiers of an example are refused whatever their form is. -/
  | refused (refusal : Json.Refusal)
  /-- The settings have no synonyms for what they are asked for. -/
  | noSynonyms (group : String)
  /-- Two dashes stand for the indentation. -/
  | noIndent
  /-- The indentation does not fit into sixty-four bits. -/
  | hugeIndent
  deriving DecidableEq, Repr

def Breakdown.message : Breakdown → String
  | .encoding fault => fault.message
  | .nullCharacter => nullCharacterMessage
  | .refused refusal => refusal.message
  | .noSynonyms group => Text.quotedString group
  | .noIndent => "can't multiply sequence by non-int of type 'list'"
  | .hugeIndent => "cannot fit 'int' into an index-sized integer"

/-- How the command is used, in one line. -/
def usage : String :=
  "usage: docnorm [-h] [--source SOURCE] [--indent INDENT] [-v] record\n"

def help : String :=
  usage ++ "
Merge doc-comment tags into a component documentation record.

positional arguments:
  record           Record JSON file, or - for stdin

options:
  -h, --help       show this help message and exit
  --source SOURCE  Path of the component source file
  --indent INDENT  JSON indentation
  -v, --verbose    Debug logging
"

/-- The name of the record that stands for the input. -/
def stdinName : String := "-"

/-- Why a record is not processed. Each of these is reported. -/
inductive Failure where
  | file (fault : FileFault)
  | json (cause : Json.Cause) (position : Json.Position)
  | invalid (document : Json) (issues : List Issue)
  | tag (e : TagError)

/-- What is wrong with the record that is called `name`. -/
def Failure.text (note : Json → Issue → String) (name : String) : Failure → String
  | .file fault => "Cannot read " ++ name ++ ": " ++ fault.message (Path.ofString name)
  | .json cause position =>
    "Cannot read " ++ name ++ ": " ++ (Json.ReadError.malformed cause position).message
  | .invalid document issues =>
    "Invalid record in " ++ name ++ ":\n" ++ issuesText (note document) issues
  | .tag e => e.message

/-- The report of a failure, behind a cross. -/
def Failure.report (note : Json → Issue → String) (name : String) (failure : Failure) : String :=
  "✗ " ++ failure.text note name ++ "\n"

def recordText (input : Input) (name : String) :
    Except Breakdown (Except Failure (List Char)) :=
  if name = stdinName then .ok (.ok input.stdin.toList)
  else
    match input.files.readText (Path.ofString name) with
    | .ok text => .ok (.ok text)
    | .error .nullCharacter => .error .nullCharacter
    | .error (.encoding fault) => .error (.encoding fault)
    | .error (.file fault) => .ok (.error (.file fault))

def readRecord (room : Nat) (text : List Char) : Except Breakdown (Except Failure Record) :=
  match Json.readChars room text with
  | .error (.refused refusal) => .error (.refused refusal)
  | .error (.malformed cause position) => .ok (.error (.json cause position))
  | .ok j =>
    match Record.ofJson j with
    | .ok record => .ok (.ok record)
    | .error issues => .ok (.error (.invalid j issues))

def loadRecord (input : Input) (name : String) : Except Breakdown (Except Failure Record) := do
  match ← recordText input name with
  | .ok text => readRecord input.host.recordRoom text
  | .error failure => return .error failure

/-- The line of an event in the log, if the log is that full. -/
def logLine (verbose : Bool) (time : String) (e : Event) : String :=
  if verbose || e.level != .debug then
    time ++ " " ++ e.level.name ++ " " ++ e.logger ++ ": " ++ e.message ++ "\n"
  else ""

/-- The lines of a log. -/
def logText (input : Input) (options : Options) (log : List Event) : String :=
  String.join (log.zipIdx.map fun (e, n) => logLine options.verbose (input.host.clock n) e)

def knownSource : Option String → Option String
  | some "" => none
  | source => source

/-- The context that the options and the environment call for. -/
def contextOf (input : Input) (options : Options) : Context :=
  let settings := Settings.ofEnv input.env
  ⟨knownSource options.source, settings, referTo settings.playgroundLangs, input.files,
    input.host.lexers, input.host.modifierRoom⟩

/-- The spaces of a level. A negative indentation is none. -/
def indentWidth : Option Int → Except Breakdown Nat
  | none => .error .noIndent
  | some n => if -Int.pow 2 63 ≤ n ∧ n < Int.pow 2 63 then .ok n.toNat else .error .hugeIndent

/-- Normalize a record and write it. The indentation matters only when there is a normal form. -/
def writeNormal (input : Input) (options : Options) (record : Record) :
    Except Breakdown Output :=
  let normal := normalize (contextOf input options) record
  let log := logText input options normal.log
  match normal.result with
  | .ok record => do
    let width ← indentWidth options.indent
    return ⟨0, record.toJson.render width ++ "\n", log⟩
  | .error (.tag e) =>
    .ok ⟨1, "", log ++ (Failure.tag e).report input.host.note options.record⟩
  | .error (.refused refusal) => .error (.refused refusal)
  | .error (.noSynonyms group) => .error (.noSynonyms group)

def process (input : Input) (options : Options) : Except Breakdown Output := do
  match ← loadRecord input options.record with
  | .ok record => writeNormal input options record
  | .error failure => return ⟨1, "", failure.report input.host.note options.record⟩

def run (input : Input) : Except Breakdown Output :=
  match Request.ofArguments input.arguments with
  | .ok (.run options) => process input options
  | .ok .help => .ok ⟨0, help, ""⟩
  | .error fault => .ok ⟨2, "", usage ++ "docnorm: error: " ++ fault.message ++ "\n"⟩

end ComponentDocs.CommandLine
