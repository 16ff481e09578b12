import ComponentDocs.Example.Inline
import ComponentDocs.Example.Specifier
import ComponentDocs.Log
import ComponentDocs.Normal.Context

/-!
# Resolving examples

Each example tag of a record is judged on its own: the path of an existing file, inline code that
asks to be rendered, or nothing that can be shown. Files and inline code are accepted, the rest is
reported. Once an example is accepted the record no longer asks for one.
-/

namespace ComponentDocs

/-- The file that a reference names, seen from the directory of the source file. -/
def exampleFilePath (source : Option String) (reference : String) : Path :=
  let base :=
    match source with
    | none | some "" => Path.ofString "."
    | some source => (Path.ofString source).parent
  base.join (Path.ofString reference)

/-- What the body of an example tag is. -/
inductive ExampleVerdict where
  | blank
  /-- An existing file, by its absolute path. -/
  | file (path : Path)
  /-- Inline code that asks to be rendered. -/
  | rendered
  /-- Inline code that does not. -/
  | unrendered
  /-- Neither a file nor inline code. -/
  | missing (reference : String)
  /-- Inline code whose header is refused whatever its form is. -/
  | refused (refusal : Json.Refusal)
  deriving DecidableEq, Repr

/-- Whether a text has three backticks in a row. -/
def hasFence : List Char → Bool
  | [] => false
  | c :: rest => fenceMark.isPrefixOf (c :: rest) || hasFence rest

def judgeInline (room : Nat) (body : List Char) : ExampleVerdict :=
  let header := Header.readChars room (InlineExample.ofChars body).header
  match header.refusal? with
  | some refusal => .refused refusal
  | none => if header.renders then .rendered else .unrendered

def judgeExample (room : Nat) (files : FileSystem) (source : Option String) (body : String) :
    ExampleVerdict :=
  match Text.trim body.toList with
  | [] => .blank
  | reference =>
    let path := exampleFilePath source (String.ofList reference)
    if files.isFile path then .file (path.resolve files.workingDir)
    else if hasFence reference then judgeInline room reference
    else .missing (String.ofList reference)

/-- The record without the wish for an example. -/
def Record.exampleAccepted (r : Record) : Record :=
  { r with doclets := r.doclets.without [Doclets.exampleName] }

/-- Take the body of one example tag into a record. A file takes the place of an earlier one, inline
code goes after earlier code. -/
def takeExample (ctx : Context) (r : Record) (body : String) : Logged Record :=
  match judgeExample ctx.room ctx.files ctx.source body with
  | .blank => pure r
  | .file path =>
    let specifier : Specifier := ⟨ctx.settings.examplesLoader, path.text⟩
    ⟨[.exampleFileResolved path ctx.source],
      .ok { r.exampleAccepted with external := ctx.loadExample specifier.text }⟩
  | .rendered => pure { r.exampleAccepted with examples := r.examples ++ [body] }
  | .unrendered => ⟨[.renderMissing ctx.source], .ok r⟩
  | .missing reference => ⟨[.exampleNotFound reference ctx.source], .ok r⟩
  | .refused refusal => .fail (.refused refusal)

/-- Take the bodies of example tags into a record, one after another. -/
def takeExamples (ctx : Context) (r : Record) : List String → Logged Record
  | [] => pure r
  | body :: rest => do
    let r ← takeExample ctx r body
    takeExamples ctx r rest

/-- The bodies of the example tags of a record. -/
def Record.exampleBodies (r : Record) : List String :=
  (r.tags.tagged exampleTitle).map Tag.description

/-- Whether a record asks for examples and has tags that may hold them. -/
def Record.hasExamples (r : Record) : Bool :=
  r.doclets.wantsExample && !r.exampleBodies.isEmpty

/-- Resolve the example tags of a record that asks for examples. -/
def resolveExamples (ctx : Context) (r : Record) : Logged Record :=
  if r.hasExamples then takeExamples ctx r r.exampleBodies else pure r

end ComponentDocs
