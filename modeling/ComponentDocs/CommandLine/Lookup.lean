import ComponentDocs.CommandLine.Run

/-!
# The files that a run looks up

A run depends on few files: the record, and the files that its example tags may name. Their places,
with those of the directories on the way to them, are all that a run asks the file system for.
-/

namespace ComponentDocs.CommandLine

/-- The places that are passed in following names from a directory. -/
def passed (directory : List String) : List String → List (List String)
  | [] => [directory]
  | name :: rest =>
    directory :: passed (if name = ".." then directory.dropLast else directory ++ [name]) rest

/-- The places that are passed in following a path. -/
def places (workingDir : List String) (path : Path) : List (List String) :=
  match path.root with
  | .relative => passed workingDir path.names
  | _ => passed [] path.names

/-- The path of the record file, unless the record is read from the input. -/
def recordPath? (arguments : List String) : Option Path :=
  match Request.ofArguments arguments with
  | .ok (.run options) =>
    if options.record = stdinName then none else some (Path.ofString options.record)
  | _ => none

/-- The bodies of the example tags that a record has, or gets from its description. -/
def candidateBodies (r : Record) : List String :=
  let described :=
    match readTags false (r.description.getD "") with
    | .ok tags => (tags.tagged exampleTitle).map Tag.description
    | .error _ => []
  r.exampleBodies ++ described

/-- The paths that the example tags of a record may name. -/
def examplePaths (source : Option String) (r : Record) : List Path :=
  (candidateBodies r).map fun body =>
    exampleFilePath source (String.ofList (Text.trim body.toList))

/-- The paths that the record of a run may name, when its file is known. -/
def examplePathsOf (input : Input) : List Path :=
  match Request.ofArguments input.arguments with
  | .ok (.run options) =>
    match loadRecord input options.record with
    | .ok (.ok record) => examplePaths (knownSource options.source) record
    | _ => []
  | _ => []

/-- The paths of the files that a run may look up. -/
def lookedUpPaths (input : Input) : List Path :=
  (recordPath? input.arguments).toList ++ examplePathsOf input

end ComponentDocs.CommandLine
