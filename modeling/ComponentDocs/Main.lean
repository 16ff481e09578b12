import ComponentDocs.CommandLine.Lookup

/-!
# The command

The command as a program: it reads the files that its run looks up, runs, and writes what the run
has written.
-/

open ComponentDocs ComponentDocs.CommandLine

/-- What stands at a place of the file system. -/
def nodeAt (place : List String) : IO (Option Node) := do
  try
    let content ← IO.FS.readBinFile ("/" ++ "/".intercalate place)
    return some (.file content.toList)
  catch
    | .inappropriateType _ 21 _ => return some .directory
    | _ => return none

/-- The file system, as far as the given paths reach. -/
def lookUp (workingDir : List String) (paths : List Path) : IO FileSystem := do
  let found ← (paths.flatMap (places workingDir)).mapM fun place =>
    return (place, ← nodeAt place)
  return ⟨workingDir, fun place => (found.lookup place).join⟩

/-- The environment, as far as it is read. -/
def environment : IO (String → Option String) := do
  let found ← Settings.envKeys.mapM fun key => return (key, ← IO.getEnv key)
  return fun key => (found.lookup key).join

/-- The text of the input, when the record is read from it. -/
def inputText (arguments : List String) : IO String := do
  match Request.ofArguments arguments, recordPath? arguments with
  | .ok (.run _), none => (← IO.getStdin).readToEnd
  | _, _ => return ""

/-- The clock of the machine, in milliseconds, and no lexers besides that for plain text. -/
def host : IO Host := do
  let start ← IO.monoMsNow
  return ⟨.plain, 990, 990, fun _ => toString start, fun _ _ => "]"⟩

/-- Run the command: first the file of the record is looked up, and then those that it names. -/
def main (arguments : List String) : IO UInt32 := do
  let workingDir := (Path.ofString (← IO.currentDir).toString).names
  let files ← lookUp workingDir (recordPath? arguments).toList
  let input : Input := ⟨arguments, ← inputText arguments, ← environment, files, ← host⟩
  let files ← lookUp workingDir (lookedUpPaths input)
  match run { input with files := files } with
  | .ok output =>
    IO.eprint output.stderr
    IO.print output.stdout
    return output.status.toUInt32
  | .error breakdown =>
    IO.eprintln breakdown.message
    return 1
