import ComponentDocs.Text.Integer
import ComponentDocs.Text.Quoted

/-!
# Command-line arguments

The command takes one record and a few options. An option may be written with any beginning of its
long name that fits no other one; its argument follows, or stands after an equals sign. Short
options may be put together. After two dashes nothing is an option, and neither are a lone dash and
negative numbers. Two dashes are never an argument of an option: after an equals sign they stand for
the lack of one.
-/

namespace ComponentDocs.CommandLine

inductive Flag where
  | help
  | source
  | indent
  | verbose
  deriving DecidableEq, Repr

namespace Flag

def takesArgument : Flag → Bool
  | .source | .indent => true
  | .help | .verbose => false

/-- How an option is called in a message. -/
def label : Flag → String
  | .help => "-h/--help"
  | .source => "--source"
  | .indent => "--indent"
  | .verbose => "-v/--verbose"

def spellings : List (String × Flag) :=
  [("-h", .help), ("--help", .help), ("--source", .source), ("--indent", .indent),
    ("-v", .verbose), ("--verbose", .verbose)]

def ofSpelling? (s : String) : Option Flag := spellings.lookup s

end Flag

inductive UsageFault where
  | missingRecord
  | invalidIndent (text : String)
  | noArgument (flag : Flag)
  | unwantedArgument (flag : Flag) (text : String)
  | ambiguous (text : String) (spellings : List String)
  | unrecognized (arguments : List String)
  deriving DecidableEq, Repr

def UsageFault.message : UsageFault → String
  | .missingRecord => "the following arguments are required: record"
  | .invalidIndent text => "argument --indent: invalid int value: " ++ Text.quotedString text
  | .noArgument flag => "argument " ++ flag.label ++ ": expected one argument"
  | .unwantedArgument flag text =>
    "argument " ++ flag.label ++ ": ignored explicit argument " ++ Text.quotedString text
  | .ambiguous text spellings =>
    "ambiguous option: " ++ text ++ " could match " ++ ", ".intercalate spellings
  | .unrecognized arguments => "unrecognized arguments: " ++ " ".intercalate arguments

/-- What an argument is before its neighbours are looked at. -/
inductive Token where
  | argument (text : String)
  /-- The first pair of dashes. -/
  | separator
  /-- An option with the text attached to it: after an equals sign, or right after a short one. -/
  | option (flag : Flag) (short : Bool) (attached : Option (List Char))
  /-- Something that looks like an option. -/
  | unknown (text : String)
  deriving DecidableEq, Repr

/-! ## Single arguments -/

/-- A text without a newline at its end. -/
def dropLastNewline (s : List Char) : List Char :=
  match s.reverse with
  | '\n' :: rest => rest.reverse
  | _ => s

/-- Whether a text is a negative number: a dash and digits, perhaps with a point among them or
before them, but not after them. -/
def isNegativeNumber (s : List Char) : Bool :=
  match dropLastNewline s with
  | '-' :: rest =>
    match rest.dropWhile Text.isDigit with
    | [] => rest != []
    | '.' :: after => after != [] && after.all Text.isDigit
    | _ => false
  | _ => false

/-- The part of a text before its first equals sign, and the part after it, if there is one. -/
def splitAssignment (s : List Char) : List Char × Option (List Char) :=
  match s.dropWhile (· != '=') with
  | _ :: after => (s.takeWhile (· != '='), some after)
  | [] => (s, none)

/-- An argument that starts with a dash and is no spelling of an option, alone or before an equals
sign. -/
def abbreviated (text : String) : Except UsageFault Token :=
  let chars := text.toList
  match chars with
  | '-' :: '-' :: _ =>
    let (start, attached) := splitAssignment chars
    match Flag.spellings.filter fun (spelling, _) => start.isPrefixOf spelling.toList with
    | [(_, flag)] => .ok (.option flag false attached)
    | [] => .ok (unmatched text)
    | found => .error (.ambiguous text (found.map Prod.fst))
  | dash :: c :: rest =>
    match Flag.ofSpelling? (String.ofList [dash, c]) with
    | some flag => .ok (.option flag true (some rest))
    | none => .ok (unmatched text)
  | _ => .ok (unmatched text)
where
  /-- An argument that fits no option. -/
  unmatched (text : String) : Token :=
    if isNegativeNumber text.toList || text.toList.contains ' ' then .argument text
    else .unknown text

def classify (text : String) : Except UsageFault Token :=
  match text.toList with
  | '-' :: c :: _ =>
    match Flag.ofSpelling? text with
    | some flag => .ok (.option flag (c != '-') none)
    | none =>
      let (start, attached) := splitAssignment text.toList
      match attached, Flag.ofSpelling? (String.ofList start) with
      | some value, some flag => .ok (.option flag (c != '-') (some value))
      | _, _ => abbreviated text
  | _ => .ok (.argument text)

/-- What all arguments are; those after two dashes are arguments. -/
def classifyAll : List String → Except UsageFault (List Token)
  | [] => .ok []
  | text :: rest =>
    if text = "--" then .ok (.separator :: rest.map .argument)
    else do
      let token ← classify text
      let others ← classifyAll rest
      return token :: others

/-! ## Requests -/

/-- What a run is asked to do. There is no indentation when two dashes stand for it. -/
structure Options where
  record : String
  source : Option String
  indent : Option Int
  verbose : Bool
  deriving DecidableEq, Repr

inductive Request where
  | run (options : Options)
  | help
  deriving DecidableEq, Repr

/-- What has been read from the arguments so far. -/
structure Progress where
  record : Option String
  source : Option String
  indent : Option Int
  verbose : Bool
  unrecognized : List String

def Progress.start : Progress := ⟨none, none, some 2, false, []⟩

def Progress.take (p : Progress) (text : String) : Progress :=
  { p with record := some text }

def Progress.speak (p : Progress) : Progress :=
  { p with verbose := true }

/-- Put an argument aside that has no place. -/
def Progress.reject (p : Progress) (text : String) : Progress :=
  { p with unrecognized := p.unrecognized ++ [text] }

/-- The request, when all arguments have been read. -/
def Progress.finish (p : Progress) : Except UsageFault Request :=
  match p.record with
  | none => .error .missingRecord
  | some record =>
    if p.unrecognized = [] then .ok (.run ⟨record, p.source, p.indent, p.verbose⟩)
    else .error (.unrecognized p.unrecognized)

def given? (text : String) : Option String :=
  if text = "--" then none else some text

def Progress.assign (p : Progress) (flag : Flag) (text : String) : Except UsageFault Progress :=
  match flag, given? text with
  | .indent, none => .ok { p with indent := none }
  | .indent, some text =>
    match Text.integer? text.toList with
    | some n => .ok { p with indent := some n }
    | none => .error (.invalidIndent text)
  | _, source => .ok { p with source := source }

/-- A short option without an argument and those that are put together with it. Where a letter is
no option, the text from there on is an argument that the option before it does not take. -/
def joinedFlags (flag : Flag) : List Char → Except UsageFault (List Flag)
  | [] => .ok [flag]
  | c :: rest =>
    match Flag.ofSpelling? (String.ofList ['-', c]) with
    | some next => do
      let flags ← joinedFlags next rest
      return flag :: flags
    | none => .error (.unwantedArgument flag (String.ofList (c :: rest)))

/-- The options without an argument that a token stands for. Only a short one may have text attached
to it. -/
def switches (flag : Flag) (short : Bool) : Option (List Char) → Except UsageFault (List Flag)
  | none => .ok [flag]
  | some text =>
    if short && text != [] then joinedFlags flag text
    else .error (.unwantedArgument flag (String.ofList text))

/-- Take options without an argument. Help ends the reading. -/
def Progress.switch (p : Progress) (flag : Flag) (short : Bool) (attached : Option (List Char)) :
    Except UsageFault (Option Progress) := do
  let flags ← switches flag short attached
  return if flags.contains .help then none else some p.speak

inductive Expectation where
  | nothing
  /-- The argument of an option. -/
  | argumentOf (flag : Flag)
  /-- Perhaps two dashes, which belong to the record before them. -/
  | afterRecord
  deriving DecidableEq, Repr

/-- Read tokens from left to right. The first argument that no option takes is the record. Two
dashes right before the record or right after it belong to it. -/
def Progress.read (p : Progress) (expecting : Expectation) :
    List Token → Except UsageFault Request
  | [] =>
    match expecting with
    | .argumentOf flag => .error (.noArgument flag)
    | _ => p.finish
  | token :: rest =>
    match expecting, token with
    | .argumentOf flag, .argument text => do
      let p ← p.assign flag text
      p.read .nothing rest
    | .argumentOf flag, _ => .error (.noArgument flag)
    | _, .argument text =>
      if p.record.isNone then (p.take text).read .afterRecord rest
      else (p.reject text).read .nothing rest
    | .afterRecord, .separator => p.read .nothing rest
    | .nothing, .separator =>
      if p.record.isNone then p.read .nothing rest else (p.reject "--").read .nothing rest
    | _, .unknown text => (p.reject text).read .nothing rest
    | _, .option flag short attached =>
      if flag.takesArgument then
        match attached with
        | some text => do
          let p ← p.assign flag (String.ofList text)
          p.read .nothing rest
        | none => p.read (.argumentOf flag) rest
      else do
        match ← p.switch flag short attached with
        | some p => p.read .nothing rest
        | none => return .help

def Request.ofArguments (arguments : List String) : Except UsageFault Request := do
  let tokens ← classifyAll arguments
  Progress.start.read .nothing tokens

end ComponentDocs.CommandLine
