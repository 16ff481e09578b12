import ComponentDocs.Dict
import ComponentDocs.Text.Blank

/-!
# Settings

What can be set for a run: which tags mean the same, how examples are loaded, and which doclets hide
a property or label a component. Some of it is taken from the environment.
-/

namespace ComponentDocs

structure Settings where
  /-- The titles of tags that are treated as one, by what they document. -/
  tagSynonyms : Dict (List String)
  /-- The loader of examples files. -/
  examplesLoader : String
  /-- The languages of live code. -/
  playgroundLangs : List String
  /-- The class of highlighted code. -/
  highlightCssClass : String
  /-- The doclets that hide a property. -/
  hiddenDoclets : List String
  /-- The doclet whose text becomes the visible name. -/
  labelDoclet : String
  deriving DecidableEq

namespace Settings

def paramsGroup : String := "params"

def returnsGroup : String := "returns"

def defaultSynonyms : Dict (List String) :=
  Dict.ofList [(paramsGroup, ["param", "arg", "argument"]), (returnsGroup, ["return", "returns"])]

def defaultLoader : String := "docnorm.examples_loader"

/-- The languages of live code when nothing is set. -/
def defaultLangs : List String := ["javascript", "js", "jsx", "ts", "tsx"]

def default : Settings where
  tagSynonyms := defaultSynonyms
  examplesLoader := defaultLoader
  playgroundLangs := defaultLangs
  highlightCssClass := "highlight"
  hiddenDoclets := ["ignore", "hidden"]
  labelDoclet := "visibleName"

instance : Inhabited Settings := ⟨default⟩

/-- All titles that are treated as one with others, group after group. -/
def allSynonyms (s : Settings) : List String :=
  s.tagSynonyms.values.flatten

/-- Cut a text at each comma. -/
def splitCommas : List Char → List (List Char)
  | [] => [[]]
  | c :: rest =>
    if c = ',' then
      [] :: splitCommas rest
    else
      match splitCommas rest with
      | [] => [[c]]
      | item :: others => (c :: item) :: others

/-- The trimmed items between commas, without the empty ones. -/
def splitList (text : String) : List String :=
  (((splitCommas text.toList).map Text.trim).filter (· != [])).map String.ofList

/-- The variable that sets the loader of examples files. -/
def loaderVariable : String := "DOCNORM_EXAMPLES_LOADER"

/-- The variable that sets the languages of live code, between commas. -/
def langsVariable : String := "DOCNORM_PLAYGROUND_LANGS"

/-- The variable that sets the class of highlighted code. -/
def cssClassVariable : String := "DOCNORM_HIGHLIGHT_CSS_CLASS"

/-- The variable that sets the doclets that hide a property, between commas. -/
def hiddenVariable : String := "DOCNORM_HIDDEN_DOCLETS"

/-- The variable that sets the doclet whose text becomes the visible name. -/
def labelVariable : String := "DOCNORM_LABEL_DOCLET"

/-- All variables of the environment that are read. -/
def envKeys : List String :=
  [loaderVariable, langsVariable, cssClassVariable, hiddenVariable, labelVariable]

/-- A setting from the environment. An empty variable sets nothing. -/
def override {α : Type} (env : String → Option String) (key : String) (read : String → α)
    (absent : α) : α :=
  match env key with
  | some value => if value = "" then absent else read value
  | none => absent

def ofEnv (env : String → Option String) : Settings where
  tagSynonyms := default.tagSynonyms
  examplesLoader := override env loaderVariable id default.examplesLoader
  playgroundLangs := override env langsVariable splitList default.playgroundLangs
  highlightCssClass := override env cssClassVariable id default.highlightCssClass
  hiddenDoclets := override env hiddenVariable splitList default.hiddenDoclets
  labelDoclet := override env labelVariable id default.labelDoclet

end Settings

end ComponentDocs
