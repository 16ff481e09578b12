import ComponentDocs.Path

/-!
# Names made from paths

The display name of a component without one is made from the name of its source file: its words,
each with a capital first letter and small ones after it. Words are runs of ASCII letters and of
digits; a capital opens a word, and in a run of capitals the last one goes with the small letters
after it.
-/

namespace ComponentDocs

/-- Whether the first character of a text is a small letter. -/
def startsLower (s : List Char) : Bool := s.head?.any Char.isLower

/-- The words of a text, of which the characters before it belong to `word`, its last one given
first. -/
def nameWordsFrom (word : List Char) : List Char → List (List Char)
  | [] => finish word
  | c :: rest =>
    match word with
    | [] => if c.isAlphanum then nameWordsFrom [c] rest else nameWordsFrom [] rest
    | last :: _ =>
      if joins last c rest then nameWordsFrom (c :: word) rest
      else word.reverse :: (if c.isAlphanum then nameWordsFrom [c] rest else nameWordsFrom [] rest)
where
  /-- The word so far, unless it is empty. -/
  finish (word : List Char) : List (List Char) :=
    if word = [] then [] else [word.reverse]
  /-- Whether `c`, with `rest` after it, goes on with the word that ends in `last`. -/
  joins (last c : Char) (rest : List Char) : Bool :=
    (last.isDigit && c.isDigit) || (last.isAlpha && c.isLower) ||
      (last.isUpper && c.isUpper && !startsLower rest)

def nameWords (s : List Char) : List (List Char) := nameWordsFrom [] s

/-- A word with a capital first letter and small ones after it. -/
def capitalize : List Char → List Char
  | [] => []
  | c :: rest => c.toUpper :: rest.map Char.toLower

/-- The words of a text, capitalized and put together. -/
def pascalCase (s : List Char) : List Char :=
  (nameWords s).flatMap capitalize

/-- The name of files that are named after their directory. -/
def indexName : String := "index"

/-- The name that a path suggests: that of its last name without the ending, or of its directory
when that is the index name. -/
def Path.suggestedName (p : Path) : String :=
  if p.stem = indexName then p.parent.name else p.stem

/-- A file with the index name suggests the name of its directory. -/
theorem Path.suggestedName_index {root : PathRoot} {above : List String} (directory : String)
    {ending : List Char} (hending : ending ≠ []) (hdot : '.' ∉ ending) :
    suggestedName ⟨root, above ++ [directory] ++
      [String.ofList (indexName.toList ++ '.' :: ending)]⟩ = directory := by
  have hstem : indexName.toList ≠ [] := by decide
  rw [suggestedName, stem_concat hstem hending hdot, String.ofList_toList, if_pos rfl, parent, name,
    List.dropLast_concat, List.getLast?_concat, Option.getD_some]

/-- Any other file suggests its own name without the ending. -/
theorem Path.suggestedName_of_stem {root : PathRoot} {above : List String}
    {stem ending : List Char} (hstem : stem ≠ []) (hindex : String.ofList stem ≠ indexName)
    (hending : ending ≠ []) (hdot : '.' ∉ ending) :
    suggestedName ⟨root, above ++ [String.ofList (stem ++ '.' :: ending)]⟩ =
      String.ofList stem := by
  rw [suggestedName, stem_concat hstem hending hdot, if_neg hindex]

def displayNameOf (source : String) : String :=
  String.ofList (pascalCase (Path.ofString source).suggestedName.toList)

end ComponentDocs
