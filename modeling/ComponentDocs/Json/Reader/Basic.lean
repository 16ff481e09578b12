import ComponentDocs.Json.Basic

/-!
# Reading from the front of a text

What every step of reading JSON has in common: it takes something from the front of the text and
hands on a shorter rest, or it stops and says what was expected and how much of the text was left.
-/

namespace ComponentDocs.Json

/-- What is wrong at the place where reading stopped. -/
inductive Cause where
  | value
  | name
  | colon
  | comma
  | openString
  | controlCharacter
  | escape
  | unicodeEscape
  | extraData
  | byteOrderMark
  deriving DecidableEq, Repr

/-- What may stand inside itself in a document. -/
inductive Container where
  | array
  | object
  deriving DecidableEq, Repr

/-- Why a text is refused whatever its form is. -/
inductive Refusal where
  /-- An integer has more digits than are read. -/
  | longInteger (digits : Nat)
  /-- An array or an object stands inside as many others as there is room for. -/
  | tooDeep (container : Container)
  deriving DecidableEq, Repr

inductive Stop where
  /-- Something is wrong at the place that has `left` characters of the text after it. -/
  | fault (cause : Cause) (left : Nat)
  | refused (refusal : Refusal)
  deriving DecidableEq, Repr

/-- Something read from the front of `s`, and the rest, which is shorter. -/
abbrev Reading (α : Type) (s : List Char) : Type :=
  { p : α × List Char // p.2.length < s.length }

/-- The most digits that an integer may have. -/
def maxDigits : Nat := 4300

def isSpace (c : Char) : Bool :=
  c == ' ' || c == '\t' || c == '\n' || c == '\r'

def skip (s : List Char) : List Char :=
  s.dropWhile isSpace

theorem length_skip_le (s : List Char) : (skip s).length ≤ s.length :=
  (List.dropWhile_sublist _).length_le

/-- What follows `word` at the front of a text. -/
def afterWord? : (word s : List Char) → Option (List Char)
  | [], s => some s
  | _ :: _, [] => none
  | w :: word, c :: rest => if w = c then afterWord? word rest else none

theorem length_of_afterWord? {word s r : List Char} (h : afterWord? word s = some r) :
    s.length = word.length + r.length := by
  fun_induction afterWord? word s with
  | case1 s => simp_all
  | case2 => simp at h
  | case3 word rest w ih =>
    have := ih h
    simp only [List.length_cons]
    omega
  | case4 => simp at h

end ComponentDocs.Json
