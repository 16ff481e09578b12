import ComponentDocs.Dict
import ComponentDocs.Json.Reader.Quote
import ComponentDocs.Json.Reader.Scalar

/-!
# Reading JSON

A reader for documents with four liberties: `NaN`, `Infinity` and `-Infinity` are numbers, and a
repeated member name keeps its first place and its last value. A fault says what was expected and
where. Every step hands on a shorter rest of the text, which is why reading ends. Arrays and objects
stand inside one another only as deep as the reader has room for.
-/

namespace ComponentDocs.Json

/-! ## Values -/

/-- The separator after an item or a member: whether another one follows, and the text after the
separator and white space. -/
def separator (closing : Char) (s : List Char) : Except Stop (Reading Bool s) :=
  match h : skip s with
  | [] => .error (.fault .comma 0)
  | c :: rest =>
    have hs : rest.length < s.length := by
      have := length_skip_le s
      rw [h, List.length_cons] at this
      omega
    if c = closing then .ok ⟨(false, rest), hs⟩
    else if c = ',' then
      .ok ⟨(true, skip rest), Nat.lt_of_le_of_lt (length_skip_le rest) hs⟩
    else .error (.fault .comma (rest.length + 1))

/-- The colon after a member name, and white space on both sides of it. -/
def colon (s : List Char) : Except Stop (Reading Unit s) :=
  match h : skip s with
  | ':' :: rest =>
    .ok ⟨((), skip rest), by
      have h1 := length_skip_le s
      have h2 := length_skip_le rest
      rw [h] at h1
      simp only [List.length_cons] at h1
      simp only
      omega⟩
  | r => .error (.fault .colon r.length)

mutual

/-- A value at the front of the text. Arrays and objects are at most `room` deep. -/
def value (room : Nat) (s : List Char) : Except Stop (Reading Json s) :=
  match room, s with
  | _, '"' :: rest => do
    let ⟨(t, r), h⟩ ← string rest
    return ⟨(.str t, r), by
      simp only [List.length_cons] at *
      omega⟩
  | 0, '[' :: _ => .error (.refused (.tooDeep .array))
  | room + 1, '[' :: rest =>
    match hs : skip rest with
    | ']' :: r => .ok ⟨(.arr [], r), by
        have := length_skip_le rest
        rw [hs] at this
        simp only [List.length_cons] at *
        omega⟩
    | start => do
      let ⟨(found, r), h⟩ ← items room start
      return ⟨(.arr found, r), by
        have := length_skip_le rest
        rw [hs] at this
        simp only [List.length_cons] at *
        omega⟩
  | 0, '\x7b' :: _ => .error (.refused (.tooDeep .object))
  | room + 1, '\x7b' :: rest =>
    match hs : skip rest with
    | '\x7d' :: r => .ok ⟨(.obj [], r), by
        have := length_skip_le rest
        rw [hs] at this
        simp only [List.length_cons] at *
        omega⟩
    | start => do
      let ⟨(found, r), h⟩ ← members room start
      return ⟨(.obj (Dict.ofList found).entries, r), by
        have := length_skip_le rest
        rw [hs] at this
        simp only [List.length_cons] at *
        omega⟩
  | _, s => scalar s
termination_by (s.length, 0)
decreasing_by
  all_goals
    have := length_skip_le rest
    rw [hs] at this
    simp only [List.length_cons] at *
    apply Prod.Lex.left
    omega

/-- The items of an array that is not empty, up to its closing bracket. -/
def items (room : Nat) (s : List Char) : Except Stop (Reading (List Json) s) := do
  let ⟨(item, r), h⟩ ← value room s
  let ⟨(more, r'), h'⟩ ← separator ']' r
  if more then
    let ⟨(rest, r''), h''⟩ ← items room r'
    return ⟨(item :: rest, r''), by
      simp only at *
      omega⟩
  else
    return ⟨([item], r'), by
      simp only at *
      omega⟩
termination_by (s.length, 1)
decreasing_by
  · exact Prod.Lex.right _ (by omega)
  · exact Prod.Lex.left _ _ (by simp only at *; omega)

/-- The members of an object that is not empty, up to its closing brace. -/
def members (room : Nat) (s : List Char) : Except Stop (Reading (List (String × Json)) s) :=
  match s with
  | '"' :: rest => do
    let ⟨(key, r), h⟩ ← string rest
    let ⟨(_, r1), h1⟩ ← colon r
    let ⟨(item, r2), h2⟩ ← value room r1
    let ⟨(more, r3), h3⟩ ← separator '\x7d' r2
    if more then
      let ⟨(others, r4), h4⟩ ← members room r3
      return ⟨((key, item) :: others, r4), by
        simp only [List.length_cons] at *
        omega⟩
    else
      return ⟨([(key, item)], r3), by
        simp only [List.length_cons] at *
        omega⟩
  | s => .error (.fault .name s.length)
termination_by (s.length, 1)
decreasing_by
  all_goals
    simp only [List.length_cons] at *
    apply Prod.Lex.left
    omega

end

/-! ## Documents -/

/-- A place in a text: characters before it, its line and its column, counted from one. -/
structure Position where
  offset : Nat
  line : Nat
  column : Nat
  deriving DecidableEq, Repr

/-- The place after the first `offset` characters of a text. -/
def Position.of (text : List Char) (offset : Nat) : Position :=
  let before := text.take offset
  ⟨offset, before.count '\n' + 1, (before.reverse.takeWhile (· ≠ '\n')).length + 1⟩

/-- Why a text is not read as a document. -/
inductive ReadError where
  | malformed (cause : Cause) (position : Position)
  | refused (refusal : Refusal)
  deriving DecidableEq, Repr

/-- A stop in the reading of a text, with its place. -/
def Stop.error (text : List Char) : Stop → ReadError
  | .fault cause left => .malformed cause (.of text (text.length - left))
  | .refused refusal => .refused refusal

/-- The document that a text spells, with room for `room` arrays and objects inside one another. A
byte order mark is refused. -/
def readChars (room : Nat) (text : List Char) : Except ReadError Json :=
  match text with
  | '\uFEFF' :: _ => .error (Stop.error text (.fault .byteOrderMark text.length))
  | _ =>
    match value room (skip text) with
    | .error stop => .error (stop.error text)
    | .ok ⟨(j, r), _⟩ =>
      match skip r with
      | [] => .ok j
      | rest => .error (Stop.error text (.fault .extraData rest.length))

def read (room : Nat) (text : String) : Except ReadError Json :=
  readChars room text.toList

def Cause.message : Cause → String
  | .value => "Expecting value"
  | .name => "Expecting property name enclosed in double quotes"
  | .colon => "Expecting ':' delimiter"
  | .comma => "Expecting ',' delimiter"
  | .openString => "Unterminated string starting at"
  | .controlCharacter => "Invalid control character at"
  | .escape => "Invalid \\escape"
  | .unicodeEscape => "Invalid \\uXXXX escape"
  | .extraData => "Extra data"
  | .byteOrderMark => "Unexpected UTF-8 BOM (decode using utf-8-sig)"

/-- The wording of the refusal of a long integer. -/
def longIntegerMessage (digits : Nat) : String :=
  "Exceeds the limit (" ++ toString maxDigits ++
    " digits) for integer string conversion: value has " ++ toString digits ++
    " digits; use sys.set_int_max_str_digits() to increase the limit"

def Container.name : Container → String
  | .array => "array"
  | .object => "object"

def Refusal.message : Refusal → String
  | .longInteger digits => longIntegerMessage digits
  | .tooDeep container =>
    "maximum recursion depth exceeded while decoding a JSON " ++ container.name ++
      " from a unicode string"

/-- The wording of a fault: the cause and its place. -/
def ReadError.message : ReadError → String
  | .malformed cause p =>
    cause.message ++ ": line " ++ toString p.line ++ " column " ++ toString p.column ++
      " (char " ++ toString p.offset ++ ")"
  | .refused refusal => refusal.message

end ComponentDocs.Json
