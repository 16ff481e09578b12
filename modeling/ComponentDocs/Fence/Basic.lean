import ComponentDocs.Fence.Mark
import ComponentDocs.Text.Lines

/-!
# Fenced blocks of code

A block opens at a line of three backticks and a header without backticks, and closes at the first
line below that is three backticks alone. A line that opens a block which never closes is running
text. `pieces` cuts a text into its blocks and the lines around them, and loses nothing:
`lines_pieces`.
-/

namespace ComponentDocs

/-- What follows three backticks at the front of a line, blanks apart. -/
def afterFenceMark? (line : List Char) : Option (List Char) :=
  match line.dropWhile Text.isIndent with
  | '\x60' :: '\x60' :: '\x60' :: rest => some rest
  | _ => none

/-- The header of a line that opens a block, as it is written. -/
def openingHeader? (line : List Char) : Option (List Char) :=
  match afterFenceMark? line with
  | some header => if header.contains '\x60' then none else some header
  | none => none

def closesFence (line : List Char) : Bool :=
  (afterFenceMark? line).any fun rest => rest.all Text.isIndent

/-- The lines of a block: the opening line with its header, the lines of code, and the closing
line. -/
structure FenceLines where
  opening : List Char
  header : List Char
  body : List (List Char)
  closing : List Char
  deriving DecidableEq, Repr

/-- A piece of a text: a line of its own, or a block. -/
inductive Piece where
  | line (text : List Char)
  | fence (f : FenceLines)
  deriving DecidableEq, Repr

/-- The lines up to the first one that closes a block, that line, and the lines after it. -/
def splitAtClosing : List (List Char) → Option (List (List Char) × List Char × List (List Char))
  | [] => none
  | line :: rest =>
    if closesFence line then some ([], line, rest)
    else (splitAtClosing rest).map fun (body, closing, after) => (line :: body, closing, after)

theorem eq_of_splitAtClosing {lines body after : List (List Char)} {closing : List Char}
    (h : splitAtClosing lines = some (body, closing, after)) :
    lines = body ++ closing :: after := by
  induction lines generalizing body with
  | nil => simp [splitAtClosing] at h
  | cons line rest ih =>
    unfold splitAtClosing at h
    split at h
    · simp_all
    · simp only [Option.map_eq_some_iff, Prod.exists, Prod.mk.injEq] at h
      obtain ⟨b, c, a, h, rfl, rfl, rfl⟩ := h
      simp [ih h]

/-- Cut lines into blocks and the lines around them. -/
def pieces (lines : List (List Char)) : List Piece :=
  match lines with
  | [] => []
  | line :: rest =>
    match openingHeader? line with
    | none => .line line :: pieces rest
    | some header =>
      match _h : splitAtClosing rest with
      | none => .line line :: pieces rest
      | some (body, closing, after) => .fence ⟨line, header, body, closing⟩ :: pieces after
termination_by lines.length
decreasing_by
  · simp
  · simp
  · have := congrArg List.length (eq_of_splitAtClosing _h)
    simp only [List.length_append, List.length_cons] at *
    omega

def Piece.lines : Piece → List (List Char)
  | .line text => [text]
  | .fence f => f.opening :: f.body ++ [f.closing]

/-- The pieces have all the lines, in order. -/
theorem lines_pieces (lines : List (List Char)) : (pieces lines).flatMap Piece.lines = lines := by
  fun_induction pieces lines with
  | case1 => rfl
  | case2 line rest _ ih => simp [Piece.lines, ih]
  | case3 line rest header _ _ ih => simp [Piece.lines, ih]
  | case4 line rest header _ body closing after h ih =>
    simp [Piece.lines, ih, eq_of_splitAtClosing h]

def textPieces (text : List Char) : List Piece :=
  pieces (Text.lines text)

/-- The text of a piece, without the newline after it. -/
def Piece.text (p : Piece) : List Char :=
  Text.unlines p.lines

/-- The block of a piece, if it is one. -/
def Piece.fence? : Piece → Option FenceLines
  | .line _ => none
  | .fence f => some f

namespace FenceLines

def info (f : FenceLines) : List Char := Text.trim f.header

/-- The language: the header up to its first space. -/
def lang (f : FenceLines) : List Char := f.info.takeWhile (· != ' ')

def code (f : FenceLines) : List Char :=
  Text.dropEndWhile (· == '\n') (Text.unlines f.body)

end FenceLines

/-- A block with its place in the text: the numbers of characters before its first and after its
last one. -/
structure Fence where
  lang : String
  header : String
  code : String
  start : Nat
  stop : Nat
  deriving DecidableEq, Repr

/-- The block of some lines at a place. -/
def FenceLines.located (f : FenceLines) (start stop : Nat) : Fence :=
  ⟨String.ofList f.lang, String.ofList f.info, String.ofList f.code, start, stop⟩

/-- The blocks among pieces of which the first one starts at `start`. -/
def fencesFrom (start : Nat) : List Piece → List Fence
  | [] => []
  | p :: rest =>
    let stop := start + p.text.length
    match p.fence? with
    | some f => f.located start stop :: fencesFrom (stop + 1) rest
    | none => fencesFrom (stop + 1) rest

def fences (text : String) : List Fence :=
  fencesFrom 0 (textPieces text.toList)

end ComponentDocs
