import ComponentDocs.Example.Header
import ComponentDocs.Fence.Basic
import ComponentDocs.Sections

/-!
# Chunks of an examples file

An examples file is cut into live code and the markdown around it. A block of code is live when its
language is one of the playground's and its header does not make it static; other blocks are
markdown like the lines around them.
-/

namespace ComponentDocs

inductive Chunk where
  | markdown (content : String)
  | code (lang content : String) (settings : Dict Json)

def FenceLines.reading (room : Nat) (f : FenceLines) : Header :=
  Header.readChars room f.info

/-- The block of a piece when it is live in a playground of the given languages. -/
def Piece.live? (room : Nat) (langs : List String) (p : Piece) : Option FenceLines :=
  match p.fence? with
  | some f =>
    if langs.contains (String.ofList f.lang) && !(f.reading room).settings.static then some f
    else none
  | none => none

def FenceLines.chunk (room : Nat) (f : FenceLines) : Chunk :=
  .code (String.ofList f.lang) (String.ofList f.code) (f.reading room).settings.changes

/-- The chunk of a run of pieces that are not live, unless they are blank. -/
def markdownChunk (run : List Piece) : List Chunk :=
  match Text.trim (Text.unlines (run.map Piece.text)) with
  | [] => []
  | content => [.markdown (String.ofList content)]

/-- The chunks of a text whose headers can all be read. -/
def chunksOf (room : Nat) (langs : List String) (text : List Char) : List Chunk :=
  let (head, found) := sections (Piece.live? room langs) (textPieces text)
  markdownChunk head ++ found.flatMap fun (f, run) => f.chunk room :: markdownChunk run

/-- Why the first header of a text is refused that is JSON refused whatever its form is. -/
def refusal? (room : Nat) (text : List Char) : Option Json.Refusal :=
  ((textPieces text).filterMap Piece.fence?).findSome? fun f => (f.reading room).refusal?

/-- Cut a text into chunks. A header that is refused stops it. -/
def chunkify (room : Nat) (langs : List String) (text : String) :
    Except Json.Refusal (List Chunk) :=
  match refusal? room text.toList with
  | some refusal => .error refusal
  | none => .ok (chunksOf room langs text.toList)

end ComponentDocs
