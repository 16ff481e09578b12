import ComponentDocs.Path
import ComponentDocs.Text.Quoted

/-!
# Files

A file system as a tree of directories and files, and how a path is followed in it: name by name,
each of them in a directory that exists. There are no links.
-/

namespace ComponentDocs

inductive Node where
  | file (content : List UInt8)
  | directory

/-- A file system with the directory at which relative paths start. Directories and files are named
from the root. -/
structure FileSystem where
  workingDir : List String
  node? : List String → Option Node

inductive FileFault where
  | notFound
  | notDirectory
  | isDirectory
  | nameTooLong
  deriving DecidableEq, Repr

namespace FileFault

def number : FileFault → Nat
  | .notFound => 2
  | .notDirectory => 20
  | .isDirectory => 21
  | .nameTooLong => 36

def text : FileFault → String
  | .notFound => "No such file or directory"
  | .notDirectory => "Not a directory"
  | .isDirectory => "Is a directory"
  | .nameTooLong => "File name too long"

/-- The wording of a fault with the path at which it arose. -/
def message (fault : FileFault) (path : Path) : String :=
  "[Errno " ++ toString fault.number ++ "] " ++ fault.text ++ ": " ++ Text.quotedString path.text

end FileFault

/-- The most bytes that a name may have. -/
def maxNameBytes : Nat := 255

/-- The number of bytes from which on a path is too long. -/
def maxPathBytes : Nat := 4096

namespace FileSystem

/-- No files; the working directory is the root. -/
def empty : FileSystem := ⟨[], fun path => if path = [] then some .directory else none⟩

/-- Follow names from a directory to what they stand for. -/
def walk (fs : FileSystem) (directory : List String) : List String → Except FileFault Node
  | [] =>
    match fs.node? directory with
    | some node => .ok node
    | none => .error .notFound
  | name :: rest =>
    match fs.node? directory with
    | none => .error .notFound
    | some (.file _) => .error .notDirectory
    | some .directory =>
      if name = ".." then fs.walk directory.dropLast rest
      else if maxNameBytes < name.utf8ByteSize then .error .nameTooLong
      else fs.walk (directory ++ [name]) rest

def find (fs : FileSystem) (path : Path) : Except FileFault Node :=
  if maxPathBytes ≤ path.text.utf8ByteSize then .error .nameTooLong
  else
    match path.root with
    | .relative => fs.walk fs.workingDir path.names
    | _ => fs.walk [] path.names

def hasNull (path : Path) : Bool :=
  path.text.toList.contains (Char.ofNat 0)

def isFile (fs : FileSystem) (path : Path) : Bool :=
  !hasNull path &&
    match fs.find path with
    | .ok (.file _) => true
    | _ => false

/-- The content of the file that a path stands for. -/
def read (fs : FileSystem) (path : Path) : Except FileFault (List UInt8) :=
  match fs.find path with
  | .ok (.file content) => .ok content
  | .ok .directory => .error .isDirectory
  | .error fault => .error fault

end FileSystem

end ComponentDocs
