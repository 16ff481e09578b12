import ComponentDocs.Fence.Basic

/-!
# Code as HTML

Blocks of code become HTML, everything around them stays as it is. The code of a language that a
lexer knows by name is set with that lexer. Any other code is set as plain text: line endings made
uniform, empty lines at both ends dropped, and the characters that mean something in HTML written as
entities.
-/

namespace ComponentDocs

def htmlChar (c : Char) : List Char :=
  match c with
  | '&' => "&amp;".toList
  | '<' => "&lt;".toList
  | '>' => "&gt;".toList
  | '"' => "&quot;".toList
  | '\'' => "&#39;".toList
  | c => [c]

def htmlText (s : List Char) : List Char := s.flatMap htmlChar

/-- A text without a byte order mark at its front. -/
def dropByteOrderMark : List Char → List Char
  | '\uFEFF' :: rest => rest
  | s => s

/-- Code as it is shown: without a byte order mark, with newlines for all line endings, and with
one newline at its end. -/
def shownCode (code : List Char) : List Char :=
  Text.trimNewlines (Text.normalizeNewlines (dropByteOrderMark code)) ++ ['\n']

/-- The opening tag of a block, with a class unless that is empty. -/
def openingTag (cssClass : List Char) : List Char :=
  if cssClass = [] then "<div>".toList
  else "<div class=\"".toList ++ cssClass ++ "\">".toList

/-- Code set as plain text, for a class. -/
def plainHtml (cssClass code : List Char) : List Char :=
  openingTag cssClass ++ "<pre><span></span>".toList ++ htmlText (shownCode code) ++
    "</pre></div>\n".toList

/-- What code becomes as HTML with one lexer, for a class. -/
abbrev Lexer : Type := (cssClass code : List Char) → List Char

/-- The lexers that are known by the name of a language. -/
structure Lexers where
  named? : (lang : List Char) → Option Lexer

/-- No language has a lexer: all code is plain text. -/
def Lexers.plain : Lexers := ⟨fun _ => none⟩

/-- The lexer for code in a language. Code without a language, or in one that no lexer is known by,
is plain text. -/
def Lexers.forLang (lexers : Lexers) (lang : List Char) : Lexer :=
  if lang = [] then plainHtml else (lexers.named? lang).getD plainHtml

/-- Code in a language as HTML, without newlines at the end. -/
def highlightChars (lexers : Lexers) (cssClass lang code : List Char) : List Char :=
  Text.dropEndWhile (· == '\n') (lexers.forLang lang cssClass code)

def highlightCode (lexers : Lexers) (cssClass lang code : String) : String :=
  String.ofList (highlightChars lexers cssClass.toList lang.toList code.toList)

/-- A piece of a text with its code as HTML. -/
def Piece.highlighted (lexers : Lexers) (cssClass : List Char) : Piece → List Char
  | .line text => text
  | .fence f => highlightChars lexers cssClass f.lang f.code

/-- A text with its blocks of code as HTML. -/
def highlightText (lexers : Lexers) (cssClass text : String) : String :=
  String.ofList
    (Text.unlines ((textPieces text.toList).map (Piece.highlighted lexers cssClass.toList)))

end ComponentDocs
