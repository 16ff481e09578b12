/-!
# White space

Which characters count as white space, and trimming. White space is the Unicode white space
property without the two zero-width characters that look like it, and with the four information
separators.
-/

namespace ComponentDocs.Text

/-- White space: the ASCII blanks, the information separators and the Unicode spaces. -/
def isBlank (c : Char) : Bool :=
  let n := c.toNat
  (9 ≤ n && n ≤ 13) || (28 ≤ n && n ≤ 32) || n == 0x85 || n == 0xA0 || n == 0x1680 ||
    (0x2000 ≤ n && n ≤ 0x200A) || n == 0x2028 || n == 0x2029 || n == 0x202F || n == 0x205F ||
    n == 0x3000

/-- A space or a tab: what may indent a line that is marked in its first column. -/
def isIndent (c : Char) : Bool :=
  c == ' ' || c == '\t'

/-- Drop the longest ending whose characters all satisfy `p`. -/
def dropEndWhile (p : Char → Bool) (s : List Char) : List Char :=
  (s.reverse.dropWhile p).reverse

def trimLeft (s : List Char) : List Char :=
  s.dropWhile isBlank

def trimRight (s : List Char) : List Char :=
  dropEndWhile isBlank s

/-- Drop white space at both ends. -/
def trim (s : List Char) : List Char :=
  trimRight (trimLeft s)

/-- Drop newlines, and only newlines, at both ends. -/
def trimNewlines (s : List Char) : List Char :=
  dropEndWhile (· == '\n') (s.dropWhile (· == '\n'))

/-- The runs of characters between white space. -/
def words : List Char → List (List Char)
  | [] => []
  | c :: rest =>
    if isBlank c then words rest
    else if rest.head?.any (!isBlank ·) then
      match words rest with
      | word :: others => (c :: word) :: others
      | [] => [[c]]
    else
      [c] :: words rest

/-- Trimming on the left leaves nothing to trim on the left. -/
theorem trimLeft_trimLeft (s : List Char) : trimLeft (trimLeft s) = trimLeft s := by
  induction s with
  | nil => rfl
  | cons c r ih =>
    unfold trimLeft at *
    by_cases h : isBlank c <;> simp [h, ih]

end ComponentDocs.Text
