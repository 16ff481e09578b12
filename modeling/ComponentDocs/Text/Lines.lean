/-!
# Lines

Two ways to cut text into lines. `lines` knows the newline only and is undone by `unlines`;
`breakLines` knows every line break of Unicode and keeps each break beside its line.
-/

namespace ComponentDocs.Text

/-- Cut text at each newline. There is always at least one line. -/
def lines : List Char → List (List Char)
  | [] => [[]]
  | c :: rest =>
    if c = '\n' then
      [] :: lines rest
    else
      match lines rest with
      | [] => [[c]]
      | line :: others => (c :: line) :: others

/-- Join lines with newlines between them. -/
def unlines : List (List Char) → List Char
  | [] => []
  | [line] => line
  | line :: others => line ++ '\n' :: unlines others

/-- A line with the break that ends it; the break of a last line may be empty. -/
structure BrokenLine where
  text : List Char
  ending : List Char
  deriving DecidableEq, Repr

def BrokenLine.toList (l : BrokenLine) : List Char :=
  l.text ++ l.ending

/-- A character that ends a line: the vertical controls, the information separators that end
records, and the line and paragraph separators. -/
def isLineBreak (c : Char) : Bool :=
  let n := c.toNat
  (10 ≤ n && n ≤ 13) || (28 ≤ n && n ≤ 30) || n == 0x85 || n == 0x2028 || n == 0x2029

/-- Cut text at every line break; a carriage return with its newline is one break. Text that ends
in a break has no empty line after it. -/
def breakLines : List Char → List BrokenLine
  | [] => []
  | '\r' :: '\n' :: rest => ⟨[], ['\r', '\n']⟩ :: breakLines rest
  | c :: rest =>
    if isLineBreak c then
      ⟨[], [c]⟩ :: breakLines rest
    else
      match breakLines rest with
      | [] => [⟨[c], []⟩]
      | line :: others => ⟨c :: line.text, line.ending⟩ :: others

/-- Write every line ending as a newline: carriage returns, alone or before a newline. -/
def normalizeNewlines : List Char → List Char
  | [] => []
  | '\r' :: '\n' :: rest => '\n' :: normalizeNewlines rest
  | c :: rest => (if c = '\r' then '\n' else c) :: normalizeNewlines rest

theorem lines_ne_nil (s : List Char) : lines s ≠ [] := by
  cases s with
  | nil => simp [lines]
  | cons c rest =>
    unfold lines
    split
    · simp
    · split <;> simp

theorem unlines_cons {line : List Char} {others : List (List Char)} (h : others ≠ []) :
    unlines (line :: others) = line ++ '\n' :: unlines others := by
  cases others with
  | nil => exact absurd rfl h
  | cons l ls => rfl

/-- Joining the lines of a text gives the text. -/
theorem unlines_lines (s : List Char) : unlines (lines s) = s := by
  induction s with
  | nil => rfl
  | cons c rest ih =>
    unfold lines
    split
    · rename_i h
      rw [unlines_cons (lines_ne_nil rest), ih, h]
      rfl
    · cases h : lines rest with
      | nil => exact absurd h (lines_ne_nil rest)
      | cons line others =>
        rw [h] at ih
        cases others with
        | nil =>
          rw [← ih]
          rfl
        | cons l ls =>
          rw [← ih]
          rfl

/-- No line holds a newline. -/
theorem newline_not_mem_of_mem_lines {s line : List Char} (h : line ∈ lines s) :
    '\n' ∉ line := by
  induction s generalizing line with
  | nil => simp_all [lines]
  | cons c rest ih =>
    unfold lines at h
    split at h
    · rcases List.mem_cons.1 h with rfl | h
      · simp
      · exact ih h
    · rename_i hc
      split at h
      · simp only [List.mem_singleton] at h
        subst h
        simpa [eq_comm] using hc
      · rename_i l ls hl
        rcases List.mem_cons.1 h with rfl | h
        · have := @ih l (by simp [hl])
          simpa [this, eq_comm] using hc
        · exact ih (by simp [hl, h])

/-- Lines and their breaks spell the text. -/
theorem flatMap_breakLines (s : List Char) : (breakLines s).flatMap BrokenLine.toList = s := by
  fun_induction breakLines s with
  | case1 => rfl
  | case2 rest ih => simp [BrokenLine.toList, ih]
  | case3 c rest _ hc ih => simp [BrokenLine.toList, ih]
  | case4 c rest _ hc hnil ih =>
    rw [hnil] at ih
    simp only [List.flatMap_nil] at ih
    simp [BrokenLine.toList, ← ih]
  | case5 c rest _ hc line others hl ih =>
    rw [hl] at ih
    simp only [List.flatMap_cons, BrokenLine.toList] at ih ⊢
    simp only [List.cons_append, ih]

end ComponentDocs.Text
