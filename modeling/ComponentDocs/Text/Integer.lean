import ComponentDocs.Text.Blank
import ComponentDocs.Text.Digit

/-!
# Integers in text

A whole number is written with decimal digits of any script, perhaps with a sign before them, single
underscores between them, and white space on both sides.
-/

namespace ComponentDocs.Text

/-- White space around a number: the information separators are none. -/
def isNumberSpace (c : Char) : Bool :=
  isBlank c && !(28 ≤ c.toNat && c.toNat ≤ 31)

/-- The most digits that a number may have. -/
def maxIntegerDigits : Nat := 4300

/-- The values of digits with single underscores between them. -/
def digitValues? : List Char → Option (List Nat)
  | [] => none
  | [c] => (digitValue? c).map ([·])
  | c :: '_' :: rest => do
    let d ← digitValue? c
    let ds ← digitValues? rest
    return d :: ds
  | c :: rest => do
    let d ← digitValue? c
    let ds ← digitValues? rest
    return d :: ds

/-- The number that digits spell, unless there are too many of them. -/
def natural? (s : List Char) : Option Nat := do
  let ds ← digitValues? s
  if maxIntegerDigits < ds.length then none
  else return ds.foldl (fun n d => n * 10 + d) 0

def integer? (s : List Char) : Option Int :=
  match dropEndWhile isNumberSpace (s.dropWhile isNumberSpace) with
  | '-' :: rest => (natural? rest).map fun n => -(n : Int)
  | '+' :: rest => (natural? rest).map fun n => (n : Int)
  | rest => (natural? rest).map fun n => (n : Int)

end ComponentDocs.Text
