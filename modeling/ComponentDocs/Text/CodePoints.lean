/-!
# Ranges of code points
-/

namespace ComponentDocs.Text

/-- Membership in a list of closed ranges that is sorted and free of overlaps: the search stops at
the first range that starts above `n`. -/
def inRanges : List (Nat × Nat) → Nat → Bool
  | [], _ => false
  | (low, high) :: rest, n => if n < low then false else n ≤ high || inRanges rest n

end ComponentDocs.Text
