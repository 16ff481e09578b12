/-!
# Sections of a list

A list cut before every element that opens a section. Nothing is lost: the run before the first
section, then each opening element with its body, spell the list again.
-/

namespace ComponentDocs

variable {α β : Type}

/-- Cut a list before each element that `head?` recognizes: the run before the first of them, then
each of them, as recognized, with the run that follows it. -/
def sections (head? : α → Option β) : List α → List α × List (β × List α)
  | [] => ([], [])
  | a :: rest =>
    let (before, found) := sections head? rest
    match head? a with
    | some b => ([], (b, before) :: found)
    | none => (a :: before, found)

theorem sections_nil (head? : α → Option β) : sections head? [] = ([], []) := rfl

theorem sections_cons_none {head? : α → Option β} {a : α} (h : head? a = none) (rest : List α) :
    sections head? (a :: rest) =
      (a :: (sections head? rest).1, (sections head? rest).2) := by
  simp [sections, h]

theorem sections_cons_some {head? : α → Option β} {a : α} {b : β} (h : head? a = some b)
    (rest : List α) :
    sections head? (a :: rest) =
      ([], (b, (sections head? rest).1) :: (sections head? rest).2) := by
  simp [sections, h]

/-- The opening elements found are the recognized ones, in order. -/
theorem map_fst_sections (head? : α → Option β) (l : List α) :
    (sections head? l).2.map Prod.fst = l.filterMap head? := by
  induction l with
  | nil => rfl
  | cons a rest ih =>
    cases h : head? a with
    | none => simp [sections_cons_none h, h, ih]
    | some b => simp [sections_cons_some h, h, ih]

/-- No element of a body opens a section. -/
theorem head?_eq_none_of_mem_before {head? : α → Option β} {l : List α} {a : α}
    (h : a ∈ (sections head? l).1) : head? a = none := by
  induction l with
  | nil => simp [sections_nil] at h
  | cons x rest ih =>
    cases hx : head? x with
    | none =>
      rw [sections_cons_none hx, List.mem_cons] at h
      rcases h with rfl | h
      · exact hx
      · exact ih h
    | some b => simp [sections_cons_some hx] at h

end ComponentDocs
