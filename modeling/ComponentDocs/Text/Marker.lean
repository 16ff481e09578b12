import ComponentDocs.Text.Word

/-!
# Markers

A marker is an at sign with a word right after it.
-/

namespace ComponentDocs.Text

/-- The word of the marker at the front of a text, and what follows the word. -/
def marker? : List Char → Option (List Char × List Char)
  | '@' :: rest =>
    match takeWord rest with
    | ([], _) => none
    | found => some found
  | _ => none

/-- A marker is spelled by its at sign, its word and the text after the word. -/
theorem eq_of_marker? {s word rest : List Char} (h : marker? s = some (word, rest)) :
    s = '@' :: word ++ rest := by
  unfold marker? at h
  split at h
  · rename_i s'
    split at h
    · simp at h
    · simp only [Option.some.injEq, takeWord, Prod.mk.injEq] at h
      rw [← h.1, ← h.2, List.cons_append, List.takeWhile_append_dropWhile]
  · simp at h

/-- The word of a marker is not empty. -/
theorem ne_nil_of_marker? {s word rest : List Char} (h : marker? s = some (word, rest)) :
    word ≠ [] := by
  unfold marker? at h
  split at h
  · split at h
    · simp at h
    · rename_i hne
      rintro rfl
      simp only [Option.some.injEq] at h
      exact hne _ h
  · simp at h

end ComponentDocs.Text
