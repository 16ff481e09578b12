import ComponentDocs.Fence.Basic
import Mathlib.Data.List.TakeWhile

/-!
# Blocks in a text

Lines that open no block are pieces of their own, `pieces_append_of_not_opening`, and a line that
opens a block is one piece with the lines up to the one that closes it, `pieces_block`.
-/

namespace ComponentDocs

open Text

/-! ## Fence marks of blocks -/

/-- A line that begins with blanks and three backticks, and what follows them. -/
def MarkedWith (line rest : List Char) : Prop :=
  ∃ indent, (∀ c ∈ indent, isIndent c) ∧ line = indent ++ fenceMark ++ rest

theorem afterFenceMark?_eq_some_iff {line rest : List Char} :
    afterFenceMark? line = some rest ↔ MarkedWith line rest := by
  unfold afterFenceMark?
  constructor
  · intro h
    split at h
    · rename_i hline
      obtain rfl := Option.some.inj h
      refine ⟨line.takeWhile isIndent, fun c hc => List.mem_takeWhile_imp hc, ?_⟩
      calc line = line.takeWhile isIndent ++ line.dropWhile isIndent :=
            List.takeWhile_append_dropWhile.symm
        _ = _ := by rw [hline, List.append_assoc]; rfl
    · cases h
  · rintro ⟨indent, hindent, rfl⟩
    have hmark : (fenceMark ++ rest).dropWhile isIndent = fenceMark ++ rest := rfl
    rw [List.append_assoc, List.dropWhile_append_of_pos hindent, hmark]
    rfl

-- A line that opens a block has a header without backticks after its mark.
theorem openingHeader?_of_header {header : List Char} (h : '\x60' ∉ header) :
    openingHeader? (fenceMark ++ header) = some header := by
  have hafter : afterFenceMark? (fenceMark ++ header) = some header :=
    afterFenceMark?_eq_some_iff.2 ⟨[], fun _ hc => absurd hc List.not_mem_nil, rfl⟩
  unfold openingHeader?
  rw [hafter]
  exact if_neg (by simpa using h)

theorem not_markedWith_iff {line : List Char} :
    (∀ rest, ¬ MarkedWith line rest) ↔ afterFenceMark? line = none := by
  simp only [Option.eq_none_iff_forall_not_mem, Option.mem_def, afterFenceMark?_eq_some_iff]

theorem openingHeader?_of_unmarked {line : List Char} (h : ∀ rest, ¬ MarkedWith line rest) :
    openingHeader? line = none := by
  rw [openingHeader?, not_markedWith_iff.1 h]

theorem not_closesFence_iff {line : List Char} :
    (∀ rest, MarkedWith line rest → ¬ ∀ c ∈ rest, isIndent c) ↔ ¬ closesFence line := by
  unfold closesFence
  rw [Option.any_eq_true]
  simp only [afterFenceMark?_eq_some_iff, List.all_eq_true, not_exists, not_and]

/-! ## Pieces -/

theorem Piece.lines_ne_nil (p : Piece) : p.lines ≠ [] := by
  cases p <;> simp [lines]

theorem flatMap_lines_ne_nil {found : List Piece} (h : found ≠ []) :
    found.flatMap Piece.lines ≠ [] := by
  obtain ⟨p, others, rfl⟩ := List.exists_cons_of_ne_nil h
  exact List.append_ne_nil_of_left_ne_nil p.lines_ne_nil _

theorem pieces_nil : pieces [] = [] := by
  rw [pieces]

theorem pieces_cons_of_not_opening {line : List Char} (h : openingHeader? line = none)
    (rest : List (List Char)) : pieces (line :: rest) = .line line :: pieces rest := by
  rw [pieces, h]

theorem pieces_append_of_not_opening {run : List (List Char)}
    (h : ∀ line ∈ run, openingHeader? line = none) (rest : List (List Char)) :
    pieces (run ++ rest) = run.map Piece.line ++ pieces rest := by
  induction run with
  | nil => rfl
  | cons line others ih =>
    rw [List.forall_mem_cons] at h
    rw [List.cons_append, pieces_cons_of_not_opening h.1, ih h.2]
    rfl

theorem splitAtClosing_append {body : List (List Char)} {closing : List Char}
    (hbody : ∀ line ∈ body, ¬ closesFence line) (hclosing : closesFence closing)
    (rest : List (List Char)) :
    splitAtClosing (body ++ closing :: rest) = some (body, closing, rest) := by
  induction body with
  | nil => rw [List.nil_append, splitAtClosing, if_pos hclosing]
  | cons line others ih =>
    rw [List.forall_mem_cons] at hbody
    rw [List.cons_append, splitAtClosing, if_neg hbody.1, ih hbody.2]
    rfl

theorem splitAtClosing_eq_none_iff {ls : List (List Char)} :
    splitAtClosing ls = none ↔ ∀ line ∈ ls, ¬ closesFence line := by
  induction ls with
  | nil => simp [splitAtClosing]
  | cons line rest ih =>
    rw [splitAtClosing, List.forall_mem_cons]
    by_cases hline : closesFence line
    · rw [if_pos hline]
      exact iff_of_false (Option.some_ne_none _) fun h => h.1 hline
    · rw [if_neg hline, Option.map_eq_none_iff, ih]
      exact (and_iff_right hline).symm

/-- Lines are cut at the first one that closes a block. -/
theorem splitAtClosing_eq_some_iff {ls body after : List (List Char)} {closing : List Char} :
    splitAtClosing ls = some (body, closing, after) ↔
      ls = body ++ closing :: after ∧ (∀ line ∈ body, ¬ closesFence line) ∧
        closesFence closing := by
  constructor
  · intro h
    refine ⟨eq_of_splitAtClosing h, ?_⟩
    induction ls generalizing body with
    | nil => cases h
    | cons line rest ih =>
      unfold splitAtClosing at h
      split at h
      · rename_i hline
        cases h
        exact ⟨fun line hline => absurd hline List.not_mem_nil, hline⟩
      · rename_i hline
        obtain ⟨⟨b, c, a⟩, hrest, heq⟩ := Option.map_eq_some_iff.1 h
        cases heq
        obtain ⟨hbody, hclosing⟩ := ih hrest
        exact ⟨List.forall_mem_cons.2 ⟨hline, hbody⟩, hclosing⟩
  · rintro ⟨rfl, hbody, hclosing⟩
    exact splitAtClosing_append hbody hclosing after

theorem pieces_block {opening header closing : List Char} {body : List (List Char)}
    (hopening : openingHeader? opening = some header) (hbody : ∀ line ∈ body, ¬ closesFence line)
    (hclosing : closesFence closing) (rest : List (List Char)) :
    pieces (opening :: body ++ closing :: rest) =
      .fence ⟨opening, header, body, closing⟩ :: pieces rest := by
  rw [List.cons_append, pieces, hopening, splitAtClosing_append hbody hclosing]

/-- Lines that are a block: the first one opens it, and the last one is the first that closes it. -/
structure FenceLines.WellFormed (f : FenceLines) : Prop where
  opens : openingHeader? f.opening = some f.header
  body : ∀ line ∈ f.body, ¬ closesFence line
  closes : closesFence f.closing

theorem wellFormed_of_mem_pieces {ls : List (List Char)} {f : FenceLines}
    (h : Piece.fence f ∈ pieces ls) : f.WellFormed := by
  fun_induction pieces ls with
  | case1 => exact absurd h List.not_mem_nil
  | case2 line rest _ ih =>
    rcases List.mem_cons.1 h with h | h
    · cases h
    · exact ih h
  | case3 line rest header _ _ ih =>
    rcases List.mem_cons.1 h with h | h
    · cases h
    · exact ih h
  | case4 line rest header hopening body closing after hclosing ih =>
    rcases List.mem_cons.1 h with h | h
    · cases h
      obtain ⟨-, hbody, hcloses⟩ := splitAtClosing_eq_some_iff.1 hclosing
      exact ⟨hopening, hbody, hcloses⟩
    · exact ih h

end ComponentDocs
