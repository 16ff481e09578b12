import ComponentDocs.Proofs.Doclet.Front
import ComponentDocs.Proofs.Sections

/-!
# The names of the doclets in a text

The names in a text are found line by line: `map_fst_docletList`. Taking white space away at either
end keeps the names, unless it brings a doclet to the front: `docletNames_trim`.
-/

namespace ComponentDocs

open Text

/-- The names of the doclets that lines start, when the first one stands inside code iff
`inside`. -/
def docletNames (inside : Bool) (ls : List (List Char)) : List String :=
  (maskedLinesFrom inside ls).filterMap MaskedLine.docletName?

theorem DocletSection.map_fst_doclet? (s : DocletSection) :
    s.doclet?.map Prod.fst =
      match s.1.form with
      | .other => none
      | _ => some (String.ofList s.1.name) := by
  unfold DocletSection.doclet?
  cases s.1.form <;> rfl

theorem map_fst_docletList (text : List Char) :
    (docletList text).map Prod.fst = docletNames false (lines text) := by
  have hfst := map_fst_sections MaskedLine.markerLine? (maskedLines text)
  rw [docletList, List.map_filterMap, docletNames, ← maskedLines_eq]
  have hcomp : ((docletSections text).2.map Prod.fst).filterMap (fun found : MarkerLine =>
      match found.form with
      | .other => none
      | _ => some (String.ofList found.name)) =
      (docletSections text).2.filterMap fun s => s.doclet?.map Prod.fst := by
    rw [List.filterMap_map]
    exact List.filterMap_congr fun s _ => (DocletSection.map_fst_doclet? s).symm
  rw [← hcomp, docletSections, hfst, List.filterMap_filterMap]
  rfl

theorem docletNames_append (inside : Bool) (a b : List (List Char)) :
    docletNames inside (a ++ b) =
      docletNames inside a ++ docletNames (stateAfterLines inside a) b := by
  rw [docletNames, maskedLinesFrom_append, List.filterMap_append, docletNames, docletNames]

theorem docletNames_cons (inside : Bool) (line : List Char) (rest : List (List Char)) :
    docletNames inside (line :: rest) =
      ((startedDoclet? inside line).map String.ofList).toList ++
        docletNames (stateAfterLine inside line) rest := by
  rw [docletNames, maskedLinesFrom, List.filterMap_cons, docletName?_maskLine, docletNames]
  cases (startedDoclet? inside line).map String.ofList <;> rfl

/-! ## Names under trimming -/

-- A line without a title has no doclet outside code.
theorem lineDoclet?_of_titled? {line : List Char} (h : titled? line = none) :
    lineDoclet? line = none := by
  by_contra hne
  obtain ⟨word, hword⟩ := Option.ne_none_iff_exists'.1 hne
  obtain ⟨rest, hmarker, -⟩ := lineDoclet?_eq_some_iff.1 hword
  rw [titled?_of_lineMarker? hmarker] at h
  cases h

theorem docletNames_of_blank {ls : List (List Char)} (h : ∀ line ∈ ls, ∀ c ∈ line, isBlank c)
    (inside : Bool) : docletNames inside ls = [] := by
  induction ls generalizing inside with
  | nil => rfl
  | cons line rest ih =>
    rw [List.forall_mem_cons] at h
    rw [docletNames_cons, startedDoclet?_of_blank h.1, ih h.2]
    rfl

-- White space behind a text keeps its names.
theorem docletNames_append_blank {back : List Char} (hback : ∀ c ∈ back, isBlank c)
    (s : List Char) : docletNames false (lines (s ++ back)) = docletNames false (lines s) := by
  obtain ⟨before, last, hs⟩ := exists_lines_eq_concat s
  obtain ⟨first, after, hb⟩ := exists_lines_eq_cons back
  have hblank : ∀ line ∈ first :: after, ∀ c ∈ line, isBlank c := fun line hline c hc =>
    hback c (mem_of_mem_lines (hb ▸ hline) hc)
  rw [List.forall_mem_cons] at hblank
  have hnil : ∀ inside, docletNames inside [] = [] := fun _ => rfl
  rw [lines_append hs hb, hs, docletNames_append, docletNames_append, docletNames_cons,
    docletNames_cons, startedDoclet?_append (emptyColumn_of_blank hblank.1),
    docletNames_of_blank hblank.2, hnil]

-- The first line of a text decides whether the text starts with a doclet.
theorem lineDoclet?_of_lines {s first : List Char} {others : List (List Char)}
    (h : lines s = first :: others) : lineDoclet? s = lineDoclet? first := by
  have hs := unlines_lines s
  rw [h] at hs
  by_cases hothers : others = []
  · rw [hothers] at hs
    rw [← hs]
    rfl
  · rw [unlines_cons hothers] at hs
    rw [← hs]
    exact lineDoclet?_append (emptyColumn_of_isLineBreak rfl _) first

theorem docletNames_lines_eq {s first : List Char} {others : List (List Char)}
    (h : lines s = first :: others) :
    docletNames false (lines s) = ((lineDoclet? s).map String.ofList).toList ++
      docletNames (stateAfterLine false first) others := by
  rw [h, docletNames_cons, lineDoclet?_of_lines h]
  rfl

theorem lineDoclet?_of_trimLeft {s : List Char} (h : lineDoclet? (trimLeft s) = none) :
    lineDoclet? s = none := by
  by_contra hne
  obtain ⟨word, hword⟩ := Option.ne_none_iff_exists'.1 hne
  obtain ⟨rest, hmarker, -⟩ := lineDoclet?_eq_some_iff.1 hword
  obtain ⟨front, hs, hfront⟩ := exists_indent s
  have htrim : trimLeft s = s.dropWhile isIndent := by
    conv_lhs => rw [hs]
    rw [trimLeft_append_of_blank fun c hc => isBlank_of_isIndent (hfront c hc),
      eq_of_marker? hmarker]
    exact trimLeft_cons_of_not_blank (by decide) _
  rw [htrim, lineDoclet?_dropWhile, hword] at h
  cases h

theorem docletNames_cons_newline (s : List Char) :
    docletNames false (lines ('\n' :: s)) = docletNames false (lines s) := by
  rw [lines_cons_newline, docletNames_cons, startedDoclet?_of_blank (by simp)]
  rfl

-- White space in front of a text changes no names but that of its first line.
theorem docletNames_cons_blank {c : Char} (hc : isBlank c) {s : List Char}
    (h : lineDoclet? (c :: s) = lineDoclet? s) :
    docletNames false (lines (c :: s)) = docletNames false (lines s) := by
  by_cases hn : c = '\n'
  · rw [hn, docletNames_cons_newline]
  · obtain ⟨first, others, hs⟩ := exists_lines_eq_cons s
    have hfirst : '\n' ∉ first := newline_not_mem_of_mem_lines (hs ▸ List.mem_cons_self)
    rw [docletNames_lines_eq (lines_cons_of_ne hn hs), docletNames_lines_eq hs, h,
      (maskLine_cons_blank hc hfirst false).2]

/-- Trimming a text keeps its names when it brings no doclet to the front. -/
theorem docletNames_trim {s : List Char} (h : lineDoclet? (trim s) = none) :
    docletNames false (lines (trim s)) = docletNames false (lines s) := by
  obtain ⟨front, back, hs, hfront, hback⟩ := exists_margins s
  -- the margin in front is put back character by character, the one behind as a whole
  have hleft :
      docletNames false (lines (front ++ trim s)) = docletNames false (lines (trim s)) := by
    clear hs
    induction front with
    | nil => rfl
    | cons c rest ih =>
      rw [List.forall_mem_cons] at hfront
      have hrest : lineDoclet? (trimLeft (rest ++ trim s)) = none := by
        rw [trimLeft_append_of_blank hfront.2, trimLeft_trim, h]
      have hfirst : lineDoclet? (trimLeft (c :: (rest ++ trim s))) = none := by
        rw [trimLeft_cons_of_blank hfront.1, hrest]
      have hnone : lineDoclet? (c :: (rest ++ trim s)) = lineDoclet? (rest ++ trim s) := by
        rw [lineDoclet?_of_trimLeft hfirst, lineDoclet?_of_trimLeft hrest]
      exact (docletNames_cons_blank hfront.1 hnone).trans (ih hfront.2)
  conv_rhs => rw [hs]
  rw [docletNames_append_blank hback, hleft]

-- Trimming a text without tags keeps the names of its doclets.
theorem docletNames_trim_of_tagFree {s : List Char} (h : TagFree false (lines s)) :
    docletNames false (lines (trim s)) = docletNames false (lines s) := by
  have hfree : TagFree false (lines (trim s)) := h.lines_trim
  obtain ⟨first, others, hlines⟩ := exists_lines_eq_cons (trim s)
  rw [hlines] at hfree
  refine docletNames_trim ?_
  rw [lineDoclet?_of_lines hlines, lineDoclet?_of_titled? (hfree.1 rfl)]

end ComponentDocs
