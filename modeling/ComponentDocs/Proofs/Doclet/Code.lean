import ComponentDocs.Proofs.Doclet.Roles

/-!
# Doclets in code

Tags and doclets are both kept out of code, each by a state of its own. The state of the masked copy
counts the fence marks behind every line break, and of a line of code the copy loses the first at
sign, which need not be all that stands before a word. So a line of code gives no doclet as long as
no marker stands behind its first at sign and no such fence mark sets the states apart:
`leftAlone_iff`.
-/

namespace ComponentDocs

open Text

/-! ## The two states -/

/-- The parts of a line from its first visible one on, cut at every line break. -/
def visibleParts (line : List Char) : List (List Char) :=
  (brokenTexts line).dropWhile fun part => (trimLeft part).isEmpty

/-- The number of fence marks in some lines that only other line breaks than the newline cut off:
those below the first visible part of a line. -/
def strayMarks (ls : List (List Char)) : Nat :=
  (ls.flatMap fun line => (visibleParts line).tail).countP hasFenceMark

-- A blank in front of the parts belongs to the first of them, visible or not.
theorem hasFenceMark_dropWhile_cons_blank {c : Char} (hblank : isBlank c) (part : List Char)
    (parts : List (List Char)) :
    (((c :: part) :: parts).dropWhile fun part => (trimLeft part).isEmpty).head?.any hasFenceMark =
      ((part :: parts).dropWhile fun part => (trimLeft part).isEmpty).head?.any hasFenceMark := by
  have hfront : ∀ d ∈ [c], isBlank d := by simpa using hblank
  have hmark : hasFenceMark (c :: part) = hasFenceMark part := hasFenceMark_blank_append hfront part
  rw [List.dropWhile_cons, List.dropWhile_cons, trimLeft_cons_of_blank hblank part]
  split
  · rfl
  · exact hmark

-- A line has the fence mark of its first visible part.
theorem hasFenceMark_eq (line : List Char) :
    hasFenceMark line = (visibleParts line).head?.any hasFenceMark := by
  unfold visibleParts brokenTexts
  fun_induction breakLines line with
  | case1 => rfl
  | case2 rest ih =>
    have hfront : ∀ c ∈ ['\r', '\n'], isBlank c :=
      List.forall_mem_cons.2 ⟨rfl, List.forall_mem_singleton.2 rfl⟩
    rw [List.map_cons, List.dropWhile_cons_of_pos (by rfl), ← ih]
    exact hasFenceMark_blank_append hfront rest
  | case3 c rest _ hc ih =>
    have hfront : ∀ d ∈ [c], isBlank d := by simpa using isBlank_of_isLineBreak hc
    rw [List.map_cons, List.dropWhile_cons_of_pos (by rfl), ← ih]
    exact hasFenceMark_blank_append hfront rest
  | case4 c rest _ hc hnil ih =>
    obtain rfl : [] = rest := by
      have hchars := flatMap_breakLines rest
      rw [hnil] at hchars
      exact hchars
    by_cases hblank : isBlank c
    · rw [hasFenceMark_of_blank (by simpa using hblank)]
      simp [trimLeft, hblank]
    · simp [trimLeft, hblank]
  | case5 c rest _ hc first others hls ih =>
    rw [hls, List.map_cons] at ih
    rw [List.map_cons]
    by_cases hblank : isBlank c
    · have hfront : ∀ d ∈ [c], isBlank d := by simpa using hblank
      rw [hasFenceMark_dropWhile_cons_blank hblank, ← ih]
      exact hasFenceMark_blank_append hfront rest
    · have hvisible : trimLeft (c :: first.text) = c :: first.text :=
        trimLeft_cons_of_not_blank hblank first.text
      obtain ⟨back, rfl, hback⟩ := exists_eq_text_append hls
      rw [← List.cons_append, hasFenceMark_append_of_visible
          (by rw [hvisible]; exact List.cons_ne_nil _ _)
          (fun d hd => isBlank_of_isLineBreak (hback d hd)),
        List.dropWhile_cons_of_neg (by rw [hvisible]; simp)]
      rfl

theorem countP_hasFenceMark_brokenTexts (line : List Char) :
    (brokenTexts line).countP hasFenceMark =
      (if hasFenceMark line then 1 else 0) + (visibleParts line).tail.countP hasFenceMark := by
  have hdrop : ∀ parts : List (List Char), parts.countP hasFenceMark =
      (parts.dropWhile fun part => (trimLeft part).isEmpty).countP hasFenceMark := by
    intro parts
    induction parts with
    | nil => rfl
    | cons part rest ih =>
      rw [List.dropWhile_cons]
      split
      · rename_i hempty
        have hnone : ¬ hasFenceMark part := by
          rw [hasFenceMark, List.isEmpty_iff.1 hempty]
          decide
        rw [List.countP_cons_of_neg hnone, ih]
      · rfl
  rw [hdrop, hasFenceMark_eq, ← visibleParts]
  cases visibleParts line with
  | nil => rfl
  | cons part rest =>
    rw [List.countP_cons, Nat.add_comm]
    rfl

/-- The state in which every line break counts is the other one after an odd number of stray
marks. -/
theorem stateAfterLines_eq (inside : Bool) (ls : List (List Char)) :
    stateAfterLines inside ls = (fenceAfter inside ls != (strayMarks ls % 2 == 1)) := by
  induction ls generalizing inside with
  | nil => simp [stateAfterLines, strayMarks]
  | cons line rest ih =>
    have hline : stateAfterLine inside line = ((inside != hasFenceMark line) !=
        ((visibleParts line).tail.countP hasFenceMark % 2 == 1)) := by
      change fenceAfter inside (brokenTexts line) = _
      rw [fenceAfter_eq, countP_hasFenceMark_brokenTexts, mod_two_add]
      cases hasFenceMark line <;> simp
    have hmarks : strayMarks (line :: rest) =
        (visibleParts line).tail.countP hasFenceMark + strayMarks rest := by
      rw [strayMarks, List.flatMap_cons, List.countP_append, ← strayMarks]
    have hrest : stateAfterLines inside (line :: rest) =
        stateAfterLines (stateAfterLine inside line) rest := rfl
    rw [hrest, ih, hline, fenceAfter_bne, fenceAfter_cons, hmarks, mod_two_add, Bool.bne_assoc]

/-! ## Lines that give no doclet -/

/-- A line gives no doclet, and stays in its place unless the value of a doclet above reaches it. -/
structure LeftAlone (text : String) (above : List DocletLine) (line : DocletLine)
    (below : List DocletLine) : Prop where
  names : (docletList text.toList).map Prod.fst = (above ++ below).filterMap DocletLine.name?
  stays : (line.role = .value ∧ Covered above) ∨ removeDoclets text = String.ofList (trim (unlines
    (above.flatMap DocletLine.kept ++ line.text :: below.flatMap DocletLine.kept)))

theorem leftAlone_of_role {text : String} {above below : List DocletLine} {line : DocletLine}
    (h : docletLines text.toList = above ++ line :: below)
    (hrole : ∀ name, line.role ≠ .doclet name) : LeftAlone text above line below := by
  constructor
  · have hnone : line.name? = none := by
      unfold DocletLine.name?
      cases hline : line.role with
      | doclet name => exact absurd hline (hrole name)
      | text => rfl
      | value => rfl
    rw [← filterMap_name?_docletLines, h, List.filterMap_append, List.filterMap_cons, hnone,
      ← List.filterMap_append]
  · cases hline : line.role with
    | doclet name => exact absurd hline (hrole name)
    | value => exact .inl ⟨rfl, covered_of_role_value h hline⟩
    | text =>
      right
      rw [removeDoclets_eq, h, List.flatMap_append, List.flatMap_cons, DocletLine.kept, hline]
      rfl

theorem not_leftAlone_of_role {text : String} {above below : List DocletLine} {line : DocletLine}
    {name : String} (h : docletLines text.toList = above ++ line :: below)
    (hrole : line.role = .doclet name) : ¬ LeftAlone text above line below := by
  intro halone
  have hnames := halone.names
  rw [← filterMap_name?_docletLines, h, List.filterMap_append, List.filterMap_append,
    List.filterMap_cons, DocletLine.name?, hrole] at hnames
  have hlength := congrArg List.length hnames
  simp only [List.length_append, List.length_cons] at hlength
  omega

-- Below an even number of stray marks the masked copy sees code where tags do.
theorem inside_of_fenced {text : List Char} {above below : List CommentLine} {line : CommentLine}
    (h : commentLines text = above ++ line :: below) (hcode : line.fenced) :
    stateAfterLines false (above.map CommentLine.text) =
      !(strayMarks (above.map CommentLine.text) % 2 == 1) := by
  rw [commentLines_eq] at h
  have hfenced := (of_commentLinesFrom_eq h).2
  rw [hcode] at hfenced
  rw [stateAfterLines_eq, ← hfenced]
  exact Bool.true_bne _

/-- A line of code, as tags see it, gives no doclet and stays in its place or is reached by a value
unless it starts a doclet behind its first at sign, or, below an odd number of stray marks, as
running text does. -/
theorem leftAlone_iff {text : String} {above below : List CommentLine} {line : CommentLine}
    (h : commentLines text.toList = above ++ line :: below) (hcode : line.fenced) :
    ∃ before found after,
      docletLines text.toList = before ++ found :: after ∧
      before.map DocletLine.text = above.map CommentLine.text ∧ found.text = line.text ∧
      (LeftAlone text before found after ↔
        (if strayMarks (above.map CommentLine.text) % 2 = 0 then hiddenDoclet? line.text
          else lineDoclet? line.text) = none) := by
  have hlines : (docletLines text.toList).map DocletLine.text =
      above.map CommentLine.text ++ line.text :: below.map CommentLine.text := by
    rw [docletLines, map_text_docletLinesFrom, ← List.map_cons, ← List.map_append, ← h,
      commentLines_eq, map_text_commentLinesFrom]
  obtain ⟨before, others, hsplit, hbefore, hothers⟩ := List.map_eq_append_iff.1 hlines
  obtain ⟨found, after, rfl, htext, -⟩ := List.map_eq_cons_iff.1 hothers
  refine ⟨before, found, after, hsplit, hbefore, htext, ?_⟩
  obtain ⟨hinside, hrole⟩ := of_docletLinesFrom_eq hsplit
  rw [hbefore, inside_of_fenced h hcode] at hinside
  have hstarted : (if strayMarks (above.map CommentLine.text) % 2 = 0 then hiddenDoclet? line.text
      else lineDoclet? line.text) = startedDoclet? found.inside found.text := by
    rw [hinside, htext]
    rcases Nat.mod_two_eq_zero_or_one (strayMarks (above.map CommentLine.text)) with hsum | hsum
    · rw [hsum]
      rfl
    · rw [hsum]
      rfl
  rw [hstarted]
  cases hword : startedDoclet? found.inside found.text with
  | none =>
    simp only [hword, Option.map_none, reduceCtorEq, iff_false] at hrole
    exact iff_of_true (leftAlone_of_role hsplit hrole) rfl
  | some word =>
    have hdoclet : found.role = .doclet (String.ofList word) := (hrole _).2 (by rw [hword]; rfl)
    exact iff_of_false (not_leftAlone_of_role hsplit hdoclet) (by simp)

-- A rule of a style sheet below doclets.
theorem leftAlone_styleRule :
    commentLines "@see a\n@b.\n\x60\x60\x60css\n@media print\n\x60\x60\x60".toList =
      [⟨1, false, "@see a".toList⟩, ⟨2, false, "@b.".toList⟩,
        ⟨3, false, "\x60\x60\x60css".toList⟩] ++
      ⟨4, true, "@media print".toList⟩ :: [⟨5, true, "\x60\x60\x60".toList⟩] ∧
    ∃ before found after,
      docletLines "@see a\n@b.\n\x60\x60\x60css\n@media print\n\x60\x60\x60".toList =
        before ++ found :: after ∧ found.text = "@media print".toList ∧
      LeftAlone "@see a\n@b.\n\x60\x60\x60css\n@media print\n\x60\x60\x60" before found after := by
  have hlines : commentLines "@see a\n@b.\n\x60\x60\x60css\n@media print\n\x60\x60\x60".toList =
      [⟨1, false, "@see a".toList⟩, ⟨2, false, "@b.".toList⟩,
        ⟨3, false, "\x60\x60\x60css".toList⟩] ++
      ⟨4, true, "@media print".toList⟩ :: [⟨5, true, "\x60\x60\x60".toList⟩] := by
    decide +kernel
  obtain ⟨before, found, after, hsplit, -, htext, hiff⟩ := leftAlone_iff hlines rfl
  exact ⟨hlines, before, found, after, hsplit, htext, hiff.2 (by decide +kernel)⟩

/-- A line of code that starts, after its first at sign, with a marker, and one below a fence mark
behind a vertical tab are read as doclets, and removed. -/
theorem docletList_of_fencedMarker :
    (∃ line ∈ commentLines "\x60\x60\x60\n@@media\n\x60\x60\x60".toList,
      line.fenced ∧ line.text = "@@media".toList) ∧
    docletList "\x60\x60\x60\n@@media\n\x60\x60\x60".toList = [("media", .flag true)] ∧
    removeDoclets "\x60\x60\x60\n@@media\n\x60\x60\x60" = "\x60\x60\x60\n\n\x60\x60\x60" ∧
    (∃ line ∈ commentLines "\x60\x60\x60\nx\x0b\x60\x60\x60\n@media\n\x60\x60\x60".toList,
      line.fenced ∧ line.text = "@media".toList) ∧
    docletList "\x60\x60\x60\nx\x0b\x60\x60\x60\n@media\n\x60\x60\x60".toList =
      [("media", .flag true)] ∧
    removeDoclets "\x60\x60\x60\nx\x0b\x60\x60\x60\n@media\n\x60\x60\x60" =
      "\x60\x60\x60\nx\x0b\x60\x60\x60\n\n\x60\x60\x60" := by
  decide +kernel

end ComponentDocs
