import ComponentDocs.Proofs.Doclet.Removal

/-!
# Removing the doclets of plain texts

Where spaces, tabs and newlines are the only white space, and no line of code has a second marker
behind its first at sign, values begin and end outside code. So every fence mark that goes takes its
mate along, and removing the doclets of such a text leaves none: `removeDoclets_of_plain`.
-/

namespace ComponentDocs

open Text

/-! ## Fence marks of values -/

theorem inside_of_markerLine? {line : List Char} (hplain : PlainLine line) {inside : Bool}
    (hcode : inside → hidesMarker line = false) {found : MarkerLine}
    (h : MaskedLine.markerLine? ⟨line, maskLine inside line⟩ = some found) : inside = false := by
  have hmatches := (MaskedLine.matches_of_plain hplain hcode 0).2
  rw [h] at hmatches
  cases inside with
  | false => rfl
  | true => cases hmatches

-- A line that starts a doclet has no fence mark.
theorem stateAfterLine_of_form {line : List Char} (hplain : PlainLine line) {found : MarkerLine}
    (h : MaskedLine.markerLine? ⟨line, maskLine false line⟩ = some found)
    (hform : found.form ≠ .other) : stateAfterLine false line = false := by
  have hmark : ¬ hasFenceMark line := by
    intro hmark
    have hname : MaskedLine.docletName? ⟨line, maskLine false line⟩ ≠ none := by
      rw [MaskedLine.docletName?, h, Option.bind_some]
      cases hfound : found.form with
      | other => exact absurd hfound hform
      | bare => simp
      | valued => simp
    exact hname (by rw [docletName?_maskLine, startedDoclet?_of_hasFenceMark hmark]; rfl)
  rw [(maskLine_of_plain hplain false).2]
  simpa using hmark

/-- Whether the fence marks taken away are odd in number follows from the state: they are where a
value has reached into code, and nowhere else. A line that stays ends a value outside code. -/
theorem role_of_plain {line : List Char} (hplain : PlainLine line) {inside : Bool}
    (hcode : inside → hidesMarker line = false) {covered odd : Bool}
    (hodd : odd = (covered && inside)) :
    (MaskedLine.role covered ⟨line, maskLine inside line⟩ = .text ∧
      MaskedLine.covers covered ⟨line, maskLine inside line⟩ = false ∧ odd = false) ∨
    (MaskedLine.role covered ⟨line, maskLine inside line⟩ ≠ .text ∧
      stateAfterLine odd line = (MaskedLine.covers covered ⟨line, maskLine inside line⟩ &&
        stateAfterLine inside line)) := by
  unfold MaskedLine.role MaskedLine.covers
  cases hmarker : MaskedLine.markerLine? ⟨line, maskLine inside line⟩ with
  | none =>
    cases covered with
    | false => exact .inl ⟨rfl, rfl, hodd⟩
    | true =>
      obtain rfl : odd = inside := hodd
      exact .inr ⟨by simp, rfl⟩
  | some found =>
    obtain rfl := inside_of_markerLine? hplain hcode hmarker
    rw [Bool.and_false] at hodd
    obtain rfl := hodd
    cases hform : found.form with
    | other => exact .inl ⟨by simp [hform], by simp [hform], rfl⟩
    | bare =>
      have hstate := stateAfterLine_of_form hplain hmarker (by simp [hform])
      exact .inr ⟨by simp [hform], by simp [hform, hstate]⟩
    | valued => exact .inr ⟨by simp [hform], by simp [hform]⟩

/-- Above a line that stays, the fence marks that are taken away are even in number. -/
theorem stateAfterLines_removedLines {ls : List (List Char)}
    (hplain : ∀ line ∈ ls, PlainLine line) {number : Nat} {covered inside odd : Bool}
    (hcode : ∀ line ∈ commentLinesFrom number inside ls,
      line.fenced → hidesMarker line.text = false)
    (hodd : odd = (covered && inside)) {before after : List DocletLine} {line : DocletLine}
    (h : docletLinesFrom covered inside ls = before ++ line :: after) (hrole : line.role = .text) :
    stateAfterLines odd (removedLines before) = false := by
  induction ls generalizing number covered inside odd before with
  | nil => cases before <;> cases h
  | cons first rest ih =>
    rw [List.forall_mem_cons] at hplain
    rw [commentLinesFrom, List.forall_mem_cons, ← (maskLine_of_plain hplain.1 inside).2] at hcode
    have hfirst := role_of_plain hplain.1 hcode.1 hodd
    cases before with
    | nil =>
      obtain ⟨rfl, -⟩ := List.cons.inj h
      rcases hfirst with ⟨-, -, hfalse⟩ | ⟨hnot, -⟩
      · exact hfalse
      · exact absurd hrole hnot
    | cons d others =>
      obtain ⟨rfl, hrest⟩ := List.cons.inj h
      rcases hfirst with ⟨htext, hcovers, rfl⟩ | ⟨hnot, hstate⟩
      · -- the first line stays, and no value reaches below it
        rw [hcovers] at hrest
        rw [removedLines, List.filter_cons_of_neg (by simpa using htext)]
        exact ih hplain.2 hcode.2 rfl hrest
      · rw [removedLines, List.filter_cons_of_pos (by simpa using hnot)]
        exact ih hplain.2 hcode.2 hstate hrest

/-! ## Trimming -/

-- Spaces, tabs and newlines in front of a text keep the names of its doclets.
theorem docletNames_plain_append {front : List Char}
    (h : ∀ c ∈ front, c = ' ' ∨ c = '\t' ∨ c = '\n') (s : List Char) :
    docletNames false (lines (front ++ s)) = docletNames false (lines s) := by
  induction front with
  | nil => rfl
  | cons c rest ih =>
    rw [List.forall_mem_cons] at h
    rw [← ih h.2, List.cons_append]
    by_cases hn : c = '\n'
    · rw [hn, docletNames_cons_newline]
    · have hindent : isIndent c := by
        rcases h.1 with rfl | rfl | rfl
        · rfl
        · rfl
        · exact absurd rfl hn
      refine docletNames_cons_blank (isBlank_of_isIndent hindent) ?_
      rw [← lineDoclet?_dropWhile, List.dropWhile_cons_of_pos hindent, lineDoclet?_dropWhile]

/-- Removing the doclets of a plain text leaves none, and nothing to remove. -/
theorem removeDoclets_of_plain {text : String}
    (hblank : ∀ c ∈ text.toList, isBlank c → c = ' ' ∨ c = '\t' ∨ c = '\n')
    (hcode : ∀ line ∈ commentLines text.toList, line.fenced → hidesMarker line.text = false) :
    readDoclets (removeDoclets text) = .empty ∧
      removeDoclets (removeDoclets text) = removeDoclets text := by
  rw [commentLines_eq] at hcode
  have hbare : docletNames false ((docletLines text.toList).flatMap DocletLine.kept) = [] := by
    rw [docletNames_kept_docletLines_eq_nil_iff]
    rintro before line after hsplit ⟨hrole, hodd, -⟩
    have heven : stateAfterLines false (removedLines before) = false :=
      stateAfterLines_removedLines (plainLine_of_mem_lines hblank) hcode rfl hsplit hrole
    rw [heven] at hodd
    cases hodd
  -- the margins are plain, too
  have hnames : docletNames false (lines (removeDoclets text).toList) = [] := by
    obtain ⟨front, back, hs, hfront, hback⟩ :=
      exists_margins (unlines ((docletLines text.toList).flatMap DocletLine.kept))
    have hplain : ∀ c ∈ front, c = ' ' ∨ c = '\t' ∨ c = '\n' := by
      intro c hc
      have hmem : c ∈ unlines ((docletLines text.toList).flatMap DocletLine.kept) := by
        rw [hs, List.append_assoc]
        exact List.mem_append_left _ hc
      rcases mem_unlines hmem with hn | ⟨line, hline, hcline⟩
      · exact .inr (.inr hn)
      · rcases mem_of_mem_kept hline with rfl | htext
        · cases hcline
        · exact hblank c (mem_of_mem_lines htext hcline) (hfront c hc)
    rw [removeDoclets_eq, String.toList_ofList, ← docletNames_plain_append hplain,
      ← docletNames_append_blank hback, ← hs, lines_unlines_kept, hbare]
  have hlist : docletList (removeDoclets text).toList = [] := by
    rw [← List.map_eq_nil_iff (f := Prod.fst), map_fst_docletList, hnames]
  exact ⟨(readDoclets_eq_empty_iff _).2 hlist,
    (removeDoclets_eq_self_iff (trim_removeDoclets text)).2 hlist⟩

end ComponentDocs
