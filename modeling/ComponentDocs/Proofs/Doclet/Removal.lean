import ComponentDocs.Proofs.Dict
import ComponentDocs.Proofs.Doclet.Agreement
import ComponentDocs.Proofs.Doclet.Roles

/-!
# Removing doclets twice

What is left of a text without its doclets may have doclets of its own: trimming may bring an at
sign to the front, and a value may take an odd number of fence marks away. Without either, and only
then, nothing is left to remove: `removeDoclets_again_iff`.
-/

namespace ComponentDocs

open Text

/-! ## Texts without doclets -/

-- A line that starts a doclet has an at sign.
theorem mem_of_startedDoclet? {inside : Bool} {line word : List Char}
    (h : startedDoclet? inside line = some word) : '@' ∈ line := by
  by_contra hmem
  have hnone : startedDoclet? inside line = none := by
    refine startedDoclet?_of_head? (fun hat => hmem ?_) inside
    exact (List.dropWhile_sublist isIndent).subset (List.mem_of_mem_head? hat)
  rw [hnone] at h
  cases h

theorem mem_of_mem_docletLines {text : List Char} {line : DocletLine}
    (hline : line ∈ docletLines text) {name : String} (h : line.role = .doclet name) :
    '@' ∈ line.text := by
  obtain ⟨before, after, hsplit⟩ := List.append_of_mem hline
  have hstarted := ((of_docletLinesFrom_eq hsplit).2 name).1 h
  obtain ⟨word, hword, -⟩ := Option.map_eq_some_iff.1 hstarted
  exact mem_of_startedDoclet? hword

theorem DocletLine.count_kept {line : DocletLine}
    (h : ∀ name, line.role = .doclet name → '@' ∈ line.text) :
    line.kept.flatten.count '@' + line.name?.toList.length ≤ line.text.count '@' := by
  unfold kept name?
  cases hrole : line.role with
  | text => simp
  | doclet name => simpa using h name hrole
  | value => simp

theorem count_flatMap_kept {found : List DocletLine}
    (h : ∀ line ∈ found, ∀ name, line.role = .doclet name → '@' ∈ line.text) :
    (found.flatMap DocletLine.kept).flatten.count '@' +
        (found.filterMap DocletLine.name?).length ≤
      (found.map DocletLine.text).flatten.count '@' := by
  induction found with
  | nil => exact Nat.le_refl 0
  | cons line rest ih =>
    rw [List.forall_mem_cons] at h
    have hline := DocletLine.count_kept h.1
    have hrest := ih h.2
    have hlength : ((line :: rest).filterMap DocletLine.name?).length =
        line.name?.toList.length + (rest.filterMap DocletLine.name?).length := by
      rw [List.filterMap_cons]
      cases line.name? with
      | none => exact (Nat.zero_add _).symm
      | some name => exact Nat.add_comm _ 1
    rw [hlength, List.flatMap_cons, List.flatten_append, List.count_append, List.map_cons,
      List.flatten_cons, List.count_append]
    omega

-- Every doclet that is removed takes an at sign with it.
theorem count_removeDoclets (text : String) :
    (removeDoclets text).toList.count '@' + (docletList text.toList).length ≤
      text.toList.count '@' := by
  have hmarked : ∀ line ∈ docletLines text.toList, ∀ name, line.role = .doclet name →
      '@' ∈ line.text := fun _ hline _ => mem_of_mem_docletLines hline
  have hkept := count_flatMap_kept hmarked
  have htrim :=
    (sublist_trim (unlines ((docletLines text.toList).flatMap DocletLine.kept))).count_le '@'
  have hwhole := count_unlines (c := '@') (by decide) (lines text.toList)
  rw [filterMap_name?_docletLines, List.length_map, docletLines, map_text_docletLinesFrom,
    ← hwhole, unlines_lines] at hkept
  rw [count_unlines (by decide)] at htrim
  rw [removeDoclets_eq, String.toList_ofList]
  exact Nat.le_trans (Nat.add_le_add_right htrim _) hkept

theorem flatMap_kept_of_docletNames {inside : Bool} {ls : List (List Char)}
    (h : docletNames inside ls = []) :
    (docletLinesFrom false inside ls).flatMap DocletLine.kept = ls := by
  induction ls generalizing inside with
  | nil => rfl
  | cons line rest ih =>
    rw [docletNames_cons, ← docletName?_maskLine, List.append_eq_nil_iff,
      Option.toList_eq_nil_iff] at h
    obtain ⟨hrole, hcovers⟩ := MaskedLine.role_of_docletName? h.1
    rw [docletLinesFrom, hrole, hcovers, List.flatMap_cons, ih h.2]
    rfl

-- A text without doclets is only trimmed.
theorem removeDoclets_of_docletList {text : String} (h : docletList text.toList = []) :
    removeDoclets text = String.ofList (trim text.toList) := by
  have hnames : docletNames false (lines text.toList) = [] := by
    rw [← map_fst_docletList, h, List.map_nil]
  rw [removeDoclets_eq, docletLines, flatMap_kept_of_docletNames hnames, unlines_lines]

/-- Removing the doclets leaves a trimmed text as it is when it has none, and only then. -/
theorem removeDoclets_eq_self_iff {text : String} (htrim : trim text.toList = text.toList) :
    removeDoclets text = text ↔ docletList text.toList = [] := by
  constructor
  · intro h
    have hcount := count_removeDoclets text
    rw [h] at hcount
    exact List.eq_nil_of_length_eq_zero (by omega)
  · intro h
    rw [removeDoclets_of_docletList h, htrim, String.ofList_toList]

/-! ## Lines that stay -/

/-- The lines of doclets, which removal takes away. -/
def removedLines (found : List DocletLine) : List (List Char) :=
  (found.filter fun line => line.role ≠ .text).map DocletLine.text

theorem stateAfterLine_bne (inside other : Bool) (line : List Char) :
    stateAfterLine (inside != other) line = (stateAfterLine inside line != other) :=
  fenceAfter_bne inside other _

-- A line that both states pass leaves them as far apart as they are.
theorem stateAfterLine_bne_stateAfterLine (inside other : Bool) (line : List Char) :
    (stateAfterLine inside line != stateAfterLine other line) = (inside != other) := by
  have hinside := stateAfterLine_bne false inside line
  have hother := stateAfterLine_bne false other line
  rw [Bool.false_bne] at hinside hother
  rw [hinside, hother]
  cases stateAfterLine false line <;> cases inside <;> cases other <;> rfl

theorem forall_append_cons_iff {α : Type} {P : List α → α → Prop} {a : α} {l : List α} :
    (∀ before x after, a :: l = before ++ x :: after → P before x) ↔
      P [] a ∧ ∀ before x after, l = before ++ x :: after → P (a :: before) x := by
  constructor
  · intro h
    refine ⟨h [] a l rfl, fun before x after hl => ?_⟩
    exact h (a :: before) x after (by rw [hl]; rfl)
  · rintro ⟨hfirst, hrest⟩ before x after hl
    cases before with
    | nil =>
      obtain ⟨rfl, -⟩ := List.cons.inj hl
      exact hfirst
    | cons b before =>
      obtain ⟨rfl, htail⟩ := List.cons.inj hl
      exact hrest before x after htail

/-- The lines that stay start no doclet, unless one does in the other state, below an odd number of
fence marks that are taken away. -/
theorem docletNames_kept_eq_nil_iff (covered inside odd : Bool) (ls : List (List Char)) :
    docletNames (inside != odd) ((docletLinesFrom covered inside ls).flatMap DocletLine.kept) = [] ↔
      ∀ before line after, docletLinesFrom covered inside ls = before ++ line :: after →
        line.role = .text → stateAfterLines odd (removedLines before) →
          startedDoclet? (!line.inside) line.text = none := by
  induction ls generalizing covered inside odd with
  | nil => simp [docletLinesFrom, docletNames, maskedLinesFrom]
  | cons line rest ih =>
    rw [docletLinesFrom, forall_append_cons_iff, List.flatMap_cons]
    -- a line that is taken away moves both states, one that stays moves none of them apart
    have hstate := stateAfterLine_bne_stateAfterLine inside odd line
    cases hrole : MaskedLine.role covered ⟨line, maskLine inside line⟩ with
    | text =>
      have hnone : startedDoclet? inside line = none :=
        startedDoclet?_of_role fun name hname => by rw [hrole] at hname; cases hname
      have hfirst : startedDoclet? (inside != odd) line = none ↔
          (LineRole.text = .text → odd = true → startedDoclet? (!inside) line = none) := by
        cases odd with
        | false => simp [hnone]
        | true => simp
      change docletNames (inside != odd) (line :: _) = [] ↔ _
      rw [docletNames_cons, List.append_eq_nil_iff, Option.toList_eq_nil_iff,
        Option.map_eq_none_iff, stateAfterLine_bne]
      exact and_congr hfirst (ih _ _ odd)
    | doclet name =>
      change docletNames (inside != odd) ([] :: _) = [] ↔ _
      rw [docletNames_cons, startedDoclet?_of_blank (by simp)]
      change docletNames (inside != odd) _ = [] ↔ _
      rw [← hstate]
      exact (ih _ _ _).trans (and_iff_right fun htext => by cases htext).symm
    | value =>
      change docletNames (inside != odd) _ = [] ↔ _
      rw [← hstate]
      exact (ih _ _ _).trans (and_iff_right fun htext => by cases htext).symm

/-! ## A second removal -/

/-- A trimmed text has no doclets when the text has none and none comes to the front. -/
theorem docletNames_trim_eq_nil_iff (s : List Char) :
    docletNames false (lines (trim s)) = [] ↔
      lineDoclet? (trim s) = none ∧ docletNames false (lines s) = [] := by
  constructor
  · intro h
    obtain ⟨first, others, hlines⟩ := exists_lines_eq_cons (trim s)
    have hfirst := h
    rw [docletNames_lines_eq hlines, List.append_eq_nil_iff, Option.toList_eq_nil_iff,
      Option.map_eq_none_iff] at hfirst
    exact ⟨hfirst.1, (docletNames_trim hfirst.1).symm.trans h⟩
  · rintro ⟨hnone, h⟩
    exact (docletNames_trim hnone).trans h

-- What stays is lines of the text and empty lines.
theorem mem_of_mem_kept {text line : List Char}
    (h : line ∈ (docletLines text).flatMap DocletLine.kept) : line = [] ∨ line ∈ lines text := by
  obtain ⟨found, hfound, hline⟩ := List.mem_flatMap.1 h
  have htext : found.text ∈ lines text := by
    have hmem := List.mem_map_of_mem (f := DocletLine.text) hfound
    rwa [docletLines, map_text_docletLinesFrom] at hmem
  unfold DocletLine.kept at hline
  cases hrole : found.role with
  | text =>
    rw [hrole] at hline
    exact .inr (List.mem_singleton.1 hline ▸ htext)
  | doclet name =>
    rw [hrole] at hline
    exact .inl (List.mem_singleton.1 hline)
  | value =>
    rw [hrole] at hline
    cases hline

-- The first line of a text is no part of a value, so something stays.
theorem flatMap_kept_ne_nil (text : List Char) :
    (docletLines text).flatMap DocletLine.kept ≠ [] := by
  obtain ⟨first, others, hlines⟩ := exists_lines_eq_cons text
  rw [docletLines, hlines, docletLinesFrom, List.flatMap_cons]
  unfold DocletLine.kept
  cases hrole : MaskedLine.role false ⟨first, maskLine false first⟩ with
  | text => exact List.cons_ne_nil _ _
  | doclet name => exact List.cons_ne_nil _ _
  | value => exact absurd hrole (MaskedLine.role_false_ne_value _)

theorem lines_unlines_kept (text : List Char) :
    lines (unlines ((docletLines text).flatMap DocletLine.kept)) =
      (docletLines text).flatMap DocletLine.kept := by
  refine lines_unlines (flatMap_kept_ne_nil text) fun line hline => ?_
  rcases mem_of_mem_kept hline with rfl | hmem
  · exact List.not_mem_nil
  · exact newline_not_mem_of_mem_lines hmem

/-- A line that stays is laid bare: it starts a doclet in the other state, and the fence marks that
are taken away above it are odd in number. -/
def LaidBare (above : List DocletLine) (line : DocletLine) : Prop :=
  line.role = .text ∧ stateAfterLines false (removedLines above) ∧
    (startedDoclet? (!line.inside) line.text).isSome

theorem docletNames_kept_docletLines_eq_nil_iff (text : List Char) :
    docletNames false ((docletLines text).flatMap DocletLine.kept) = [] ↔
      ∀ before line after, docletLines text = before ++ line :: after → ¬ LaidBare before line := by
  refine (docletNames_kept_eq_nil_iff false false false _).trans ?_
  simp only [LaidBare, not_and, Bool.not_eq_true, Option.isSome_eq_false_iff,
    Option.isNone_iff_eq_none]
  rfl

theorem docletList_removeDoclets_eq_nil_iff (text : String) :
    docletList (removeDoclets text).toList = [] ↔
      lineDoclet? (removeDoclets text).toList = none ∧
        ∀ before line after, docletLines text.toList = before ++ line :: after →
          ¬ LaidBare before line := by
  rw [← List.map_eq_nil_iff (f := Prod.fst), map_fst_docletList, removeDoclets_eq,
    String.toList_ofList, docletNames_trim_eq_nil_iff, lines_unlines_kept,
    docletNames_kept_docletLines_eq_nil_iff]

theorem readDoclets_eq_empty_iff (text : String) :
    readDoclets text = .empty ↔ docletList text.toList = [] :=
  Dict.ofList_eq_empty_iff

theorem trim_removeDoclets (text : String) :
    trim (removeDoclets text).toList = (removeDoclets text).toList := by
  rw [removeDoclets_eq, String.toList_ofList, trim_trim]

/-- Without its doclets a text has none left, unless trimming brings one to the front or a line is
laid bare; and a second removal changes nothing when none is left, and only then. -/
theorem removeDoclets_again_iff (text : String) :
    (readDoclets (removeDoclets text) = .empty ↔
      lineDoclet? (removeDoclets text).toList = none ∧
        ∀ before line after, docletLines text.toList = before ++ line :: after →
          ¬ LaidBare before line) ∧
    (removeDoclets (removeDoclets text) = removeDoclets text ↔
      readDoclets (removeDoclets text) = .empty) := by
  rw [readDoclets_eq_empty_iff]
  exact ⟨docletList_removeDoclets_eq_nil_iff text,
    removeDoclets_eq_self_iff (trim_removeDoclets text)⟩

/-- A marker behind a white space that does not indent a line comes to the front when the text is
trimmed, and one in code is laid bare when the value above it takes the fence mark away. -/
theorem removeDoclets_again_noBreakSpace :
    removeDoclets "\u00a0@public" = "@public" ∧
    docletList "@public".toList = [("public", .flag true)] ∧
    removeDoclets "@public" = "" ∧
    removeDoclets "@a x\n\x60\x60\x60\n@@b-c\n@d\n\x60\x60\x60" = "@@b-c\n@d\n\x60\x60\x60" ∧
    docletList "@@b-c\n@d\n\x60\x60\x60".toList = [("d", .flag true)] := by
  decide +kernel

end ComponentDocs
