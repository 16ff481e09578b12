import ComponentDocs.Proofs.Doclet.Names

/-!
# What the search for doclets makes of a line

Each line of a text is running text, starts a doclet, or belongs to the value of the doclet above
it. The names of the doclets are those of the lines that start one, and removing the doclets leaves
the running text in its place: `filterMap_name?_docletLines`, `removeDoclets_eq`.
-/

namespace ComponentDocs

open Text

/-- What the search for doclets makes of a line. -/
inductive LineRole where
  /-- A line that is no part of a doclet. -/
  | text
  /-- The first line of a doclet. -/
  | doclet (name : String)
  /-- A line of the value of the doclet above it. -/
  | value
  deriving DecidableEq, Repr

/-- A line of a text, whether it stands inside code when every line break counts, and its role. -/
structure DocletLine where
  text : List Char
  inside : Bool
  role : LineRole
  deriving DecidableEq, Repr

namespace DocletLine

/-- The name of the doclet that the line starts. -/
def name? (line : DocletLine) : Option String :=
  match line.role with
  | .doclet name => some name
  | _ => none

/-- What is left of the line without the doclets: an empty line takes the place of each. -/
def kept (line : DocletLine) : List (List Char) :=
  match line.role with
  | .text => [line.text]
  | .doclet _ => [[]]
  | .value => []

end DocletLine

/-- The role of a line, when the value of a doclet above it reaches it iff `covered`. -/
def MaskedLine.role (covered : Bool) (line : MaskedLine) : LineRole :=
  match line.markerLine? with
  | none => if covered then .value else .text
  | some found =>
    match found.form with
    | .other => .text
    | _ => .doclet (String.ofList found.name)

/-- Whether the value of a doclet reaches the line below. -/
def MaskedLine.covers (covered : Bool) (line : MaskedLine) : Bool :=
  match line.markerLine? with
  | none => covered
  | some found => found.form = .valued

/-- Lines with their roles. -/
def docletLinesFrom (covered inside : Bool) : List (List Char) → List DocletLine
  | [] => []
  | line :: rest =>
    let masked : MaskedLine := ⟨line, maskLine inside line⟩
    ⟨line, inside, masked.role covered⟩ ::
      docletLinesFrom (masked.covers covered) (stateAfterLine inside line) rest

/-- The lines of a text with their roles. -/
def docletLines (text : List Char) : List DocletLine :=
  docletLinesFrom false false (lines text)

@[simp] theorem map_text_docletLinesFrom (covered inside : Bool) (ls : List (List Char)) :
    (docletLinesFrom covered inside ls).map DocletLine.text = ls := by
  induction ls generalizing covered inside with
  | nil => rfl
  | cons line rest ih => rw [docletLinesFrom, List.map_cons, ih]

/-! ## Roles and names -/

theorem MaskedLine.role_eq_doclet_iff {covered : Bool} {line : MaskedLine} {name : String} :
    line.role covered = .doclet name ↔ line.docletName? = some name := by
  unfold role docletName?
  cases line.markerLine? with
  | none => cases covered <;> simp
  | some found =>
    rw [Option.bind_some]
    cases hform : found.form <;> simp [hform]

theorem MaskedLine.role_false_ne_value (line : MaskedLine) : line.role false ≠ .value := by
  unfold role
  cases line.markerLine? with
  | none => simp
  | some found => cases hform : found.form <;> simp [hform]

theorem MaskedLine.role_maskLine_iff {covered inside : Bool} {line : List Char} {name : String} :
    MaskedLine.role covered ⟨line, maskLine inside line⟩ = .doclet name ↔
      (startedDoclet? inside line).map String.ofList = some name := by
  rw [role_eq_doclet_iff, docletName?_maskLine]

theorem startedDoclet?_of_role {covered inside : Bool} {line : List Char}
    (h : ∀ name, MaskedLine.role covered ⟨line, maskLine inside line⟩ ≠ .doclet name) :
    startedDoclet? inside line = none := by
  by_contra hne
  obtain ⟨word, hword⟩ := Option.ne_none_iff_exists'.1 hne
  exact h _ (MaskedLine.role_maskLine_iff.2 (by rw [hword]; rfl))

-- A line that starts no doclet is running text, unless a value reaches it.
theorem MaskedLine.role_of_docletName? {line : MaskedLine} (h : line.docletName? = none) :
    line.role false = .text ∧ line.covers false = false := by
  unfold docletName? at h
  unfold role covers
  cases hmarker : line.markerLine? with
  | none => exact ⟨rfl, rfl⟩
  | some found =>
    rw [hmarker, Option.bind_some] at h
    cases hform : found.form with
    | other => simp [hform]
    | bare =>
      rw [hform] at h
      cases h
    | valued =>
      rw [hform] at h
      cases h

theorem filterMap_name?_docletLinesFrom (covered inside : Bool) (ls : List (List Char)) :
    (docletLinesFrom covered inside ls).filterMap DocletLine.name? = docletNames inside ls := by
  have hname : ∀ (line : MaskedLine) covered text inside,
      DocletLine.name? ⟨text, inside, line.role covered⟩ = line.docletName? := by
    intro line covered text inside
    refine Option.ext fun name => ?_
    rw [← @MaskedLine.role_eq_doclet_iff covered, DocletLine.name?]
    cases line.role covered <;> simp
  induction ls generalizing covered inside with
  | nil => rfl
  | cons line rest ih =>
    rw [docletLinesFrom, List.filterMap_cons, hname, ih, docletNames, docletNames, maskedLinesFrom,
      List.filterMap_cons]

/-- The names of the doclets in a text are those of the lines that start one. -/
theorem filterMap_name?_docletLines (text : List Char) :
    (docletLines text).filterMap DocletLine.name? = (docletList text).map Prod.fst := by
  rw [docletLines, filterMap_name?_docletLinesFrom, map_fst_docletList]

/-! ## Roles and removal -/

theorem flatMap_kept_docletLinesFrom (covered inside : Bool) (ls : List (List Char)) :
    (docletLinesFrom covered inside ls).flatMap DocletLine.kept =
      (if covered then []
        else (sections MaskedLine.markerLine? (maskedLinesFrom inside ls)).1.map MaskedLine.text) ++
        (sections MaskedLine.markerLine? (maskedLinesFrom inside ls)).2.flatMap
          DocletSection.kept := by
  induction ls generalizing covered inside with
  | nil => cases covered <;> rfl
  | cons line rest ih =>
    rw [docletLinesFrom, List.flatMap_cons, ih, maskedLinesFrom]
    cases hmarker : MaskedLine.markerLine? ⟨line, maskLine inside line⟩ with
    | none =>
      rw [sections_cons_none hmarker, MaskedLine.role, MaskedLine.covers, hmarker]
      cases covered <;> rfl
    | some found =>
      have htext : found.text = line := by
        obtain ⟨_, _, rfl⟩ := Option.map_eq_some_iff.1 hmarker
        rfl
      rw [sections_cons_some hmarker, MaskedLine.role, MaskedLine.covers, hmarker,
        List.flatMap_cons, DocletSection.kept]
      cases hform : found.form <;> cases covered <;> simp [hform, htext, DocletLine.kept]

/-- Removing the doclets leaves the lines of running text, and an empty line for each doclet. -/
theorem removeDoclets_eq (text : String) :
    removeDoclets text = String.ofList
      (trim (unlines ((docletLines text.toList).flatMap DocletLine.kept))) := by
  rw [docletLines, flatMap_kept_docletLinesFrom, ← maskedLines_eq]
  rfl

/-! ## A line and those above it -/

theorem of_docletLinesFrom_eq {covered inside : Bool} {ls : List (List Char)}
    {before after : List DocletLine} {line : DocletLine}
    (h : docletLinesFrom covered inside ls = before ++ line :: after) :
    line.inside = stateAfterLines inside (before.map DocletLine.text) ∧
      ∀ name, line.role = .doclet name ↔
        (startedDoclet? line.inside line.text).map String.ofList = some name := by
  induction before generalizing covered inside ls with
  | nil =>
    cases ls with
    | nil => cases h
    | cons first rest =>
      obtain ⟨rfl, -⟩ := List.cons.inj h
      exact ⟨rfl, fun _ => MaskedLine.role_maskLine_iff⟩
  | cons d before ih =>
    cases ls with
    | nil => cases h
    | cons first rest =>
      obtain ⟨rfl, hrest⟩ := List.cons.inj h
      exact ih hrest

/-- The value of a doclet reaches from its first line to the line below some lines. -/
def Covered (above : List DocletLine) : Prop :=
  ∃ front opener run, above = front ++ opener :: run ∧ opener.name?.isSome ∧
    ∀ line ∈ run, line.role = .value

theorem covered_of_docletLinesFrom_eq {covered inside : Bool} {ls : List (List Char)}
    {before after : List DocletLine} {line : DocletLine}
    (h : docletLinesFrom covered inside ls = before ++ line :: after)
    (hvalue : line.role = .value) :
    (covered ∧ ∀ l ∈ before, l.role = .value) ∨ Covered before := by
  induction before generalizing covered inside ls with
  | nil =>
    cases ls with
    | nil => cases h
    | cons first rest =>
      obtain ⟨rfl, -⟩ := List.cons.inj h
      refine .inl ⟨?_, by simp⟩
      cases covered with
      | true => rfl
      | false => exact absurd hvalue (MaskedLine.role_false_ne_value _)
  | cons d before ih =>
    cases ls with
    | nil => cases h
    | cons first rest =>
      obtain ⟨rfl, hrest⟩ := List.cons.inj h
      rcases ih hrest with ⟨hcovers, hrun⟩ | ⟨front, opener, run, rfl, hopener, hrun⟩
      · unfold MaskedLine.covers at hcovers
        cases hmarker : MaskedLine.markerLine? ⟨first, maskLine inside first⟩ with
        | none =>
          rw [hmarker] at hcovers
          refine .inl ⟨hcovers, List.forall_mem_cons.2 ⟨?_, hrun⟩⟩
          simp only [MaskedLine.role, hmarker]
          exact if_pos hcovers
        | some found =>
          -- the value begins in this line
          rw [hmarker] at hcovers
          refine .inr ⟨[], _, before, rfl, ?_, hrun⟩
          have hform : found.form = .valued := by simpa using hcovers
          simp [DocletLine.name?, MaskedLine.role, hmarker, hform]
      · exact .inr ⟨_ :: front, opener, run, rfl, hopener, hrun⟩

/-- A line of a value stands below the doclet that the value belongs to. -/
theorem covered_of_role_value {text : List Char} {before after : List DocletLine}
    {line : DocletLine} (h : docletLines text = before ++ line :: after)
    (hvalue : line.role = .value) : Covered before :=
  (covered_of_docletLinesFrom_eq h hvalue).resolve_left fun hfirst => by cases hfirst.1

end ComponentDocs
