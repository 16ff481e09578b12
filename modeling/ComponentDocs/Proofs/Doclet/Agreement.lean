import ComponentDocs.Proofs.Doclet.Names
import ComponentDocs.Proofs.Log

/-!
# Doclets and tags

Doclets are found in a masked copy of a text, tags by the state of each line. Where spaces, tabs and
newlines are the only white space, and no line of code has a second marker behind its first at sign,
both find the same lines: `docletList_eq_tags`.
-/

namespace ComponentDocs

open Text

/-- Whether a marker stands behind an at sign at the front of a line, white space apart. -/
def hidesMarker (line : List Char) : Bool :=
  match trimLeft line with
  | '@' :: rest => (titled? rest).isSome
  | _ => false

/-- A line whose only white space is spaces and tabs. -/
def PlainLine (line : List Char) : Prop :=
  ∀ c ∈ line, isIndent c = isBlank c

/-! ## One line -/

theorem lineMarker?_of_plain {line : List Char} (h : PlainLine line) :
    lineMarker? line = titled? line := by
  have hfront : line.dropWhile isIndent = trimLeft line := by
    unfold trimLeft
    induction line with
    | nil => rfl
    | cons c rest ih =>
      have hc := h c List.mem_cons_self
      have hrest := ih fun d hd => h d (List.mem_cons_of_mem c hd)
      rw [List.dropWhile_cons, List.dropWhile_cons, hc, hrest]
  rw [lineMarker?, hfront, titled?]

theorem isLineBreak_of_plain {line : List Char} (h : PlainLine line) :
    ∀ c ∈ line, isLineBreak c = false := by
  intro c hc
  by_contra hbreak
  rw [Bool.not_eq_false] at hbreak
  have hindent : isIndent c := by rw [h c hc, isBlank_of_isLineBreak hbreak]
  simp only [isIndent, Bool.or_eq_true, beq_iff_eq] at hindent
  rcases hindent with rfl | rfl <;> exact absurd hbreak (by decide)

-- A line without breaks is masked as a whole.
theorem maskLine_of_plain {line : List Char} (h : PlainLine line) (inside : Bool) :
    maskLine inside line =
        (if inside && !hasFenceMark line then blankMarker line else line) ∧
      stateAfterLine inside line = (inside != hasFenceMark line) := by
  unfold maskLine stateAfterLine
  by_cases hnil : line = []
  · rw [hnil]
    cases inside <;> exact ⟨rfl, rfl⟩
  · rw [breakLines_of_text (isLineBreak_of_plain h) hnil]
    simp only [maskFrom, BrokenLine.toList, List.append_nil, List.map_singleton, fenceAfter_cons,
      fenceAfter_nil, and_self]

-- A line that hides no marker has none when its first at sign is blanked.
theorem titled?_blankMarker {line : List Char} (h : hidesMarker line = false) :
    titled? (blankMarker line) = none := by
  obtain ⟨front, hline, hfront⟩ := exists_margin_left line
  rw [hidesMarker] at h
  rw [hline, blankMarker_blank_append hfront, titled?_blank_append hfront]
  cases hcore : trimLeft line with
  | nil => rfl
  | cons c rest =>
    have hc : ¬ isBlank c := by
      have hself : trimLeft (c :: rest) = c :: rest := by rw [← hcore, trimLeft_trimLeft]
      exact trimLeft_eq_self_iff.1 hself c rfl
    rw [hcore] at h
    by_cases hat : c = '@'
    · rw [hat] at h ⊢
      have hspace : ∀ d ∈ [' '], isBlank d := List.forall_mem_singleton.2 rfl
      rw [blankMarker, if_pos rfl]
      change titled? ([' '] ++ rest) = none
      rw [titled?_blank_append hspace]
      simpa using h
    · rw [blankMarker, if_neg hat, titled?, trimLeft_cons_of_not_blank hc, marker?]
      rintro r hr
      exact hat (List.cons.inj hr).1

theorem titled?_of_hasFenceMark {line : List Char} (h : hasFenceMark line) :
    titled? line = none := by
  rw [hasFenceMark] at h
  rw [titled?]
  cases hcore : trimLeft line with
  | nil => rfl
  | cons c rest =>
    rw [hcore] at h
    rw [marker?]
    rintro r hr
    obtain ⟨rfl, -⟩ := List.cons.inj hr
    cases h

theorem drop_of_titled? {line word rest : List Char} (h : titled? line = some (word, rest)) :
    line.drop (line.length - rest.length) = rest := by
  have hsuffix : rest <:+ line := by
    obtain ⟨front, hline, -⟩ := exists_margin_left line
    rw [hline, eq_of_marker? h, ← List.append_assoc]
    exact List.suffix_append _ rest
  exact (List.suffix_iff_eq_drop.1 hsuffix).symm

/-! ## All lines -/

/-- A marker line and a tag line with the same word and the same text after it. -/
def MarkerLine.Matches (found : MarkerLine) (line : TagLine) : Prop :=
  found.name = line.title ∧ found.rest = line.rest

/-- The same line of a text, as both scanners see it. -/
def MaskedLine.Matches (masked : MaskedLine) (line : CommentLine) : Prop :=
  masked.text = line.text ∧ Option.Rel MarkerLine.Matches masked.markerLine? line.tagLine?

theorem MaskedLine.matches_of_plain {line : List Char} (hplain : PlainLine line) {inside : Bool}
    (hcode : inside → hidesMarker line = false) (number : Nat) :
    MaskedLine.Matches ⟨line, maskLine inside line⟩ ⟨number, inside, line⟩ := by
  refine ⟨rfl, ?_⟩
  rw [(maskLine_of_plain hplain inside).1]
  cases inside with
  | false =>
    change Option.Rel _ ((lineMarker? line).map _) ((titled? line).map _)
    rw [lineMarker?_of_plain hplain]
    cases htitle : titled? line with
    | none => exact .none
    | some found => exact .some ⟨rfl, drop_of_titled? htitle⟩
  | true =>
    have hnone : lineMarker?
        (if true && !hasFenceMark line then blankMarker line else line) = none := by
      cases hmark : hasFenceMark line with
      | true =>
        -- the line that closes the code is not masked, but a fence mark is no marker
        change lineMarker? line = none
        rw [lineMarker?_of_plain hplain, titled?_of_hasFenceMark hmark]
      | false =>
        change lineMarker? (blankMarker line) = none
        by_contra hsome
        obtain ⟨found, hfound⟩ := Option.ne_none_iff_exists'.1 hsome
        have htitle := titled?_of_lineMarker? hfound
        rw [titled?_blankMarker (hcode rfl)] at htitle
        cases htitle
    unfold MaskedLine.markerLine?
    rw [hnone]
    exact .none

theorem forall₂_matches {ls : List (List Char)} (hplain : ∀ line ∈ ls, PlainLine line)
    {number : Nat} {inside : Bool}
    (hcode : ∀ line ∈ commentLinesFrom number inside ls,
      line.fenced → hidesMarker line.text = false) :
    List.Forall₂ MaskedLine.Matches (maskedLinesFrom inside ls)
      (commentLinesFrom number inside ls) := by
  induction ls generalizing number inside with
  | nil => exact .nil
  | cons line rest ih =>
    rw [List.forall_mem_cons] at hplain
    rw [commentLinesFrom, List.forall_mem_cons] at hcode
    rw [maskedLinesFrom, commentLinesFrom, (maskLine_of_plain hplain.1 inside).2]
    exact .cons (MaskedLine.matches_of_plain hplain.1 hcode.1 number) (ih hplain.2 hcode.2)

theorem plainLine_of_mem_lines {text : List Char}
    (h : ∀ c ∈ text, isBlank c → c = ' ' ∨ c = '\t' ∨ c = '\n') :
    ∀ line ∈ lines text, PlainLine line := by
  intro line hline c hc
  have hnewline : c ≠ '\n' := fun hn => newline_not_mem_of_mem_lines hline (hn ▸ hc)
  cases hblank : isBlank c with
  | true =>
    rcases h c (mem_of_mem_lines hline hc) hblank with rfl | rfl | rfl
    · rfl
    · rfl
    · exact absurd rfl hnewline
  | false =>
    by_contra hindent
    rw [Bool.not_eq_false] at hindent
    rw [isBlank_of_isIndent hindent] at hblank
    cases hblank

/-- The value of a doclet with a text: a mark when the text is empty. -/
def DocletValue.ofText (s : String) : DocletValue :=
  if s = "" then .flag true else .text s

/-- The doclet that a tag line with the lines below it is, when white space or the end of the line
follows the title. -/
def tagDoclet? (s : TagLine × List CommentLine) : Option (String × DocletValue) :=
  match s.1.rest with
  | [] => some (String.ofList s.1.title, .flag true)
  | c :: _ =>
    if isBlank c then
      some (String.ofList s.1.title, .ofText (String.ofList
        (trim (unlines (s.1.rest :: s.2.map CommentLine.text)))))
    else none

theorem DocletSection.value_eq (s : DocletSection) :
    s.value = .ofText (String.ofList (trim (unlines (s.1.rest :: s.2.map MaskedLine.text)))) := by
  unfold value DocletValue.ofText
  cases trim (unlines (s.1.rest :: s.2.map MaskedLine.text)) with
  | nil => rfl
  | cons c rest => simp

theorem map_text_of_matches {l : List MaskedLine} {m : List CommentLine}
    (h : List.Forall₂ MaskedLine.Matches l m) :
    l.map MaskedLine.text = m.map CommentLine.text := by
  induction h with
  | nil => rfl
  | cons hline _ ih => rw [List.map_cons, List.map_cons, hline.1, ih]

-- Sections that match are the same doclet, or none.
theorem doclet?_of_matches {s : DocletSection} {t : TagLine × List CommentLine}
    (hline : s.1.Matches t.1) (hbody : List.Forall₂ MaskedLine.Matches s.2 t.2) :
    s.doclet? = tagDoclet? t := by
  obtain ⟨hname, hrest⟩ := hline
  have hlines := map_text_of_matches hbody
  unfold DocletSection.doclet? tagDoclet? MarkerLine.form
  rw [DocletSection.value_eq, hname, hrest, hlines]
  cases t.1.rest with
  | nil => rfl
  | cons c rest =>
    by_cases hc : isBlank c
    · simp only [hc, if_true]
    · simp only [hc]
      rfl

theorem filterMap_eq_of_forall₂ {α β γ : Type} {R : α → β → Prop} {f : α → Option γ}
    {g : β → Option γ} (hfg : ∀ a b, R a b → f a = g b) {l : List α} {m : List β}
    (h : List.Forall₂ R l m) : l.filterMap f = m.filterMap g := by
  induction h with
  | nil => rfl
  | cons hab _ ih => rw [List.filterMap_cons, List.filterMap_cons, hfg _ _ hab, ih]

-- The tag of a section whose text is kept as it is says what the doclet says.
theorem tagDoclet?_of_read {s : TagLine × List CommentLine} {sloppy : Bool} {tag : Tag}
    (h : s.1.read sloppy s.2 = .ok tag) :
    tag.title = String.ofList s.1.title ∧
      (TagForm.ofTitle tag.title = .plain → ∀ c ∈ s.1.rest.head?, isBlank c →
        tagDoclet? s = some (tag.title, .ofText tag.description)) := by
  rw [TagLine.read_eq_ok_iff] at h
  have htitle := title_of_tagOfLines h
  refine ⟨htitle, fun hform c hc hblank => ?_⟩
  rw [htitle] at hform
  unfold tagOfLines at h
  simp only [hform] at h
  obtain rfl := Except.ok.inj h
  unfold tagDoclet?
  cases hrest : s.1.rest with
  | nil =>
    rw [hrest] at hc
    cases hc
  | cons d rest =>
    rw [hrest] at hc
    rw [Option.some.inj hc]
    simp only [hblank, if_true]

-- The doclets of a text are its tag lines whose title white space or the end of the line follows.
theorem docletList_eq_filterMap {text : List Char}
    (hblank : ∀ c ∈ text, isBlank c → c = ' ' ∨ c = '\t' ∨ c = '\n')
    (hcode : ∀ line ∈ commentLines text, line.fenced → hidesMarker line.text = false) :
    docletList text = (commentSections text).2.filterMap tagDoclet? := by
  rw [commentLines_eq] at hcode
  have hmatch := forall₂_matches (plainLine_of_mem_lines hblank) hcode
  rw [← maskedLines_eq, ← commentLines_eq] at hmatch
  have hsections := (forall₂_sections (fun _ _ h => h.2) hmatch).2
  exact filterMap_eq_of_forall₂ (fun _ _ h => doclet?_of_matches h.1 h.2) hsections

/-- The doclets of a text are its tag lines whose title white space or the end of the line follows,
in order, and the value of such a doclet is the text of its tag where the tag keeps the text as it
is. -/
theorem docletList_eq_tags {text : String}
    (hblank : ∀ c ∈ text.toList, isBlank c → c = ' ' ∨ c = '\t' ∨ c = '\n')
    (hcode : ∀ line ∈ commentLines text.toList, line.fenced → hidesMarker line.text = false) :
    docletList text.toList = (commentSections text.toList).2.filterMap tagDoclet? ∧
      ∀ sloppy comment, Comment.read sloppy text = .ok comment →
        List.Forall₂ (fun s tag => tag.title = String.ofList s.1.title ∧
          (TagForm.ofTitle tag.title = .plain → ∀ c ∈ s.1.rest.head?, isBlank c →
            tagDoclet? s = some (tag.title, .ofText tag.description)))
          (commentSections text.toList).2 comment.tags := by
  refine ⟨docletList_eq_filterMap hblank hcode, fun sloppy comment hread => ?_⟩
  exact (mapM_eq_ok_iff.1 (Comment.read_eq_ok_iff.1 hread).1).imp
    fun _ _ h => tagDoclet?_of_read h

/-- A rule of a style sheet in code belongs to the value of the doclet above it. -/
theorem docletList_of_fencedRule :
    (∀ c ∈ "Hi.\n@see Link\n\x60\x60\x60\n@media\n\x60\x60\x60\n@public".toList,
      isBlank c → c = ' ' ∨ c = '\t' ∨ c = '\n') ∧
    (∀ line ∈ commentLines "Hi.\n@see Link\n\x60\x60\x60\n@media\n\x60\x60\x60\n@public".toList,
      line.fenced → hidesMarker line.text = false) ∧
    docletList "Hi.\n@see Link\n\x60\x60\x60\n@media\n\x60\x60\x60\n@public".toList =
      [("see", .text "Link\n\x60\x60\x60\n@media\n\x60\x60\x60"), ("public", .flag true)] := by
  have hblank : ∀ c ∈ "Hi.\n@see Link\n\x60\x60\x60\n@media\n\x60\x60\x60\n@public".toList,
      isBlank c → c = ' ' ∨ c = '\t' ∨ c = '\n' := by
    have hall : "Hi.\n@see Link\n\x60\x60\x60\n@media\n\x60\x60\x60\n@public".toList.all
        (fun c => !isBlank c || (c == ' ' || c == '\t' || c == '\n')) := by
      decide
    intro c hc hblank
    simpa [hblank, or_assoc] using List.all_eq_true.1 hall c hc
  have hcode : ∀ line ∈ commentLines
      "Hi.\n@see Link\n\x60\x60\x60\n@media\n\x60\x60\x60\n@public".toList,
      line.fenced → hidesMarker line.text = false := by
    decide +kernel
  refine ⟨hblank, hcode, ?_⟩
  rw [(docletList_eq_tags hblank hcode).1]
  decide +kernel

end ComponentDocs
