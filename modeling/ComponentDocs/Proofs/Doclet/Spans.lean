import ComponentDocs.Proofs.Dict
import ComponentDocs.Proofs.Doclet.Agreement
import ComponentDocs.Proofs.Doclet.Masked

/-!
# Where the doclets of a text stand

Each doclet has a span in the text, from the start of its line to the end of it or of its value:
`spansOf_docletSpans`. Lines are judged in the masked copy, but it is the text itself that loses the
spans and that the values are read from: `doclets_of_spans`.
-/

namespace ComponentDocs

open Text

/-! ## Spans -/

/-- Where a doclet stands in a text: the start of its line, the end of its word, and the end of its
value. -/
structure DocletSpan where
  name : String
  start : Nat
  wordEnd : Nat
  stop : Nat
  deriving DecidableEq, Repr

/-- What a text holds between the word of a doclet and the end of its span, trimmed: a mark when
that is nothing. -/
def DocletSpan.value (s : List Char) (f : DocletSpan) : DocletValue :=
  .ofText (String.ofList (trim ((s.take f.stop).drop f.wordEnd)))

/-- What a text has, from a position on, outside of some spans. -/
def outside (s : List Char) (position : Nat) : List DocletSpan → List Char
  | [] => s.drop position
  | f :: rest => (s.take f.start).drop position ++ outside s f.stop rest

theorem MarkerLine.form_eq_bare_iff {line : MarkerLine} : line.form = .bare ↔ line.rest = [] := by
  unfold form
  cases line.rest with
  | nil => simp
  | cons c rest => by_cases hc : isBlank c <;> simp [hc]

theorem MarkerLine.form_ne_other_iff {line : MarkerLine} :
    line.form ≠ .other ↔ ∀ c ∈ line.rest.head?, isBlank c := by
  unfold form
  cases line.rest with
  | nil => simp
  | cons c rest => by_cases hc : isBlank c <;> simp [hc]

namespace DocletSection

/-- The lines of a section. -/
def lines (s : DocletSection) : List (List Char) :=
  s.1.text :: s.2.map MaskedLine.text

/-- The lines below the first one that the value of the doclet reaches. -/
def reached (s : DocletSection) : List (List Char) :=
  match s.1.form with
  | .valued => s.2.map MaskedLine.text
  | _ => []

/-- The lines below the first one that the value of the doclet does not reach. -/
def left (s : DocletSection) : List (List Char) :=
  match s.1.form with
  | .valued => []
  | _ => s.2.map MaskedLine.text

/-- The span of a section that starts at a position, when it has a doclet. -/
def spanAt (start : Nat) (s : DocletSection) : DocletSpan where
  name := String.ofList s.1.name
  start := start
  wordEnd := start + (s.1.text.length - s.1.rest.length)
  stop := start + (s.1.text ++ linesBelow s.reached).length

/-- The span of the doclet of a section that starts at a position. -/
def span? (start : Nat) (s : DocletSection) : Option DocletSpan :=
  match s.1.form with
  | .other => none
  | _ => some (s.spanAt start)

theorem reached_append_left (s : DocletSection) :
    s.reached ++ s.left = s.2.map MaskedLine.text := by
  unfold reached left
  cases s.1.form with
  | bare => rfl
  | valued => exact List.append_nil _
  | other => rfl

theorem kept_eq (s : DocletSection) :
    s.kept = if s.1.form = .other then s.lines else [] :: s.left := by
  unfold kept left lines
  cases s.1.form <;> rfl

theorem span?_eq_none_iff {s : DocletSection} {start : Nat} :
    s.span? start = none ↔ s.1.form = .other := by
  unfold span?
  cases s.1.form <;> simp

theorem span?_eq_some_iff {s : DocletSection} {start : Nat} {f : DocletSpan} :
    s.span? start = some f ↔ s.1.form ≠ .other ∧ f = s.spanAt start := by
  unfold span?
  cases s.1.form <;> simp [eq_comm]

theorem endedLines_lines (s : DocletSection) :
    endedLines s.lines = s.1.text ++ linesBelow s.reached ++ linesBelow s.left ++ ['\n'] := by
  have hne : s.lines ≠ [] := List.cons_ne_nil _ _
  rw [endedLines_eq hne, lines, unlines_cons_eq, ← reached_append_left, linesBelow_append,
    ← List.append_assoc s.1.text]

end DocletSection

/-- The spans of sections, the first of which starts at a position. -/
def spansFrom (start : Nat) : List DocletSection → List DocletSpan
  | [] => []
  | s :: rest => (s.span? start).toList ++ spansFrom (start + (endedLines s.lines).length) rest

/-- The spans of the doclets of a text. -/
def docletSpans (text : List Char) : List DocletSpan :=
  spansFrom (endedLines ((docletSections text).1.map MaskedLine.text)).length
    (docletSections text).2

theorem mem_spansFrom_iff {start : Nat} {found : List DocletSection} {f : DocletSpan} :
    f ∈ spansFrom start found ↔ ∃ before s after, found = before ++ s :: after ∧
      s.span? (start + (endedLines (before.flatMap DocletSection.lines)).length) = some f := by
  induction found generalizing start with
  | nil => simp [spansFrom]
  | cons s rest ih =>
    rw [spansFrom, List.mem_append, Option.mem_toList, ih]
    constructor
    · rintro (h | ⟨before, s', after, rfl, h⟩)
      · exact ⟨[], s, rest, rfl, h⟩
      · refine ⟨s :: before, s', after, rfl, ?_⟩
        rwa [List.flatMap_cons, endedLines_append, List.length_append, ← Nat.add_assoc]
    · rintro ⟨before, s', after, hfound, h⟩
      cases before with
      | nil =>
        obtain ⟨rfl, rfl⟩ := List.cons.inj hfound
        exact .inl h
      | cons p before =>
        obtain ⟨rfl, rfl⟩ := List.cons.inj hfound
        refine .inr ⟨before, s', after, rfl, ?_⟩
        rwa [List.flatMap_cons, endedLines_append, List.length_append, ← Nat.add_assoc] at h

theorem start_le_of_mem_spansFrom {start : Nat} {found : List DocletSection} {f : DocletSpan}
    (h : f ∈ spansFrom start found) : start ≤ f.start := by
  obtain ⟨before, s, after, -, hspan⟩ := mem_spansFrom_iff.1 h
  rw [(DocletSection.span?_eq_some_iff.1 hspan).2]
  exact Nat.le_add_right _ _

-- A span ends before the newline behind its section.
theorem DocletSection.stop_lt_of_span? {s : DocletSection} {start : Nat} {f : DocletSpan}
    (h : s.span? start = some f) : f.stop < start + (endedLines s.lines).length := by
  rw [(DocletSection.span?_eq_some_iff.1 h).2, endedLines_lines]
  simp only [spanAt, List.length_append, List.length_singleton]
  omega

theorem pairwise_spansFrom (start : Nat) (found : List DocletSection) :
    (spansFrom start found).Pairwise fun f g => f.stop < g.start := by
  induction found generalizing start with
  | nil => exact List.Pairwise.nil
  | cons s rest ih =>
    rw [spansFrom]
    cases hspan : s.span? start with
    | none => exact ih _
    | some f =>
      refine List.pairwise_cons.2 ⟨fun g hg => ?_, ih _⟩
      exact (DocletSection.stop_lt_of_span? hspan).trans_le (start_le_of_mem_spansFrom hg)

/-! ## What the spans hold -/

-- A section between the lines above and the sections below it.
theorem unlines_append_section (above : List (List Char)) (s : DocletSection)
    (below : List (List Char)) :
    unlines (above ++ (s.lines ++ below)) =
      endedLines above ++ (s.1.text ++ linesBelow s.reached) ++ linesBelow (s.left ++ below) := by
  rw [DocletSection.lines, List.cons_append, unlines_append_cons, ← s.reached_append_left,
    List.append_assoc s.reached, linesBelow_append s.reached]
  simp only [List.append_assoc]

/-- The lines that are kept are what stands outside of the spans. -/
theorem outside_spansFrom (found : List DocletSection) (above : List (List Char)) {position : Nat}
    (h : position ≤ (endedLines above).length) :
    outside (unlines (above ++ found.flatMap DocletSection.lines)) position
        (spansFrom (endedLines above).length found) =
      (unlines (above ++ found.flatMap DocletSection.kept)).drop position := by
  induction found generalizing above position with
  | nil => rfl
  | cons s rest ih =>
    have hlength : (endedLines above).length + (endedLines s.lines).length =
        (endedLines (above ++ s.lines)).length := by
      rw [endedLines_append, List.length_append]
    have hbelow {position : Nat} (hposition : position ≤ (endedLines (above ++ s.lines)).length) :=
      ih (above ++ s.lines) hposition
    rw [List.append_assoc, List.append_assoc] at hbelow
    rw [List.flatMap_cons, List.flatMap_cons, spansFrom, s.kept_eq, hlength]
    cases hspan : s.span? (endedLines above).length with
    | none =>
      rw [if_pos (DocletSection.span?_eq_none_iff.1 hspan)]
      refine hbelow (h.trans ?_)
      rw [← hlength]
      exact Nat.le_add_right _ _
    | some f =>
      obtain ⟨hform, rfl⟩ := DocletSection.span?_eq_some_iff.1 hspan
      have hstop := (DocletSection.stop_lt_of_span? hspan).le
      rw [hlength] at hstop
      -- what stands above the span stays, and so does what stands below it
      have habove : (unlines (above ++ (s.lines ++ rest.flatMap DocletSection.lines))).take
          (endedLines above).length = endedLines above := by
        rw [unlines_append_section, List.append_assoc, List.take_left]
      have hkept : (unlines (above ++ (s.lines ++ rest.flatMap DocletSection.kept))).drop
          ((endedLines above).length + (s.1.text ++ linesBelow s.reached).length) =
            linesBelow (s.left ++ rest.flatMap DocletSection.kept) := by
        rw [unlines_append_section, ← List.length_append, List.drop_left]
      rw [if_neg hform, Option.toList_some, List.singleton_append, outside, hbelow hstop,
        DocletSection.spanAt, habove, hkept, List.cons_append, unlines_append_cons, List.nil_append,
        List.drop_append_of_le_length h]

-- Behind the word a span holds the rest of the line and the lines that the value reaches.
theorem DocletSection.value_span {s : DocletSection} (h : s.1.rest <:+ s.1.text)
    (above below : List (List Char)) {f : DocletSpan}
    (hf : s.span? (endedLines above).length = some f) :
    f.value (unlines (above ++ (s.lines ++ below))) =
      .ofText (String.ofList (trim (s.1.rest ++ linesBelow s.reached))) := by
  have hdrop : (s.1.text ++ linesBelow s.reached).drop (s.1.text.length - s.1.rest.length) =
      s.1.rest ++ linesBelow s.reached := by
    rw [List.drop_append_of_le_length (Nat.sub_le _ _), ← List.suffix_iff_eq_drop.1 h]
  rw [(span?_eq_some_iff.1 hf).2, DocletSpan.value, spanAt, unlines_append_section,
    ← List.length_append, List.take_left, List.drop_length_add_append, hdrop]

theorem DocletSection.doclet?_eq {s : DocletSection} (h : s.1.rest <:+ s.1.text)
    (above below : List (List Char)) :
    s.doclet? = (s.span? (endedLines above).length).map fun f =>
      (f.name, f.value (unlines (above ++ (s.lines ++ below)))) := by
  cases hspan : s.span? (endedLines above).length with
  | none =>
    rw [doclet?, span?_eq_none_iff.1 hspan]
    rfl
  | some f =>
    have hvalue := value_span h above below hspan
    obtain ⟨hother, rfl⟩ := span?_eq_some_iff.1 hspan
    rw [Option.map_some, hvalue]
    unfold doclet? reached
    cases hform : s.1.form with
    | bare =>
      rw [MarkerLine.form_eq_bare_iff.1 hform]
      rfl
    | valued =>
      rw [DocletSection.value_eq, unlines_cons_eq]
      rfl
    | other => exact absurd hform hother

/-- The doclets are the names of the spans with what the text holds in them. -/
theorem doclets_spansFrom (found : List DocletSection) (above : List (List Char))
    (h : ∀ s ∈ found, s.1.rest <:+ s.1.text) :
    found.filterMap DocletSection.doclet? =
      (spansFrom (endedLines above).length found).map fun f =>
        (f.name, f.value (unlines (above ++ found.flatMap DocletSection.lines))) := by
  induction found generalizing above with
  | nil => rfl
  | cons s rest ih =>
    rw [List.forall_mem_cons] at h
    have hlength : (endedLines above).length + (endedLines s.lines).length =
        (endedLines (above ++ s.lines)).length := by
      rw [endedLines_append, List.length_append]
    have hbelow := ih (above ++ s.lines) h.2
    rw [List.append_assoc] at hbelow
    rw [List.filterMap_cons, List.flatMap_cons, spansFrom, List.map_append, hlength, ← hbelow,
      DocletSection.doclet?_eq h.1 above (rest.flatMap DocletSection.lines)]
    cases s.span? (endedLines above).length <;> rfl

/-! ## Doclets in the masked copy -/

/-- At the start of a line stand blanks, an at sign and a word that white space or the end of the
text follows. -/
structure OpensDoclet (masked before indent word rest : List Char) : Prop where
  spells : masked = before ++ (indent ++ '@' :: word) ++ rest
  lineStart : ∀ c ∈ before.getLast?, c = '\n'
  blanks : ∀ c ∈ indent, isIndent c
  nonempty : word ≠ []
  wordChars : ∀ c ∈ word, isWord c
  ends : ∀ c ∈ rest.head?, isBlank c

/-- The value behind the word of a doclet: nothing at the end of a line, and otherwise all up to the
newline before the next line that starts with a marker. -/
def HoldsValue (value after : List Char) : Prop :=
  (value = [] ∧ ∀ c ∈ after.head?, c = '\n') ∨
    ((∃ c ∈ value.head?, c ≠ '\n') ∧
      (after = [] ∨ ∃ next, after = '\n' :: next ∧ StartsMarker next) ∧
      ∀ front back, value = front ++ '\n' :: back → ¬ StartsMarker (back ++ after))

/-- The span of a doclet in the masked copy of a text. -/
def DocletSpan.Stands (masked : List Char) (f : DocletSpan) : Prop :=
  ∃ before indent word value after, OpensDoclet masked before indent word (value ++ after) ∧
    HoldsValue value after ∧ f.name = String.ofList word ∧ f.start = before.length ∧
    f.wordEnd = (before ++ (indent ++ '@' :: word)).length ∧
    f.stop = (before ++ (indent ++ '@' :: word) ++ value).length

/-! ## Lines of code in the copy -/

/-- A line stands inside code: an odd number of lines above it have fence marks, and it has none. -/
def InCode (above : List BrokenLine) (line : BrokenLine) : Prop :=
  (above.countP fun l => hasFenceMark l.text) % 2 = 1 ∧ hasFenceMark line.text = false

/-- The copy of a line has its first at sign blanked, if there is one. -/
def FirstAtBlanked (line copy : List Char) : Prop :=
  ('@' ∉ line ∧ copy = line) ∨
    ∃ front back, '@' ∉ front ∧ line = front ++ '@' :: back ∧ copy = front ++ ' ' :: back

theorem firstAtBlanked_blankMarker (line : List Char) : FirstAtBlanked line (blankMarker line) := by
  induction line with
  | nil => exact .inl ⟨List.not_mem_nil, rfl⟩
  | cons c rest ih =>
    by_cases hc : c = '@'
    · rw [blankMarker, if_pos hc, hc]
      exact .inr ⟨[], rest, List.not_mem_nil, rfl, rfl⟩
    · rw [blankMarker, if_neg hc]
      rcases ih with ⟨hrest, hcopy⟩ | ⟨front, back, hfront, hrest, hcopy⟩
      · refine .inl ⟨?_, by rw [hcopy]⟩
        rw [List.mem_cons, not_or]
        exact ⟨Ne.symm hc, hrest⟩
      · refine .inr ⟨c :: front, back, ?_, by rw [hrest]; rfl, by rw [hcopy]; rfl⟩
        rw [List.mem_cons, not_or]
        exact ⟨Ne.symm hc, hfront⟩

/-- The copy of a line, in its place: the line itself, but for the first at sign of a line that
stands inside code. -/
structure CopiedLine (masked : List Char) (above : List BrokenLine) (line : BrokenLine)
    (copy : List Char) : Prop where
  placed : ∃ front back, masked = front ++ copy ++ back ∧
    front.length = (above.flatMap BrokenLine.toList).length
  code : InCode above line → FirstAtBlanked line.toList copy
  text : ¬ InCode above line → copy = line.toList

theorem exists_copiedLine_maskCode {text : List Char} {above below : List BrokenLine}
    {line : BrokenLine} (h : breakLines text = above ++ line :: below) :
    ∃ copy, CopiedLine (maskCode text) above line copy := by
  have hstate : fenceAfter false (above.map BrokenLine.text) =
      ((above.countP fun l => hasFenceMark l.text) % 2 == 1) := by
    rw [fenceAfter_eq, List.countP_map, Bool.false_bne]
    rfl
  have hcode : InCode above line ↔
      (fenceAfter false (above.map BrokenLine.text) && !hasFenceMark line.text) = true := by
    rw [hstate, Bool.and_eq_true, beq_iff_eq, Bool.not_eq_true', InCode]
  refine ⟨if fenceAfter false (above.map BrokenLine.text) && !hasFenceMark line.text then
    blankMarker line.toList else line.toList, ?_, fun hin => ?_, fun hout => ?_⟩
  · refine ⟨maskFrom false above,
      maskFrom (fenceAfter false (above.map BrokenLine.text) != hasFenceMark line.text) below,
      ?_, length_maskFrom false above⟩
    rw [maskCode_eq, h, maskFrom_append, maskFrom, List.append_assoc]
  · rw [if_pos (hcode.1 hin)]
    exact firstAtBlanked_blankMarker line.toList
  · exact if_neg fun hin => hout (hcode.2 hin)

/-- The spans of the doclets of a text: whole lines, in order and apart from each other, one for
each line of the masked copy that opens a doclet. The copy has every character in its place, but for
the first at sign of each line of code, which is blanked. -/
structure SpansOf (s masked : List Char) (found : List DocletSpan) : Prop where
  copy : List.Forall₂ MaskedAs s masked
  copied : ∀ above line below, breakLines s = above ++ line :: below →
    ∃ lineCopy, CopiedLine masked above line lineCopy
  sound : ∀ f ∈ found, f.Stands masked
  whole : ∀ f ∈ found, f.stop ≤ s.length ∧ (∀ c ∈ (s.take f.start).getLast?, c = '\n') ∧
    ∀ c ∈ (s.drop f.stop).head?, c = '\n'
  apart : found.Pairwise fun f g => f.stop < g.start
  complete : ∀ before indent word rest, OpensDoclet masked before indent word rest →
    ∃ f ∈ found, f.start = before.length

/-! ## All spans -/

/-- A section in its place among the masked lines of a text. -/
structure SectionAt (text : List Char) (front : List MaskedLine) (line : MaskedLine)
    (back : List MaskedLine) (s : DocletSection) : Prop where
  lines : maskedLines text = front ++ line :: (s.2 ++ back)
  opens : line.markerLine? = some s.1
  body : ∀ x ∈ s.2, x.markerLine? = none
  below : ∀ x ∈ back.head?, (x.markerLine?).isSome

-- Head and sections spell the lines.
theorem map_text_of_docletSections {l head : List MaskedLine} {found : List DocletSection}
    (h : sections MaskedLine.markerLine? l = (head, found)) :
    l.map MaskedLine.text = head.map MaskedLine.text ++ found.flatMap DocletSection.lines := by
  have hspells := map_fst_append_flatMap_sections (f := MaskedLine.text) (g := MarkerLine.text)
    (fun _ _ hline => MaskedLine.text_of_markerLine? hline) l
  rw [h] at hspells
  exact hspells.symm

theorem exists_sectionAt {text : List Char} {before after : List DocletSection} {s : DocletSection}
    (h : (docletSections text).2 = before ++ s :: after) :
    ∃ front line back, SectionAt text front line back s ∧
      (docletSections text).1.map MaskedLine.text ++ before.flatMap DocletSection.lines =
        front.map MaskedLine.text := by
  obtain ⟨front, line, back, hl, hline, hfront, hback, hbody⟩ := exists_of_sections_eq h
  refine ⟨front, line, back, ⟨hl, hline, hbody, fun x hx => ?_⟩,
    (map_text_of_docletSections hfront).symm⟩
  obtain ⟨rest, rfl⟩ := List.head?_eq_some_iff.1 hx
  by_contra hnone
  rw [Option.isSome_iff_ne_none, not_not] at hnone
  rw [sections_cons_none hnone] at hback
  cases (Prod.mk.inj hback).1

section

variable {text : List Char} {front back : List MaskedLine} {line : MaskedLine} {s : DocletSection}

theorem SectionAt.text_eq (h : SectionAt text front line back s) :
    text = unlines (front.map MaskedLine.text ++ (s.lines ++ back.map MaskedLine.text)) := by
  have hlines := map_text_maskedLines text
  rw [h.lines, List.map_append, List.map_cons, List.map_append,
    ← MaskedLine.text_of_markerLine? h.opens] at hlines
  rw [← unlines_lines text, ← hlines]
  rfl

theorem SectionAt.maskCode_eq (h : SectionAt text front line back s) :
    maskCode text = endedLines (front.map MaskedLine.masked) ++
      (line.masked ++ (linesBelow (s.2.map MaskedLine.masked) ++
        linesBelow (back.map MaskedLine.masked))) := by
  rw [← unlines_lines (maskCode text), lines_maskCode, h.lines, List.map_append, List.map_cons,
    List.map_append, unlines_append_cons, linesBelow_append]

theorem SectionAt.mem (h : SectionAt text front line back s) :
    (∀ x ∈ front, x ∈ maskedLines text) ∧ line ∈ maskedLines text ∧
      (∀ x ∈ s.2, x ∈ maskedLines text) ∧ ∀ x ∈ back, x ∈ maskedLines text := by
  rw [h.lines]
  refine ⟨fun x hx => List.mem_append_left _ hx, by simp, fun x hx => ?_, fun x hx => ?_⟩
  · exact List.mem_append_right _ (List.mem_cons_of_mem _ (List.mem_append_left _ hx))
  · exact List.mem_append_right _ (List.mem_cons_of_mem _ (List.mem_append_right _ hx))

theorem newline_not_mem_masked {x : MaskedLine} (h : x ∈ maskedLines text) : '\n' ∉ x.masked :=
  newline_not_mem_of_mem_lines (s := maskCode text)
    (lines_maskCode text ▸ List.mem_map_of_mem h)

-- The first line of a section opens a doclet in the masked copy, where what follows the word is as
-- long as in the text.
theorem SectionAt.opensDoclet (h : SectionAt text front line back s) (hform : s.1.form ≠ .other) :
    ∃ indent rest, OpensDoclet (maskCode text) (endedLines (front.map MaskedLine.masked)) indent
        s.1.name (rest ++ (linesBelow (s.2.map MaskedLine.masked) ++
          linesBelow (back.map MaskedLine.masked))) ∧
      '\n' ∉ rest ∧ rest.length = s.1.rest.length ∧
      s.1.text.length = (indent ++ '@' :: s.1.name).length + s.1.rest.length := by
  obtain ⟨-, hline, -, -⟩ := h.mem
  obtain ⟨rest, hmarker, htext, -, hrest, hblank⟩ := MaskedLine.of_markerLine? hline h.opens
  obtain ⟨indent, hindent, hind⟩ := exists_indent line.masked
  obtain ⟨hcore, hne, hword, -⟩ := marker?_eq_some_iff.1 hmarker
  rw [hcore] at hindent
  refine ⟨indent, rest, ⟨?_, getLast?_endedLines _, hind, hne, hword, fun c hc => ?_⟩,
    fun hmem => newline_not_mem_masked hline ?_, hrest.symm, ?_⟩
  · rw [h.maskCode_eq, hindent]
    simp only [List.append_assoc, List.cons_append]
  · cases rest with
    | nil =>
      rw [List.nil_append, ← linesBelow_append] at hc
      rw [head?_linesBelow _ c hc]
      rfl
    | cons d r => exact hblank.1 (MarkerLine.form_ne_other_iff.1 hform) c hc
  · rw [hindent]
    exact List.mem_append_right _ (List.mem_append_right _ hmem)
  · rw [htext, ← length_masked hline, hindent, hrest, ← List.append_assoc, List.length_append]

-- The value behind the word reaches to the next line that starts with a marker.
theorem SectionAt.holdsValue (h : SectionAt text front line back s) {rest : List Char}
    (hne : rest ≠ []) (hrest : '\n' ∉ rest) :
    HoldsValue (rest ++ linesBelow (s.2.map MaskedLine.masked))
      (linesBelow (back.map MaskedLine.masked)) := by
  obtain ⟨-, -, hbody, hback⟩ := h.mem
  refine .inr ⟨?_, ?_, fun _ _ hsplit => ?_⟩
  · obtain ⟨c, r, rfl⟩ := List.exists_cons_of_ne_nil hne
    refine ⟨c, rfl, ?_⟩
    rintro rfl
    exact hrest List.mem_cons_self
  · cases hrun : back with
    | nil => exact .inl rfl
    | cons x others =>
      rw [hrun] at hback
      have hx : x ∈ maskedLines text := hback x List.mem_cons_self
      have hmarked := h.below x (by rw [hrun]; rfl)
      rw [MaskedLine.markerLine?, Option.isSome_map] at hmarked
      refine .inr ⟨x.masked ++ linesBelow (others.map MaskedLine.masked), rfl, ?_⟩
      rwa [startsMarker_append_iff (newline_not_mem_masked hx) (head?_linesBelow _)]
  · have hbodies : ∀ l ∈ s.2.map MaskedLine.masked, '\n' ∉ l ∧ lineMarker? l = none := by
      rw [List.forall_mem_map]
      exact fun x hx =>
        ⟨newline_not_mem_masked (hbody x hx), Option.map_eq_none_iff.1 (h.body x hx)⟩
    exact not_startsMarker_of_body hrest hbodies (head?_linesBelow _) hsplit

theorem SectionAt.stands (h : SectionAt text front line back s) {f : DocletSpan}
    (hf : s.span? (endedLines (front.map MaskedLine.text)).length = some f) :
    f.Stands (maskCode text) := by
  obtain ⟨hfront, -, hbody, -⟩ := h.mem
  obtain ⟨hother, rfl⟩ := DocletSection.span?_eq_some_iff.1 hf
  obtain ⟨indent, rest, hopens, hnewline, hrest, hwidth⟩ := h.opensDoclet hother
  have hstart := length_endedLines_masked fun x hx => length_masked (hfront x hx)
  have hvalue := length_linesBelow_masked fun x hx => length_masked (hbody x hx)
  have hwordEnd : (endedLines (front.map MaskedLine.text)).length +
      (s.1.text.length - s.1.rest.length) =
        (endedLines (front.map MaskedLine.masked) ++ (indent ++ '@' :: s.1.name)).length := by
    rw [hwidth, Nat.add_sub_cancel, ← hstart, ← List.length_append]
  cases hform : s.1.form with
  | bare =>
    have hnil : s.1.rest = [] := MarkerLine.form_eq_bare_iff.1 hform
    have hreached : s.reached = [] := by rw [DocletSection.reached, hform]
    obtain rfl : rest = [] := by rw [← List.length_eq_zero_iff, hrest, hnil, List.length_nil]
    rw [List.nil_append, ← linesBelow_append] at hopens
    refine ⟨_, indent, s.1.name, [], _, hopens, .inl ⟨rfl, head?_linesBelow _⟩, rfl, hstart.symm,
      hwordEnd, ?_⟩
    rw [List.append_nil, ← hwordEnd, hnil, DocletSection.spanAt, hreached]
    simp [linesBelow]
  | valued =>
    have hreached : s.reached = s.2.map MaskedLine.text := by rw [DocletSection.reached, hform]
    have hne : rest ≠ [] := by
      rintro rfl
      rw [List.length_nil, eq_comm, List.length_eq_zero_iff, ← MarkerLine.form_eq_bare_iff,
        hform] at hrest
      cases hrest
    rw [← List.append_assoc] at hopens
    refine ⟨_, indent, s.1.name, rest ++ linesBelow (s.2.map MaskedLine.masked), _, hopens,
      h.holdsValue hne hnewline, rfl, hstart.symm, hwordEnd, ?_⟩
    rw [List.length_append, ← hwordEnd, DocletSection.spanAt, hreached]
    simp only [List.length_append, hvalue, hrest]
    omega
  | other => exact absurd hform hother

-- A span is whole lines of the text.
theorem SectionAt.whole (h : SectionAt text front line back s) {f : DocletSpan}
    (hf : s.span? (endedLines (front.map MaskedLine.text)).length = some f) :
    f.stop ≤ text.length ∧ (∀ c ∈ (text.take f.start).getLast?, c = '\n') ∧
      ∀ c ∈ (text.drop f.stop).head?, c = '\n' := by
  have htext := h.text_eq
  rw [unlines_append_section] at htext
  obtain ⟨-, rfl⟩ := DocletSection.span?_eq_some_iff.1 hf
  refine ⟨?_, ?_, ?_⟩
  · rw [htext, DocletSection.spanAt]
    simp only [List.length_append]
    omega
  · rw [htext, DocletSection.spanAt, List.append_assoc, List.take_left]
    exact getLast?_endedLines _
  · rw [htext, DocletSection.spanAt, ← List.length_append, List.drop_left]
    exact head?_linesBelow _

end

-- A line of the masked copy that opens a doclet is the first of a section that has a span.
theorem exists_span_of_opensDoclet {text before indent word rest : List Char}
    (h : OpensDoclet (maskCode text) before indent word rest) :
    ∃ f ∈ docletSpans text, f.start = before.length := by
  obtain ⟨above, rfl, habove⟩ := exists_endedLines_eq h.lineStart
  obtain ⟨first, others, hrest⟩ := exists_lines_eq_cons rest
  have hnewline : '\n' ∉ indent ++ '@' :: word := by
    simp only [List.mem_append, List.mem_cons, not_or]
    exact ⟨newline_not_mem_of_isIndent h.blanks, by decide,
      fun hmem => ne_newline_of_isWord (h.wordChars _ hmem) rfl⟩
  have hlines : (maskedLines text).map MaskedLine.masked =
      above ++ (indent ++ '@' :: word ++ first) :: others := by
    rw [← lines_maskCode, h.spells, List.append_assoc, habove,
      lines_append_of_newline_not_mem hnewline hrest]
  obtain ⟨front, back', hsplit, rfl, hback'⟩ := List.map_eq_append_iff.1 hlines
  obtain ⟨line, back, rfl, hline, -⟩ := List.map_eq_cons_iff.1 hback'
  have hmem : ∀ x ∈ front ++ line :: back, x ∈ maskedLines text := fun x hx => hsplit ▸ hx
  have hfirst : ∀ c ∈ first.head?, isBlank c := fun c hc =>
    h.ends c (head?_of_lines hrest c hc)
  have hmarker : lineMarker? line.masked = some (word, first) := by
    rw [lineMarker?, hline, List.append_assoc, dropWhile_isIndent_append h.blanks,
      List.cons_append, List.dropWhile_cons_of_neg (by decide), ← List.cons_append]
    exact marker?_eq_some_iff.2 ⟨rfl, h.nonempty, h.wordChars, fun c hc =>
      not_isWord_of_isBlank (hfirst c hc)⟩
  obtain ⟨found, hfound⟩ : ∃ found, line.markerLine? = some found := by
    rw [MaskedLine.markerLine?, hmarker]
    exact ⟨_, rfl⟩
  obtain ⟨rest', hmarker', -, -, -, hblank⟩ :=
    MaskedLine.of_markerLine? (hmem line (List.mem_append_right _ List.mem_cons_self)) hfound
  rw [hmarker] at hmarker'
  obtain ⟨-, rfl⟩ := Prod.mk.inj (Option.some.inj hmarker')
  have hform : found.form ≠ .other := MarkerLine.form_ne_other_iff.2 (hblank.2 hfirst)
  -- the sections above are those of the lines above, which gives the section its place
  have hsections := sections_append_some hfound front back
  rw [← hsplit, ← docletSections] at hsections
  have habove' := map_text_of_docletSections (l := front) rfl
  refine ⟨_, mem_spansFrom_iff.2 ⟨_, _, _, congrArg Prod.snd hsections,
    DocletSection.span?_eq_some_iff.2 ⟨hform, rfl⟩⟩, ?_⟩
  rw [hsections, ← List.length_append, ← endedLines_append, ← habove']
  exact (length_endedLines_masked fun x hx =>
    length_masked (hmem x (List.mem_append_left _ hx))).symm

/-- The spans of the doclets are all there is of doclets in a text, judged by its masked copy. -/
theorem spansOf_docletSpans (text : List Char) :
    SpansOf text (maskCode text) (docletSpans text) := by
  have hplace : ∀ f ∈ docletSpans text, ∃ front line back s, SectionAt text front line back s ∧
      s.span? (endedLines (front.map MaskedLine.text)).length = some f := by
    intro f hf
    obtain ⟨before, s, after, hfound, hspan⟩ := mem_spansFrom_iff.1 hf
    obtain ⟨front, line, back, hat, htext⟩ := exists_sectionAt hfound
    rw [← List.length_append, ← endedLines_append, htext] at hspan
    exact ⟨front, line, back, s, hat, hspan⟩
  refine ⟨forall₂_maskCode text, fun _ _ _ h => exists_copiedLine_maskCode h, fun f hf => ?_,
    fun f hf => ?_, pairwise_spansFrom _ _, fun _ _ _ _ h => exists_span_of_opensDoclet h⟩
  · obtain ⟨front, line, back, s, hat, hspan⟩ := hplace f hf
    exact hat.stands hspan
  · obtain ⟨front, line, back, s, hat, hspan⟩ := hplace f hf
    exact hat.whole hspan

-- A value takes code with it, and the at signs in the code.
example : docletSpans "Hi.\n@see x\n\x60\x60\x60\n@m\n\x60\x60\x60\n@public".toList =
    [⟨"see", 4, 8, 21⟩, ⟨"public", 22, 29, 29⟩] := by
  decide +kernel

theorem text_eq_docletSections (text : List Char) :
    text = unlines ((docletSections text).1.map MaskedLine.text ++
      (docletSections text).2.flatMap DocletSection.lines) := by
  have hlines := map_text_of_docletSections (l := maskedLines text) rfl
  rw [map_text_maskedLines] at hlines
  exact (unlines_lines text).symm.trans (congrArg unlines hlines)

theorem rest_suffix_of_mem_docletSections {text : List Char} {s : DocletSection}
    (h : s ∈ (docletSections text).2) : s.1.rest <:+ s.1.text := by
  obtain ⟨before, after, hfound⟩ := List.append_of_mem h
  obtain ⟨front, line, back, hat, -⟩ := exists_sectionAt hfound
  obtain ⟨_, -, htext, hsuffix, -⟩ := MaskedLine.of_markerLine? hat.mem.2.1 hat.opens
  rwa [htext]

/-- Doclets have spans in a text, one for each line of its masked copy that opens a doclet. Removing
the doclets leaves what the text has outside of them, trimmed, and a doclet has the value that the
text holds in the last span of its name. -/
theorem doclets_of_spans (text : String) :
    ∃ found, SpansOf text.toList (maskCode text.toList) found ∧
      removeDoclets text = String.ofList (trim (outside text.toList 0 found)) ∧
      ∀ name, (readDoclets text).get? name =
        (found.reverse.find? fun f => f.name = name).map (DocletSpan.value text.toList) := by
  refine ⟨docletSpans text.toList, spansOf_docletSpans text.toList, ?_, fun name => ?_⟩
  · have hkept := outside_spansFrom (docletSections text.toList).2
      ((docletSections text.toList).1.map MaskedLine.text) (Nat.zero_le _)
    rw [← text_eq_docletSections, List.drop_zero, ← docletSpans] at hkept
    rw [hkept]
    rfl
  · have hlist := doclets_spansFrom (docletSections text.toList).2
      ((docletSections text.toList).1.map MaskedLine.text)
      fun _ => rest_suffix_of_mem_docletSections
    rw [← text_eq_docletSections, ← docletSpans] at hlist
    rw [readDoclets, docletList, hlist, Dict.get?_ofList_map]

end ComponentDocs
