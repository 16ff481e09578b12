import ComponentDocs.Proofs.Tag.Accepted

/-!
# Comments tag by tag

A comment is cut into the lines above its first tag and a segment for each tag line outside code:
`commentCut_tagSegments`. Each segment is read as if it were a comment of its own, but for the
number of the line that an error names, and the comment is unreadable for the first segment that is:
`Comment.read_cut`.
-/

namespace ComponentDocs

open Text

/-! ## Tag lines -/

/-- A line starts, after white space, with an at sign and a title, behind which the rest of the line
stands. -/
structure OpensTag (line title rest : List Char) : Prop where
  spells : ∃ indent, (∀ c ∈ indent, isBlank c) ∧ line = indent ++ '@' :: title ++ rest
  nonempty : title ≠ []
  word : ∀ c ∈ title, isWord c
  ends : ∀ c ∈ rest.head?, isWord c = false

theorem titled?_eq_some_iff {line title rest : List Char} :
    titled? line = some (title, rest) ↔ OpensTag line title rest := by
  rw [titled?, marker?_eq_some_iff]
  constructor
  · rintro ⟨hline, hne, hword, hrest⟩
    obtain ⟨indent, hindent, hblank⟩ := exists_margin_left line
    rw [hline] at hindent
    exact ⟨⟨indent, hblank, by rw [hindent, List.append_assoc]⟩, hne, hword, hrest⟩
  · rintro ⟨⟨indent, hblank, rfl⟩, hne, hword, hrest⟩
    refine ⟨?_, hne, hword, hrest⟩
    rw [List.append_assoc, trimLeft_append_of_blank hblank, List.cons_append,
      trimLeft_cons_of_not_blank (by decide)]

theorem OpensTag.not_hasFenceMark {line title rest : List Char} (h : OpensTag line title rest) :
    hasFenceMark line = false := by
  have hline := (marker?_eq_some_iff.1 (titled?_eq_some_iff.2 h)).1
  rw [hasFenceMark, hline]
  rfl

theorem CommentLine.tagLine?_eq_some_iff {line : CommentLine} {tag : TagLine} :
    line.tagLine? = some tag ↔
      line.fenced = false ∧ OpensTag line.text tag.title tag.rest ∧ tag.number = line.number := by
  obtain ⟨number, title, rest⟩ := tag
  rw [CommentLine.tagLine?, ← titled?_eq_some_iff]
  cases line.fenced with
  | true => simp
  | false =>
    rw [if_neg Bool.false_ne_true, Option.map_eq_some_iff, and_iff_right rfl]
    constructor
    · rintro ⟨found, hfound, heq⟩
      obtain ⟨rfl, rfl, rfl⟩ := TagLine.mk.inj heq
      exact ⟨hfound, rfl⟩
    · rintro ⟨hfound, rfl⟩
      exact ⟨_, hfound, rfl⟩

/-! ## Segments -/

/-- A tag line with its number in the comment, its title and the rest of it, and the lines below it,
up to the next tag line. -/
structure TagSegment where
  number : Nat
  line : List Char
  title : List Char
  rest : List Char
  body : List (List Char)
  deriving DecidableEq, Repr

namespace TagSegment

def lines (s : TagSegment) : List (List Char) :=
  s.line :: s.body

/-- The segment as a comment of its own. -/
def text (s : TagSegment) : String :=
  String.ofList (unlines s.lines)

/-- Whether the text after the title has the form that the title calls for. -/
def WellFormed (sloppy : Bool) (s : TagSegment) : Prop :=
  TagAccepted sloppy (String.ofList s.title) (unlines (s.rest :: s.body))

def ofSection (s : (CommentLine × TagLine) × List CommentLine) : TagSegment :=
  ⟨s.1.2.number, s.1.1.text, s.1.2.title, s.1.2.rest, s.2.map CommentLine.text⟩

end TagSegment

/-- A tag line as it stands, and as what it opens. -/
def CommentLine.opening? (line : CommentLine) : Option (CommentLine × TagLine) :=
  line.tagLine?.map (line, ·)

/-- The lines of a comment above its first tag. -/
def headLines (text : List Char) : List (List Char) :=
  (commentSections text).1.map CommentLine.text

/-- The segments of a comment, one for each tag. -/
def tagSegments (text : List Char) : List TagSegment :=
  (sections CommentLine.opening? (commentLines text)).2.map TagSegment.ofSection

theorem CommentLine.opening?_eq_some_iff {line : CommentLine} {opening : CommentLine × TagLine} :
    line.opening? = some opening ↔ opening.1 = line ∧ line.tagLine? = some opening.2 := by
  obtain ⟨other, tag⟩ := opening
  rw [CommentLine.opening?, Option.map_eq_some_iff]
  constructor
  · rintro ⟨found, hfound, heq⟩
    obtain ⟨rfl, rfl⟩ := Prod.mk.inj heq
    exact ⟨rfl, hfound⟩
  · rintro ⟨rfl, htag⟩
    exact ⟨tag, htag, rfl⟩

theorem commentSections_eq (text : List Char) :
    commentSections text =
      ((sections CommentLine.opening? (commentLines text)).1,
        (sections CommentLine.opening? (commentLines text)).2.map fun s => (s.1.2, s.2)) := by
  have htag (line : CommentLine) : line.tagLine? = line.opening?.map Prod.snd := by
    rw [CommentLine.opening?, Option.map_map]
    exact Option.map_id_apply.symm
  have hsections := sections_map htag (commentLines text)
  simp only [List.map_id_fun', id_eq] at hsections
  exact hsections

theorem headLines_eq (text : List Char) :
    headLines text =
      (sections CommentLine.opening? (commentLines text)).1.map CommentLine.text := by
  rw [headLines, commentSections_eq]

-- Head and segments spell the lines.
theorem map_text_of_sections {l head : List CommentLine}
    {found : List ((CommentLine × TagLine) × List CommentLine)}
    (h : sections CommentLine.opening? l = (head, found)) :
    l.map CommentLine.text =
      head.map CommentLine.text ++
        (found.map TagSegment.ofSection).flatMap TagSegment.lines := by
  have hspells := map_fst_append_flatMap_sections (f := CommentLine.text)
    (g := fun opening : CommentLine × TagLine => opening.1.text)
    (fun line opening hline => by rw [(CommentLine.opening?_eq_some_iff.1 hline).1]) l
  rw [h] at hspells
  rw [← hspells, List.flatMap_map]
  rfl

theorem lines_eq_headLines_append (text : List Char) :
    lines text = headLines text ++ (tagSegments text).flatMap TagSegment.lines := by
  have hspells := map_text_of_sections (l := commentLines text) rfl
  rw [commentLines_eq, map_text_commentLinesFrom, ← commentLines_eq] at hspells
  rw [hspells, headLines_eq]
  rfl

theorem of_tagSegments_eq {text : List Char} {before after : List TagSegment} {s : TagSegment}
    (h : tagSegments text = before ++ s :: after) :
    OpensTag s.line s.title s.rest ∧
      s.number = (headLines text ++ before.flatMap TagSegment.lines).length + 1 ∧
      fenceAfter false (headLines text ++ before.flatMap TagSegment.lines) = false ∧
      TagFree false s.body := by
  obtain ⟨before', rest, hfound, rfl, hrest⟩ := List.map_eq_append_iff.1 h
  obtain ⟨⟨⟨line, tag⟩, body⟩, after', rfl, rfl, rfl⟩ := List.map_eq_cons_iff.1 hrest
  obtain ⟨front, a, back, hl, ha, hfront, -, hbody⟩ := exists_of_sections_eq hfound
  obtain ⟨rfl, htag⟩ := CommentLine.opening?_eq_some_iff.1 ha
  obtain ⟨hfenced, hopens, hnumber⟩ := CommentLine.tagLine?_eq_some_iff.1 htag
  rw [headLines_eq, ← map_text_of_sections hfront, List.length_map]
  rw [commentLines_eq] at hl
  obtain ⟨hplace, hstate⟩ := of_commentLinesFrom_eq hl
  refine ⟨hopens, ?_, hstate.symm.trans hfenced, ?_⟩
  · rw [Nat.add_comm]
    exact hnumber.trans hplace
  · -- below a tag line outside code the state is that at the front of a comment
    have hbelow := (eq_of_commentLinesFrom_eq_append hl).2
    rw [← hstate, hfenced, List.map_cons, commentLinesFrom, hopens.not_hasFenceMark] at hbelow
    have hown : body =
        commentLinesFrom (1 + front.length + 1) false (body.map CommentLine.text) :=
      (eq_of_commentLinesFrom_eq_append (List.cons.inj hbelow).2.symm).1
    refine (@tagFree_iff (1 + front.length + 1) false _).2 fun x hx => ?_
    have hmem : x ∈ body := by
      rw [hown]
      exact hx
    exact Option.map_eq_none_iff.1 (hbody x hmem)

/-- Some lines are cut into a head and segments: together they spell the lines; a segment starts
with a tag line below an even number of fence marks, and has its number; and every such line starts
a segment. -/
structure CommentCut (ls head : List (List Char)) (found : List TagSegment) : Prop where
  spells : ls = head ++ found.flatMap TagSegment.lines
  tags : ∀ before s after, found = before ++ s :: after →
    OpensTag s.line s.title s.rest ∧
      s.number = (head ++ before.flatMap TagSegment.lines).length + 1 ∧
      (head ++ before.flatMap TagSegment.lines).countP hasFenceMark % 2 = 0
  complete : ∀ above line below title rest, ls = above ++ line :: below →
    above.countP hasFenceMark % 2 = 0 → OpensTag line title rest →
      ∃ s ∈ found, s.number = above.length + 1

theorem fenceAfter_false_iff {ls : List (List Char)} :
    fenceAfter false ls = false ↔ ls.countP hasFenceMark % 2 = 0 := by
  rw [fenceAfter_eq, Bool.false_bne, beq_eq_false_iff_ne, Nat.mod_two_ne_one]

theorem commentCut_tagSegments (text : List Char) :
    CommentCut (lines text) (headLines text) (tagSegments text) := by
  refine ⟨lines_eq_headLines_append text, ?_, ?_⟩
  · intro before s after hfound
    obtain ⟨hopens, hnumber, hstate, -⟩ := of_tagSegments_eq hfound
    exact ⟨hopens, hnumber, fenceAfter_false_iff.1 hstate⟩
  · intro above line below title rest hl heven hopens
    -- the line has its number and its state, and opens the segment of its own
    have hmem : (⟨1 + above.length, false, line⟩ : CommentLine) ∈ commentLines text := by
      rw [commentLines_eq, hl, commentLinesFrom_append, commentLinesFrom,
        fenceAfter_false_iff.2 heven]
      exact List.mem_append_right _ List.mem_cons_self
    have hopening : CommentLine.opening? ⟨1 + above.length, false, line⟩ =
        some (⟨1 + above.length, false, line⟩, ⟨1 + above.length, title, rest⟩) :=
      CommentLine.opening?_eq_some_iff.2
        ⟨rfl, CommentLine.tagLine?_eq_some_iff.2 ⟨rfl, hopens, rfl⟩⟩
    have hfirst := List.mem_filterMap.2 ⟨_, hmem, hopening⟩
    rw [← map_fst_sections] at hfirst
    obtain ⟨s, hs, hfst⟩ := List.mem_map.1 hfirst
    refine ⟨_, List.mem_map_of_mem hs, ?_⟩
    rw [TagSegment.ofSection, hfst, Nat.add_comm]

-- A title inside code opens no segment.
example : (tagSegments
    "a\n@see b\n\x60\x60\x60\n@c\n\x60\x60\x60\n@returns \x7bd".toList).map TagSegment.number =
      [2, 6] := by
  decide +kernel

/-! ## Reading segments -/

/-- Read the tag of a segment. -/
def TagSegment.read (sloppy : Bool) (s : TagSegment) : Except TagError Tag :=
  (tagOfLines sloppy (String.ofList s.title) s.rest s.body).mapError fun flaw =>
    ⟨flaw.problem, s.number, String.ofList flaw.text⟩

theorem TagSegment.read_ofSection (sloppy : Bool)
    (s : (CommentLine × TagLine) × List CommentLine) :
    TagSegment.read sloppy (ofSection s) = s.1.2.read sloppy s.2 := by
  rw [TagSegment.read, TagLine.read]
  unfold ofSection
  cases tagOfLines sloppy (String.ofList s.1.2.title) s.1.2.rest (s.2.map CommentLine.text) <;> rfl

theorem Comment.read_eq (sloppy : Bool) (text : String) :
    Comment.read sloppy text = do
      let tags ← (tagSegments text.toList).mapM (TagSegment.read sloppy)
      return ⟨String.ofList (trim (unlines (headLines text.toList))), tags⟩ := by
  rw [Comment.read, headLines_eq, tagSegments, commentSections_eq]
  simp only [List.mapM_map, Function.comp_def, TagSegment.read_ofSection]

theorem Comment.errorOf?_read (sloppy : Bool) (text : String) :
    errorOf? (Comment.read sloppy text) =
      (tagSegments text.toList).findSome? fun s => errorOf? (s.read sloppy) := by
  rw [Comment.read_eq, @errorOf?_bind _ _ _ _ _ none fun _ _ => rfl, Option.or_none,
    errorOf?_mapM]

theorem TagSegment.errorOf?_eq_none_iff {sloppy : Bool} {s : TagSegment} :
    errorOf? (s.read sloppy) = none ↔ s.WellFormed sloppy := by
  rw [WellFormed, ← exists_tagOfLines_iff, ComponentDocs.errorOf?_eq_none_iff, TagSegment.read]
  cases tagOfLines sloppy (String.ofList s.title) s.rest s.body with
  | ok tag => exact iff_of_true ⟨tag, rfl⟩ ⟨tag, rfl⟩
  | error flaw => exact iff_of_false (by simp [Except.mapError]) (by simp)

theorem TagSegment.read_eq_error {sloppy : Bool} {s : TagSegment} {e : TagError}
    (h : s.read sloppy = .error e) :
    e.line = s.number ∧
      TagSegment.read sloppy { s with number := 1 } = .error { e with line := 1 } := by
  rw [TagSegment.read] at h ⊢
  cases hread : tagOfLines sloppy (String.ofList s.title) s.rest s.body with
  | ok tag =>
    rw [hread] at h
    cases h
  | error flaw =>
    rw [hread] at h
    rw [← Except.error.inj h]
    exact ⟨rfl, rfl⟩

theorem TagSegment.read_eq_ok {sloppy : Bool} {s : TagSegment} {tag : Tag}
    (h : s.read sloppy = .ok tag) :
    tag.title = String.ofList s.title ∧
      TagSegment.read sloppy { s with number := 1 } = .ok tag := by
  rw [TagSegment.read] at h ⊢
  cases hread : tagOfLines sloppy (String.ofList s.title) s.rest s.body with
  | ok found =>
    rw [hread] at h
    rw [← Except.ok.inj h]
    exact ⟨title_of_tagOfLines hread, rfl⟩
  | error flaw =>
    rw [hread] at h
    cases h

-- A tag line and lines below it that open no tag are the only segment of the comment that they are.
theorem tagSegments_unlines {line title rest : List Char} {body : List (List Char)}
    (hopens : OpensTag line title rest) (hfree : TagFree false body)
    (hnewline : ∀ l ∈ line :: body, '\n' ∉ l) :
    tagSegments (unlines (line :: body)) = [⟨1, line, title, rest, body⟩] ∧
      headLines (unlines (line :: body)) = [] := by
  have hlines : commentLines (unlines (line :: body)) =
      ⟨1, false, line⟩ :: commentLinesFrom 2 false body := by
    rw [commentLines_eq, lines_unlines (List.cons_ne_nil line body) hnewline, commentLinesFrom,
      hopens.not_hasFenceMark]
    rfl
  have hopening : CommentLine.opening? ⟨1, false, line⟩ =
      some (⟨1, false, line⟩, ⟨1, title, rest⟩) :=
    CommentLine.opening?_eq_some_iff.2
      ⟨rfl, CommentLine.tagLine?_eq_some_iff.2 ⟨rfl, hopens, rfl⟩⟩
  have hbody : ∀ x ∈ commentLinesFrom 2 false body, x.opening? = none := fun x hx =>
    Option.map_eq_none_iff.2 (tagFree_iff.1 hfree x hx)
  have hsections : sections CommentLine.opening? (commentLines (unlines (line :: body))) =
      ([], [((⟨1, false, line⟩, ⟨1, title, rest⟩), commentLinesFrom 2 false body)]) := by
    rw [hlines, sections_cons_some hopening, sections_of_none hbody]
  rw [tagSegments, headLines_eq, hsections]
  refine ⟨?_, rfl⟩
  rw [List.map_singleton, TagSegment.ofSection, map_text_commentLinesFrom]

-- A comment that is one segment has its tag and no description.
theorem Comment.read_of_segment {text : String} {s : TagSegment}
    (h : tagSegments text.toList = [s] ∧ headLines text.toList = []) (sloppy : Bool) :
    Comment.read sloppy text = do
      let tag ← s.read sloppy
      return ⟨"", [tag]⟩ := by
  rw [Comment.read_eq, h.1, h.2, List.mapM_cons, List.mapM_nil]
  cases s.read sloppy <;> rfl

-- A segment of a comment is the only one of the comment that it is by itself.
theorem TagSegment.tagSegments_text {text : List Char} {s : TagSegment}
    (h : s ∈ tagSegments text) :
    tagSegments s.text.toList = [{ s with number := 1 }] ∧ headLines s.text.toList = [] := by
  obtain ⟨before, after, hfound⟩ := List.append_of_mem h
  obtain ⟨hopens, -, -, hfree⟩ := of_tagSegments_eq hfound
  rw [TagSegment.text, String.toList_ofList]
  refine tagSegments_unlines hopens hfree fun line hline => ?_
  refine newline_not_mem_of_mem_lines (s := text) ?_
  rw [lines_eq_headLines_append]
  exact List.mem_append_right _ (List.mem_flatMap.2 ⟨s, h, hline⟩)

theorem TagSegment.read_text {text : List Char} {s : TagSegment} (h : s ∈ tagSegments text)
    (sloppy : Bool) :
    Comment.read sloppy s.text = do
      let tag ← TagSegment.read sloppy { s with number := 1 }
      return ⟨"", [tag]⟩ :=
  Comment.read_of_segment (TagSegment.tagSegments_text h) sloppy

/-- A comment is read when every segment is well formed. Its description is the trimmed head, and
its tags are those that the segments have as comments of their own, with the titles of the segments.
Otherwise the error is that of the first segment which is not well formed, at the line of its
tag. -/
theorem Comment.read_cut (sloppy : Bool) (text : String) :
    ∃ head found, CommentCut (lines text.toList) head found ∧
      ((∃ c, Comment.read sloppy text = .ok c) ↔ ∀ s ∈ found, s.WellFormed sloppy) ∧
      (∀ c, Comment.read sloppy text = .ok c →
        c.description = String.ofList (trim (unlines head)) ∧
          List.Forall₂ (fun s tag => tag.title = String.ofList s.title ∧
            Comment.read sloppy s.text = .ok ⟨"", [tag]⟩) found c.tags) ∧
      ∀ e, Comment.read sloppy text = .error e →
        ∃ before s after, found = before ++ s :: after ∧ (∀ b ∈ before, b.WellFormed sloppy) ∧
          ¬ s.WellFormed sloppy ∧ e.line = s.number ∧
          Comment.read sloppy s.text = .error { e with line := 1 } := by
  have herror := Comment.errorOf?_read sloppy text
  refine ⟨headLines text.toList, tagSegments text.toList, commentCut_tagSegments text.toList,
    ?_, fun c hc => ?_, fun e he => ?_⟩
  · rw [← errorOf?_eq_none_iff, herror, List.findSome?_eq_none_iff]
    simp only [TagSegment.errorOf?_eq_none_iff]
  · rw [Comment.read_eq, bind_eq_ok_iff] at hc
    obtain ⟨tags, htags, hc⟩ := hc
    rw [← Except.ok.inj hc]
    refine ⟨rfl, ?_⟩
    have hall := (List.forall₂_and_left _ _).2
      ⟨fun s (hs : s ∈ tagSegments text.toList) => hs, mapM_eq_ok_iff.1 htags⟩
    refine hall.imp fun s tag ⟨hmem, hread⟩ => ?_
    obtain ⟨htitle, hfirst⟩ := TagSegment.read_eq_ok hread
    refine ⟨htitle, ?_⟩
    rw [TagSegment.read_text hmem, hfirst]
    rfl
  · rw [errorOf?_eq_some_iff.2 he, eq_comm, List.findSome?_eq_some_iff] at herror
    obtain ⟨before, s, after, hfound, hs, hbefore⟩ := herror
    obtain ⟨hline, hown⟩ := TagSegment.read_eq_error (errorOf?_eq_some_iff.1 hs)
    refine ⟨before, s, after, hfound, fun b hb => ?_, fun hwell => ?_, hline, ?_⟩
    · exact TagSegment.errorOf?_eq_none_iff.1 (hbefore b hb)
    · rw [TagSegment.errorOf?_eq_none_iff.2 hwell] at hs
      cases hs
    · have hmem : s ∈ tagSegments text.toList :=
        hfound ▸ List.mem_append_right before List.mem_cons_self
      rw [TagSegment.read_text hmem, hown]
      rfl

end ComponentDocs
