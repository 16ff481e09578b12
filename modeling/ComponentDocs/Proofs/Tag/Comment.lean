import ComponentDocs.Proofs.Fence.State
import ComponentDocs.Proofs.Log
import ComponentDocs.Proofs.Sections
import ComponentDocs.Proofs.Text.Lines
import ComponentDocs.Proofs.Text.Marker
import ComponentDocs.Tag.Comment

/-!
# The description of a comment

A text is free of tags when no line of it outside code starts with a marker. Such a text is its own
description: `Comment.read_of_tagFree`. What reading leaves of any comment is free of tags and
trimmed, so it is read as itself again: `Comment.read_description`.
-/

namespace ComponentDocs

open Text

/-! ## Lines with their numbers and states -/

/-- Lines as those of a comment, the first of which has a number and a state. -/
def commentLinesFrom (number : Nat) (inside : Bool) : List (List Char) → List CommentLine
  | [] => []
  | line :: rest =>
    ⟨number, inside, line⟩ :: commentLinesFrom (number + 1) (inside != hasFenceMark line) rest

theorem zipIdx_fenceStates (number : Nat) (inside : Bool) (ls : List (List Char)) :
    (((fenceStates inside ls).zip ls).zipIdx number |>.map fun ((fenced, line), number) =>
      (⟨number, fenced, line⟩ : CommentLine)) = commentLinesFrom number inside ls := by
  induction ls generalizing number inside with
  | nil => rfl
  | cons line rest ih =>
    rw [fenceStates, List.zip_cons_cons, List.zipIdx_cons, List.map_cons, ih, commentLinesFrom]

theorem commentLines_eq (text : List Char) :
    commentLines text = commentLinesFrom 1 false (lines text) :=
  zipIdx_fenceStates 1 false (lines text)

theorem commentLinesFrom_append (number : Nat) (inside : Bool) (a b : List (List Char)) :
    commentLinesFrom number inside (a ++ b) =
      commentLinesFrom number inside a ++
        commentLinesFrom (number + a.length) (fenceAfter inside a) b := by
  induction a generalizing number inside with
  | nil => rfl
  | cons line rest ih =>
    rw [List.cons_append, commentLinesFrom, ih, commentLinesFrom, fenceAfter_cons, List.cons_append,
      List.length_cons, Nat.add_assoc, Nat.add_comm 1]

@[simp] theorem map_text_commentLinesFrom (number : Nat) (inside : Bool) (ls : List (List Char)) :
    (commentLinesFrom number inside ls).map CommentLine.text = ls := by
  induction ls generalizing number inside with
  | nil => rfl
  | cons line rest ih => rw [commentLinesFrom, List.map_cons, ih]

theorem length_commentLinesFrom (number : Nat) (inside : Bool) (ls : List (List Char)) :
    (commentLinesFrom number inside ls).length = ls.length := by
  rw [← List.length_map CommentLine.text, map_text_commentLinesFrom]

-- Lines of a comment that are cut in two are lines of two comments, but for the number and the
-- state at which those below start.
theorem eq_of_commentLinesFrom_eq_append {number : Nat} {inside : Bool} {ls : List (List Char)}
    {above below : List CommentLine} (h : commentLinesFrom number inside ls = above ++ below) :
    above = commentLinesFrom number inside (above.map CommentLine.text) ∧
      below = commentLinesFrom (number + above.length)
        (fenceAfter inside (above.map CommentLine.text)) (below.map CommentLine.text) := by
  have hls : ls = above.map CommentLine.text ++ below.map CommentLine.text := by
    rw [← List.map_append, ← h, map_text_commentLinesFrom]
  rw [hls, commentLinesFrom_append, List.length_map] at h
  obtain ⟨habove, hbelow⟩ := List.append_inj h (by rw [length_commentLinesFrom, List.length_map])
  exact ⟨habove.symm, hbelow.symm⟩

theorem of_commentLinesFrom_eq {number : Nat} {inside : Bool} {ls : List (List Char)}
    {above below : List CommentLine} {line : CommentLine}
    (h : commentLinesFrom number inside ls = above ++ line :: below) :
    line.number = number + above.length ∧
      line.fenced = fenceAfter inside (above.map CommentLine.text) := by
  have hbelow := (eq_of_commentLinesFrom_eq_append h).2
  rw [List.map_cons, commentLinesFrom] at hbelow
  have hline := (List.cons.inj hbelow).1
  exact ⟨congrArg CommentLine.number hline, congrArg CommentLine.fenced hline⟩

/-! ## Titles -/

theorem titled?_blank_append {front : List Char} (h : ∀ c ∈ front, isBlank c) (line : List Char) :
    titled? (front ++ line) = titled? line := by
  rw [titled?, trimLeft_append_of_blank h, titled?]

theorem titled?_of_blank {line : List Char} (h : ∀ c ∈ line, isBlank c) : titled? line = none := by
  rw [titled?, trimLeft_eq_nil_iff.2 h]
  rfl

theorem titled?_eq_none_of_append {line back : List Char} (h : titled? (line ++ back) = none) :
    titled? line = none := by
  by_contra hline
  have hsome : (marker? (trimLeft line)).isSome := Option.isSome_iff_ne_none.2 hline
  have hne : trimLeft line ≠ [] := by
    intro hnil
    rw [hnil] at hsome
    exact absurd hsome (by decide)
  have htrim := trimLeft_append_of_ne_nil hne back
  have happend := marker?_isSome_append hsome back
  rw [← htrim, ← titled?, h] at happend
  exact absurd happend (by decide)

/-! ## Texts without tags -/

/-- Whether no line outside code is a tag line, when the first one stands inside code iff
`inside`. -/
def TagFree (inside : Bool) : List (List Char) → Prop
  | [] => True
  | line :: rest =>
    (inside = false → titled? line = none) ∧ TagFree (inside != hasFenceMark line) rest

instance decidableTagFree (inside : Bool) : (ls : List (List Char)) → Decidable (TagFree inside ls)
  | [] => inferInstanceAs (Decidable True)
  | line :: rest =>
    have := decidableTagFree (inside != hasFenceMark line) rest
    inferInstanceAs (Decidable ((inside = false → titled? line = none) ∧ _))

theorem tagFree_append {inside : Bool} {a b : List (List Char)} :
    TagFree inside (a ++ b) ↔ TagFree inside a ∧ TagFree (fenceAfter inside a) b := by
  induction a generalizing inside with
  | nil => simp [TagFree]
  | cons line rest ih => rw [List.cons_append, TagFree, ih, TagFree, fenceAfter_cons, and_assoc]

theorem CommentLine.tagLine?_eq_none_iff {line : CommentLine} :
    line.tagLine? = none ↔ (line.fenced = false → titled? line.text = none) := by
  cases hf : line.fenced <;> simp [CommentLine.tagLine?, hf]

theorem tagFree_iff {number : Nat} {inside : Bool} {ls : List (List Char)} :
    TagFree inside ls ↔ ∀ line ∈ commentLinesFrom number inside ls, line.tagLine? = none := by
  induction ls generalizing number inside with
  | nil => simp [TagFree, commentLinesFrom]
  | cons line rest ih =>
    rw [TagFree, commentLinesFrom, List.forall_mem_cons, CommentLine.tagLine?_eq_none_iff, ih]

theorem tagFree_lines_cons_blank {c : Char} (hc : isBlank c) {s : List Char} :
    TagFree false (lines (c :: s)) ↔ TagFree false (lines s) := by
  by_cases hn : c = '\n'
  · rw [hn, lines_cons_newline, TagFree]
    simp [titled?_of_blank, hasFenceMark_of_blank]
  · obtain ⟨line, others, hs⟩ := exists_lines_eq_cons s
    have hfront : ∀ d ∈ [c], isBlank d := by simpa using hc
    have htitle : titled? (c :: line) = titled? line := titled?_blank_append hfront line
    have hmark : hasFenceMark (c :: line) = hasFenceMark line :=
      hasFenceMark_blank_append hfront line
    rw [lines_cons_of_ne hn hs, hs]
    simp only [TagFree, htitle, hmark]

-- White space in front of a text brings no tags and takes none away.
theorem tagFree_lines_blank_append {front : List Char} (h : ∀ c ∈ front, isBlank c)
    {s : List Char} : TagFree false (lines (front ++ s)) ↔ TagFree false (lines s) := by
  induction front with
  | nil => rfl
  | cons c r ih =>
    rw [List.cons_append, tagFree_lines_cons_blank (h c List.mem_cons_self)]
    exact ih fun d hd => h d (List.mem_cons_of_mem c hd)

theorem TagFree.of_lines_append {a b : List Char} (h : TagFree false (lines (a ++ b))) :
    TagFree false (lines a) := by
  obtain ⟨before, last, ha⟩ := exists_lines_eq_concat a
  obtain ⟨first, after, hb⟩ := exists_lines_eq_cons b
  rw [lines_append ha hb, tagFree_append, TagFree] at h
  rw [ha, tagFree_append, TagFree]
  exact ⟨h.1, fun hout => titled?_eq_none_of_append (h.2.1 hout), trivial⟩

theorem TagFree.lines_trim {s : List Char} (h : TagFree false (lines s)) :
    TagFree false (lines (trim s)) := by
  obtain ⟨front, back, hs, hfront, -⟩ := exists_margins s
  rw [hs] at h
  exact (tagFree_lines_blank_append hfront).1 h.of_lines_append

/-! ## Reading -/

theorem commentSections_of_tagFree {text : List Char} (h : TagFree false (lines text)) :
    commentSections text = (commentLines text, []) := by
  rw [commentSections]
  rw [commentLines_eq]
  exact sections_of_none (tagFree_iff.1 h)

/-- A text without tags is its own description. -/
theorem Comment.read_of_tagFree {text : String} (h : TagFree false (lines text.toList))
    (sloppy : Bool) :
    Comment.read sloppy text = .ok ⟨String.ofList (trim text.toList), []⟩ := by
  have htext : unlines ((commentLines text.toList).map CommentLine.text) = text.toList := by
    rw [commentLines_eq, map_text_commentLinesFrom, unlines_lines]
  rw [Comment.read, commentSections_of_tagFree h]
  simp only [htext]
  rfl

-- The lines before the first tag are front lines of the comment.
theorem exists_head_append (text : List Char) :
    ∃ rest, lines text = (commentSections text).1.map CommentLine.text ++ rest := by
  obtain ⟨rest, hl, -⟩ := sections_fst_append CommentLine.tagLine? (commentLines text)
  refine ⟨rest.map CommentLine.text, ?_⟩
  have hmap := congrArg (List.map CommentLine.text) hl
  rw [List.map_append, commentLines_eq, map_text_commentLinesFrom] at hmap
  rw [hmap, commentSections, commentLines_eq]

-- No line before the first tag is a tag line.
theorem tagFree_head (text : List Char) :
    TagFree false ((commentSections text).1.map CommentLine.text) := by
  obtain ⟨rest, hsplit, -⟩ := sections_fst_append CommentLine.tagLine? (commentLines text)
  rw [← commentSections, commentLines_eq] at hsplit
  rw [@tagFree_iff 1 false, ← (eq_of_commentLinesFrom_eq_append hsplit).1]
  exact fun line hline => head?_eq_none_of_mem_before hline

theorem title_of_tagOfLines {sloppy : Bool} {title : String} {first : List Char}
    {body : List (List Char)} {tag : Tag} (h : tagOfLines sloppy title first body = .ok tag) :
    tag.title = title := by
  unfold tagOfLines at h
  cases hform : TagForm.ofTitle title with
  | verbatim =>
    simp only [hform] at h
    rw [← Except.ok.inj h]
  | parameter =>
    simp only [hform, bind_eq_ok_iff] at h
    obtain ⟨_, _, _, _, h⟩ := h
    rw [← Except.ok.inj h]
  | result =>
    simp only [hform, bind_eq_ok_iff] at h
    obtain ⟨_, _, h⟩ := h
    rw [← Except.ok.inj h]
  | plain =>
    simp only [hform] at h
    rw [← Except.ok.inj h]

theorem TagLine.read_eq_ok_iff {sloppy : Bool} {line : TagLine} {body : List CommentLine}
    {tag : Tag} :
    line.read sloppy body = .ok tag ↔
      tagOfLines sloppy (String.ofList line.title) line.rest (body.map CommentLine.text) =
        .ok tag := by
  rw [TagLine.read]
  cases tagOfLines sloppy (String.ofList line.title) line.rest (body.map CommentLine.text) with
  | ok found =>
    constructor
    · exact fun h => congrArg _ (Except.ok.inj h)
    · exact fun h => congrArg _ (Except.ok.inj h)
  | error flaw =>
    constructor
    · intro h
      cases h
    · intro h
      cases h

-- A comment is read when every one of its tags is, and only then.
theorem Comment.read_eq_ok_iff {sloppy : Bool} {text : String} {c : Comment} :
    Comment.read sloppy text = .ok c ↔
      (commentSections text.toList).2.mapM (fun s => s.1.read sloppy s.2) = .ok c.tags ∧
        c.description = String.ofList
          (trim (unlines ((commentSections text.toList).1.map CommentLine.text))) := by
  rw [Comment.read]
  obtain ⟨description, tags⟩ := c
  cases hread : (commentSections text.toList).2.mapM (fun s => s.1.read sloppy s.2) with
  | error e => simp [hread, bind, Except.bind]
  | ok found => simp [hread, bind, Except.bind, pure, Except.pure, and_comm, eq_comm]

-- What is left of a comment is made of front lines that are free of tags.
theorem Comment.exists_lines_of_read {sloppy : Bool} {text : String} {c : Comment}
    (h : Comment.read sloppy text = .ok c) :
    ∃ head rest, lines text.toList = head ++ rest ∧ TagFree false head ∧
      (∀ line ∈ head, '\n' ∉ line) ∧ c.description = String.ofList (trim (unlines head)) := by
  obtain ⟨rest, hl⟩ := exists_head_append text.toList
  refine ⟨_, rest, hl, tagFree_head text.toList, ?_, (Comment.read_eq_ok_iff.1 h).2⟩
  intro line hmem
  exact newline_not_mem_of_mem_lines (hl ▸ List.mem_append_left rest hmem)

theorem TagFree.lines_trim_unlines {head : List (List Char)} (h : TagFree false head)
    (hline : ∀ line ∈ head, '\n' ∉ line) : TagFree false (lines (trim (unlines head))) := by
  by_cases hnil : head = []
  · rw [hnil]
    exact ⟨fun _ => rfl, trivial⟩
  · have hlines : TagFree false (lines (unlines head)) := by rwa [lines_unlines hnil hline]
    exact hlines.lines_trim

-- The text that is left when the tags of a comment are taken out of it is free of tags.
theorem Comment.tagFree_description {sloppy : Bool} {text : String} {c : Comment}
    (h : Comment.read sloppy text = .ok c) : TagFree false (lines c.description.toList) := by
  obtain ⟨head, _, _, hfree, hline, hdescription⟩ := Comment.exists_lines_of_read h
  rw [hdescription, String.toList_ofList]
  exact hfree.lines_trim_unlines hline

/-- The description of a comment is read as itself. -/
theorem Comment.read_description {sloppy : Bool} {text : String} {c : Comment}
    (h : Comment.read sloppy text = .ok c) (again : Bool) :
    Comment.read again c.description = .ok ⟨c.description, []⟩ := by
  rw [Comment.read_of_tagFree (Comment.tagFree_description h)]
  have htrim : trim c.description.toList = c.description.toList := by
    rw [(Comment.read_eq_ok_iff.1 h).2, String.toList_ofList, trim_trim]
  rw [htrim, String.ofList_toList]

end ComponentDocs
