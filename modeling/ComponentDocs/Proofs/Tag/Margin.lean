import ComponentDocs.Proofs.Tag.Segments

/-!
# White space around comments

Newlines in front of a comment and a blank line behind it leave its tags as they are:
`Comment.tags?_dropWhile_newline` and `Comment.tags?_append_blankLine`.
-/

namespace ComponentDocs

open Text

/-! ## The parts of a tag with white space behind -/

section Parts

variable {back : List Char}

theorem splitClosing_append_of_not_mem (h : '\x7d' ∉ back) (depth : Nat) (text : List Char) :
    splitClosing depth (text ++ back) =
      (splitClosing depth text).map fun found => (found.1, found.2 ++ back) := by
  have hnone (depth : Nat) : splitClosing depth back = none := by
    refine splitClosing_eq_none_iff.2 fun front hfront => ?_
    rw [List.count_eq_zero.2 fun hmem => h (hfront.subset hmem)]
    exact Nat.zero_le _
  fun_induction splitClosing depth text with
  | case1 depth => exact hnone depth
  | case2 rest => rfl
  | case3 rest depth ih => simp [splitClosing, ih, Function.comp_def]
  | case4 depth rest hclose ih => simp [splitClosing, ih, Function.comp_def]
  | case5 depth c rest hclose hopen ih =>
    simp [splitClosing, hclose, hopen, ih, Function.comp_def]

/-- The type is the same, and what follows it is followed by the white space, if by anything. -/
theorem takeType_append_blank (h : ∀ c ∈ back, isBlank c) (text : List Char) :
    Option.Rel (fun found found' => found'.1 = found.1 ∧
        (found'.2 = found.2 ∨ found'.2 = found.2 ++ back))
      (takeType text).toOption (takeType (text ++ back)).toOption := by
  by_cases hblank : trimLeft text = []
  · have hall := trimLeft_append_eq_nil hblank h
    rw [takeType_of_head? (by simp [hblank]), takeType_of_head? (by simp [hall]), hblank, hall]
    exact .some ⟨rfl, .inl rfl⟩
  · have htrim := trimLeft_append_of_ne_nil hblank back
    obtain ⟨c, body, hbody⟩ := List.exists_cons_of_ne_nil hblank
    by_cases hopen : c = '\x7b'
    · have hclose : '\x7d' ∉ back := fun hmem => absurd (h _ hmem) (by decide)
      rw [hopen] at hbody
      rw [hbody, List.cons_append] at htrim
      have hsplit := splitClosing_append_of_not_mem hclose 0 body
      unfold takeType
      simp only [hbody, htrim, hsplit]
      cases splitClosing 0 body with
      | none => exact .none
      | some found => exact .some ⟨rfl, .inr rfl⟩
    · rw [takeType_of_head? (by simpa [hbody] using hopen),
        takeType_of_head? (by simpa [htrim, hbody] using hopen), htrim]
      exact .some ⟨rfl, .inr rfl⟩

theorem endsName_of_isBlank {c : Char} (h : isBlank c) : EndsName c := by
  have hnone : ¬ (isNameChar c || c == '.') := fun hname => not_isBlank_of_isNameChar hname h
  rw [Bool.or_eq_true, not_or, Bool.not_eq_true, beq_iff_eq] at hnone
  refine ⟨hnone.1, hnone.2, ?_⟩
  rintro rfl
  exact absurd h (by decide)

theorem takeName?_append_blank (h : ∀ c ∈ back.head?, isBlank c) (text : List Char) :
    takeName? (text ++ back) =
      (takeName? text).map fun found => (found.1, found.2 ++ back) := by
  have hends : ∀ c ∈ back.head?, EndsName c := fun c hc => endsName_of_isBlank (h c hc)
  cases text with
  | nil =>
    cases back with
    | nil => rfl
    | cons c rest => simp [takeName?, (hends c rfl).1]
  | cons c rest =>
    by_cases hc : isNameChar c
    · have hend : ∀ d ∈ back.head?, (isNameChar d || d == '.') = false := fun d hd => by
        simp [(hends d hd).1, (hends d hd).2.1]
      obtain ⟨run, after, hspan, -, -⟩ := exists_span (fun d => isNameChar d || d == '.') rest
      have hspan' : (rest ++ back).span (fun d => isNameChar d || d == '.') =
          (run, after ++ back) := by
        rw [span_append_of_head? hend rest, hspan]
      rw [List.cons_append]
      by_cases hbrackets : ∃ tail, after = '[' :: ']' :: tail
      · obtain ⟨tail, rfl⟩ := hbrackets
        rw [List.cons_append, List.cons_append] at hspan'
        rw [takeName?_of_brackets hc hspan, takeName?_of_brackets hc hspan',
          takeDotted_append rfl hends, Option.map_some]
      · rw [takeName?_of_not_brackets hc hspan fun tail htail => hbrackets ⟨tail, htail⟩]
        refine takeName?_of_not_brackets hc hspan' fun tail htail => ?_
        -- no brackets come from the white space behind
        rcases after with _ | ⟨d, _ | ⟨e, t⟩⟩
        · have hback : back = '[' :: ']' :: tail := htail
          exact absurd (h '[' (by rw [hback]; rfl)) (by decide)
        · have hback : back = ']' :: tail := (List.cons.inj htail).2
          exact absurd (h ']' (by rw [hback]; rfl)) (by decide)
        · obtain ⟨rfl, hrest⟩ := List.cons.inj htail
          obtain ⟨rfl, -⟩ := List.cons.inj hrest
          exact hbrackets ⟨t, rfl⟩
    · simp [takeName?, hc]

theorem readName_of_head? {title : String} {sloppy : Bool} {text : List Char}
    (h : ∀ c ∈ (trimLeft text).head?, c ≠ '[') :
    readName title sloppy text =
      match takeName? (trimLeft text) with
      | some (name, after) => .ok ⟨name, none, after⟩
      | none => .error ⟨.missingIdentifier title, trimLeft text⟩ := by
  unfold readName
  split
  · rename_i rest hrest
    rw [hrest] at h
    exact absurd rfl (h _ rfl)
  · rfl

/-- The name and its default are the same, and the white space stands behind what follows them. -/
theorem readName_append_blank (h : ∀ c ∈ back, isBlank c) (title : String) (sloppy : Bool)
    (text : List Char) :
    (readName title sloppy (text ++ back)).toOption =
      (readName title sloppy text).toOption.map fun found =>
        { found with rest := found.rest ++ back } := by
  by_cases hblank : trimLeft text = []
  · have hall := trimLeft_append_eq_nil hblank h
    simp only [readName, hblank, hall]
    rfl
  · have htrim := trimLeft_append_of_ne_nil hblank back
    obtain ⟨c, body, hbody⟩ := List.exists_cons_of_ne_nil hblank
    rw [hbody, List.cons_append] at htrim
    by_cases hbracket : c = '['
    · rw [hbracket] at hbody htrim
      have hback : ']' ∉ back := fun hmem => absurd (h _ hmem) (by decide)
      simp only [readName, hbody, htrim]
      cases sloppy with
      | false => rfl
      | true =>
        by_cases hclosed : ']' ∈ body
        · obtain ⟨inner, after, rfl, hinner⟩ := List.eq_append_cons_of_mem hclosed
          rw [List.append_assoc, List.cons_append]
          simp only [span_ne_append hinner, List.span_eq_takeWhile_dropWhile]
          by_cases hname : isName (trim (inner.takeWhile (· != '=')))
          · simp [hname, Except.toOption]
          · simp [hname, Except.toOption]
        · simp only [span_ne_of_not_mem hclosed, span_ne_of_not_mem
            (fun hmem => (List.mem_append.1 hmem).elim hclosed hback)]
          rfl
    · have hname := takeName?_append_blank (fun d hd => h d (List.mem_of_mem_head? hd)) (c :: body)
      rw [List.cons_append, ← htrim, ← hbody] at hname
      rw [readName_of_head? (by simpa [htrim] using hbracket),
        readName_of_head? (by simpa [hbody] using hbracket), hname]
      cases takeName? (trimLeft text) <;> rfl

theorem cleanText_eq_of_append {text text' : List Char} (h : ∀ c ∈ back, isBlank c)
    (htext : text' = text ∨ text' = text ++ back) : cleanText text' = cleanText text := by
  rcases htext with rfl | rfl
  · rfl
  · rw [cleanText, trim_append_of_blank h, cleanText]

theorem verbatimText_append_blank {blank : List Char} (h : ∀ c ∈ blank, isBlank c)
    (first : List Char) (body : List (List Char)) :
    verbatimText first (body ++ [blank]) = verbatimText first body := by
  have hlines (ls : List (List Char)) :
      trimRight (unlines (ls ++ [blank])) = trimRight (unlines ls) := by
    by_cases hls : ls = []
    · rw [hls]
      exact trimRight_append_of_blank h []
    · rw [unlines_append hls (List.cons_ne_nil blank [])]
      exact trimRight_append_of_blank (List.forall_mem_cons.2 ⟨rfl, h⟩) _
  simp only [verbatimText]
  split
  · exact hlines body
  · exact hlines (trim first :: body)

/-- A blank line at the end of a tag does not change it. -/
theorem tagOfLines_append_blank {blank : List Char} (h : ∀ c ∈ blank, isBlank c) (sloppy : Bool)
    (title : String) (first : List Char) (body : List (List Char)) :
    (tagOfLines sloppy title first (body ++ [blank])).toOption =
      (tagOfLines sloppy title first body).toOption := by
  have hback : ∀ c ∈ '\n' :: blank, isBlank c := List.forall_mem_cons.2 ⟨rfl, h⟩
  have htext : unlines (first :: (body ++ [blank])) =
      unlines (first :: body) ++ '\n' :: blank := by
    rw [← List.cons_append, unlines_append (List.cons_ne_nil first body)
      (List.cons_ne_nil blank []), unlines]
  unfold tagOfLines
  simp only [htext]
  cases TagForm.ofTitle title with
  | verbatim => simp only [verbatimText_append_blank h]
  | plain => simp only [trim_append_of_blank hback]
  | result =>
    have htype := takeType_append_blank hback (unlines (first :: body))
    simp only [toOption_bind]
    generalize (takeType (unlines (first :: body))).toOption = found at htype ⊢
    generalize (takeType (unlines (first :: body) ++ '\n' :: blank)).toOption = found' at htype ⊢
    cases htype with
    | none => rfl
    | some hrel => simp only [Option.bind_some, hrel.1, cleanText_eq_of_append hback hrel.2]
  | parameter =>
    have htype := takeType_append_blank hback (unlines (first :: body))
    simp only [toOption_bind]
    generalize (takeType (unlines (first :: body))).toOption = found at htype ⊢
    generalize (takeType (unlines (first :: body) ++ '\n' :: blank)).toOption = found' at htype ⊢
    cases htype with
    | none => rfl
    | @some found found' hrel =>
      obtain ⟨htype, hrest | hrest⟩ := hrel
      · simp only [Option.bind_some, htype, hrest]
      · simp only [Option.bind_some, htype, hrest, readName_append_blank hback]
        cases readName title sloppy found.2 with
        | error flaw => rfl
        | ok reading =>
          have hclean : cleanText (reading.rest ++ '\n' :: blank) = cleanText reading.rest :=
            cleanText_eq_of_append hback (.inr rfl)
          simp [Except.toOption, hclean]

end Parts

/-! ## Comments with white space around them -/

/-- The tags of a comment that can be read. -/
def Comment.tags? (sloppy : Bool) (text : String) : Option (List Tag) :=
  (Comment.read sloppy text).toOption.map Comment.tags

theorem Comment.tags?_eq (sloppy : Bool) (text : String) :
    Comment.tags? sloppy text =
      ((tagSegments text.toList).mapM (TagSegment.read sloppy)).toOption := by
  rw [Comment.tags?, Comment.read_eq, toOption_bind]
  cases (tagSegments text.toList).mapM (TagSegment.read sloppy) <;> rfl

theorem TagSegment.toOption_read (sloppy : Bool) (s : TagSegment) :
    (s.read sloppy).toOption =
      (tagOfLines sloppy (String.ofList s.title) s.rest s.body).toOption := by
  rw [TagSegment.read]
  cases tagOfLines sloppy (String.ofList s.title) s.rest s.body <;> rfl

def CommentLine.below (line : CommentLine) : CommentLine :=
  { line with number := line.number + 1 }

def TagSegment.below (s : TagSegment) : TagSegment :=
  { s with number := s.number + 1 }

theorem commentLinesFrom_succ (number : Nat) (inside : Bool) (ls : List (List Char)) :
    commentLinesFrom (number + 1) inside ls =
      (commentLinesFrom number inside ls).map CommentLine.below := by
  induction ls generalizing number inside with
  | nil => rfl
  | cons line rest ih =>
    rw [commentLinesFrom, commentLinesFrom, List.map_cons, ih]
    rfl

-- A newline in front moves the segments down by one line.
theorem tagSegments_cons_newline (text : List Char) :
    tagSegments ('\n' :: text) = (tagSegments text).map TagSegment.below := by
  have hlines : commentLines ('\n' :: text) =
      ⟨1, false, []⟩ :: (commentLines text).map CommentLine.below := by
    rw [commentLines_eq, lines_cons_newline, commentLinesFrom, commentLinesFrom_succ,
      commentLines_eq]
    rfl
  have hopening (line : CommentLine) : line.below.opening? =
      line.opening?.map fun opening =>
        (opening.1.below, { opening.2 with number := opening.2.number + 1 }) := by
    obtain ⟨number, fenced, found⟩ := line
    unfold CommentLine.opening? CommentLine.tagLine? CommentLine.below
    cases fenced with
    | true => rfl
    | false =>
      dsimp only
      cases titled? found <;> rfl
  have hnone : CommentLine.opening? ⟨1, false, []⟩ = none := rfl
  rw [tagSegments, hlines, sections_cons_none hnone, sections_map hopening, tagSegments,
    List.map_map, List.map_map]
  refine List.map_congr_left fun s _ => ?_
  simp [TagSegment.ofSection, TagSegment.below, CommentLine.below, Function.comp_def]

theorem Comment.tags?_dropWhile_newline (sloppy : Bool) (text : List Char) :
    Comment.tags? sloppy (String.ofList (text.dropWhile (· == '\n'))) =
      Comment.tags? sloppy (String.ofList text) := by
  refine apply_dropWhile_newline (f := fun s => Comment.tags? sloppy (String.ofList s))
    (fun s => ?_) text
  rw [Comment.tags?_eq, Comment.tags?_eq, String.toList_ofList, String.toList_ofList,
    tagSegments_cons_newline, List.mapM_map]
  refine toOption_mapM_congr (List.forall₂_same.2 fun segment _ => ?_)
  rw [Function.comp_apply, TagSegment.toOption_read, TagSegment.toOption_read]
  rfl

theorem Comment.tags?_append_blankLine {blank : List Char} (h : ∀ c ∈ blank, isBlank c)
    (hnewline : '\n' ∉ blank) (sloppy : Bool) (text : List Char) :
    Comment.tags? sloppy (String.ofList (text ++ '\n' :: blank)) =
      Comment.tags? sloppy (String.ofList text) := by
  obtain ⟨last, hlines, hlast, hnone⟩ : ∃ last : CommentLine,
      commentLines (text ++ '\n' :: blank) = commentLines text ++ [last] ∧
        last.text = blank ∧ last.opening? = none := by
    refine ⟨⟨1 + (lines text).length, fenceAfter false (lines text), blank⟩, ?_, rfl, ?_⟩
    · rw [commentLines_eq, lines_append_newline, lines_of_newline_not_mem hnewline,
        commentLinesFrom_append, commentLines_eq]
      rfl
    · refine Option.map_eq_none_iff.2 (CommentLine.tagLine?_eq_none_iff.2 fun _ => ?_)
      exact titled?_of_blank h
  have hrun : ∀ line ∈ [last], line.opening? = none := List.forall_mem_singleton.2 hnone
  have hall := (forall₂_sections_append_of_none hrun (commentLines text)).2
  rw [Comment.tags?_eq, Comment.tags?_eq, String.toList_ofList, String.toList_ofList, tagSegments,
    hlines, tagSegments, List.mapM_map, List.mapM_map]
  refine (toOption_mapM_congr (hall.imp fun s t hst => ?_)).symm
  obtain ⟨hfirst, hbody⟩ := hst
  rw [Function.comp_apply, Function.comp_apply, TagSegment.toOption_read, TagSegment.toOption_read]
  unfold TagSegment.ofSection
  rcases hbody with hbody | hbody
  · rw [hfirst, hbody]
  · rw [hfirst, hbody, List.map_append, List.map_singleton, hlast, tagOfLines_append_blank h]

end ComponentDocs
