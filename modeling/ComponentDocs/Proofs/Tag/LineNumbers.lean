import ComponentDocs.Proofs.Tag.Segments
import ComponentDocs.Tag.Wrapping

/-!
# The line that an error names

An error names the line of the first tag that cannot be read, counted in the text of the comment.
Unwrapping a block comment takes lines off its front, and in the comment as it is written the tag
stands so many lines further down: `Comment.line_of_error`.
-/

namespace ComponentDocs

open Text

/-! ## Lines of a block comment -/

/-- White space, or a character of the delimiters and gutters of block comments. -/
def IsDelimiter (c : Char) : Prop :=
  isBlank c ∨ c = '/' ∨ c = '*'

/-- A line of a block comment as it is written: what stands on it has delimiters around it. -/
def WrittenAs (line written : List Char) : Prop :=
  ∃ lead tail, written = lead ++ line ++ tail ∧ (∀ c ∈ lead, IsDelimiter c) ∧
    ∀ c ∈ tail, IsDelimiter c

/-- The lines of a block comment behind its opening delimiter, without gutters. -/
def gutterlessLines (rest : List Char) : List (List Char) :=
  (lines (dropClosing (dropStar rest))).map dropGutter

/-- The number of lines that unwrapping takes off the front of a comment: the ones above the opening
delimiter, and below it the ones that are empty without their gutters. -/
def skippedLines (comment : List Char) : Nat :=
  match trimLeft comment with
  | '/' :: '*' :: rest =>
    (comment.takeWhile isBlank).count '\n' +
      ((unlines (gutterlessLines rest)).takeWhile (· == '\n')).length
  | _ => 0

theorem WrittenAs.refl (line : List Char) : WrittenAs line line :=
  ⟨[], [], (List.append_nil line).symm, fun _ hc => absurd hc List.not_mem_nil,
    fun _ hc => absurd hc List.not_mem_nil⟩

-- What unwrapping takes off the front of a line, and off the front and the end of a comment.
theorem exists_gutter (line : List Char) :
    ∃ gutter, (∀ c ∈ gutter, IsDelimiter c) ∧ line = gutter ++ dropGutter line := by
  obtain ⟨indent, hline, hindent⟩ := exists_margin_left line
  have hdelimiters {marks : List Char} (h : ∀ c ∈ marks, IsDelimiter c) :
      ∀ c ∈ indent ++ marks, IsDelimiter c :=
    List.forall_mem_append.2 ⟨fun c hc => .inl (hindent c hc), h⟩
  unfold dropGutter
  split
  · rename_i rest hrest
    refine ⟨indent ++ ['*', ' '], hdelimiters (by simp [IsDelimiter, isBlank]), ?_⟩
    rw [List.append_assoc]
    exact hline.trans (congrArg (indent ++ ·) hrest)
  · rename_i rest hrest
    refine ⟨indent ++ ['*'], hdelimiters (by simp [IsDelimiter]), ?_⟩
    rw [List.append_assoc]
    exact hline.trans (congrArg (indent ++ ·) hrest)
  · exact ⟨[], fun c hc => absurd hc List.not_mem_nil, rfl⟩

theorem exists_star (text : List Char) :
    ∃ star, (∀ c ∈ star, c = '*') ∧ text = star ++ dropStar text := by
  unfold dropStar
  split
  · exact ⟨['*'], by simp, rfl⟩
  · exact ⟨[], by simp, rfl⟩

theorem exists_closing (text : List Char) :
    ∃ closing, (∀ c ∈ closing, IsDelimiter c) ∧ text = dropClosing text ++ closing := by
  obtain ⟨back, htext, hback⟩ := exists_margin_right text
  unfold dropClosing
  split
  · rename_i rest hrest
    have hcore : trimRight text = rest.reverse ++ ['*', '/'] := by
      rw [List.reverse_eq_iff] at hrest
      rw [hrest]
      simp
    refine ⟨['*', '/'] ++ back, ?_, ?_⟩
    · exact List.forall_mem_append.2
        ⟨by simp [IsDelimiter], fun c hc => .inl (hback c hc)⟩
    · rw [← List.append_assoc, ← hcore]
      exact htext
  · exact ⟨[], fun c hc => absurd hc List.not_mem_nil, (List.append_nil text).symm⟩

theorem newline_not_mem_dropGutter {line : List Char} (h : '\n' ∉ line) :
    '\n' ∉ dropGutter line := by
  obtain ⟨gutter, -, hline⟩ := exists_gutter line
  rw [hline] at h
  exact fun hmem => h (List.mem_append_right gutter hmem)

theorem lines_unlines_gutterlessLines (rest : List Char) :
    lines (unlines (gutterlessLines rest)) = gutterlessLines rest := by
  refine lines_unlines (by simp [gutterlessLines, lines_ne_nil]) fun line hline => ?_
  obtain ⟨own, hown, rfl⟩ := List.mem_map.1 hline
  exact newline_not_mem_dropGutter (newline_not_mem_of_mem_lines hown)

theorem getElem?_lines_trimNewlines {s line : List Char} {i : Nat}
    (h : (lines (trimNewlines s))[i]? = some line) :
    (lines s)[(s.takeWhile (· == '\n')).length + i]? = some line := by
  obtain ⟨below, hbelow⟩ := lines_dropEndWhile_newline (s.dropWhile (· == '\n'))
  rw [← List.getElem?_drop, ← lines_dropWhile_newline, ← hbelow]
  exact (List.getElem?_append_left (List.getElem?_eq_some_iff.1 h).1).trans h

-- A block comment is the text that unwrapping starts from between its delimiters.
theorem exists_block_eq {comment rest : List Char} (h : trimLeft comment = '/' :: '*' :: rest) :
    ∃ opening closing, comment = opening ++ (dropClosing (dropStar rest) ++ closing) ∧
      (∀ c ∈ opening, IsDelimiter c) ∧ (∀ c ∈ closing, IsDelimiter c) ∧
      opening.count '\n' = (comment.takeWhile isBlank).count '\n' := by
  obtain ⟨star, hstar, hrest⟩ := exists_star rest
  obtain ⟨closing, hclosing, hinner⟩ := exists_closing (dropStar rest)
  refine ⟨comment.takeWhile isBlank ++ '/' :: '*' :: star, closing, ?_, ?_, hclosing, ?_⟩
  · calc comment = comment.takeWhile isBlank ++ trimLeft comment :=
          List.takeWhile_append_dropWhile.symm
      _ = comment.takeWhile isBlank ++ '/' :: '*' :: (star ++ dropStar rest) := by rw [h, ← hrest]
      _ = _ := by rw [← hinner, List.append_assoc, List.cons_append, List.cons_append]
  · refine List.forall_mem_append.2 ⟨fun c hc => .inl (List.mem_takeWhile_imp hc), ?_⟩
    simp only [List.forall_mem_cons]
    exact ⟨.inr (.inl rfl), .inr (.inr rfl), fun c hc => .inr (.inr (hstar c hc))⟩
  · have hnone : '\n' ∉ '/' :: '*' :: star := by
      simp only [List.mem_cons, not_or]
      exact ⟨by decide, by decide, fun hmem => absurd (hstar _ hmem) (by decide)⟩
    rw [List.count_append, List.count_eq_zero.2 hnone, Nat.add_zero]

/-- The lines of an unwrapped comment stand on those of the comment as it is written, below the ones
that are taken off. -/
theorem getElem?_lines_unwrapChars {comment line : List Char} {i : Nat}
    (h : (lines (unwrapChars comment))[i]? = some line) :
    ∃ written, (lines comment)[skippedLines comment + i]? = some written ∧
      WrittenAs line written := by
  unfold unwrapChars at h
  split at h
  · rename_i rest hrest
    have hskipped : skippedLines comment = (comment.takeWhile isBlank).count '\n' +
        ((unlines (gutterlessLines rest)).takeWhile (· == '\n')).length := by
      simp only [skippedLines, hrest]
    rw [← gutterlessLines] at h
    have hplace := getElem?_lines_trimNewlines h
    rw [lines_unlines_gutterlessLines, gutterlessLines, List.getElem?_map,
      Option.map_eq_some_iff] at hplace
    obtain ⟨own, hown, rfl⟩ := hplace
    -- the line with its gutter stands between what is behind the delimiters and in front of them
    obtain ⟨opening, closing, hcomment, hopening, hclosing, hcount⟩ := exists_block_eq hrest
    obtain ⟨gutter, hgutter, hown'⟩ := exists_gutter own
    obtain ⟨tail, htail, hplace⟩ := getElem?_lines_append_left closing hown
    obtain ⟨lead, hlead, hplace⟩ := getElem?_lines_append_right opening hplace
    rw [← hcomment, hcount, ← Nat.add_assoc, ← gutterlessLines, ← hskipped] at hplace
    refine ⟨_, hplace, lead ++ gutter, tail, ?_, ?_, fun c hc => hclosing c (htail hc)⟩
    · conv_lhs => rw [hown']
      simp only [List.append_assoc]
    · exact List.forall_mem_append.2 ⟨fun c hc => hopening c (hlead hc), hgutter⟩
  · rename_i hblock
    have hskipped : skippedLines comment = 0 := by
      unfold skippedLines
      split
      · rename_i rest hrest
        exact absurd hrest (hblock rest)
      · rfl
    rw [hskipped, Nat.zero_add]
    exact ⟨line, h, WrittenAs.refl line⟩

/-! ## Errors -/

/-- A line of a comment as it is written holds a title: an at sign and the title stand on it behind
white space, delimiters and gutters. -/
def HoldsTitle (written title : List Char) : Prop :=
  ∃ lead rest, written = lead ++ '@' :: title ++ rest ∧ ∀ c ∈ lead, IsDelimiter c

theorem OpensTag.holdsTitle {line title rest written : List Char} (h : OpensTag line title rest)
    (hwritten : WrittenAs line written) : HoldsTitle written title := by
  obtain ⟨indent, hindent, rfl⟩ := h.spells
  obtain ⟨lead, tail, rfl, hlead, -⟩ := hwritten
  refine ⟨lead ++ indent, rest ++ tail, by simp, ?_⟩
  exact List.forall_mem_append.2 ⟨hlead, fun c hc => .inl (hindent c hc)⟩

theorem getElem?_lines_of_tagSegments {text : List Char} {before after : List TagSegment}
    {s : TagSegment} (h : tagSegments text = before ++ s :: after) :
    (lines text)[s.number - 1]? = some s.line := by
  have hnumber := (of_tagSegments_eq h).2.1
  rw [hnumber, Nat.add_sub_cancel, lines_eq_headLines_append, h, List.flatMap_append,
    ← List.append_assoc, List.getElem?_append_right (Nat.le_refl _), Nat.sub_self,
    List.flatMap_cons]
  rfl

/-- The text in which the tags of a comment are looked for. -/
def commentText (unwrapping : Bool) (comment : String) : String :=
  if unwrapping then unwrap comment else comment

/-- The number of lines of a comment that stand above those in which its tags are looked for. -/
def linesAbove (unwrapping : Bool) (comment : String) : Nat :=
  if unwrapping then skippedLines comment.toList else 0

theorem getElem?_lines_commentText {unwrapping : Bool} {comment : String} {line : List Char}
    {i : Nat} (h : (lines (commentText unwrapping comment).toList)[i]? = some line) :
    ∃ written, (lines comment.toList)[linesAbove unwrapping comment + i]? = some written ∧
      WrittenAs line written := by
  cases unwrapping with
  | false =>
    rw [linesAbove, if_neg Bool.false_ne_true, Nat.zero_add]
    exact ⟨line, h, WrittenAs.refl line⟩
  | true =>
    rw [commentText, if_pos rfl, unwrap, String.toList_ofList] at h
    exact getElem?_lines_unwrapChars h

theorem Comment.exists_segment_of_error {sloppy : Bool} {text : String} {e : TagError}
    (h : Comment.read sloppy text = .error e) :
    ∃ before s after, tagSegments text.toList = before ++ s :: after ∧
      (∀ b ∈ before, b.WellFormed sloppy) ∧ s.read sloppy = .error e := by
  have herror := Comment.errorOf?_read sloppy text
  rw [errorOf?_eq_some_iff.2 h, eq_comm, List.findSome?_eq_some_iff] at herror
  obtain ⟨before, s, after, hfound, hs, hbefore⟩ := herror
  exact ⟨before, s, after, hfound,
    fun b hb => TagSegment.errorOf?_eq_none_iff.1 (hbefore b hb), errorOf?_eq_some_iff.1 hs⟩

/-- The title of the first tag that cannot be read stands on the line that the error names, below
the lines that unwrapping takes off the front of the comment. -/
theorem Comment.line_of_error {unwrapping sloppy : Bool} {comment : String} {e : TagError}
    (h : Comment.read sloppy (commentText unwrapping comment) = .error e) :
    ∃ before s after number written,
      tagSegments (commentText unwrapping comment).toList = before ++ s :: after ∧
      (∀ b ∈ before, b.WellFormed sloppy) ∧ ¬ s.WellFormed sloppy ∧
      (lines comment.toList)[number - 1]? = some written ∧ HoldsTitle written s.title ∧
      number = linesAbove unwrapping comment + e.line ∧
      (number = e.line ↔ unwrapping = false ∨ skippedLines comment.toList = 0) := by
  obtain ⟨before, s, after, hfound, hbefore, hs⟩ := Comment.exists_segment_of_error h
  have hline : e.line = s.number := (TagSegment.read_eq_error hs).1
  obtain ⟨hopens, hnumber, -, -⟩ := of_tagSegments_eq hfound
  obtain ⟨written, hwritten, hlead⟩ :=
    getElem?_lines_commentText (getElem?_lines_of_tagSegments hfound)
  refine ⟨before, s, after, linesAbove unwrapping comment + e.line, written, hfound, hbefore, ?_,
    ?_, hopens.holdsTitle hlead, rfl, ?_⟩
  · rw [← TagSegment.errorOf?_eq_none_iff, hs]
    exact Option.some_ne_none e
  · rw [hline, Nat.add_sub_assoc (by omega)]
    exact hwritten
  · rw [linesAbove]
    cases unwrapping with
    | false => simp
    | true => simp

/-- A comment that begins on the line of its delimiter, with a tag that cannot be read. -/
def openBraceComment : String :=
  "/** Select.\n * @public\n * @param \x7bstring name\n */"

theorem Comment.line_of_error_openBraceComment :
    Comment.read true (commentText true openBraceComment) =
        .error ⟨.unbalancedBraces, 3, "\x7bstring name\n "⟩ ∧
      ∃ s ∈ tagSegments (commentText true openBraceComment).toList, ¬ s.WellFormed true ∧
        ∃ written, (lines openBraceComment.toList)[2]? = some written ∧
          HoldsTitle written s.title := by
  have hread : Comment.read true (commentText true openBraceComment) =
      .error ⟨.unbalancedBraces, 3, "\x7bstring name\n "⟩ := by decide +kernel
  have hskipped : skippedLines openBraceComment.toList = 0 := by decide +kernel
  obtain ⟨before, s, after, number, written, hfound, -, hs, hwritten, hholds, -, hsame⟩ :=
    Comment.line_of_error hread
  rw [hsame.2 (.inr hskipped)] at hwritten
  exact ⟨hread, s, hfound ▸ List.mem_append_right before List.mem_cons_self, hs, written, hwritten,
    hholds⟩

/-- Below a line that has the opening delimiter only, the error names the line above that of its
tag. -/
theorem Comment.line_of_error_below_delimiter :
    Comment.read false (commentText true "/**\n * @param \x7bstring\n */") =
        .error ⟨.unbalancedBraces, 1, "\x7bstring\n "⟩ ∧
      (lines "/**\n * @param \x7bstring\n */".toList)[1 - 1]? = some "/**".toList ∧
      ¬ HoldsTitle "/**".toList "param".toList ∧
      ∃ written, (lines "/**\n * @param \x7bstring\n */".toList)[2 - 1]? = some written ∧
        HoldsTitle written "param".toList := by
  refine ⟨by decide +kernel, by decide +kernel, ?_, " * @param \x7bstring".toList,
    by decide +kernel, " * ".toList, " \x7bstring".toList, by decide +kernel, ?_⟩
  · rintro ⟨lead, rest, hline, -⟩
    have hmem : '@' ∈ "/**".toList := by
      rw [hline, List.append_assoc]
      exact List.mem_append_right lead List.mem_cons_self
    exact absurd hmem (by decide)
  · simp [IsDelimiter, isBlank]

end ComponentDocs
