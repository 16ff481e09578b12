import ComponentDocs.Proofs.Example.Declared
import ComponentDocs.Proofs.Fence.Spans

/-!
# Two readings of a block of code

A text with a block of code has a header and a code as a text with blocks, which is cut at newlines,
and as an inline example, which is cut at every line break and loses its blank lines. With nothing
visible below the first block, the two readings are the same when no line above it has a mark, its
header ends at the newline, and its code has neither blank lines nor other line breaks:
`InlineExample.ofChars_eq_fence_iff`.
-/

namespace ComponentDocs

open Text

/-! ## Visible lines -/

/-- A line that is no blank one and is not cut. -/
def IsVisibleLine (line : List Char) : Prop :=
  trim line ≠ [] ∧ ∀ c ∈ line, isLineBreak c = false

theorem mem_visibleLines_iff {line s : List Char} :
    line ∈ visibleLines s ↔ line ∈ brokenTexts s ∧ trim line ≠ [] := by
  rw [visibleLines, List.mem_filter, bne_iff_ne, brokenTexts]

-- A line with a mark is visible.
theorem forall_mem_visibleLines_unmarked {s : List Char} :
    (∀ line ∈ visibleLines s, ¬ hasFenceMark line) ↔
      ∀ line ∈ brokenTexts s, ¬ hasFenceMark line :=
  ⟨fun h line hline hmark =>
    h line (mem_visibleLines_iff.2 ⟨hline, trim_ne_nil_of_hasFenceMark hmark⟩) hmark,
    fun h line hline => h line (mem_visibleLines_iff.1 hline).1⟩

theorem isVisibleLine_of_mem {line s : List Char} (h : line ∈ visibleLines s) :
    IsVisibleLine line :=
  ⟨(mem_visibleLines_iff.1 h).2, isLineBreak_of_mem_brokenTexts (mem_visibleLines_iff.1 h).1⟩

theorem visibleLines_of_isVisibleLine {line : List Char} (h : IsVisibleLine line) :
    visibleLines line = [line] := by
  have hne : line ≠ [] := by
    rintro rfl
    exact h.1 rfl
  have htext : (breakLines line).map BrokenLine.text = [line] := brokenTexts_of_text h.2 hne
  rw [visibleLines, htext]
  exact List.filter_eq_self.2 (List.forall_mem_singleton.2 (bne_iff_ne.2 h.1))

theorem flatMap_visibleLines_eq_self {ls : List (List Char)} (h : ∀ line ∈ ls, IsVisibleLine line) :
    ls.flatMap visibleLines = ls := by
  induction ls with
  | nil => rfl
  | cons line rest ih =>
    rw [List.forall_mem_cons] at h
    rw [List.flatMap_cons, visibleLines_of_isVisibleLine h.1, ih h.2, List.singleton_append]

theorem visibleLines_nil : visibleLines [] = [] := rfl

theorem visibleLines_of_blank {s : List Char} (h : ∀ c ∈ s, isBlank c) : visibleLines s = [] := by
  refine List.eq_nil_iff_forall_not_mem.2 fun line hline => ?_
  obtain ⟨hbroken, hvisible⟩ := mem_visibleLines_iff.1 hline
  exact hvisible (trim_eq_nil_iff.2 fun c hc => h c ((infix_of_mem_brokenTexts hbroken).mem hc))

theorem visibleLines_append_newline (s rest : List Char) :
    visibleLines (s ++ '\n' :: rest) = visibleLines s ++ visibleLines rest := by
  obtain ⟨ts, hts, -, hcases⟩ := brokenTexts_append_newline s rest
  have hvisible : ts.filter (trim · != []) = visibleLines s := by
    rcases hcases with rfl | rfl
    · rfl
    · rw [List.filter_append]
      exact List.append_nil _
  rw [visibleLines, ← brokenTexts, hts, List.filter_append, hvisible]
  rfl

theorem visibleLines_endedLines_append (ls : List (List Char)) (rest : List Char) :
    visibleLines (endedLines ls ++ rest) = ls.flatMap visibleLines ++ visibleLines rest := by
  induction ls with
  | nil => rfl
  | cons line others ih =>
    rw [endedLines_cons, List.append_assoc, List.cons_append, visibleLines_append_newline, ih,
      List.flatMap_cons, List.append_assoc]

theorem visibleLines_endedLines (ls : List (List Char)) :
    visibleLines (endedLines ls) = ls.flatMap visibleLines := by
  have hrest := visibleLines_endedLines_append ls []
  rwa [List.append_nil, visibleLines_nil, List.append_nil] at hrest

theorem visibleLines_eq_flatMap_lines (s : List Char) :
    visibleLines s = (lines s).flatMap visibleLines := by
  have hended := visibleLines_endedLines (lines s)
  rw [endedLines_eq (lines_ne_nil s), unlines_lines, visibleLines_append_newline,
    visibleLines_nil, List.append_nil] at hended
  exact hended

theorem visibleLines_dropEndWhile (s : List Char) :
    visibleLines (dropEndWhile (· == '\n') s) = visibleLines s := by
  induction s using List.reverseRecOn with
  | nil => rfl
  | append_singleton s c ih =>
    by_cases hc : c = '\n'
    · rw [hc, dropEndWhile_append_newline, ih, visibleLines_append_newline,
        visibleLines_nil, List.append_nil]
    · rw [dropEndWhile_append_of_ne hc]

/-- The visible lines of a code, below other ones, are the code only if there are no others and all
of its own lines are visible. -/
theorem unlines_append_visibleLines_eq_iff {above : List (List Char)} {code : List Char}
    (habove : ∀ line ∈ above, IsVisibleLine line) :
    unlines (above ++ visibleLines code) = code ↔
      above = [] ∧ (code = [] ∨ ∀ line ∈ lines code, IsVisibleLine line) := by
  have hall : ∀ line ∈ above ++ visibleLines code, IsVisibleLine line :=
    List.forall_mem_append.2 ⟨habove, fun _ => isVisibleLine_of_mem⟩
  constructor
  · intro h
    by_cases hnil : above ++ visibleLines code = []
    · rw [hnil] at h
      exact ⟨(List.append_eq_nil_iff.1 hnil).1, .inl h.symm⟩
    · have hlines : lines code = above ++ visibleLines code := by
        conv_lhs => rw [← h]
        refine lines_unlines hnil fun line hline hmem => ?_
        exact absurd ((hall line hline).2 _ hmem) (by decide)
      -- the code has no more visible lines than it has
      have hsame : visibleLines code = above ++ visibleLines code := by
        conv_lhs => rw [visibleLines_eq_flatMap_lines, hlines]
        exact flatMap_visibleLines_eq_self hall
      refine ⟨List.self_eq_append_left.1 hsame, .inr ?_⟩
      rwa [hlines]
  · rintro ⟨rfl, rfl | hvisible⟩
    · rfl
    · rw [List.nil_append, visibleLines_eq_flatMap_lines, flatMap_visibleLines_eq_self hvisible,
        unlines_lines]

/-! ## The lines of a block -/

theorem ClosesBlock.trim_eq {line : List Char} (h : ClosesBlock line) : trim line = fenceMark := by
  obtain ⟨rest, ⟨indent, hindent, rfl⟩, hrest⟩ := h
  rw [trim_append_of_blank fun c hc => isBlank_of_isIndent (hrest c hc),
    trim_blank_append fun c hc => isBlank_of_isIndent (hindent c hc)]
  rfl

theorem isLineBreak_of_isIndent {c : Char} (h : isIndent c) : isLineBreak c = false := by
  rw [← Bool.not_eq_true]
  exact fun hbreak => not_isIndent_of_isLineBreak hbreak h

theorem isLineBreak_of_fenceFront {indent : List Char} (h : ∀ c ∈ indent, isIndent c) :
    ∀ c ∈ indent ++ fenceMark, isLineBreak c = false := by
  have hmark : ∀ c ∈ fenceMark, isLineBreak c = false := by simp [fenceMark, isLineBreak]
  exact List.forall_mem_append.2 ⟨fun c hc => isLineBreak_of_isIndent (h c hc), hmark⟩

theorem ClosesBlock.isVisibleLine {line : List Char} (h : ClosesBlock line) :
    IsVisibleLine line := by
  refine ⟨by rw [h.trim_eq]; exact List.cons_ne_nil _ _, ?_⟩
  obtain ⟨rest, ⟨indent, hindent, rfl⟩, hrest⟩ := h
  exact List.forall_mem_append.2 ⟨isLineBreak_of_fenceFront hindent,
    fun c hc => isLineBreak_of_isIndent (hrest c hc)⟩

-- Behind the first of some broken lines stands nothing visible when the others are blank.
theorem exists_blank_behind {s first : List Char} {rest : List (List Char)}
    (h : brokenTexts s = first :: rest) (hrest : ∀ line ∈ rest, trim line = []) :
    ∃ back, s = first ++ back ∧ ∀ c ∈ back, isBlank c := by
  obtain ⟨line, others, hlines, rfl, rfl⟩ := List.map_eq_cons_iff.1 h
  have hending {l : BrokenLine} (hl : l ∈ breakLines s) : ∀ c ∈ l.ending, isBlank c :=
    fun c hc => isBlank_of_isLineBreak ((isLineBreak_of_mem_breakLines hl).2 c hc)
  have hchars := flatMap_breakLines s
  rw [hlines, List.flatMap_cons, BrokenLine.toList, List.append_assoc] at hchars
  refine ⟨_, hchars.symm, List.forall_mem_append.2
    ⟨hending (hlines ▸ List.mem_cons_self), fun c hc => ?_⟩⟩
  obtain ⟨l, hl, hc⟩ := List.mem_flatMap.1 hc
  have htext := trim_eq_nil_iff.1 (hrest l.text (List.mem_map_of_mem hl))
  rcases List.mem_append.1 hc with hc | hc
  · exact htext c hc
  · exact hending (hlines ▸ List.mem_cons_of_mem line hl) c hc

-- A line that opens a block keeps its mark when it is cut, and loses no part of its header when
-- what is cut off is blank.
theorem OpensBlock.exists_brokenTexts {opening header : List Char} (h : OpensBlock opening header) :
    ∃ first kept, brokenTexts opening = first :: (brokenTexts opening).tail ∧
      trimLeft first = fenceMark ++ kept ∧
      ((∀ line ∈ (brokenTexts opening).tail, trim line = []) → trim kept = trim header) := by
  obtain ⟨⟨indent, hindent, rfl⟩, -⟩ := h
  obtain ⟨kept, hbroken⟩ := brokenTexts_text_append (isLineBreak_of_fenceFront hindent)
    (List.append_ne_nil_of_right_ne_nil indent (List.cons_ne_nil _ _)) header
  refine ⟨_, kept, by rw [hbroken, List.tail_cons], ?_, fun hblank => ?_⟩
  · rw [List.append_assoc, trimLeft_append_of_blank fun c hc => isBlank_of_isIndent (hindent c hc)]
    rfl
  · rw [hbroken, List.tail_cons] at hblank
    obtain ⟨back, hback, hblank⟩ := exists_blank_behind hbroken hblank
    rw [List.append_assoc (indent ++ fenceMark)] at hback
    rw [List.append_cancel_left hback, trim_append_of_blank hblank]

theorem Fence.Stands.visibleLines_eq {s before after : List Char} {f : Fence} {g : FenceLines}
    (h : f.Stands s before g after) (hbelow : ∀ c ∈ after, isBlank c) :
    visibleLines s =
      visibleLines before ++ visibleLines g.opening ++
        (visibleLines f.code.toList ++ [g.closing]) := by
  have hclosing : visibleLines (g.closing ++ after) = [g.closing] := by
    have hline := visibleLines_of_isVisibleLine h.closes.isVisibleLine
    cases after with
    | nil => rw [List.append_nil, hline]
    | cons c rest =>
      obtain rfl : c = '\n' := h.lineEnd c rfl
      rw [visibleLines_append_newline, hline,
        visibleLines_of_blank fun c hc => hbelow c (List.mem_cons_of_mem _ hc), List.append_nil]
  have hcode : visibleLines f.code.toList = g.body.flatMap visibleLines := by
    rw [h.code, String.toList_ofList, visibleLines_dropEndWhile, visibleLines_endedLines]
  obtain ⟨above, hbefore, -⟩ := exists_endedLines_eq h.lineStart
  rw [h.text, hcode, hbefore, visibleLines_endedLines]
  simp only [List.append_assoc, List.cons_append]
  rw [visibleLines_endedLines_append, visibleLines_append_newline, visibleLines_endedLines_append,
    hclosing]

/-! ## The inline example -/

theorem InlineExample.ofChars_of_visibleLines {s first closing : List Char}
    {above between : List (List Char)}
    (hlines : visibleLines s = above ++ first :: (between ++ [closing]))
    (habove : ∀ line ∈ above, ¬ hasFenceMark line) (hfirst : hasFenceMark first)
    (hclosing : trim closing = fenceMark) :
    ofChars s = ⟨trim ((trim first).drop fenceMark.length), unlines between⟩ := by
  have hfrom : fromFenceMark (visibleLines s) = first :: (between ++ [closing]) := by
    have hdrop :
        (visibleLines s).dropWhile (!hasFenceMark ·) = first :: (between ++ [closing]) := by
      rw [hlines, List.dropWhile_append_of_pos (by simpa using habove),
        List.dropWhile_cons_of_neg (by simpa using hfirst)]
    rw [fromFenceMark, hdrop]
  have hdropped : dropClosingLine (between ++ [closing]) = between := by
    rw [dropClosingLine, List.getLast?_concat, Option.any_some, if_pos (beq_iff_eq.2 hclosing),
      List.dropLast_concat]
  rw [ofChars, hfrom]
  dsimp only
  rw [hdropped]

-- The lines of an inline example that a block makes: what is left of the line that opens the block
-- is the first one, and nothing else of it is left when its header ends at the newline.
theorem Fence.Stands.exists_visibleLines {s before after : List Char} {f : Fence} {g : FenceLines}
    (h : f.Stands s before g after) (hbelow : ∀ c ∈ after, isBlank c) :
    ∃ first kept others,
      visibleLines s =
        visibleLines before ++ first :: (others ++ visibleLines f.code.toList ++ [g.closing]) ∧
      trimLeft first = fenceMark ++ kept ∧ (∀ line ∈ first :: others, IsVisibleLine line) ∧
      (others = [] ↔ ∀ line ∈ (brokenTexts g.opening).tail, trim line = []) ∧
      (others = [] → trim kept = f.header.toList) := by
  obtain ⟨first, kept, hopening, hmark, hkept⟩ := h.opens.exists_brokenTexts
  have hothers : (brokenTexts g.opening).tail.filter (trim · != []) = [] ↔
      ∀ line ∈ (brokenTexts g.opening).tail, trim line = [] := by
    rw [List.filter_eq_nil_iff]
    simp only [bne_iff_ne, ne_eq, not_not]
  have hblock : visibleLines g.opening =
      first :: (brokenTexts g.opening).tail.filter (trim · != []) := by
    change (brokenTexts g.opening).filter _ = _
    rw [hopening]
    exact List.filter_cons_of_pos
      (bne_iff_ne.2 (trim_ne_nil_of_hasFenceMark (hasFenceMark_iff.2 ⟨kept, hmark⟩)))
  refine ⟨first, kept, _, ?_, hmark, fun line hline => isVisibleLine_of_mem (hblock ▸ hline),
    hothers, fun hnil => ?_⟩
  · rw [h.visibleLines_eq hbelow, hblock]
    simp only [List.append_assoc, List.cons_append]
  · rw [hkept (hothers.1 hnil), h.header, String.toList_ofList]

-- Below a line with a mark, the line that opens the block is a part of the code.
theorem Fence.Stands.ofChars_ne_of_marked {s before after : List Char} {f : Fence} {g : FenceLines}
    (h : f.Stands s before g after) (hbelow : ∀ c ∈ after, isBlank c)
    (hmarked : ∃ line ∈ visibleLines before, hasFenceMark line) :
    InlineExample.ofChars s ≠ ⟨f.header.toList, f.code.toList⟩ := by
  obtain ⟨first, -, others, hlines, -, hopened, -⟩ := h.exists_visibleLines hbelow
  obtain ⟨line, hfound⟩ : ∃ line, (visibleLines before).find? hasFenceMark = some line := by
    rw [← Option.isSome_iff_exists, List.find?_isSome]
    exact hmarked
  obtain ⟨hline, unmarked, below, hbefore, hunmarked⟩ := List.find?_eq_some_iff_append.1 hfound
  have hshape : visibleLines s = unmarked ++
      line :: (below ++ first :: others ++ visibleLines f.code.toList ++ [g.closing]) := by
    rw [hlines, hbefore]
    simp only [List.append_assoc, List.cons_append]
  have hvisible : ∀ l ∈ below ++ first :: others, IsVisibleLine l := by
    refine List.forall_mem_append.2 ⟨fun l hl => isVisibleLine_of_mem (s := before) ?_, hopened⟩
    rw [hbefore]
    exact List.mem_append_right unmarked (List.mem_cons_of_mem line hl)
  rw [InlineExample.ofChars_of_visibleLines hshape (by simpa using hunmarked) hline
    h.closes.trim_eq]
  intro heq
  have hcode := (InlineExample.mk.inj heq).2
  have hnil := ((unlines_append_visibleLines_eq_iff hvisible).1 hcode).1
  exact List.append_ne_nil_of_right_ne_nil below (List.cons_ne_nil first others) hnil

/-- A block with nothing visible below it is read as an inline example with the same header and code
iff no line above it has a mark, at whichever breaks the text above is cut; no other break puts a
part of the header on a line of its own; and all lines of the code are visible. -/
theorem Fence.Stands.ofChars_eq_iff {s before after : List Char} {f : Fence} {g : FenceLines}
    (h : f.Stands s before g after) (hbelow : ∀ c ∈ after, isBlank c) :
    InlineExample.ofChars s = ⟨f.header.toList, f.code.toList⟩ ↔
      (∀ line ∈ brokenTexts before, ¬ hasFenceMark line) ∧
      (∀ line ∈ (brokenTexts g.opening).tail, trim line = []) ∧
      (f.code.toList = [] ∨ ∀ line ∈ lines f.code.toList, IsVisibleLine line) := by
  obtain ⟨first, kept, others, hlines, hmark, hopened, hothers, hheader⟩ :=
    h.exists_visibleLines hbelow
  rw [← forall_mem_visibleLines_unmarked, ← hothers]
  by_cases habove : ∀ line ∈ visibleLines before, ¬ hasFenceMark line
  · rw [InlineExample.ofChars_of_visibleLines hlines habove (hasFenceMark_iff.2 ⟨kept, hmark⟩)
        h.closes.trim_eq,
      InlineExample.mk.injEq, trim_drop_fenceMark hmark,
      unlines_append_visibleLines_eq_iff (List.forall_mem_cons.1 hopened).2]
    constructor
    · rintro ⟨-, hnil, hcode⟩
      exact ⟨habove, hnil, hcode⟩
    · rintro ⟨-, hnil, hcode⟩
      exact ⟨hheader hnil, hnil, hcode⟩
  · refine iff_of_false (h.ofChars_ne_of_marked hbelow ?_) fun hagree => habove hagree.1
    push Not at habove
    exact habove

/-! ## Texts that have newlines for their only breaks -/

theorem isLineBreak_of_mem_lines {s line : List Char} (h : ∀ c ∈ s, isLineBreak c → c = '\n')
    (hline : line ∈ lines s) : ∀ c ∈ line, isLineBreak c = false := by
  intro c hc
  rw [← Bool.not_eq_true]
  intro hbreak
  obtain rfl := h c (mem_of_mem_lines hline hc) hbreak
  exact newline_not_mem_of_mem_lines hline hc

theorem mem_lines_of_mem_brokenTexts {s t : List Char} (h : ∀ c ∈ s, isLineBreak c → c = '\n')
    (ht : t ∈ brokenTexts s) : t = [] ∨ t ∈ lines s := by
  rw [← unlines_lines s] at ht
  refine (mem_brokenTexts_unlines ht).imp_right fun ⟨line, hline, ht⟩ => ?_
  by_cases hne : line = []
  · rw [hne] at ht
    cases ht
  · rw [brokenTexts_of_text (isLineBreak_of_mem_lines h hline) hne, List.mem_singleton] at ht
    exact ht ▸ hline

theorem Fence.Stands.mem_of_mem_code {s before after : List Char} {f : Fence} {g : FenceLines}
    (h : f.Stands s before g after) : ∀ c ∈ f.code.toList, c ∈ s := by
  intro c hc
  rw [h.code, String.toList_ofList] at hc
  have hbody := (sublist_dropEndWhile _ _).mem hc
  rw [h.text]
  simp [hbody]

-- Without other breaks, only blank lines of the code can make a difference.
theorem Fence.Stands.ofChars_eq_iff_of_newlines {s before after : List Char} {f : Fence}
    {g : FenceLines} (h : f.Stands s before g after) (hbelow : ∀ c ∈ after, isBlank c)
    (hbreak : ∀ c ∈ s, isLineBreak c → c = '\n')
    (habove : ∀ line ∈ lines before, ¬ hasFenceMark line) :
    InlineExample.ofChars s = ⟨f.header.toList, f.code.toList⟩ ↔
      f.code.toList = [] ∨ ∀ line ∈ lines f.code.toList, trim line ≠ [] := by
  have hbefore : ∀ c ∈ before, isLineBreak c → c = '\n' := fun c hc =>
    hbreak c (h.text ▸ by simp [hc])
  have hunmarked : ∀ line ∈ brokenTexts before, ¬ hasFenceMark line := by
    intro line hline
    rcases mem_lines_of_mem_brokenTexts hbefore hline with rfl | hmem
    · decide
    · exact habove line hmem
  have hopening : ∀ c ∈ g.opening, isLineBreak c = false := by
    intro c hc
    rw [← Bool.not_eq_true]
    intro hc'
    obtain rfl := hbreak c (h.text ▸ by simp [hc]) hc'
    exact h.newlineFree g.opening List.mem_cons_self hc
  have hunbroken : (brokenTexts g.opening).tail = [] := by
    by_cases hnil : g.opening = []
    · rw [hnil]
      rfl
    · rw [brokenTexts_of_text hopening hnil]
      rfl
  have hvisible : (∀ line ∈ lines f.code.toList, IsVisibleLine line) ↔
      ∀ line ∈ lines f.code.toList, trim line ≠ [] :=
    forall₂_congr fun line hline => and_iff_left <|
      isLineBreak_of_mem_lines (fun c hc => hbreak c (h.mem_of_mem_code c hc)) hline
  rw [h.ofChars_eq_iff hbelow, hvisible, hunbroken, and_iff_right hunmarked,
    and_iff_right fun _ hline => absurd hline List.not_mem_nil]

/-- With nothing visible below it, the first block of a text and the inline example that the text is
have the same header and the same code iff no line above the block has a mark, at whichever breaks
the text above is cut; nothing visible stands behind another break in the line that opens the block;
and each line of the code is visible and not cut. In a text whose only breaks are newlines, with no
mark on the lines above the block, that is: iff the code is empty or has no blank line. -/
theorem InlineExample.ofChars_eq_fence_iff {text : String} {f : Fence}
    (hfirst : (fences text).head? = some f)
    (hbelow : ∀ c ∈ text.toList.drop f.stop, isBlank c) :
    (ofChars text.toList = ⟨f.header.toList, f.code.toList⟩ ↔
      (∀ line ∈ brokenTexts (text.toList.take f.start), ¬ hasFenceMark line) ∧
      (∀ opening ∈ (lines (text.toList.drop f.start)).head?,
        ∀ line ∈ (brokenTexts opening).tail, trim line = []) ∧
      (f.code = "" ∨ ∀ line ∈ lines f.code.toList,
        trim line ≠ [] ∧ ∀ c ∈ line, isLineBreak c = false)) ∧
    ((∀ c ∈ text.toList, isLineBreak c → c = '\n') →
      (∀ line ∈ lines (text.toList.take f.start), ¬ hasFenceMark line) →
      (ofChars text.toList = ⟨f.header.toList, f.code.toList⟩ ↔
        f.code = "" ∨ ∀ line ∈ lines f.code.toList, trim line ≠ [])) := by
  obtain ⟨before, g, after, h⟩ := stands_of_mem_fences (List.mem_of_head? hfirst)
  have htake : text.toList.take f.start = before := by
    rw [h.start, h.text, List.append_assoc, List.take_left]
  have hstop : text.toList.drop f.stop = after := by
    rw [h.stop, h.text, ← List.length_append, List.drop_left]
  have hopening : (lines (text.toList.drop f.start)).head? = some g.opening := by
    have hblock : text.toList.drop f.start =
        g.opening ++ '\n' :: (endedLines g.body ++ g.closing ++ after) := by
      rw [h.start, h.text, List.append_assoc, List.drop_left]
      simp only [List.append_assoc, List.cons_append]
    rw [hblock, lines_append_newline,
      lines_of_newline_not_mem (h.newlineFree g.opening List.mem_cons_self)]
    rfl
  rw [hstop] at hbelow
  rw [htake, hopening, ← String.toList_eq_nil_iff]
  refine ⟨?_, h.ofChars_eq_iff_of_newlines hbelow⟩
  rw [h.ofChars_eq_iff hbelow]
  simp only [Option.mem_some_iff, forall_eq', IsVisibleLine]

/-- A caption, code and its closing line. -/
def captionedBlock : String :=
  "Basic usage\n\x60\x60\x60jsx render\n<Button />\n<Button primary />\n\x60\x60\x60\n"

-- The caption is a part of neither reading.
theorem InlineExample.ofChars_eq_fence_captionedBlock :
    (fences captionedBlock).head? =
        some ⟨"jsx", "jsx render", "<Button />\n<Button primary />", 12, 59⟩ ∧
      (∀ c ∈ captionedBlock.toList.drop 59, isBlank c) ∧
      (∀ c ∈ captionedBlock.toList, isLineBreak c → c = '\n') ∧
      (∀ line ∈ lines (captionedBlock.toList.take 12), ¬ hasFenceMark line) ∧
      ofChars captionedBlock.toList =
        ⟨"jsx render".toList, "<Button />\n<Button primary />".toList⟩ := by
  have hfirst : (fences captionedBlock).head? =
      some ⟨"jsx", "jsx render", "<Button />\n<Button primary />", 12, 59⟩ := by decide +kernel
  have hbelow : ∀ c ∈ captionedBlock.toList.drop 59, isBlank c :=
    List.all_eq_true.1 (by decide +kernel)
  have hbreak : ∀ c ∈ captionedBlock.toList, isLineBreak c → c = '\n' := by
    have hall : captionedBlock.toList.all fun c => !isLineBreak c || c == '\n' := by decide +kernel
    simpa [imp_iff_not_or] using hall
  have habove : ∀ line ∈ lines (captionedBlock.toList.take 12), ¬ hasFenceMark line := by
    decide +kernel
  refine ⟨hfirst, hbelow, hbreak, habove, ?_⟩
  exact ((ofChars_eq_fence_iff hfirst hbelow).2 hbreak habove).2 (.inr (by decide +kernel))

/-- A blank line in the code stays in the block and is lost in the inline example. -/
theorem InlineExample.ofChars_blankLine :
    (fences "\x60\x60\x60jsx render\na\n\nb\n\x60\x60\x60").head? =
        some ⟨"jsx", "jsx render", "a\n\nb", 0, 22⟩ ∧
      "\x60\x60\x60jsx render\na\n\nb\n\x60\x60\x60".length = 22 ∧
      ofChars "\x60\x60\x60jsx render\na\n\nb\n\x60\x60\x60".toList =
        ⟨"jsx render".toList, "a\nb".toList⟩ := by
  decide +kernel

end ComponentDocs
