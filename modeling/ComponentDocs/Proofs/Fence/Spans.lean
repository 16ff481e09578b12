import ComponentDocs.Proofs.Fence.Blocks
import ComponentDocs.Proofs.Text.Lines

/-!
# Where the blocks of a text stand

Every block that is found is whole lines of the text, the last of which is the first to close it,
and no line that opens a block is passed over while a line below it closes one: `blocksOf_fences`.
-/

namespace ComponentDocs

open Text

/-! ## Lines that open and close -/

/-- A line of blanks, three backticks and a header without backticks. -/
def OpensBlock (line header : List Char) : Prop :=
  MarkedWith line header ∧ '\x60' ∉ header

/-- A line of blanks, three backticks and blanks. -/
def ClosesBlock (line : List Char) : Prop :=
  ∃ rest, MarkedWith line rest ∧ ∀ c ∈ rest, isIndent c

theorem opensBlock_iff {line header : List Char} :
    OpensBlock line header ↔ openingHeader? line = some header := by
  unfold OpensBlock openingHeader?
  rw [← afterFenceMark?_eq_some_iff]
  cases afterFenceMark? line with
  | none => simp
  | some found =>
    by_cases hmark : '\x60' ∈ found
    · have hcontains : found.contains '\x60' = true := by simpa using hmark
      simp only [Option.some.injEq, hcontains, if_true, reduceCtorEq, iff_false, not_and, not_not]
      rintro rfl
      exact hmark
    · have hcontains : found.contains '\x60' = false := by simpa using hmark
      simp only [Option.some.injEq, hcontains, Bool.false_eq_true, if_false, and_iff_left_iff_imp]
      rintro rfl
      exact hmark

theorem closesBlock_iff {line : List Char} : ClosesBlock line ↔ closesFence line := by
  unfold ClosesBlock closesFence
  rw [Option.any_eq_true]
  simp only [afterFenceMark?_eq_some_iff, List.all_eq_true]

theorem ne_nil_of_closesFence {line : List Char} (h : closesFence line) : line ≠ [] := by
  rintro rfl
  cases h

/-! ## Places -/

-- A piece and the newline after it are its lines with their newlines.
theorem endedLines_lines (p : Piece) : endedLines p.lines = p.text ++ ['\n'] :=
  endedLines_eq (p.lines_ne_nil)

/-- The text of pieces, each with a newline after it. -/
def endedPieces (found : List Piece) : List Char :=
  endedLines (found.flatMap Piece.lines)

theorem endedPieces_cons (p : Piece) (rest : List Piece) :
    endedPieces (p :: rest) = p.text ++ '\n' :: endedPieces rest := by
  rw [endedPieces, List.flatMap_cons, endedLines_append, endedLines_lines, List.append_assoc,
    List.singleton_append, ← endedPieces]

-- The pieces of a text spell it, and a newline after it.
theorem endedPieces_textPieces (s : List Char) : endedPieces (textPieces s) = s ++ ['\n'] := by
  rw [endedPieces, textPieces, lines_pieces, endedLines_eq (lines_ne_nil s), unlines_lines]

theorem fencesFrom_cons (start : Nat) (p : Piece) (rest : List Piece) :
    fencesFrom start (p :: rest) =
      (p.fence?.map fun f => f.located start (start + p.text.length)).toList ++
        fencesFrom (start + p.text.length + 1) rest := by
  rw [fencesFrom]
  cases p.fence? <;> rfl

-- A block that is found is the one of a piece, at the place that the pieces before it leave.
theorem exists_of_mem_fencesFrom {start : Nat} {found : List Piece} {f : Fence}
    (h : f ∈ fencesFrom start found) :
    ∃ before g after, found = before ++ .fence g :: after ∧
      f = g.located (start + (endedPieces before).length)
        (start + (endedPieces before).length + (Piece.fence g).text.length) := by
  induction found generalizing start with
  | nil => cases h
  | cons p rest ih =>
    rw [fencesFrom_cons, List.mem_append] at h
    rcases h with h | h
    · cases p with
      | line text => cases h
      | fence g =>
        obtain rfl := List.mem_singleton.1 h
        exact ⟨[], g, rest, rfl, rfl⟩
    · obtain ⟨before, g, after, rfl, rfl⟩ := ih h
      refine ⟨p :: before, g, after, rfl, ?_⟩
      have hlength : (endedPieces (p :: before)).length =
          p.text.length + 1 + (endedPieces before).length := by
        rw [endedPieces_cons, List.length_append, List.length_cons]
        omega
      rw [hlength]
      simp only [← Nat.add_assoc]

theorem start_of_mem_fencesFrom {start : Nat} {found : List Piece} {f : Fence}
    (h : f ∈ fencesFrom start found) : start ≤ f.start := by
  obtain ⟨before, g, after, -, rfl⟩ := exists_of_mem_fencesFrom h
  exact Nat.le_add_right _ _

theorem pairwise_fencesFrom (start : Nat) (found : List Piece) :
    (fencesFrom start found).Pairwise fun f g => f.stop < g.start := by
  induction found generalizing start with
  | nil => exact List.Pairwise.nil
  | cons p rest ih =>
    rw [fencesFrom_cons]
    cases p with
    | line text => exact ih _
    | fence g =>
      refine List.pairwise_cons.2 ⟨fun f hf => ?_, ih _⟩
      exact start_of_mem_fencesFrom hf

/-! ## Nothing is passed over -/

theorem length_text_fence (f : FenceLines) :
    (Piece.fence f).text.length = (endedLines (f.opening :: f.body)).length + f.closing.length := by
  have htext : (Piece.fence f).text = endedLines (f.opening :: f.body) ++ f.closing :=
    unlines_append_eq_endedLines (f.opening :: f.body) (List.cons_ne_nil f.closing [])
  rw [htext, List.length_append]

-- Each line below the first one starts before the end of the block.
theorem length_endedLines_lt {f : FenceLines} (hclosing : f.closing ≠ [])
    {front : List (List Char)} (h : front <+: f.body) :
    (endedLines (f.opening :: front)).length < (Piece.fence f).text.length := by
  obtain ⟨back, hbody⟩ := h
  have hpos : 0 < f.closing.length := List.length_pos_iff.2 hclosing
  rw [length_text_fence, ← hbody, ← List.cons_append, endedLines_append, List.length_append]
  omega

theorem exists_of_append_eq {α : Type} {body after others below : List α} {closing line : α}
    (h : body ++ closing :: after = others ++ line :: below) (hnot : ¬ others <+: body) :
    ∃ tail, others = body ++ closing :: tail ∧ after = tail ++ line :: below := by
  rcases List.append_eq_append_iff.1 h with ⟨tail, htail, hafter⟩ | ⟨tail, htail, -⟩
  · cases tail with
    | nil => exact absurd ⟨[], by rw [htail, List.append_nil, List.append_nil]⟩ hnot
    | cons c tail =>
      obtain ⟨rfl, hrest⟩ := List.cons.inj hafter
      exact ⟨tail, htail, hrest⟩
  · exact absurd ⟨tail, htail.symm⟩ hnot

/-- Below a line that opens a block, but stands outside all blocks, no line closes one. -/
theorem not_closesFence_of_outside {start position : Nat} {ls above below : List (List Char)}
    {line header : List Char} (hls : ls = above ++ line :: below)
    (hopening : openingHeader? line = some header)
    (hposition : position = start + (endedLines above).length)
    (houtside : ∀ f ∈ fencesFrom start (pieces ls), position < f.start ∨ f.stop ≤ position) :
    ∀ l ∈ below, ¬ closesFence l := by
  fun_induction pieces ls generalizing start above with
  | case1 => simp at hls
  | case2 first rest hnone ih =>
    cases above with
    | nil =>
      rw [(List.cons.inj hls).1, hopening] at hnone
      cases hnone
    | cons a others =>
      obtain ⟨rfl, hrest⟩ := List.cons.inj hls
      rw [length_endedLines_cons, ← Nat.add_assoc] at hposition
      exact ih hrest hposition houtside
  | case3 first rest header' hheader hnone ih =>
    cases above with
    | nil =>
      rw [← (List.cons.inj hls).2]
      exact splitAtClosing_eq_none_iff.1 hnone
    | cons a others =>
      obtain ⟨rfl, hrest⟩ := List.cons.inj hls
      rw [length_endedLines_cons, ← Nat.add_assoc] at hposition
      exact ih hrest hposition houtside
  | case4 first rest header' hheader body closing after hsplit ih =>
    obtain ⟨hrest, -, hcloses⟩ := splitAtClosing_eq_some_iff.1 hsplit
    have hlt : ∀ {front}, front <+: body → (endedLines (first :: front)).length <
        (Piece.fence ⟨first, header', body, closing⟩).text.length :=
      fun h => length_endedLines_lt (f := ⟨first, header', body, closing⟩)
        (ne_nil_of_closesFence hcloses) h
    rw [fencesFrom_cons] at houtside
    -- the line stands outside this block, so it is neither its first line nor one below that
    have hblock : position < start ∨
        start + (Piece.fence ⟨first, header', body, closing⟩).text.length ≤ position :=
      houtside _ (List.mem_append_left _ (List.mem_singleton_self _))
    cases above with
    | nil =>
      have hfirst := hlt List.nil_prefix
      rw [endedLines, List.flatMap_nil, List.length_nil] at hposition
      omega
    | cons a others =>
      obtain ⟨rfl, hothers⟩ := List.cons.inj hls
      have hnot : ¬ others <+: body := fun hprefix => by
        have hinside := hlt hprefix
        omega
      obtain ⟨tail, rfl, hafter⟩ := exists_of_append_eq (hrest.symm.trans hothers) hnot
      refine ih hafter ?_ fun f hf => houtside f (List.mem_append_right _ hf)
      have hlength : (Piece.fence ⟨first, header', body, closing⟩).text.length =
          (endedLines (first :: body)).length + closing.length := length_text_fence _
      rw [hposition, ← List.cons_append, endedLines_append, List.length_append,
        length_endedLines_cons closing, hlength]
      omega

/-! ## All blocks -/

/-- A block at its place: whole lines of a text between what stands before and after them. -/
structure Fence.Stands (s : List Char) (f : Fence) (before : List Char) (g : FenceLines)
    (after : List Char) : Prop where
  text : s = before ++ (g.opening ++ '\n' :: endedLines g.body ++ g.closing) ++ after
  start : f.start = before.length
  stop : f.stop = before.length + (g.opening ++ '\n' :: endedLines g.body ++ g.closing).length
  lineStart : ∀ c ∈ before.getLast?, c = '\n'
  lineEnd : ∀ c ∈ after.head?, c = '\n'
  newlineFree : ∀ line ∈ g.opening :: g.closing :: g.body, '\n' ∉ line
  opens : OpensBlock g.opening g.header
  closes : ClosesBlock g.closing
  first : ∀ line ∈ g.body, ¬ ClosesBlock line
  header : f.header = String.ofList (trim g.header)
  lang : f.lang = String.ofList ((trim g.header).takeWhile (· != ' '))
  code : f.code = String.ofList (dropEndWhile (· == '\n') (endedLines g.body))

/-- The blocks of a text: each at its place, in order and apart from each other, so that no line
that opens a block stands outside all of them above a line that closes one. -/
structure BlocksOf (s : List Char) (found : List Fence) : Prop where
  sound : ∀ f ∈ found, ∃ before g after, f.Stands s before g after
  apart : found.Pairwise fun f g => f.stop < g.start
  complete : ∀ before line header after, s = before ++ line ++ '\n' :: after →
    (∀ c ∈ before.getLast?, c = '\n') → '\n' ∉ line → OpensBlock line header →
    (∀ f ∈ found, before.length < f.start ∨ f.stop ≤ before.length) →
    ∀ below ∈ lines after, ¬ ClosesBlock below

theorem FenceLines.code_eq (f : FenceLines) :
    f.code = dropEndWhile (· == '\n') (endedLines f.body) := by
  unfold code
  by_cases hbody : f.body = []
  · rw [hbody]
    rfl
  · rw [endedLines_eq hbody, dropEndWhile_append_newline]

-- What stands before a piece, the piece, and what stands after it.
theorem unlines_flatMap_lines (before : List Piece) (p : Piece) (after : List Piece) :
    unlines ((before ++ p :: after).flatMap Piece.lines) = endedPieces before ++ p.text ++
      if after = [] then [] else '\n' :: unlines (after.flatMap Piece.lines) := by
  rw [List.flatMap_append, List.flatMap_cons, unlines_append_eq_endedLines, ← endedPieces,
    List.append_assoc]
  · by_cases hafter : after = []
    · rw [hafter, if_pos rfl, List.flatMap_nil, List.append_nil, List.append_nil]
      rfl
    · rw [if_neg hafter, unlines_append (p.lines_ne_nil) (flatMap_lines_ne_nil hafter)]
      rfl
  · exact List.append_ne_nil_of_left_ne_nil (p.lines_ne_nil) _

theorem stands_of_mem_fences {text : String} {f : Fence} (h : f ∈ fences text) :
    ∃ before g after, f.Stands text.toList before g after := by
  obtain ⟨before, g, after, hpieces, rfl⟩ := exists_of_mem_fencesFrom h
  have hmem : Piece.fence g ∈ pieces (lines text.toList) := by
    change Piece.fence g ∈ textPieces text.toList
    rw [hpieces]
    exact List.mem_append_right _ List.mem_cons_self
  obtain ⟨hopens, hbody, hcloses⟩ := wellFormed_of_mem_pieces hmem
  have hnewline : ∀ line ∈ g.opening :: g.closing :: g.body, '\n' ∉ line := by
    intro line hline
    refine newline_not_mem_of_mem_lines (s := text.toList) ?_
    rw [← lines_pieces (lines text.toList)]
    refine List.mem_flatMap.2 ⟨_, hmem, ?_⟩
    simp only [Piece.lines, List.mem_cons, List.mem_append, List.cons_append] at hline ⊢
    tauto
  have hblock : (Piece.fence g).text = g.opening ++ '\n' :: endedLines g.body ++ g.closing := by
    have hlines :=
      unlines_append_eq_endedLines (g.opening :: g.body) (List.cons_ne_nil g.closing [])
    rw [endedLines_cons] at hlines
    exact hlines
  have hspell := unlines_flatMap_lines before (.fence g) after
  rw [← hpieces, textPieces, lines_pieces, unlines_lines] at hspell
  refine ⟨endedPieces before, g, _, ⟨hblock ▸ hspell, ?_, ?_, getLast?_endedLines _, ?_, hnewline,
    opensBlock_iff.2 hopens, closesBlock_iff.2 hcloses,
    fun line hline => mt closesBlock_iff.1 (hbody line hline), rfl, rfl, ?_⟩⟩
  · exact Nat.zero_add _
  · rw [← hblock]
    exact congrArg (· + _) (Nat.zero_add _)
  · split <;> simp
  · exact congrArg String.ofList g.code_eq

/-- The blocks that are found in a text are its blocks. -/
theorem blocksOf_fences (text : String) : BlocksOf text.toList (fences text) := by
  refine ⟨fun f hf => stands_of_mem_fences hf, pairwise_fencesFrom 0 _, ?_⟩
  intro before line header after htext hbefore hline hopens houtside below hbelow
  obtain ⟨above, rfl, hlines⟩ := exists_endedLines_eq hbefore
  have hls : lines text.toList = above ++ line :: lines after := by
    rw [htext, List.append_assoc, hlines, lines_append_newline, lines_of_newline_not_mem hline]
    rfl
  rw [closesBlock_iff]
  exact not_closesFence_of_outside hls (opensBlock_iff.1 hopens) (Nat.zero_add _).symm houtside
    below hbelow

end ComponentDocs
