import ComponentDocs.Proofs.Fence.Blocks
import ComponentDocs.Proofs.Fence.Pieces

/-!
# Code set as HTML a second time

The code in the HTML keeps its lines, so one of them may open a block that a fence mark further
down closes. Setting code as HTML again changes nothing exactly when this does not happen:
`highlightText_again_iff`.
-/

namespace ComponentDocs

open Text

/-! ## Lines that make no block -/

/-- No line opens a block that a line below it closes. -/
def NoBlock (ls : List (List Char)) : Prop :=
  ls.Pairwise fun above below => (openingHeader? above).isSome → ¬ closesFence below

instance (ls : List (List Char)) : Decidable (NoBlock ls) :=
  inferInstanceAs (Decidable (ls.Pairwise _))

theorem noBlock_cons {line : List Char} {rest : List (List Char)} :
    NoBlock (line :: rest) ↔
      ((openingHeader? line).isSome → ∀ below ∈ rest, ¬ closesFence below) ∧ NoBlock rest := by
  rw [NoBlock, List.pairwise_cons, NoBlock]
  exact and_congr_left fun _ =>
    ⟨fun h hopens below hbelow => h below hbelow hopens,
      fun h below hbelow hopens => h hopens below hbelow⟩

/-- Lines are pieces of their own when no line opens a block that a line below it closes. -/
theorem fence?_pieces_iff {ls : List (List Char)} :
    (∀ p ∈ pieces ls, p.fence? = none) ↔ NoBlock ls := by
  fun_induction pieces ls with
  | case1 => simp [NoBlock]
  | case2 line rest hopening ih =>
    rw [List.forall_mem_cons, ih, noBlock_cons, hopening]
    exact and_congr_left fun _ => iff_of_true rfl fun h => absurd h (by simp)
  | case3 line rest header hopening hclosing ih =>
    rw [List.forall_mem_cons, ih, noBlock_cons]
    exact and_congr_left fun _ => iff_of_true rfl fun _ => splitAtClosing_eq_none_iff.1 hclosing
  | case4 line rest header hopening body closing after hclosing ih =>
    have hmem : closing ∈ rest := by
      rw [eq_of_splitAtClosing hclosing]
      exact List.mem_append_right body List.mem_cons_self
    have hblock : ¬ NoBlock (line :: rest) := fun h =>
      (noBlock_cons.1 h).1 (by rw [hopening]; rfl) closing hmem
        (splitAtClosing_eq_some_iff.1 hclosing).2.2
    exact iff_of_false (fun h => Option.some_ne_none _ (h _ List.mem_cons_self)) hblock

theorem fences_eq_nil_iff {text : String} : fences text = [] ↔ NoBlock (lines text.toList) := by
  rw [fences, fencesFrom_eq_nil_iff, textPieces, fence?_pieces_iff]

/-! ## The forms of fence marks -/

/-- What a line with a fence mark may do. -/
structure FenceForm where
  opens : Bool
  closes : Bool

/-- The form of a line, if it has a fence mark. -/
def fenceForm? (line : List Char) : Option FenceForm :=
  (afterFenceMark? line).map fun header => ⟨!header.contains '\x60', header.all isIndent⟩

theorem openingHeader?_isSome_iff {line : List Char} :
    (openingHeader? line).isSome ↔ ∃ form ∈ fenceForm? line, form.opens := by
  unfold openingHeader? fenceForm?
  cases afterFenceMark? line with
  | none => simp
  | some header => by_cases h : '\x60' ∈ header <;> simp [h]

theorem closesFence_iff {line : List Char} :
    closesFence line ↔ ∃ form ∈ fenceForm? line, form.closes := by
  unfold closesFence fenceForm?
  cases afterFenceMark? line with
  | none => simp
  | some header => simp

-- Only the lines with a fence mark count.
theorem noBlock_iff {ls : List (List Char)} :
    NoBlock ls ↔
      (ls.filterMap fenceForm?).Pairwise fun above below => above.opens → ¬ below.closes := by
  rw [List.pairwise_filterMap, NoBlock]
  refine List.Pairwise.iff fun above below => ?_
  rw [openingHeader?_isSome_iff, closesFence_iff]
  constructor
  · intro h form hform form' hform' hopens hcloses
    exact h ⟨form, hform, hopens⟩ ⟨form', hform', hcloses⟩
  · rintro h ⟨form, hform, hopens⟩ ⟨form', hform', hcloses⟩
    exact h form hform form' hform' hopens hcloses

/-! ## HTML text line by line -/

-- A character is itself or an entity.
theorem htmlChar_eq_or (c : Char) :
    htmlChar c = [c] ∨
      ∃ rest, htmlChar c = '&' :: rest ∧ '\n' ∉ rest ∧ '\x60' ∉ rest ∧
        c ∈ ['&', '<', '>', '"', '\''] := by
  unfold htmlChar
  split
  · exact .inr ⟨"amp;".toList, rfl, by decide, by decide, by decide⟩
  · exact .inr ⟨"lt;".toList, rfl, by decide, by decide, by decide⟩
  · exact .inr ⟨"gt;".toList, rfl, by decide, by decide, by decide⟩
  · exact .inr ⟨"quot;".toList, rfl, by decide, by decide, by decide⟩
  · exact .inr ⟨"#39;".toList, rfl, by decide, by decide, by decide⟩
  · exact .inl rfl

theorem htmlText_cons (c : Char) (s : List Char) : htmlText (c :: s) = htmlChar c ++ htmlText s :=
  List.flatMap_cons

theorem lines_htmlText (s : List Char) : lines (htmlText s) = (lines s).map htmlText := by
  induction s with
  | nil => rfl
  | cons c r ih =>
    by_cases hc : c = '\n'
    · have hself : htmlChar '\n' = ['\n'] := rfl
      rw [hc, htmlText_cons, hself, List.singleton_append, lines_cons_newline, lines_cons_newline,
        ih, List.map_cons]
      rfl
    · obtain ⟨first, others, hr⟩ := exists_lines_eq_cons r
      have hnewline : '\n' ∉ htmlChar c := by
        rcases htmlChar_eq_or c with h | ⟨rest, h, hrest, -⟩
        · rw [h, List.mem_singleton]
          exact Ne.symm hc
        · rw [h, List.mem_cons, not_or]
          exact ⟨by decide, hrest⟩
      rw [hr, List.map_cons] at ih
      rw [htmlText_cons, lines_append_of_newline_not_mem hnewline ih, lines_cons_of_ne hc hr,
        List.map_cons, htmlText_cons]

theorem dropWhile_isIndent_htmlText (s : List Char) :
    (htmlText s).dropWhile isIndent = htmlText (s.dropWhile isIndent) := by
  induction s with
  | nil => rfl
  | cons c r ih =>
    rcases htmlChar_eq_or c with h | ⟨rest, h, -, -, hc⟩
    · by_cases hindent : isIndent c
      · rw [htmlText_cons, h, List.singleton_append, List.dropWhile_cons_of_pos hindent, ih,
          List.dropWhile_cons_of_pos hindent]
      · rw [htmlText_cons, h, List.singleton_append, List.dropWhile_cons_of_neg hindent,
          List.dropWhile_cons_of_neg hindent, htmlText_cons, h, List.singleton_append]
    · have hindent : ∀ d ∈ ['&', '<', '>', '"', '\''], ¬ isIndent d := by simp [isIndent]
      rw [List.dropWhile_cons_of_neg (hindent c hc), htmlText_cons, h, List.cons_append,
        List.dropWhile_cons_of_neg (by decide)]

theorem htmlText_eq_backtick_cons_iff {s t : List Char} :
    htmlText s = '\x60' :: t ↔ ∃ r, s = '\x60' :: r ∧ t = htmlText r := by
  constructor
  · intro hs
    cases s with
    | nil => cases hs
    | cons c r =>
      rw [htmlText_cons] at hs
      rcases htmlChar_eq_or c with h | ⟨rest, h, -⟩
      · rw [h, List.singleton_append] at hs
        obtain ⟨rfl, rfl⟩ := List.cons.inj hs
        exact ⟨r, rfl, rfl⟩
      · rw [h, List.cons_append] at hs
        exact absurd (List.cons.inj hs).1 (by decide)
  · rintro ⟨r, rfl, rfl⟩
    rfl

theorem htmlText_eq_fenceMark_append_iff {s t : List Char} :
    htmlText s = fenceMark ++ t ↔ ∃ r, s = fenceMark ++ r ∧ t = htmlText r := by
  constructor
  · intro hs
    obtain ⟨s₁, rfl, h₁⟩ := htmlText_eq_backtick_cons_iff.1 hs
    obtain ⟨s₂, rfl, h₂⟩ := htmlText_eq_backtick_cons_iff.1 h₁.symm
    obtain ⟨s₃, rfl, h₃⟩ := htmlText_eq_backtick_cons_iff.1 h₂.symm
    exact ⟨s₃, rfl, h₃⟩
  · rintro ⟨r, rfl, rfl⟩
    rfl

theorem afterFenceMark?_eq_some_iff_dropWhile {line rest : List Char} :
    afterFenceMark? line = some rest ↔ line.dropWhile isIndent = fenceMark ++ rest := by
  unfold afterFenceMark?
  constructor
  · intro h
    split at h
    · rename_i hline
      rw [hline, Option.some.inj h]
      rfl
    · cases h
  · intro h
    rw [h]
    rfl

theorem afterFenceMark?_htmlText (line : List Char) :
    afterFenceMark? (htmlText line) = (afterFenceMark? line).map htmlText := by
  apply Option.ext
  intro rest
  simp only [Option.map_eq_some_iff, afterFenceMark?_eq_some_iff_dropWhile,
    dropWhile_isIndent_htmlText, htmlText_eq_fenceMark_append_iff]
  exact exists_congr fun r => and_congr_right fun _ => eq_comm

theorem backtick_mem_htmlText_iff {s : List Char} : '\x60' ∈ htmlText s ↔ '\x60' ∈ s := by
  rw [htmlText, List.mem_flatMap]
  constructor
  · rintro ⟨c, hc, hmem⟩
    rcases htmlChar_eq_or c with h | ⟨rest, h, -, hrest, -⟩
    · rw [h, List.mem_singleton] at hmem
      exact hmem ▸ hc
    · rw [h, List.mem_cons] at hmem
      exact absurd hmem (by simpa using hrest)
  · exact fun h => ⟨'\x60', h, List.mem_cons_self⟩

theorem all_isIndent_htmlText (s : List Char) : (htmlText s).all isIndent = s.all isIndent := by
  induction s with
  | nil => rfl
  | cons c r ih =>
    rw [htmlText_cons, List.all_append, ih, List.all_cons]
    rcases htmlChar_eq_or c with h | ⟨rest, h, -, -, hc⟩
    · rw [h, List.all_cons, List.all_nil, Bool.and_true]
    · have hindent : ∀ d ∈ ['&', '<', '>', '"', '\''], isIndent d = false := by
        simp [isIndent]
      rw [h, List.all_cons, hindent c hc]
      rfl

-- A line as HTML text opens and closes what it does as it is.
theorem fenceForm?_htmlText (line : List Char) : fenceForm? (htmlText line) = fenceForm? line := by
  have hcontains : ∀ s : List Char, (htmlText s).contains '\x60' = s.contains '\x60' := by
    intro s
    rw [Bool.eq_iff_iff, List.contains_iff_mem, List.contains_iff_mem, backtick_mem_htmlText_iff]
  rw [fenceForm?, afterFenceMark?_htmlText, Option.map_map, fenceForm?]
  simp only [Function.comp_def, hcontains, all_isIndent_htmlText]

/-! ## The lines of the HTML -/

/-- Code set as plain text, without the newline behind it. -/
theorem highlightChars_plain (cssClass lang code : List Char) :
    highlightChars .plain cssClass lang code =
      openingTag cssClass ++ "<pre><span></span>".toList ++ htmlText (shownCode code) ++
        "</pre></div>".toList := by
  have hlexer : Lexers.plain.forLang lang = plainHtml := by
    unfold Lexers.forLang
    split <;> rfl
  have hclosing : "</pre></div>\n".toList = "</pre></div".toList ++ ['>'] ++ ['\n'] := rfl
  rw [highlightChars, hlexer, plainHtml, hclosing, ← List.append_assoc,
    dropEndWhile_append_newline, ← List.append_assoc, dropEndWhile_append_of_ne (by decide),
    List.append_assoc]
  rfl

/-- The lines of a piece that stand alone in the HTML: the line itself, or the lines of the code
below its first one, which stands behind the tags. -/
def Piece.bareLines : Piece → List (List Char)
  | .line text => [text]
  | .fence f => (Text.lines (shownCode f.code)).tail

theorem fenceForm?_of_tag (s : List Char) : fenceForm? ('<' :: s) = none := rfl

theorem exists_openingTag_eq {cssClass : List Char} (h : '\n' ∉ cssClass) :
    ∃ rest, openingTag cssClass ++ "<pre><span></span>".toList = '<' :: rest ∧
      '\n' ∉ '<' :: rest := by
  unfold openingTag
  split
  · exact ⟨"div><pre><span></span>".toList, rfl, by decide⟩
  · refine ⟨"div class=\"".toList ++ cssClass ++ "\"><pre><span></span>".toList, by simp, ?_⟩
    simp only [List.mem_cons, List.mem_append, not_or]
    exact ⟨by decide, ⟨by decide, h⟩, by decide⟩

-- Between the tags the code has its lines, and an empty one at the end.
theorem exists_lines_highlightChars {cssClass : List Char} (h : '\n' ∉ cssClass)
    (lang code : List Char) :
    ∃ first middle last, (lines (shownCode code)).tail = middle ++ [[]] ∧
      lines (highlightChars .plain cssClass lang code) =
        ('<' :: first) :: (middle.map htmlText ++ ['<' :: last]) := by
  obtain ⟨front, hfront, hnewline⟩ := exists_openingTag_eq h
  obtain ⟨first, middle, hcore⟩ :=
    exists_lines_eq_cons (trimNewlines (normalizeNewlines (dropByteOrderMark code)))
  have hshown : lines (shownCode code) = first :: middle ++ [[]] := by
    rw [shownCode, lines_append_newline, hcore]
    rfl
  have hback : lines "</pre></div>".toList = ["</pre></div>".toList] :=
    lines_of_newline_not_mem (by decide)
  have hhtml : lines (htmlText (shownCode code)) = (first :: middle).map htmlText ++ [[]] := by
    rw [lines_htmlText, hshown, List.map_append]
    rfl
  refine ⟨front ++ htmlText first, middle, "/pre></div>".toList, ?_, ?_⟩
  · rw [hshown]
    rfl
  · rw [highlightChars_plain, hfront, List.append_assoc,
      lines_append_of_newline_not_mem hnewline (lines_append hhtml hback)]
    rfl

-- The marks in the HTML of a piece are those of its bare lines.
theorem Piece.filterMap_lines_highlighted {cssClass : List Char} (h : '\n' ∉ cssClass) {p : Piece}
    (hp : ∀ line ∈ p.lines, '\n' ∉ line) :
    (Text.lines (p.highlighted .plain cssClass)).filterMap fenceForm? =
      p.bareLines.filterMap fenceForm? := by
  cases p with
  | line text =>
    have htext : '\n' ∉ text := hp text (by simp [Piece.lines])
    rw [highlighted, lines_of_newline_not_mem htext, bareLines]
  | fence f =>
    obtain ⟨first, middle, last, hshown, hlines⟩ := exists_lines_highlightChars h f.lang f.code
    have hempty : fenceForm? [] = none := rfl
    rw [highlighted, hlines, bareLines, hshown]
    simp only [List.filterMap_cons, List.filterMap_append, List.filterMap_nil, List.filterMap_map,
      Function.comp_def, fenceForm?_htmlText, fenceForm?_of_tag, hempty]

-- The lines of pieces without blocks are the lines they were cut from.
theorem flatMap_bareLines_pieces {ls : List (List Char)} (h : NoBlock ls) :
    (pieces ls).flatMap Piece.bareLines = ls := by
  have hlines : ∀ p ∈ pieces ls, p.bareLines = p.lines := by
    intro p hp
    cases p with
    | line text => rfl
    | fence f => cases fence?_pieces_iff.2 h _ hp
  rw [List.flatMap_congr hlines, lines_pieces]

theorem noBlock_append_of_not_opening {run rest : List (List Char)}
    (h : ∀ line ∈ run, openingHeader? line = none) (hrest : NoBlock rest) :
    NoBlock (run ++ rest) := by
  induction run with
  | nil => exact hrest
  | cons line others ih =>
    rw [List.forall_mem_cons] at h
    rw [List.cons_append, noBlock_cons, h.1]
    exact ⟨fun hopens => absurd hopens (by simp), ih h.2⟩

-- Only code can open a block: a line of running text that opens one has no mark to close it.
theorem noBlock_bareLines_pieces {ls : List (List Char)}
    (h : ∀ f, Piece.fence f ∈ pieces ls →
      ∀ line ∈ (Piece.fence f).bareLines, openingHeader? line = none) :
    NoBlock ((pieces ls).flatMap Piece.bareLines) := by
  fun_induction pieces ls with
  | case1 => exact List.Pairwise.nil
  | case2 line rest hopening ih =>
    rw [List.flatMap_cons]
    exact noBlock_append_of_not_opening (by simpa [Piece.bareLines] using hopening)
      (ih fun f hf => h f (List.mem_cons_of_mem _ hf))
  | case3 line rest header _ hclosing ih =>
    rw [splitAtClosing_eq_none_iff] at hclosing
    have hrest : NoBlock rest :=
      List.Pairwise.imp_of_mem (fun _ hbelow _ _ => hclosing _ hbelow)
        (List.pairwise_of_forall fun _ _ => trivial)
    rw [List.flatMap_cons, flatMap_bareLines_pieces hrest, Piece.bareLines, List.singleton_append,
      noBlock_cons]
    exact ⟨fun _ => hclosing, hrest⟩
  | case4 line rest header _ body closing after _ ih =>
    rw [List.flatMap_cons]
    exact noBlock_append_of_not_opening (h _ List.mem_cons_self)
      (ih fun f hf => h f (List.mem_cons_of_mem _ hf))

theorem noBlock_lines_highlightText_iff {cssClass text : String} (h : '\n' ∉ cssClass.toList) :
    NoBlock (lines (highlightText .plain cssClass text).toList) ↔
      NoBlock ((textPieces text.toList).flatMap Piece.bareLines) := by
  have hne : (textPieces text.toList).map (Piece.highlighted .plain cssClass.toList) ≠ [] := by
    rw [ne_eq, List.map_eq_nil_iff]
    intro hnil
    have hlines := lines_pieces (lines text.toList)
    rw [← textPieces, hnil] at hlines
    exact lines_ne_nil text.toList hlines.symm
  have hpieces : ∀ p ∈ textPieces text.toList, ∀ line ∈ p.lines, '\n' ∉ line := by
    intro p hp line hline
    refine newline_not_mem_of_mem_lines (s := text.toList) ?_
    rw [← lines_pieces (lines text.toList)]
    exact List.mem_flatMap.2 ⟨p, hp, hline⟩
  rw [highlightText, String.toList_ofList, lines_unlines_eq_flatMap hne, noBlock_iff, noBlock_iff,
    List.flatMap_map, List.filterMap_flatMap, List.filterMap_flatMap]
  rw [List.flatMap_congr fun p hp => Piece.filterMap_lines_highlighted h (hpieces p hp)]

/-- Code that is set as HTML stays as it is, and leaves no block, exactly when no line that stands
alone in the HTML opens a block which one below it closes. -/
theorem highlightText_again_iff {cssClass text : String} (h : '\n' ∉ cssClass.toList) :
    (highlightText .plain cssClass (highlightText .plain cssClass text) =
        highlightText .plain cssClass text ↔
        NoBlock ((textPieces text.toList).flatMap Piece.bareLines)) ∧
      (fences (highlightText .plain cssClass text) = [] ↔
        NoBlock ((textPieces text.toList).flatMap Piece.bareLines)) := by
  rw [highlightText_eq_self_iff Lexers.writeBlocks_plain, fences_eq_nil_iff,
    noBlock_lines_highlightText_iff h]
  exact ⟨Iff.rfl, Iff.rfl⟩

/-- Code that is set as HTML stays as it is when no block has a line below the first one of its code
that opens a block. -/
theorem highlightText_again_of_code {cssClass text : String} (h : '\n' ∉ cssClass.toList)
    (hcode : ∀ f, Piece.fence f ∈ textPieces text.toList →
      ∀ line ∈ (lines (shownCode f.code)).tail, openingHeader? line = none) :
    highlightText .plain cssClass (highlightText .plain cssClass text) =
      highlightText .plain cssClass text := by
  rw [highlightText_eq_self_iff Lexers.writeBlocks_plain, fences_eq_nil_iff,
    noBlock_lines_highlightText_iff h]
  exact noBlock_bareLines_pieces hcode

/-- A block whose code has a fence mark below its first line. -/
def blockWithMark : String :=
  "Use:\n\x60\x60\x60jsx\n<A />\n\x60\x60\x60text\n\x60\x60\x60\nor \x60\x60\x60"

theorem highlightText_again_blockWithMark :
    '\n' ∉ "highlight".toList ∧ fences blockWithMark ≠ [] ∧
      NoBlock ((textPieces blockWithMark.toList).flatMap Piece.bareLines) ∧
      highlightText .plain "highlight" (highlightText .plain "highlight" blockWithMark) =
        highlightText .plain "highlight" blockWithMark ∧
      fences (highlightText .plain "highlight" blockWithMark) = [] := by
  have hcss : '\n' ∉ "highlight".toList := by decide
  have hblock : NoBlock ((textPieces blockWithMark.toList).flatMap Piece.bareLines) := by
    decide +kernel
  have hagain := @highlightText_again_iff _ blockWithMark hcss
  exact ⟨hcss, by decide +kernel, hblock, hagain.1.2 hblock, hagain.2.2 hblock⟩

/-- A block with a line that opens another one, and a fence mark without a partner below it. -/
def nestedFences : String :=
  "\x60\x60\x60\nx\n\x60\x60\x60text\n\x60\x60\x60\n\x60\x60\x60"

example : highlightText .plain "highlight" nestedFences =
    "<div class=\"highlight\"><pre><span></span>x\n" ++
    "\x60\x60\x60text\n</pre></div>\n\x60\x60\x60" := by
  decide +kernel

theorem highlightText_nestedFences :
    fences (highlightText .plain "highlight" nestedFences) ≠ [] ∧
      highlightText .plain "highlight" (highlightText .plain "highlight" nestedFences) ≠
        highlightText .plain "highlight" nestedFences := by
  decide +kernel

end ComponentDocs
