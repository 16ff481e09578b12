import ComponentDocs.Highlight
import ComponentDocs.Proofs.Fence.Blocks
import ComponentDocs.Proofs.Text.Lines
import ComponentDocs.Proofs.Text.Trim

/-!
# Texts without blocks of code

Setting the code of a text as HTML changes the text exactly when it has a block of code:
`highlightText_eq_self_iff`. A text that is trimmed stays so. Both hold for all lexers that write
blocks of HTML.
-/

namespace ComponentDocs

open Text

theorem fencesFrom_eq_nil_iff {start : Nat} {found : List Piece} :
    fencesFrom start found = [] ↔ ∀ p ∈ found, p.fence? = none := by
  induction found generalizing start with
  | nil => simp [fencesFrom]
  | cons p rest ih =>
    rw [List.forall_mem_cons, fencesFrom]
    cases hp : p.fence? with
    | none => simp [ih]
    | some f => simp

-- A block begins with an indent or a backtick.
theorem head?_of_openingHeader? {line header : List Char} (h : openingHeader? line = some header) :
    ∃ c rest, line = c :: rest ∧ c ≠ '<' := by
  cases line with
  | nil => cases h
  | cons c rest =>
    refine ⟨c, rest, rfl, ?_⟩
    rintro rfl
    rw [openingHeader?, afterFenceMark?, List.dropWhile_cons_of_neg (by decide)] at h
    cases h

/-! ## Blocks of HTML -/

/-- What a lexer writes is one block of HTML. -/
def Lexer.WritesBlock (lexer : Lexer) : Prop :=
  ∀ cssClass code, ∃ inner, lexer cssClass code = "<div".toList ++ inner ++ "</div>\n".toList

/-- All lexers write blocks of HTML. -/
def Lexers.WriteBlocks (lexers : Lexers) : Prop :=
  ∀ lang lexer, lexers.named? lang = some lexer → lexer.WritesBlock

theorem Lexers.writeBlocks_plain : Lexers.plain.WriteBlocks := nofun

theorem writesBlock_plainHtml : Lexer.WritesBlock plainHtml := by
  intro cssClass code
  have hopening : ∃ rest, openingTag cssClass = "<div".toList ++ rest := by
    unfold openingTag
    split
    · exact ⟨">".toList, rfl⟩
    · exact ⟨" class=\"".toList ++ cssClass ++ "\">".toList, rfl⟩
  obtain ⟨rest, hrest⟩ := hopening
  have hclosing : "</pre></div>\n".toList = "</pre>".toList ++ "</div>\n".toList := rfl
  refine ⟨rest ++ "<pre><span></span>".toList ++ htmlText (shownCode code) ++ "</pre>".toList, ?_⟩
  rw [plainHtml, hrest, hclosing]
  simp only [List.append_assoc]

theorem Lexers.WriteBlocks.forLang {lexers : Lexers} (h : lexers.WriteBlocks) (lang : List Char) :
    (lexers.forLang lang).WritesBlock := by
  unfold Lexers.forLang
  split
  · exact writesBlock_plainHtml
  · cases hnamed : lexers.named? lang with
    | none => exact writesBlock_plainHtml
    | some lexer => exact h lang lexer hnamed

section

variable {lexers : Lexers} (hlexers : lexers.WriteBlocks)

include hlexers

-- The newline behind the block goes.
theorem exists_highlightChars_eq (cssClass lang code : List Char) :
    ∃ inner, highlightChars lexers cssClass lang code =
      "<div".toList ++ inner ++ "</div>".toList := by
  obtain ⟨inner, hinner⟩ := hlexers.forLang lang cssClass code
  have hsplit : "<div".toList ++ inner ++ "</div>\n".toList =
      ("<div".toList ++ inner ++ "</div".toList ++ ['>']) ++ ['\n'] := by
    simp
  refine ⟨inner, ?_⟩
  rw [highlightChars, hinner, hsplit, dropEndWhile_append_newline,
    dropEndWhile_append_of_ne (by decide), List.append_assoc]
  rfl

theorem head?_highlightChars (cssClass lang code : List Char) :
    (highlightChars lexers cssClass lang code).head? = some '<' := by
  obtain ⟨inner, hinner⟩ := exists_highlightChars_eq hlexers cssClass lang code
  rw [hinner]
  rfl

theorem getLast?_highlightChars (cssClass lang code : List Char) :
    (highlightChars lexers cssClass lang code).getLast? = some '>' := by
  obtain ⟨inner, hinner⟩ := exists_highlightChars_eq hlexers cssClass lang code
  rw [hinner, List.getLast?_append_of_ne_nil _ (by decide)]
  rfl

theorem ne_nil_highlightChars (cssClass lang code : List Char) :
    highlightChars lexers cssClass lang code ≠ [] := by
  intro h
  have hhead := head?_highlightChars hlexers cssClass lang code
  rw [h] at hhead
  cases hhead

/-! ## Texts without code -/

-- Pieces that spell the same with their code as HTML have no code.
theorem fence?_eq_none_of_highlighted {cssClass : List Char} {found : List Piece}
    (hopening : ∀ f, Piece.fence f ∈ found → openingHeader? f.opening = some f.header)
    (h : unlines (found.map (Piece.highlighted lexers cssClass)) =
      unlines (found.flatMap Piece.lines)) :
    ∀ p ∈ found, p.fence? = none := by
  induction found with
  | nil => exact fun p hp => absurd hp List.not_mem_nil
  | cons p rest ih =>
    have hrest : ∀ f, Piece.fence f ∈ rest → openingHeader? f.opening = some f.header :=
      fun f hf => hopening f (List.mem_cons_of_mem p hf)
    rw [List.map_cons, List.flatMap_cons] at h
    cases p with
    | line text =>
      refine List.forall_mem_cons.2 ⟨rfl, ?_⟩
      by_cases hnil : rest = []
      · rw [hnil]
        exact fun q hq => absurd hq List.not_mem_nil
      · have hmap : rest.map (Piece.highlighted lexers cssClass) ≠ [] := by simpa using hnil
        rw [Piece.lines, Piece.highlighted, List.singleton_append, unlines_cons hmap,
          unlines_cons (flatMap_lines_ne_nil hnil)] at h
        exact ih hrest (List.cons.inj (List.append_cancel_left h)).2
    | fence f =>
      -- the HTML would begin where the opening line does, with another character
      obtain ⟨c, others, hline, hc⟩ :=
        head?_of_openingHeader? (hopening f List.mem_cons_self)
      have hhead := congrArg List.head? h
      rw [Piece.lines, List.cons_append, List.cons_append, hline, Piece.highlighted,
        head?_unlines (ne_nil_highlightChars hlexers cssClass f.lang f.code),
        head?_highlightChars hlexers, head?_unlines (List.cons_ne_nil c others)] at hhead
      exact absurd (Option.some.inj hhead).symm hc

omit hlexers in
theorem highlighted_of_fence?_eq_none (cssClass : List Char) {found : List Piece}
    (h : ∀ p ∈ found, p.fence? = none) :
    found.map (Piece.highlighted lexers cssClass) = found.flatMap Piece.lines := by
  induction found with
  | nil => rfl
  | cons p rest ih =>
    rw [List.forall_mem_cons] at h
    rw [List.map_cons, List.flatMap_cons, ih h.2]
    cases p with
    | line text => rfl
    | fence f => cases h.1

/-- A text stays as it is when it has no block of code, and only then. -/
theorem highlightText_eq_self_iff {cssClass text : String} :
    highlightText lexers cssClass text = text ↔ fences text = [] := by
  have hspell : unlines ((textPieces text.toList).flatMap Piece.lines) = text.toList := by
    rw [textPieces, lines_pieces, unlines_lines]
  rw [fences, fencesFrom_eq_nil_iff, highlightText]
  constructor
  · intro h
    have hchars := congrArg String.toList h
    rw [String.toList_ofList] at hchars
    exact fence?_eq_none_of_highlighted hlexers (fun f hf => (wellFormed_of_mem_pieces hf).opens)
      (hchars.trans hspell.symm)
  · intro h
    rw [highlighted_of_fence?_eq_none cssClass.toList h, hspell, String.ofList_toList]

theorem head?_highlighted {cssClass : List Char} {found : List Piece}
    (h : ∀ c ∈ (unlines (found.flatMap Piece.lines)).head?, ¬ isBlank c) :
    ∀ c ∈ (unlines (found.map (Piece.highlighted lexers cssClass))).head?, ¬ isBlank c := by
  cases found with
  | nil => exact h
  | cons p rest =>
    rw [List.map_cons]
    cases p with
    | line text =>
      by_cases htext : text = []
      · by_cases hrest : rest = []
        · rw [hrest, htext]
          exact fun c hc => absurd hc (by simp [Piece.highlighted, unlines])
        · rw [List.flatMap_cons, Piece.lines, htext, List.singleton_append,
            unlines_cons (flatMap_lines_ne_nil hrest)] at h
          exact absurd rfl (h '\n' rfl)
      · rw [List.flatMap_cons, Piece.lines, List.singleton_append, head?_unlines htext] at h
        rw [Piece.highlighted, head?_unlines htext]
        exact h
    | fence f =>
      rw [Piece.highlighted, head?_unlines (ne_nil_highlightChars hlexers cssClass f.lang f.code),
        head?_highlightChars hlexers]
      simp
      decide

theorem getLast?_highlighted {cssClass : List Char} {found : List Piece}
    (h : ∀ c ∈ (unlines (found.flatMap Piece.lines)).getLast?, ¬ isBlank c) :
    ∀ c ∈ (unlines (found.map (Piece.highlighted lexers cssClass))).getLast?, ¬ isBlank c := by
  obtain rfl | ⟨others, p, rfl⟩ := List.eq_nil_or_concat' found
  · exact h
  · rw [List.map_append, List.map_singleton]
    rw [List.flatMap_append, List.flatMap_singleton] at h
    cases p with
    | line text =>
      by_cases htext : text = []
      · by_cases hothers : others = []
        · rw [hothers, htext]
          exact fun c hc => absurd hc (by simp [Piece.highlighted, unlines])
        · rw [Piece.lines, htext, unlines_append (flatMap_lines_ne_nil hothers)
            (List.cons_ne_nil _ _), unlines, List.getLast?_concat] at h
          exact absurd rfl (h '\n' rfl)
      · rw [Piece.lines, getLast?_unlines htext] at h
        rw [Piece.highlighted, getLast?_unlines htext]
        exact h
    | fence f =>
      rw [Piece.highlighted,
        getLast?_unlines (ne_nil_highlightChars hlexers cssClass f.lang f.code),
        getLast?_highlightChars hlexers]
      simp
      decide

-- Setting the code of a trimmed text as HTML leaves it trimmed.
theorem trim_highlightText (cssClass : String) {text : String}
    (h : trim text.toList = text.toList) :
    trim (highlightText lexers cssClass text).toList =
      (highlightText lexers cssClass text).toList := by
  have hspell : unlines ((textPieces text.toList).flatMap Piece.lines) = text.toList := by
    rw [textPieces, lines_pieces, unlines_lines]
  rw [← hspell, trim_eq_self_iff_ends] at h
  rw [highlightText, String.toList_ofList, trim_eq_self_iff_ends]
  exact ⟨head?_highlighted hlexers h.1, getLast?_highlighted hlexers h.2⟩

end

end ComponentDocs
