import ComponentDocs.Normal.Description
import ComponentDocs.Proofs.Doclet.Removal
import ComponentDocs.Proofs.Fence.Pieces

/-!
# Descriptions that are clean already

Every doclet that is removed takes an at sign with it, and setting code as HTML adds none unless the
class of the code has one or a lexer writes one. So cleaning leaves a trimmed text as it is when it
has neither doclets nor blocks of code, and only then: `cleanDescription_eq_self_iff`.
-/

namespace ComponentDocs

open Text

/-! ## Setting code as HTML -/

theorem count_normalizeNewlines (s : List Char) :
    (normalizeNewlines s).count '@' = s.count '@' := by
  fun_induction normalizeNewlines s with
  | case1 => rfl
  | case2 rest ih => simp [ih]
  | case3 c rest _ ih =>
    by_cases hc : c = '\r'
    · simp [hc, ih]
    · rw [if_neg hc, List.count_cons, List.count_cons, ih]

theorem count_htmlText (s : List Char) : (htmlText s).count '@' = s.count '@' := by
  induction s with
  | nil => rfl
  | cons c rest ih =>
    have hchar : (htmlChar c).count '@' = [c].count '@' := by
      unfold htmlChar
      split <;> rfl
    have hcons : htmlText (c :: rest) = htmlChar c ++ htmlText rest := List.flatMap_cons
    rw [hcons, List.count_append, hchar, ih, ← List.count_append, List.singleton_append]

theorem sublist_dropByteOrderMark (s : List Char) : (dropByteOrderMark s).Sublist s := by
  unfold dropByteOrderMark
  split
  · exact List.sublist_cons_self _ _
  · exact List.Sublist.refl s

theorem count_plainHtml {cssClass : List Char} (h : '@' ∉ cssClass) (code : List Char) :
    (plainHtml cssClass code).count '@' ≤ code.count '@' := by
  have hopening : (openingTag cssClass).count '@' = 0 := by
    unfold openingTag
    split
    · decide
    · rw [List.count_append, List.count_append, List.count_eq_zero_of_not_mem h]
      decide
  have hpre : "<pre><span></span>".toList.count '@' = 0 := by decide
  have hclose : "</pre></div>\n".toList.count '@' = 0 := by decide
  have hshown : (shownCode code).count '@' ≤ code.count '@' := by
    have htrim := ((sublist_dropEndWhile (· == '\n')
      ((normalizeNewlines (dropByteOrderMark code)).dropWhile (· == '\n'))).trans
        (List.dropWhile_sublist (· == '\n'))).count_le '@'
    have hmark := (sublist_dropByteOrderMark code).count_le '@'
    rw [count_normalizeNewlines] at htrim
    have hlast : ['\n'].count '@' = 0 := by decide
    rw [shownCode, trimNewlines, List.count_append, hlast]
    omega
  rw [plainHtml, List.count_append, List.count_append, List.count_append, hopening, hpre,
    hclose, count_htmlText]
  omega

/-- What a lexer writes is one block of HTML, with no at signs but those of the class and of the
code. -/
structure Lexers.Faithful (lexers : Lexers) : Prop where
  blocks : lexers.WriteBlocks
  atSigns : ∀ lang lexer, lexers.named? lang = some lexer → ∀ cssClass code, '@' ∉ cssClass →
    (lexer cssClass code).count '@' ≤ code.count '@'

theorem Lexers.faithful_plain : Lexers.plain.Faithful := ⟨writeBlocks_plain, nofun⟩

variable {lexers : Lexers} (hlexers : lexers.Faithful)

include hlexers

theorem count_highlightChars {cssClass : List Char} (h : '@' ∉ cssClass) (lang code : List Char) :
    (highlightChars lexers cssClass lang code).count '@' ≤ code.count '@' := by
  have hlexer : (lexers.forLang lang cssClass code).count '@' ≤ code.count '@' := by
    unfold Lexers.forLang
    split
    · exact count_plainHtml h code
    · cases hnamed : lexers.named? lang with
      | none => exact count_plainHtml h code
      | some lexer => exact hlexers.atSigns lang lexer hnamed cssClass code h
  exact ((sublist_dropEndWhile _ _).count_le '@').trans hlexer

theorem Piece.count_highlighted {cssClass : List Char} (h : '@' ∉ cssClass) (p : Piece) :
    (p.highlighted lexers cssClass).count '@' ≤ p.lines.flatten.count '@' := by
  cases p with
  | line text => simp [highlighted, Piece.lines]
  | fence f =>
    have hcode := count_highlightChars hlexers h f.lang f.code
    have hbody := (sublist_dropEndWhile (· == '\n') (unlines f.body)).count_le '@'
    rw [count_unlines (by decide)] at hbody
    change (highlightChars lexers cssClass f.lang f.code).count '@' ≤ _
    change f.code.count '@' ≤ _ at hbody
    rw [Piece.lines, List.cons_append, List.flatten_cons, List.flatten_append, List.count_append,
      List.count_append]
    omega

-- Setting code as HTML adds no at sign, unless the class of the code has one.
theorem count_highlightText {cssClass : String} (h : '@' ∉ cssClass.toList) (text : String) :
    (highlightText lexers cssClass text).toList.count '@' ≤ text.toList.count '@' := by
  have hpieces : ∀ found : List Piece,
      (found.map (Piece.highlighted lexers cssClass.toList)).flatten.count '@' ≤
        (found.flatMap Piece.lines).flatten.count '@' := by
    intro found
    induction found with
    | nil => exact Nat.le_refl 0
    | cons p rest ih =>
      have hp := p.count_highlighted hlexers h
      rw [List.map_cons, List.flatten_cons, List.count_append, List.flatMap_cons,
        List.flatten_append, List.count_append]
      omega
  have hfound := hpieces (textPieces text.toList)
  rw [textPieces, lines_pieces, ← count_unlines (by decide) (lines _), unlines_lines] at hfound
  rw [highlightText, String.toList_ofList, count_unlines (by decide)]
  exact hfound

-- A description that cleaning leaves as it is has no doclets.
theorem docletList_of_clean {cssClass text : String} (hcss : '@' ∉ cssClass.toList)
    (h : cleanDescription lexers cssClass text = text) : docletList text.toList = [] := by
  have hremove := count_removeDoclets text
  have hhighlight := count_highlightText hlexers hcss (removeDoclets text)
  rw [← cleanDescription, h] at hhighlight
  apply List.eq_nil_of_length_eq_zero
  omega

omit hlexers in
theorem trim_cleanDescription (hlexers : lexers.WriteBlocks) (cssClass text : String) :
    trim (cleanDescription lexers cssClass text).toList =
      (cleanDescription lexers cssClass text).toList := by
  apply trim_highlightText hlexers
  rw [removeDoclets, String.toList_ofList, trim_trim]

/-- A trimmed text is clean when it has neither doclets nor blocks of code, and only then. -/
theorem cleanDescription_eq_self_iff {cssClass text : String} (hcss : '@' ∉ cssClass.toList)
    (htrim : trim text.toList = text.toList) :
    cleanDescription lexers cssClass text = text ↔
      docletList text.toList = [] ∧ fences text = [] := by
  have hremove : docletList text.toList = [] → removeDoclets text = text :=
    (removeDoclets_eq_self_iff htrim).2
  constructor
  · intro h
    have hdoclets := docletList_of_clean hlexers hcss h
    rw [cleanDescription, hremove hdoclets, highlightText_eq_self_iff hlexers.blocks] at h
    exact ⟨hdoclets, h⟩
  · rintro ⟨hdoclets, hfences⟩
    rw [cleanDescription, hremove hdoclets, highlightText_eq_self_iff hlexers.blocks]
    exact hfences

end ComponentDocs
