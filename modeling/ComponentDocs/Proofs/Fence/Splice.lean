import ComponentDocs.Highlight
import ComponentDocs.Proofs.Example.Cut
import ComponentDocs.Proofs.Example.Declared

/-!
# Blocks replaced in their places

A text whose code is set as HTML has the HTML of each block in place of its span, and all that
stands between the spans is kept: `highlightText_splices`. The same holds whatever is written for a
block, and a text without three backticks needs no look at its blocks.
-/

namespace ComponentDocs

open Text

/-! ## Texts with their spans replaced -/

/-- A text from a position on, with something else written in place of the span of each block. -/
def splice (write : Fence → List Char) (s : List Char) (position : Nat) : List Fence → List Char
  | [] => s.drop position
  | f :: rest =>
    (s.drop position).take (f.start - position) ++ write f ++ splice write s f.stop rest

-- What is written for the blocks stands between the gaps of the text.
theorem splice_eq_weave (write : Fence → List Char) (s : List Char) (position : Nat)
    (found : List Fence) :
    splice write s position found =
      (weave ((gaps s position found).map fun gap => [gap]) (found.map write)).flatten := by
  induction found generalizing position with
  | nil => simp [splice, gaps, weave]
  | cons f rest ih =>
    rw [splice, ih, gaps, List.map_cons, List.map_cons, weave, List.singleton_append,
      List.flatten_cons, List.flatten_cons, List.append_assoc]

/-- A text with its blocks written anew, each from its language and its code. A text without three
backticks is left alone. -/
def rewriteBlocks (render : String → String → String) (text : String) : String :=
  if hasFence text.toList then
    String.ofList (splice (fun f => (render f.lang f.code).toList) text.toList 0 (fences text))
  else text

theorem Fence.Stands.mark_infix {s before after : List Char} {f : Fence} {g : FenceLines}
    (h : f.Stands s before g after) : fenceMark <:+: s := by
  obtain ⟨⟨indent, -, hopening⟩, -⟩ := h.opens
  have hmark : fenceMark <:+: g.opening := ⟨indent, g.header, hopening.symm⟩
  have hblock : g.opening <:+: g.opening ++ '\n' :: endedLines g.body ++ g.closing :=
    ⟨[], '\n' :: endedLines g.body ++ g.closing, by simp⟩
  rw [h.text]
  exact (hmark.trans hblock).trans ⟨before, after, rfl⟩

theorem fences_of_not_hasFence {text : String} (h : ¬ hasFence text.toList) :
    fences text = [] := by
  apply List.eq_nil_iff_forall_not_mem.2
  intro f hf
  obtain ⟨before, g, after, hstands⟩ := stands_of_mem_fences hf
  have hmark : hasFence text.toList := hasFence_iff_infix.2 hstands.mark_infix
  exact h hmark

/-- The look at three backticks spares work and changes nothing. -/
theorem rewriteBlocks_eq (render : String → String → String) (text : String) :
    rewriteBlocks render text =
      String.ofList (splice (fun f => (render f.lang f.code).toList) text.toList 0
        (fences text)) := by
  by_cases h : hasFence text.toList
  · rw [rewriteBlocks, if_pos h]
  · rw [rewriteBlocks, if_neg h, fences_of_not_hasFence h, splice, List.drop_zero,
      String.ofList_toList]

/-! ## Code as HTML in its place -/

/-- Pieces of a text as they are written, behind the gap that the pieces before them have left. -/
theorem splice_fencesFrom (lexers : Lexers) (cssClass : String) {s : List Char} (lead : List Char)
    (position : Nat) {found : List Piece}
    (hs : s.drop position ++ ['\n'] = lead ++ endedPieces found) :
    splice (fun f => (highlightCode lexers cssClass f.lang f.code).toList) s position
        (fencesFrom (position + lead.length) found) ++ ['\n'] =
      lead ++ endedLines (found.map (Piece.highlighted lexers cssClass.toList)) := by
  induction found generalizing lead position with
  | nil => exact hs
  | cons p rest ih =>
    rw [endedPieces_cons] at hs
    rw [fencesFrom_cons, List.map_cons, endedLines_cons]
    cases p with
    | line text =>
      -- a line joins the gap
      have hs' : s.drop position ++ ['\n'] = lead ++ (text ++ ['\n']) ++ endedPieces rest := by
        rw [hs]
        simp [Piece.text, Piece.lines, unlines]
      have hplace : position + (lead ++ (text ++ ['\n'])).length =
          position + lead.length + (Piece.line text).text.length + 1 := by
        simp [Piece.text, Piece.lines, unlines]
        omega
      have hrest := ih _ _ hs'
      rw [hplace] at hrest
      change splice _ s position (fencesFrom _ rest) ++ _ = _
      rw [hrest, Piece.highlighted]
      simp only [List.append_assoc, List.cons_append, List.nil_append]
    | fence g =>
      obtain ⟨hgap, hbehind⟩ := take_drop_block hs
      have hrest := ih ['\n'] _ hbehind
      have hcode : (highlightCode lexers cssClass (String.ofList g.lang)
          (String.ofList g.code)).toList = Piece.highlighted lexers cssClass.toList (.fence g) := by
        rw [highlightCode, String.toList_ofList, String.toList_ofList, String.toList_ofList,
          Piece.highlighted]
      change splice _ s position (g.located _ _ :: fencesFrom _ rest) ++ _ = _
      rw [splice]
      change _ ++ (highlightCode lexers cssClass (String.ofList g.lang)
        (String.ofList g.code)).toList ++ _ ++ _ = _
      rw [hcode]
      change (s.drop position).take (position + lead.length - position) ++ _ ++
        splice _ s (position + lead.length + (Piece.fence g).text.length) _ ++ _ = _
      rw [hgap]
      simp only [List.append_assoc]
      exact congrArg
        (fun t => lead ++ (Piece.highlighted lexers cssClass.toList (.fence g) ++ t)) hrest

/-- Code as HTML stands in place of the blocks of a text. -/
theorem toList_highlightText (lexers : Lexers) (cssClass text : String) :
    (highlightText lexers cssClass text).toList =
      splice (fun f => (highlightCode lexers cssClass f.lang f.code).toList) text.toList 0
        (fences text) := by
  have hended := endedPieces_textPieces text.toList
  have hpieces : (textPieces text.toList).map (Piece.highlighted lexers cssClass.toList) ≠ [] := by
    intro hnil
    rw [List.map_eq_nil_iff.1 hnil] at hended
    exact List.append_ne_nil_of_right_ne_nil _ (List.cons_ne_nil _ _) hended.symm
  have hwritten := splice_fencesFrom lexers cssClass (s := text.toList) [] 0 hended.symm
  rw [List.nil_append, endedLines_eq hpieces] at hwritten
  rw [highlightText, String.toList_ofList]
  exact (List.append_cancel_right hwritten).symm

/-! ## All blocks -/

/-- A text, and what comes of it when something is written for each of its blocks: the gaps between
the spans of the blocks stand in the same places between what is written for them. -/
structure Replaced (write : Fence → List Char) (text : String) (result : List Char) : Prop where
  spelled : text.toList = (weave ((gaps text.toList 0 (fences text)).map fun gap => [gap])
    ((fences text).map (Fence.span text.toList))).flatten
  written : result = (weave ((gaps text.toList 0 (fences text)).map fun gap => [gap])
    ((fences text).map write)).flatten

theorem replaced_rewriteBlocks (render : String → String → String) (text : String) :
    Replaced (fun f => (render f.lang f.code).toList) text (rewriteBlocks render text).toList := by
  refine ⟨(flatten_weave_of_sublist (List.Sublist.refl _)).symm, ?_⟩
  rw [rewriteBlocks_eq, String.toList_ofList, splice_eq_weave]

/-- Setting the code of a text as HTML replaces the spans of its blocks and nothing else. The same
holds for whatever else is written for a block, and a look at three backticks before the blocks
does not change the result. -/
theorem highlightText_splices (lexers : Lexers) (cssClass text : String) :
    Replaced (fun f => (highlightCode lexers cssClass f.lang f.code).toList) text
        (highlightText lexers cssClass text).toList ∧
      highlightText lexers cssClass text =
        rewriteBlocks (highlightCode lexers cssClass) text ∧
      ∀ render : String → String → String,
        Replaced (fun f => (render f.lang f.code).toList) text
            (rewriteBlocks render text).toList ∧
          rewriteBlocks render text = String.ofList
            (splice (fun f => (render f.lang f.code).toList) text.toList 0 (fences text)) := by
  have hhtml : highlightText lexers cssClass text =
      rewriteBlocks (highlightCode lexers cssClass) text := by
    rw [rewriteBlocks_eq, ← toList_highlightText, String.ofList_toList]
  have hreplaced := replaced_rewriteBlocks (highlightCode lexers cssClass) text
  rw [← hhtml] at hreplaced
  exact ⟨hreplaced, hhtml, fun render =>
    ⟨replaced_rewriteBlocks render text, rewriteBlocks_eq render text⟩⟩

end ComponentDocs
