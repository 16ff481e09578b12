import ComponentDocs.Doclet.Scan
import ComponentDocs.Proofs.Fence.State
import ComponentDocs.Proofs.Text.Breaks
import ComponentDocs.Proofs.Text.Lines

/-!
# The masked copy, line by line

The masked copy of a text is made of the masked copies of its lines, each made under the state in
which the lines above leave it: `maskedLines_eq`. A line may hold further line breaks, every one of
which counts for the state.
-/

namespace ComponentDocs

open Text

/-! ## Masking -/

/-- The masked copy of broken lines, the first of which stands inside code iff `inside`. -/
def maskFrom (inside : Bool) : List BrokenLine → List Char
  | [] => []
  | line :: rest =>
    (if inside && !hasFenceMark line.text then blankMarker line.toList else line.toList) ++
      maskFrom (inside != hasFenceMark line.text) rest

theorem flatMap_fenceStates (inside : Bool) (ls : List BrokenLine) :
    ((fenceStates inside (ls.map BrokenLine.text)).zip ls).flatMap (fun (inside, line) =>
      if inside && !hasFenceMark line.text then blankMarker line.toList else line.toList) =
      maskFrom inside ls := by
  induction ls generalizing inside with
  | nil => rfl
  | cons line rest ih =>
    rw [List.map_cons, fenceStates, List.zip_cons_cons, List.flatMap_cons, ih, maskFrom]

theorem maskCode_eq (text : List Char) : maskCode text = maskFrom false (breakLines text) :=
  flatMap_fenceStates false (breakLines text)

theorem maskFrom_append (inside : Bool) (a b : List BrokenLine) :
    maskFrom inside (a ++ b) =
      maskFrom inside a ++ maskFrom (fenceAfter inside (a.map BrokenLine.text)) b := by
  induction a generalizing inside with
  | nil => rfl
  | cons line rest ih =>
    rw [List.cons_append, maskFrom, ih, maskFrom, List.map_cons, fenceAfter_cons,
      List.append_assoc]

theorem blankMarker_append_of_not_mem {b : List Char} (h : '@' ∉ b) (a : List Char) :
    blankMarker (a ++ b) = blankMarker a ++ b := by
  induction a with
  | nil =>
    induction b with
    | nil => rfl
    | cons c r ih =>
      have hc : c ≠ '@' := fun hc => h (hc ▸ List.mem_cons_self)
      have hr : blankMarker r = r := ih fun hr => h (List.mem_cons_of_mem c hr)
      change blankMarker (c :: r) = c :: r
      rw [blankMarker, if_neg hc, hr]
  | cons c r ih =>
    by_cases hc : c = '@'
    · simp [blankMarker, hc]
    · simp [blankMarker, hc, ih]

theorem blankMarker_blank_append {front : List Char} (h : ∀ c ∈ front, isBlank c)
    (line : List Char) : blankMarker (front ++ line) = front ++ blankMarker line := by
  induction front with
  | nil => rfl
  | cons c rest ih =>
    have hc : c ≠ '@' := by
      rintro rfl
      exact absurd (h _ List.mem_cons_self) (by decide)
    rw [List.cons_append, blankMarker, if_neg hc, ih fun d hd => h d (List.mem_cons_of_mem c hd),
      List.cons_append]

theorem toList_extendLast_singleton (c : Char) (line : BrokenLine) :
    extendLast c [line] = line :: extendLast c [] ∨
      ∃ last : BrokenLine, extendLast c [line] = [last] ∧ last.toList = line.toList ++ [c] ∧
        (last.text = line.text ∨ last.text = line.text ++ [c]) := by
  unfold extendLast
  by_cases hending : line.ending = []
  · right
    rw [if_pos hending]
    by_cases hc : isLineBreak c
    · rw [if_pos hc]
      exact ⟨_, rfl, by simp [BrokenLine.toList, hending], .inl rfl⟩
    · rw [if_neg hc]
      exact ⟨_, rfl, by simp [BrokenLine.toList, hending], .inr rfl⟩
  · rw [if_neg hending]
    by_cases hreturn : c = '\n' ∧ line.ending = ['\r']
    · rw [if_pos hreturn]
      exact .inr ⟨_, rfl, by simp [BrokenLine.toList, hreturn], .inl rfl⟩
    · rw [if_neg hreturn]
      exact .inl rfl

-- White space after a text is kept, and changes neither masks nor states.
theorem maskFrom_extendLast {c : Char} (hc : isBlank c) (inside : Bool) (ls : List BrokenLine) :
    maskFrom inside (extendLast c ls) = maskFrom inside ls ++ [c] ∧
      fenceAfter inside ((extendLast c ls).map BrokenLine.text) =
        fenceAfter inside (ls.map BrokenLine.text) := by
  have hblank : ∀ d ∈ [c], isBlank d := by simpa using hc
  have hat : '@' ∉ [c] := by
    intro hmem
    exact absurd (hblank '@' hmem) (by decide)
  have hmark : hasFenceMark [c] = false := hasFenceMark_of_blank hblank
  have hempty : hasFenceMark [] = false := rfl
  have hself : blankMarker [c] = [c] := blankMarker_append_of_not_mem hat []
  have hnil : ∀ inside, maskFrom inside (extendLast c []) = [c] ∧
      fenceAfter inside ((extendLast c []).map BrokenLine.text) = inside := by
    intro inside
    unfold extendLast
    split <;> simp [maskFrom, BrokenLine.toList, hmark, hempty, hself]
  induction ls generalizing inside with
  | nil => exact hnil inside
  | cons line rest ih =>
    by_cases hrest : rest = []
    · rw [hrest]
      obtain hlast | ⟨last, hlast, hchars, htext⟩ := toList_extendLast_singleton c line
      · rw [hlast, maskFrom, List.map_cons, fenceAfter_cons, (hnil _).1, (hnil _).2]
        exact ⟨by simp [maskFrom], rfl⟩
      · have hfence : hasFenceMark last.text = hasFenceMark line.text := by
          rcases htext with htext | htext
          · rw [htext]
          · rw [htext, hasFenceMark_append_blank hblank]
        rw [hlast]
        simp only [maskFrom, hchars, hfence, blankMarker_append_of_not_mem hat, List.append_nil,
          List.map_cons, List.map_nil, fenceAfter_cons, and_true]
        split <;> rfl
    · rw [extendLast_cons c _ hrest]
      obtain ⟨hmask, hstate⟩ := ih (inside != hasFenceMark line.text)
      rw [maskFrom, hmask, List.map_cons, fenceAfter_cons, hstate, maskFrom, List.append_assoc]
      exact ⟨rfl, rfl⟩

/-! ## Masked lines -/

/-- The masked copy of one line. -/
def maskLine (inside : Bool) (line : List Char) : List Char :=
  maskFrom inside (breakLines line)

/-- The state after one line. -/
def stateAfterLine (inside : Bool) (line : List Char) : Bool :=
  fenceAfter inside ((breakLines line).map BrokenLine.text)

/-- Lines beside their masked copies, the first of which stands inside code iff `inside`. -/
def maskedLinesFrom (inside : Bool) : List (List Char) → List MaskedLine
  | [] => []
  | line :: rest =>
    ⟨line, maskLine inside line⟩ :: maskedLinesFrom (stateAfterLine inside line) rest

/-- The state after some lines. -/
def stateAfterLines (inside : Bool) (ls : List (List Char)) : Bool :=
  ls.foldl stateAfterLine inside

-- White space in front of a line is kept, and changes neither its mask nor the state after it.
theorem maskLine_cons_blank {c : Char} (hc : isBlank c) {line : List Char} (hline : '\n' ∉ line)
    (inside : Bool) :
    maskLine inside (c :: line) = c :: maskLine inside line ∧
      stateAfterLine inside (c :: line) = stateAfterLine inside line := by
  have hat : c ≠ '@' := by
    rintro rfl
    exact absurd hc (by decide)
  have hmask : ∀ s, blankMarker (c :: s) = c :: blankMarker s := fun s => by
    rw [blankMarker, if_neg hat]
  unfold maskLine stateAfterLine
  by_cases hbreak : isLineBreak c
  · have hhead : c = '\r' → line.head? ≠ some '\n' := by
      intro _ hn
      exact hline (List.mem_of_mem_head? hn)
    have hempty : hasFenceMark [] = false := rfl
    rw [breakLines_cons_break hbreak hhead]
    cases inside <;> simp [maskFrom, BrokenLine.toList, hempty, blankMarker, hat]
  · rw [breakLines_cons_text (by simpa using hbreak)]
    cases breakLines line with
    | nil =>
      have hmark : hasFenceMark [c] = false := hasFenceMark_of_blank (by simpa using hc)
      cases inside <;> simp [extendFirst, maskFrom, BrokenLine.toList, hmark, blankMarker, hat]
    | cons first rest =>
      have hfront : ∀ d ∈ [c], isBlank d := by simpa using hc
      have hmark : hasFenceMark (c :: first.text) = hasFenceMark first.text :=
        hasFenceMark_blank_append hfront first.text
      simp only [extendFirst, maskFrom, List.map_cons, fenceAfter_cons, hmark, BrokenLine.toList,
        List.cons_append, hmask, and_true]
      split <;> rfl

theorem mem_maskFrom {inside : Bool} {ls : List BrokenLine} {c : Char}
    (h : c ∈ maskFrom inside ls) : c = ' ' ∨ c ∈ ls.flatMap BrokenLine.toList := by
  have hblank : ∀ s : List Char, c ∈ blankMarker s → c = ' ' ∨ c ∈ s := by
    intro s
    induction s with
    | nil => exact fun hs => absurd hs List.not_mem_nil
    | cons d r ih =>
      intro hs
      by_cases hd : d = '@'
      · rw [blankMarker, if_pos hd] at hs
        rcases List.mem_cons.1 hs with hs | hs
        · exact .inl hs
        · exact .inr (List.mem_cons_of_mem d hs)
      · rw [blankMarker, if_neg hd] at hs
        rcases List.mem_cons.1 hs with hs | hs
        · exact .inr (hs ▸ List.mem_cons_self)
        · exact (ih hs).imp_right (List.mem_cons_of_mem d)
  induction ls generalizing inside with
  | nil => exact absurd h List.not_mem_nil
  | cons line rest ih =>
    rw [List.flatMap_cons, List.mem_append]
    rw [maskFrom, List.mem_append] at h
    rcases h with h | h
    · split at h
      · exact (hblank _ h).imp_right .inl
      · exact .inr (.inl h)
    · exact (ih h).imp_right .inr

theorem newline_not_mem_maskLine {line : List Char} (h : '\n' ∉ line) (inside : Bool) :
    '\n' ∉ maskLine inside line := by
  intro hmem
  rcases mem_maskFrom hmem with hc | hc
  · exact absurd hc (by decide)
  · rw [flatMap_breakLines] at hc
    exact h hc

theorem lines_maskFrom {ls : List (List Char)} (hne : ls ≠ []) (h : ∀ line ∈ ls, '\n' ∉ line)
    (inside : Bool) :
    lines (maskFrom inside (breakLines (unlines ls))) =
      (maskedLinesFrom inside ls).map MaskedLine.masked := by
  induction ls generalizing inside with
  | nil => exact absurd rfl hne
  | cons line rest ih =>
    have hline : '\n' ∉ line := h line List.mem_cons_self
    have hmask : '\n' ∉ maskLine inside line := newline_not_mem_maskLine hline inside
    cases rest with
    | nil => exact lines_of_newline_not_mem hmask
    | cons next others =>
      -- the newline ends the masked line as it ends the line, and the state goes on below it
      have hne' : next :: others ≠ [] := List.cons_ne_nil next others
      rw [unlines_cons hne', breakLines_append_newline, maskFrom_append,
        (maskFrom_extendLast (by decide) inside _).1, (maskFrom_extendLast (by decide) inside _).2,
        List.append_assoc, List.singleton_append, lines_append_newline, ← maskLine,
        lines_of_newline_not_mem hmask,
        ← stateAfterLine, ih hne' fun l hl => h l (List.mem_cons_of_mem line hl)]
      rfl

theorem map_text_maskedLinesFrom (inside : Bool) (ls : List (List Char)) :
    (maskedLinesFrom inside ls).map MaskedLine.text = ls := by
  induction ls generalizing inside with
  | nil => rfl
  | cons line rest ih => rw [maskedLinesFrom, List.map_cons, ih]

/-- The lines of a text are masked one by one. -/
theorem maskedLines_eq (text : List Char) :
    maskedLines text = maskedLinesFrom false (lines text) := by
  have hmask := lines_maskFrom (lines_ne_nil text)
    (fun line hline => newline_not_mem_of_mem_lines hline) false
  rw [unlines_lines, ← maskCode_eq] at hmask
  have hzip : ∀ ls : List MaskedLine,
      ((ls.map MaskedLine.text).zip (ls.map MaskedLine.masked)).map
        (fun e => (⟨e.1, e.2⟩ : MaskedLine)) = ls := by
    intro ls
    induction ls with
    | nil => rfl
    | cons line rest ih => simp only [List.map_cons, List.zip_cons_cons, ih]
  have hself := hzip (maskedLinesFrom false (lines text))
  rw [map_text_maskedLinesFrom] at hself
  rw [maskedLines, hmask]
  exact hself

theorem maskedLinesFrom_append (inside : Bool) (a b : List (List Char)) :
    maskedLinesFrom inside (a ++ b) =
      maskedLinesFrom inside a ++ maskedLinesFrom (stateAfterLines inside a) b := by
  induction a generalizing inside with
  | nil => rfl
  | cons line rest ih =>
    rw [List.cons_append, maskedLinesFrom, ih, maskedLinesFrom, List.cons_append]
    rfl

end ComponentDocs
