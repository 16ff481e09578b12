import ComponentDocs.Proofs.Doclet.Front

/-!
# The masked copy of a text

Masking blanks at signs and leaves every character in its place, so a line of the copy is as long as
that of the text: `forall₂_maskCode`, `length_masked`. Whether a marker stands at the start of a
line of the copy is decided by that line: `startsMarker_append_iff`.
-/

namespace ComponentDocs

open Text

/-! ## The masked copy -/

theorem lines_maskCode (text : List Char) :
    lines (maskCode text) = (maskedLines text).map MaskedLine.masked := by
  have hmask := lines_maskFrom (lines_ne_nil text)
    (fun line hline => newline_not_mem_of_mem_lines hline) false
  rw [unlines_lines, ← maskCode_eq] at hmask
  rw [hmask, maskedLines_eq]

theorem map_text_maskedLines (text : List Char) :
    (maskedLines text).map MaskedLine.text = lines text := by
  rw [maskedLines_eq, map_text_maskedLinesFrom]

theorem exists_maskLine_of_mem {inside : Bool} {ls : List (List Char)} {line : MaskedLine}
    (h : line ∈ maskedLinesFrom inside ls) : ∃ inside, line.masked = maskLine inside line.text := by
  induction ls generalizing inside with
  | nil => cases h
  | cons first rest ih =>
    rcases List.mem_cons.1 h with rfl | h
    · exact ⟨inside, rfl⟩
    · exact ih h

/-- A character of a text and the one in its place in the masked copy. -/
def MaskedAs (c d : Char) : Prop :=
  d = c ∨ c = '@' ∧ d = ' '

theorem forall₂_maskedAs_self (s : List Char) : List.Forall₂ MaskedAs s s :=
  List.forall₂_same.2 fun _ _ => .inl rfl

theorem forall₂_blankMarker (line : List Char) : List.Forall₂ MaskedAs line (blankMarker line) := by
  induction line with
  | nil => exact .nil
  | cons c rest ih =>
    rw [blankMarker]
    split
    · rename_i hc
      exact .cons (.inr ⟨hc, rfl⟩) (forall₂_maskedAs_self rest)
    · exact .cons (.inl rfl) ih

theorem forall₂_maskFrom (inside : Bool) (ls : List BrokenLine) :
    List.Forall₂ MaskedAs (ls.flatMap BrokenLine.toList) (maskFrom inside ls) := by
  induction ls generalizing inside with
  | nil => exact .nil
  | cons line rest ih =>
    rw [List.flatMap_cons, maskFrom]
    refine List.rel_append ?_ (ih _)
    split
    · exact forall₂_blankMarker line.toList
    · exact forall₂_maskedAs_self line.toList

/-- The masked copy keeps every character in its place, but for at signs that it blanks. -/
theorem forall₂_maskCode (text : List Char) : List.Forall₂ MaskedAs text (maskCode text) := by
  have hmask := forall₂_maskFrom false (breakLines text)
  rwa [flatMap_breakLines, ← maskCode_eq] at hmask

/-- Masking keeps the length of every line. -/
theorem length_masked {text : List Char} {line : MaskedLine} (h : line ∈ maskedLines text) :
    line.masked.length = line.text.length := by
  rw [maskedLines_eq] at h
  obtain ⟨inside, hmask⟩ := exists_maskLine_of_mem h
  rw [hmask, maskLine, length_maskFrom, flatMap_breakLines]

theorem length_endedLines_masked {ls : List MaskedLine}
    (h : ∀ line ∈ ls, line.masked.length = line.text.length) :
    (endedLines (ls.map MaskedLine.masked)).length =
      (endedLines (ls.map MaskedLine.text)).length := by
  induction ls with
  | nil => rfl
  | cons line rest ih =>
    rw [List.forall_mem_cons] at h
    rw [List.map_cons, List.map_cons, length_endedLines_cons, length_endedLines_cons, h.1, ih h.2]

theorem length_linesBelow_masked {ls : List MaskedLine}
    (h : ∀ line ∈ ls, line.masked.length = line.text.length) :
    (linesBelow (ls.map MaskedLine.masked)).length =
      (linesBelow (ls.map MaskedLine.text)).length := by
  induction ls with
  | nil => rfl
  | cons line rest ih =>
    rw [List.forall_mem_cons] at h
    simp only [linesBelow, List.map_cons, List.flatMap_cons, List.length_append, List.length_cons,
      h.1] at ih ⊢
    rw [ih h.2]

theorem MaskedLine.text_of_markerLine? {line : MaskedLine} {found : MarkerLine}
    (h : line.markerLine? = some found) : found.text = line.text := by
  obtain ⟨_, -, rfl⟩ := Option.map_eq_some_iff.1 h
  rfl

/-- What follows the word of a marker line is as long in the masked copy, and white space follows
the word in both or in neither. -/
theorem MaskedLine.of_markerLine? {text : List Char} {line : MaskedLine} {found : MarkerLine}
    (hline : line ∈ maskedLines text) (h : line.markerLine? = some found) :
    ∃ rest, lineMarker? line.masked = some (found.name, rest) ∧ found.text = line.text ∧
      found.rest <:+ line.text ∧ found.rest.length = rest.length ∧
      ((∀ c ∈ found.rest.head?, isBlank c) ↔ ∀ c ∈ rest.head?, isBlank c) := by
  rw [maskedLines_eq] at hline
  obtain ⟨inside, hmask⟩ := exists_maskLine_of_mem hline
  obtain ⟨part, tail, tail', htext, hmask', hlength, htail, htail'⟩ :=
    exists_maskLine inside line.text
  obtain ⟨⟨name, rest⟩, hmarker, rfl⟩ := Option.map_eq_some_iff.1 h
  have hpart := hmarker
  rw [hmask, hmask'] at hpart
  obtain ⟨rest', hword, rfl⟩ := lineMarker?_of_append htail' hpart
  have hrest : line.text.drop (line.text.length - (rest' ++ tail').length) = rest' ++ tail := by
    rw [htext, drop_of_maskPart hword hlength]
  refine ⟨rest' ++ tail', hmarker, rfl, List.drop_suffix _ _, ?_, ?_⟩
  · dsimp only
    rw [hrest, List.length_append, List.length_append, hlength]
  · dsimp only
    rw [hrest]
    cases rest' with
    | nil => exact iff_of_true htail.isBlank_head? htail'.isBlank_head?
    | cons d r => rfl

/-! ## Markers at the start of lines -/

/-- A text starts with a marker, blanks apart. -/
def StartsMarker (s : List Char) : Prop :=
  ∃ indent c rest, s = indent ++ '@' :: c :: rest ∧ (∀ d ∈ indent, isIndent d) ∧ isWord c

theorem lineMarker?_of_indent {indent rest : List Char} {c : Char}
    (hindent : ∀ d ∈ indent, isIndent d) (hc : isWord c) :
    (lineMarker? (indent ++ '@' :: c :: rest)).isSome := by
  rw [lineMarker?, dropWhile_isIndent_append hindent, List.dropWhile_cons_of_neg (by decide)]
  simp [marker?, takeWord, hc]

-- A text without newlines at the front of lines is at the front of the first one.
theorem exists_of_append_eq_append {line below front rest : List Char}
    (h : line ++ below = front ++ rest) (hbelow : ∀ c ∈ below.head?, c = '\n')
    (hfront : '\n' ∉ front) : ∃ back, line = front ++ back := by
  rcases List.append_eq_append_iff.1 h with ⟨t, rfl, hrest⟩ | ⟨t, ht, -⟩
  · cases t with
    | nil => exact ⟨[], by rw [List.append_nil, List.append_nil]⟩
    | cons d t =>
      obtain rfl : d = '\n' := hbelow d (by rw [hrest]; rfl)
      exact absurd (List.mem_append_right line List.mem_cons_self) hfront
  · exact ⟨t, ht⟩

theorem newline_not_mem_of_isIndent {indent : List Char} (h : ∀ c ∈ indent, isIndent c) :
    '\n' ∉ indent := fun hmem => absurd (h _ hmem) (by decide)

-- Whether a marker stands at the start of a line is decided by the line.
theorem startsMarker_append_iff {line below : List Char} (hline : '\n' ∉ line)
    (hbelow : ∀ c ∈ below.head?, c = '\n') :
    StartsMarker (line ++ below) ↔ (lineMarker? line).isSome := by
  constructor
  · rintro ⟨indent, c, rest, h, hindent, hc⟩
    have hfront : '\n' ∉ indent ++ ['@', c] := by
      simp [newline_not_mem_of_isIndent hindent, (ne_newline_of_isWord hc).symm]
    have hsplit : line ++ below = indent ++ ['@', c] ++ rest := by
      rw [h, List.append_assoc]
      rfl
    obtain ⟨back, rfl⟩ := exists_of_append_eq_append hsplit hbelow hfront
    rw [List.append_assoc]
    exact lineMarker?_of_indent hindent hc
  · intro h
    obtain ⟨⟨word, rest⟩, hmarker⟩ := Option.isSome_iff_exists.1 h
    obtain ⟨indent, hindent, hblank⟩ := exists_indent line
    obtain ⟨hcore, hne, hword, -⟩ := marker?_eq_some_iff.1 hmarker
    obtain ⟨c, w, rfl⟩ := List.exists_cons_of_ne_nil hne
    refine ⟨indent, c, w ++ rest ++ below, ?_, hblank, hword c List.mem_cons_self⟩
    rw [hindent, hcore]
    simp

-- No line of a body starts with a marker, so none starts in the value with which it goes.
theorem not_startsMarker_of_body {first : List Char} {body : List (List Char)} {after : List Char}
    (hfirst : '\n' ∉ first) (hbody : ∀ line ∈ body, '\n' ∉ line ∧ lineMarker? line = none)
    (hafter : ∀ c ∈ after.head?, c = '\n') {front back : List Char}
    (h : first ++ linesBelow body = front ++ '\n' :: back) : ¬ StartsMarker (back ++ after) := by
  have hlines : first :: body = lines front ++ lines back := by
    rw [← lines_append_newline, ← h, ← unlines_cons_eq,
      lines_unlines (List.cons_ne_nil first body)]
    exact List.forall_mem_cons.2 ⟨hfirst, fun line hline => (hbody line hline).1⟩
  obtain ⟨x, xs, hx⟩ := exists_lines_eq_cons front
  obtain ⟨line, others, hback⟩ := exists_lines_eq_cons back
  rw [hx, hback, List.cons_append] at hlines
  have hline := hbody line (by
    rw [(List.cons.inj hlines).2]
    exact List.mem_append_right xs List.mem_cons_self)
  have hspell : back = line ++ linesBelow others := by
    rw [← unlines_cons_eq, ← hback, unlines_lines]
  have hbelow : ∀ c ∈ (linesBelow others ++ after).head?, c = '\n' := by
    cases others with
    | nil => exact hafter
    | cons l ls => exact head?_linesBelow (l :: ls)
  rw [hspell, List.append_assoc, startsMarker_append_iff hline.1 hbelow, hline.2]
  decide

end ComponentDocs
