import ComponentDocs.Proofs.Text.Trim
import ComponentDocs.Text.Lines

/-!
# Cutting and joining lines

How the lines of a text change when something is put before or after it, and that cutting undoes
joining: `lines_unlines`.
-/

namespace ComponentDocs.Text

theorem lines_cons_newline (s : List Char) : lines ('\n' :: s) = [] :: lines s := by
  rw [lines, if_pos rfl]

theorem lines_cons_of_ne {c : Char} (hc : c ≠ '\n') {s line : List Char}
    {others : List (List Char)} (hs : lines s = line :: others) :
    lines (c :: s) = (c :: line) :: others := by
  rw [lines, if_neg hc, hs]

theorem exists_lines_eq_cons (s : List Char) : ∃ line others, lines s = line :: others :=
  List.exists_cons_of_ne_nil (lines_ne_nil s)

theorem exists_lines_eq_concat (s : List Char) : ∃ others line, lines s = others ++ [line] :=
  (List.eq_nil_or_concat' (lines s)).resolve_left (lines_ne_nil s)

theorem lines_of_newline_not_mem {s : List Char} (h : '\n' ∉ s) : lines s = [s] := by
  induction s with
  | nil => rfl
  | cons c r ih =>
    have hc : c ≠ '\n' := fun hc => h (hc ▸ List.mem_cons_self)
    have hr : '\n' ∉ r := fun hr => h (List.mem_cons_of_mem c hr)
    exact lines_cons_of_ne hc (ih hr)

-- The last line of the first text goes on as the first line of the second one.
theorem lines_append {a b last first : List Char} {before after : List (List Char)}
    (ha : lines a = before ++ [last]) (hb : lines b = first :: after) :
    lines (a ++ b) = before ++ (last ++ first) :: after := by
  induction a generalizing before last with
  | nil =>
    have hnil : before = [] ∧ last = [] := by
      cases before with
      | nil => simpa [lines, eq_comm] using ha
      | cons l ls => simp [lines] at ha
    rw [hnil.1, hnil.2]
    exact hb
  | cons c r ih =>
    by_cases hc : c = '\n'
    · rw [hc, lines_cons_newline] at ha
      rw [hc, List.cons_append, lines_cons_newline]
      cases before with
      | nil => exact absurd (List.cons.inj ha).2 (lines_ne_nil r)
      | cons l ls =>
        obtain ⟨rfl, hr⟩ := List.cons.inj ha
        rw [ih hr, List.cons_append]
    · obtain ⟨line, others, hr⟩ := exists_lines_eq_cons r
      rw [lines_cons_of_ne hc hr] at ha
      cases before with
      | nil =>
        obtain ⟨rfl, rfl⟩ := List.cons.inj ha
        have hjoined : lines (r ++ b) = [] ++ (line ++ first) :: after := ih hr
        exact lines_cons_of_ne hc hjoined
      | cons l ls =>
        obtain ⟨rfl, rfl⟩ := List.cons.inj ha
        have hjoined : lines (r ++ b) = (line :: ls) ++ (last ++ first) :: after := ih hr
        exact lines_cons_of_ne hc hjoined

theorem lines_append_of_newline_not_mem {a b first : List Char} {after : List (List Char)}
    (ha : '\n' ∉ a) (hb : lines b = first :: after) : lines (a ++ b) = (a ++ first) :: after := by
  have hlast : lines a = [] ++ [a] := lines_of_newline_not_mem ha
  exact lines_append hlast hb

theorem lines_append_newline (a b : List Char) : lines (a ++ '\n' :: b) = lines a ++ lines b := by
  obtain ⟨before, last, ha⟩ := exists_lines_eq_concat a
  rw [lines_append ha (lines_cons_newline b), ha, List.append_nil, List.append_assoc]
  rfl

-- The lines of texts that are joined with newlines are those of the texts, one after another.
theorem lines_unlines_eq_flatMap {texts : List (List Char)} (h : texts ≠ []) :
    lines (unlines texts) = texts.flatMap lines := by
  induction texts with
  | nil => exact absurd rfl h
  | cons text others ih =>
    cases others with
    | nil => simp [unlines]
    | cons t ts =>
      have hne : t :: ts ≠ [] := List.cons_ne_nil t ts
      rw [unlines_cons hne, lines_append_newline, ih hne, ← List.flatMap_cons]

/-- Cutting undoes joining. -/
theorem lines_unlines {ls : List (List Char)} (hne : ls ≠ []) (h : ∀ line ∈ ls, '\n' ∉ line) :
    lines (unlines ls) = ls := by
  rw [lines_unlines_eq_flatMap hne]
  clear hne
  induction ls with
  | nil => rfl
  | cons line others ih =>
    rw [List.flatMap_cons, lines_of_newline_not_mem (h line List.mem_cons_self),
      ih fun l hl => h l (List.mem_cons_of_mem line hl), List.singleton_append]

theorem unlines_append {a b : List (List Char)} (ha : a ≠ []) (hb : b ≠ []) :
    unlines (a ++ b) = unlines a ++ '\n' :: unlines b := by
  induction a with
  | nil => exact absurd rfl ha
  | cons line others ih =>
    cases others with
    | nil => exact unlines_cons hb
    | cons l ls =>
      have hne : l :: ls ≠ [] := List.cons_ne_nil l ls
      rw [List.cons_append, unlines_cons (by simp), ih hne, unlines_cons hne, List.append_assoc,
        List.cons_append]

/-! ## Lines with their newlines -/

/-- Lines, each with a newline after it. -/
def endedLines (ls : List (List Char)) : List Char :=
  ls.flatMap fun line => line ++ ['\n']

theorem endedLines_cons (line : List Char) (rest : List (List Char)) :
    endedLines (line :: rest) = line ++ '\n' :: endedLines rest := by
  rw [endedLines, List.flatMap_cons, List.append_assoc, List.singleton_append, ← endedLines]

theorem endedLines_append (a b : List (List Char)) :
    endedLines (a ++ b) = endedLines a ++ endedLines b :=
  List.flatMap_append

theorem unlines_append_eq_endedLines (a : List (List Char)) {b : List (List Char)} (hb : b ≠ []) :
    unlines (a ++ b) = endedLines a ++ unlines b := by
  induction a with
  | nil => rfl
  | cons line rest ih =>
    rw [List.cons_append, unlines_cons (by simp [hb]), ih, endedLines_cons, List.append_assoc,
      List.cons_append]

theorem endedLines_eq {ls : List (List Char)} (h : ls ≠ []) :
    endedLines ls = unlines ls ++ ['\n'] := by
  have hempty := unlines_append_eq_endedLines ls (List.cons_ne_nil [] [])
  rw [unlines_append h (List.cons_ne_nil [] []), unlines, List.append_nil] at hempty
  exact hempty.symm

theorem length_endedLines_cons (line : List Char) (rest : List (List Char)) :
    (endedLines (line :: rest)).length = line.length + 1 + (endedLines rest).length := by
  rw [endedLines_cons, List.length_append, List.length_cons]
  omega

theorem getLast?_endedLines (ls : List (List Char)) :
    ∀ c ∈ (endedLines ls).getLast?, c = '\n' := by
  by_cases hls : ls = []
  · rw [hls]
    rintro c ⟨⟩
  · rw [endedLines_eq hls]
    simp

/-- What stands before the start of a line is lines with their newlines. -/
theorem exists_endedLines_eq {before : List Char} (h : ∀ c ∈ before.getLast?, c = '\n') :
    ∃ above, before = endedLines above ∧ ∀ rest, lines (before ++ rest) = above ++ lines rest := by
  obtain rfl | ⟨front, last, rfl⟩ := List.eq_nil_or_concat' before
  · exact ⟨[], rfl, fun _ => rfl⟩
  · obtain rfl : last = '\n' := h last (by simp)
    refine ⟨lines front, ?_, fun rest => ?_⟩
    · rw [endedLines_eq (lines_ne_nil front), unlines_lines]
    · rw [List.append_assoc, List.singleton_append, lines_append_newline]

/-- Lines below another one, each with the newline before it. -/
def linesBelow (ls : List (List Char)) : List Char :=
  ls.flatMap fun line => '\n' :: line

theorem linesBelow_append (a b : List (List Char)) :
    linesBelow (a ++ b) = linesBelow a ++ linesBelow b :=
  List.flatMap_append

theorem head?_linesBelow (ls : List (List Char)) : ∀ c ∈ (linesBelow ls).head?, c = '\n' := by
  cases ls with
  | nil => rintro c ⟨⟩
  | cons line rest => exact fun c hc => (Option.some.inj hc).symm

theorem unlines_cons_eq (line : List Char) (rest : List (List Char)) :
    unlines (line :: rest) = line ++ linesBelow rest := by
  induction rest generalizing line with
  | nil => exact (List.append_nil line).symm
  | cons next others ih =>
    rw [unlines_cons (List.cons_ne_nil next others), ih, linesBelow, linesBelow, List.flatMap_cons,
      List.cons_append]

-- A line between the lines above and those below it.
theorem unlines_append_cons (above : List (List Char)) (line : List Char)
    (below : List (List Char)) :
    unlines (above ++ line :: below) = endedLines above ++ (line ++ linesBelow below) := by
  rw [unlines_append_eq_endedLines above (List.cons_ne_nil line below), unlines_cons_eq]

/-! ## Ends of a text -/

-- What a newline in front of a text leaves as it is, dropping the newlines in front does too.
theorem apply_dropWhile_newline {α : Type} {f : List Char → α}
    (h : ∀ s, f ('\n' :: s) = f s) (s : List Char) : f (s.dropWhile (· == '\n')) = f s := by
  induction s with
  | nil => rfl
  | cons c rest ih =>
    by_cases hc : c = '\n'
    · rw [hc, List.dropWhile_cons_of_pos (by decide), ih, h]
    · rw [List.dropWhile_cons_of_neg (by simpa using hc)]

theorem head?_unlines {line : List Char} (h : line ≠ []) (others : List (List Char)) :
    (unlines (line :: others)).head? = line.head? := by
  obtain ⟨c, rest, rfl⟩ := List.exists_cons_of_ne_nil h
  cases others <;> rfl

theorem getLast?_unlines {line : List Char} (h : line ≠ []) (others : List (List Char)) :
    (unlines (others ++ [line])).getLast? = line.getLast? := by
  by_cases hothers : others = []
  · rw [hothers]
    rfl
  · rw [unlines_append hothers (List.cons_ne_nil line []), List.getLast?_append, List.getLast?_cons]
    rw [unlines, List.getLast?_eq_getLast_of_ne_nil h]
    rfl

-- A text begins with its first line.
theorem head?_of_lines {s first : List Char} {after : List (List Char)}
    (h : lines s = first :: after) : ∀ c ∈ first.head?, c ∈ s.head? := by
  intro c hc
  rw [← unlines_lines s, h, head?_unlines]
  · exact hc
  · rintro rfl
    cases hc

-- A character of a line is one of the text.
theorem mem_of_mem_lines {s line : List Char} {c : Char} (hline : line ∈ lines s) (hc : c ∈ line) :
    c ∈ s := by
  induction s generalizing line with
  | nil =>
    have : line = [] := by simpa [lines] using hline
    exact absurd hc (this ▸ List.not_mem_nil)
  | cons d r ih =>
    by_cases hd : d = '\n'
    · rw [hd, lines_cons_newline, List.mem_cons] at hline
      rcases hline with rfl | hline
      · exact absurd hc List.not_mem_nil
      · exact List.mem_cons_of_mem d (ih hline hc)
    · obtain ⟨first, others, hr⟩ := exists_lines_eq_cons r
      rw [lines_cons_of_ne hd hr, List.mem_cons] at hline
      rcases hline with rfl | hline
      · rcases List.mem_cons.1 hc with rfl | hc
        · exact List.mem_cons_self
        · exact List.mem_cons_of_mem d (ih (hr ▸ List.mem_cons_self) hc)
      · exact List.mem_cons_of_mem d (ih (hr ▸ List.mem_cons_of_mem first hline) hc)

/-! ## Places of lines -/

theorem length_lines (s : List Char) : (lines s).length = s.count '\n' + 1 := by
  induction s with
  | nil => rfl
  | cons c rest ih =>
    by_cases hc : c = '\n'
    · rw [hc, lines_cons_newline, List.length_cons, ih, List.count_cons_self]
    · obtain ⟨line, others, hrest⟩ := exists_lines_eq_cons rest
      rw [hrest] at ih
      rw [lines_cons_of_ne hc hrest, List.length_cons, List.count_cons_of_ne hc, ← ih,
        List.length_cons]

-- What stands before a text moves its lines down by its newlines, and may stand before the first.
theorem getElem?_lines_append_right {b line : List Char} {i : Nat} (a : List Char)
    (h : (lines b)[i]? = some line) :
    ∃ lead, lead ⊆ a ∧ (lines (a ++ b))[a.count '\n' + i]? = some (lead ++ line) := by
  obtain ⟨before, last, ha⟩ := exists_lines_eq_concat a
  obtain ⟨first, after, hb⟩ := exists_lines_eq_cons b
  have hcount : before.length = a.count '\n' := by
    have hlength := length_lines a
    rw [ha, List.length_append, List.length_singleton] at hlength
    exact Nat.succ.inj hlength
  rw [lines_append ha hb, ← hcount, List.getElem?_append_right (Nat.le_add_right _ _),
    Nat.add_sub_cancel_left]
  rw [hb] at h
  cases i with
  | zero =>
    refine ⟨last, fun c hc => mem_of_mem_lines (ha ▸ List.mem_concat_self) hc, ?_⟩
    exact congrArg (fun l => some (last ++ l)) (Option.some.inj h)
  | succ i => exact ⟨[], List.nil_subset a, h⟩

-- What stands behind a text may stand behind its last line.
theorem getElem?_lines_append_left {a line : List Char} {i : Nat} (b : List Char)
    (h : (lines a)[i]? = some line) :
    ∃ tail, tail ⊆ b ∧ (lines (a ++ b))[i]? = some (line ++ tail) := by
  obtain ⟨before, last, ha⟩ := exists_lines_eq_concat a
  obtain ⟨first, after, hb⟩ := exists_lines_eq_cons b
  rw [lines_append ha hb]
  rw [ha] at h
  by_cases hi : i < before.length
  · rw [List.getElem?_append_left hi] at h ⊢
    exact ⟨[], List.nil_subset b, h.trans (congrArg some (List.append_nil line).symm)⟩
  · rw [List.getElem?_append_right (Nat.le_of_not_lt hi)] at h ⊢
    cases hplace : i - before.length with
    | zero =>
      rw [hplace] at h
      exact ⟨first, fun c hc => mem_of_mem_lines (hb ▸ List.mem_cons_self) hc,
        congrArg (fun l => some (l ++ first)) (Option.some.inj h)⟩
    | succ j =>
      rw [hplace] at h
      cases h

-- Dropping the newlines in front drops the empty lines that they end.
theorem lines_dropWhile_newline (s : List Char) :
    lines (s.dropWhile (· == '\n')) = (lines s).drop (s.takeWhile (· == '\n')).length := by
  induction s with
  | nil => rfl
  | cons c rest ih =>
    by_cases hc : c = '\n'
    · rw [hc, List.takeWhile_cons_of_pos (by decide), List.dropWhile_cons_of_pos (by decide), ih,
        lines_cons_newline, List.length_cons, List.drop_succ_cons]
    · rw [List.dropWhile_cons_of_neg (by simpa using hc),
        List.takeWhile_cons_of_neg (by simpa using hc), List.length_nil, List.drop_zero]

-- Newlines behind a text end its lines and are empty lines below them.
theorem lines_dropEndWhile_newline (s : List Char) :
    lines (dropEndWhile (· == '\n') s) <+: lines s := by
  have hs : s = dropEndWhile (· == '\n') s ++ s.rtakeWhile (· == '\n') :=
    List.rdropWhile_append_rtakeWhile.symm
  have hback : ∀ c ∈ s.rtakeWhile (· == '\n'), c = '\n' := fun c hc => by
    simpa using List.mem_rtakeWhile_imp hc
  conv_rhs => rw [hs]
  cases hcases : s.rtakeWhile (· == '\n') with
  | nil => simp only [List.append_nil, List.prefix_refl]
  | cons c back =>
    rw [hcases] at hback
    rw [hback c List.mem_cons_self, lines_append_newline]
    exact List.prefix_append _ _

theorem mem_unlines {ls : List (List Char)} {c : Char} (h : c ∈ unlines ls) :
    c = '\n' ∨ ∃ line ∈ ls, c ∈ line := by
  induction ls with
  | nil => cases h
  | cons line rest ih =>
    by_cases hrest : rest = []
    · rw [hrest] at h
      exact .inr ⟨line, List.mem_cons_self, h⟩
    · rw [unlines_cons hrest, List.mem_append, List.mem_cons] at h
      rcases h with h | h | h
      · exact .inr ⟨line, List.mem_cons_self, h⟩
      · exact .inl h
      · exact (ih h).imp_right fun ⟨l, hl, hc⟩ => ⟨l, List.mem_cons_of_mem line hl, hc⟩

theorem count_unlines {c : Char} (hc : c ≠ '\n') (ls : List (List Char)) :
    (unlines ls).count c = ls.flatten.count c := by
  induction ls with
  | nil => rfl
  | cons line others ih =>
    cases others with
    | nil => simp [unlines]
    | cons next rest =>
      rw [unlines_cons (List.cons_ne_nil next rest), List.count_append,
        List.count_cons_of_ne hc.symm, ih, ← List.count_append]
      rfl

end ComponentDocs.Text
