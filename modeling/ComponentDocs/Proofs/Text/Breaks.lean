import ComponentDocs.Proofs.Text.Trim
import ComponentDocs.Text.Lines

/-!
# Line breaks of every kind

How the broken lines of a text grow with one more character at either end, and that a newline cuts
a text into parts that are broken on their own: `breakLines_append_newline`. So the lines of joined
texts are those of the texts, empty ones apart: `mem_brokenTexts_unlines`.
-/

namespace ComponentDocs.Text

theorem isBlank_of_isLineBreak {c : Char} (h : isLineBreak c) : isBlank c := by
  simp only [isLineBreak, Bool.or_eq_true, Bool.and_eq_true, decide_eq_true_eq, beq_iff_eq] at h
  simp only [isBlank, Bool.or_eq_true, Bool.and_eq_true, decide_eq_true_eq, beq_iff_eq]
  omega

theorem isBlank_of_isIndent {c : Char} (h : isIndent c) : isBlank c := by
  simp only [isIndent, Bool.or_eq_true, beq_iff_eq] at h
  rcases h with rfl | rfl <;> rfl

theorem not_isIndent_of_isLineBreak {c : Char} (h : isLineBreak c) : ¬ isIndent c := by
  intro hindent
  simp only [isIndent, Bool.or_eq_true, beq_iff_eq] at hindent
  rcases hindent with rfl | rfl <;> exact absurd h (by decide)

/-! ## A character in front -/

/-- Put a character in front of broken lines that begin with text. -/
def extendFirst (c : Char) : List BrokenLine → List BrokenLine
  | [] => [⟨[c], []⟩]
  | line :: rest => ⟨c :: line.text, line.ending⟩ :: rest

theorem breakLines_cons_break {c : Char} (hc : isLineBreak c) {s : List Char}
    (hreturn : c = '\r' → s.head? ≠ some '\n') :
    breakLines (c :: s) = ⟨[], [c]⟩ :: breakLines s := by
  rw [breakLines]
  · rw [if_pos hc]
  · rintro rest rfl rfl
    exact hreturn rfl rfl

theorem breakLines_cons_text {c : Char} (hc : isLineBreak c = false) (s : List Char) :
    breakLines (c :: s) = extendFirst c (breakLines s) := by
  rw [breakLines]
  · rw [if_neg (by rw [hc]; decide)]
    cases breakLines s <;> rfl
  · rintro rest rfl
    exact absurd hc (by decide)

theorem breakLines_ne_nil (c : Char) (s : List Char) : breakLines (c :: s) ≠ [] := by
  intro h
  have hchars := flatMap_breakLines (c :: s)
  rw [h] at hchars
  cases hchars

-- Text without a break is one line.
theorem breakLines_of_text {s : List Char} (h : ∀ c ∈ s, isLineBreak c = false) (hne : s ≠ []) :
    breakLines s = [⟨s, []⟩] := by
  induction s with
  | nil => exact absurd rfl hne
  | cons c r ih =>
    rw [breakLines_cons_text (h c List.mem_cons_self)]
    by_cases hr : r = []
    · rw [hr]
      rfl
    · rw [ih (fun d hd => h d (List.mem_cons_of_mem c hd)) hr]
      rfl

-- A broken line ends in breaks, or the text ends with it.
theorem ending_of_breakLines {s : List Char} {line : BrokenLine} {rest : List BrokenLine}
    (h : breakLines s = line :: rest) :
    (line.ending = [] ∧ rest = []) ∨
      ∃ b e, line.ending = b :: e ∧ isLineBreak b ∧ ∀ c ∈ e, isLineBreak c := by
  induction s generalizing line rest with
  | nil => cases h
  | cons c r ih =>
    by_cases hc : isLineBreak c
    · by_cases hreturn : c = '\r' ∧ r.head? = some '\n'
      · obtain ⟨t, rfl⟩ : ∃ t, r = '\n' :: t := by
          cases r with
          | nil => cases hreturn.2
          | cons d t => exact ⟨t, by rw [Option.some.inj hreturn.2]⟩
        rw [hreturn.1, breakLines] at h
        obtain ⟨rfl, -⟩ := List.cons.inj h
        exact .inr ⟨'\r', ['\n'], rfl, rfl, List.forall_mem_singleton.2 rfl⟩
      · rw [breakLines_cons_break hc fun hr hn => hreturn ⟨hr, hn⟩] at h
        obtain ⟨rfl, -⟩ := List.cons.inj h
        exact .inr ⟨c, [], rfl, hc, by simp⟩
    · rw [breakLines_cons_text (by simpa using hc)] at h
      cases hr : breakLines r with
      | nil =>
        rw [hr] at h
        obtain ⟨rfl, rfl⟩ := List.cons.inj h
        exact .inl ⟨rfl, rfl⟩
      | cons first others =>
        rw [hr] at h
        obtain ⟨rfl, rfl⟩ := List.cons.inj h
        have hfirst := ih hr
        exact hfirst

-- A text is its first broken line and what a break puts behind it.
theorem exists_eq_text_append {s : List Char} {line : BrokenLine} {rest : List BrokenLine}
    (h : breakLines s = line :: rest) :
    ∃ back, s = line.text ++ back ∧ ∀ c ∈ back.head?, isLineBreak c := by
  have hchars := flatMap_breakLines s
  rw [h, List.flatMap_cons, BrokenLine.toList, List.append_assoc] at hchars
  refine ⟨_, hchars.symm, fun c hc => ?_⟩
  rcases ending_of_breakLines h with ⟨hending, rfl⟩ | ⟨b, e, hending, hb, -⟩
  · rw [hending] at hc
    cases hc
  · rw [hending] at hc
    rwa [← Option.some.inj hc]

-- The breaks of a text stand behind its broken lines, and only there.
theorem isLineBreak_of_mem_breakLines {s : List Char} {line : BrokenLine}
    (h : line ∈ breakLines s) :
    (∀ c ∈ line.text, isLineBreak c = false) ∧ ∀ c ∈ line.ending, isLineBreak c := by
  fun_induction breakLines s generalizing line with
  | case1 => cases h
  | case2 rest ih =>
    rcases List.mem_cons.1 h with rfl | h
    · exact ⟨by simp, by simp [isLineBreak]⟩
    · exact ih h
  | case3 c rest _ hc ih =>
    rcases List.mem_cons.1 h with rfl | h
    · exact ⟨by simp, List.forall_mem_singleton.2 hc⟩
    · exact ih h
  | case4 c rest _ hc _ ih =>
    rw [List.mem_singleton.1 h]
    exact ⟨List.forall_mem_singleton.2 (by simpa using hc), by simp⟩
  | case5 c rest _ hc first others hrest ih =>
    rcases List.mem_cons.1 h with rfl | h
    · obtain ⟨htext, hending⟩ := ih (hrest ▸ List.mem_cons_self)
      exact ⟨List.forall_mem_cons.2 ⟨by simpa using hc, htext⟩, hending⟩
    · exact ih (hrest ▸ List.mem_cons_of_mem first h)

/-! ## A character at the end -/

/-- Put a character after the last of some broken lines. -/
def extendLast (c : Char) : List BrokenLine → List BrokenLine
  | [] => if isLineBreak c then [⟨[], [c]⟩] else [⟨[c], []⟩]
  | [line] =>
    if line.ending = [] then
      if isLineBreak c then [⟨line.text, [c]⟩] else [⟨line.text ++ [c], []⟩]
    else if c = '\n' ∧ line.ending = ['\r'] then [⟨line.text, ['\r', '\n']⟩]
    else line :: extendLast c []
  | line :: next :: rest => line :: extendLast c (next :: rest)

theorem extendLast_ne_nil (c : Char) (ls : List BrokenLine) : extendLast c ls ≠ [] := by
  match ls with
  | [] =>
    unfold extendLast
    split <;> exact List.cons_ne_nil _ _
  | [line] =>
    unfold extendLast
    repeat' split
    all_goals exact List.cons_ne_nil _ _
  | line :: next :: rest => exact List.cons_ne_nil _ _

theorem extendLast_cons (c : Char) (line : BrokenLine) {rest : List BrokenLine} (h : rest ≠ []) :
    extendLast c (line :: rest) = line :: extendLast c rest := by
  cases rest with
  | nil => exact absurd rfl h
  | cons next others => rfl

theorem extendLast_extendFirst (c d : Char) (ls : List BrokenLine) :
    extendLast c (extendFirst d ls) = extendFirst d (extendLast c ls) := by
  match ls with
  | [] => by_cases hc : isLineBreak c <;> simp [extendFirst, extendLast, hc]
  | [line] =>
    simp only [extendFirst, extendLast]
    split
    · split <;> rfl
    · split <;> rfl
  | line :: next :: rest => rfl

theorem breakLines_concat (s : List Char) (c : Char) :
    breakLines (s ++ [c]) = extendLast c (breakLines s) := by
  fun_induction breakLines s with
  | case1 =>
    by_cases hc : isLineBreak c
    · rw [List.nil_append, breakLines_cons_break hc (by simp)]
      simp [breakLines, extendLast, hc]
    · rw [List.nil_append, breakLines_cons_text (by simpa using hc)]
      simp [breakLines, extendFirst, extendLast, hc]
  | case2 rest ih =>
    rw [List.cons_append, List.cons_append, breakLines, ih]
    cases hr : breakLines rest with
    | nil => simp [extendLast]
    | cons line others => rw [extendLast_cons _ _ (List.cons_ne_nil line others)]
  | case3 d rest hnot hd ih =>
    cases rest with
    | nil =>
      by_cases hreturn : d = '\r' ∧ c = '\n'
      · obtain ⟨rfl, rfl⟩ := hreturn
        rfl
      · have hhead : d = '\r' → ([] ++ [c] : List Char).head? ≠ some '\n' := by
          intro hdr hcn
          exact hreturn ⟨hdr, Option.some.inj hcn⟩
        rw [List.cons_append, breakLines_cons_break hd hhead, ih]
        have hapart : c = '\n' → ¬ d = '\r' := fun hcn hdr => hreturn ⟨hdr, hcn⟩
        simpa [breakLines, extendLast] using hapart
    | cons e t =>
      have hhead : d = '\r' → ((e :: t) ++ [c]).head? ≠ some '\n' := by
        intro hdr hen
        exact hnot t hdr (by rw [Option.some.inj hen])
      rw [List.cons_append, breakLines_cons_break hd hhead, ih,
        extendLast_cons _ _ (breakLines_ne_nil e t)]
  | case4 d rest _ hd hnil ih =>
    have hd' : isLineBreak d = false := by simpa using hd
    rw [List.cons_append, breakLines_cons_text hd', ih, hnil]
    exact (extendLast_extendFirst c d []).symm
  | case5 d rest _ hd line others hls ih =>
    have hd' : isLineBreak d = false := by simpa using hd
    rw [List.cons_append, breakLines_cons_text hd', ih, hls]
    exact (extendLast_extendFirst c d (line :: others)).symm

theorem extendFirst_append (c : Char) {ls : List BrokenLine} (h : ls ≠ [])
    (rest : List BrokenLine) :
    extendFirst c (ls ++ rest) = extendFirst c ls ++ rest := by
  cases ls with
  | nil => exact absurd rfl h
  | cons line others => rfl

/-- What follows a newline is broken on its own. -/
theorem breakLines_append_newline (s rest : List Char) :
    breakLines (s ++ '\n' :: rest) = extendLast '\n' (breakLines s) ++ breakLines rest := by
  fun_induction breakLines s with
  | case1 =>
    rw [List.nil_append, breakLines_cons_break rfl fun h => absurd h (by decide)]
    rfl
  | case2 r ih =>
    rw [List.cons_append, List.cons_append, breakLines, ih]
    cases hr : breakLines r with
    | nil => simp [extendLast, isLineBreak]
    | cons line others =>
      rw [extendLast_cons _ _ (List.cons_ne_nil line others), List.cons_append]
  | case3 d r hnot hd ih =>
    cases r with
    | nil =>
      by_cases hreturn : d = '\r'
      · rw [hreturn]
        rfl
      · rw [List.cons_append, breakLines_cons_break hd fun h => absurd h hreturn, ih]
        simp [breakLines, extendLast, isLineBreak, hreturn]
    | cons e t =>
      have hhead : d = '\r' → (e :: t ++ '\n' :: rest).head? ≠ some '\n' := by
        intro hdr hen
        exact hnot t hdr (by rw [Option.some.inj hen])
      rw [List.cons_append, breakLines_cons_break hd hhead, ih,
        extendLast_cons _ _ (breakLines_ne_nil e t), List.cons_append]
  | case4 d r _ hd hnil ih =>
    have hd' : isLineBreak d = false := by simpa using hd
    rw [List.cons_append, breakLines_cons_text hd', ih, hnil,
      extendFirst_append d (extendLast_ne_nil _ _), ← extendLast_extendFirst]
    rfl
  | case5 d r _ hd line others hls ih =>
    have hd' : isLineBreak d = false := by simpa using hd
    rw [List.cons_append, breakLines_cons_text hd', ih, hls,
      extendFirst_append d (extendLast_ne_nil _ _), ← extendLast_extendFirst]
    rfl

/-! ## Lines without their breaks -/

/-- The lines of a text, cut at every line break, without the breaks. -/
def brokenTexts (s : List Char) : List (List Char) :=
  (breakLines s).map BrokenLine.text

theorem isLineBreak_of_mem_brokenTexts {s t : List Char} (h : t ∈ brokenTexts s) :
    ∀ c ∈ t, isLineBreak c = false := by
  obtain ⟨line, hline, rfl⟩ := List.mem_map.1 h
  exact (isLineBreak_of_mem_breakLines hline).1

theorem brokenTexts_of_text {s : List Char} (h : ∀ c ∈ s, isLineBreak c = false) (hne : s ≠ []) :
    brokenTexts s = [s] := by
  rw [brokenTexts, breakLines_of_text h hne, List.map_singleton]

theorem infix_of_mem_brokenTexts {s t : List Char} (h : t ∈ brokenTexts s) : t <:+: s := by
  obtain ⟨line, hline, rfl⟩ := List.mem_map.1 h
  have hwhole : line.toList <:+: (breakLines s).flatMap BrokenLine.toList :=
    List.infix_of_mem_flatten (List.mem_map_of_mem hline)
  rw [flatMap_breakLines] at hwhole
  exact (List.prefix_append _ _).isInfix.trans hwhole

-- A newline ends the last line, or an empty line below it.
theorem map_text_extendLast_newline (ls : List BrokenLine) :
    (extendLast '\n' ls).map BrokenLine.text = ls.map BrokenLine.text ∨
      (extendLast '\n' ls).map BrokenLine.text = ls.map BrokenLine.text ++ [[]] := by
  match ls with
  | [] => exact .inr rfl
  | [line] =>
    unfold extendLast
    by_cases hending : line.ending = []
    · rw [if_pos hending]
      exact .inl rfl
    · rw [if_neg hending]
      split
      · exact .inl rfl
      · exact .inr rfl
  | line :: next :: rest =>
    rw [extendLast_cons _ _ (List.cons_ne_nil next rest), List.map_cons, List.map_cons,
      List.cons_append]
    exact (map_text_extendLast_newline (next :: rest)).imp (congrArg _) (congrArg _)

theorem brokenTexts_append_newline (s rest : List Char) :
    ∃ ts, brokenTexts (s ++ '\n' :: rest) = ts ++ brokenTexts rest ∧ ts ≠ [] ∧
      (ts = brokenTexts s ∨ ts = brokenTexts s ++ [[]]) := by
  refine ⟨(extendLast '\n' (breakLines s)).map BrokenLine.text, ?_, ?_,
    map_text_extendLast_newline _⟩
  · rw [brokenTexts, breakLines_append_newline, List.map_append, ← brokenTexts]
  · rw [ne_eq, List.map_eq_nil_iff]
    exact extendLast_ne_nil _ _

theorem mem_brokenTexts_unlines {texts : List (List Char)} {t : List Char}
    (h : t ∈ brokenTexts (unlines texts)) : t = [] ∨ ∃ s ∈ texts, t ∈ brokenTexts s := by
  induction texts with
  | nil => cases h
  | cons s rest ih =>
    by_cases hrest : rest = []
    · rw [hrest] at h
      exact .inr ⟨s, List.mem_cons_self, h⟩
    · obtain ⟨ts, hts, -, hcases⟩ := brokenTexts_append_newline s (unlines rest)
      rw [unlines_cons hrest, hts, List.mem_append] at h
      rcases h with h | h
      · rcases hcases with rfl | rfl
        · exact .inr ⟨s, List.mem_cons_self, h⟩
        · rcases List.mem_append.1 h with h | h
          · exact .inr ⟨s, List.mem_cons_self, h⟩
          · exact .inl (List.mem_singleton.1 h)
      · exact (ih h).imp_right fun ⟨s', hs', ht⟩ => ⟨s', List.mem_cons_of_mem s hs', ht⟩

theorem subset_brokenTexts_unlines {texts : List (List Char)} {s : List Char} (hs : s ∈ texts) :
    brokenTexts s ⊆ brokenTexts (unlines texts) := by
  induction texts with
  | nil => cases hs
  | cons first rest ih =>
    by_cases hrest : rest = []
    · rw [hrest] at hs ⊢
      rw [List.mem_singleton.1 hs]
      exact List.Subset.refl _
    · obtain ⟨ts, hts, -, hcases⟩ := brokenTexts_append_newline first (unlines rest)
      rw [unlines_cons hrest, hts]
      rcases List.mem_cons.1 hs with rfl | hs
      · refine List.subset_append_of_subset_left _ ?_
        rcases hcases with rfl | rfl
        · exact List.Subset.refl _
        · exact List.subset_append_left _ _
      · exact List.subset_append_of_subset_right ts (ih hs)

-- The lines of the texts below the first text are all below its first line.
theorem subset_tail_brokenTexts_unlines {first s : List Char} {rest : List (List Char)}
    (hs : s ∈ rest) : brokenTexts s ⊆ (brokenTexts (unlines (first :: rest))).tail := by
  obtain ⟨ts, hts, hne, -⟩ := brokenTexts_append_newline first (unlines rest)
  rw [unlines_cons (List.ne_nil_of_mem hs), hts, List.tail_append_of_ne_nil hne]
  exact List.subset_append_of_subset_right ts.tail (subset_brokenTexts_unlines hs)

-- Text without a break joins the first line of what follows it.
theorem brokenTexts_text_append {front : List Char} (h : ∀ c ∈ front, isLineBreak c = false)
    (hne : front ≠ []) (s : List Char) :
    ∃ t, brokenTexts (front ++ s) = (front ++ t) :: (brokenTexts s).tail := by
  induction front with
  | nil => exact absurd rfl hne
  | cons c r ih =>
    rw [brokenTexts, List.cons_append, breakLines_cons_text (h c List.mem_cons_self)]
    by_cases hr : r = []
    · rw [hr, List.nil_append, brokenTexts]
      cases breakLines s with
      | nil => exact ⟨[], rfl⟩
      | cons line others => exact ⟨line.text, rfl⟩
    · obtain ⟨t, ht⟩ := ih (fun d hd => h d (List.mem_cons_of_mem c hd)) hr
      refine ⟨t, ?_⟩
      rw [brokenTexts] at ht
      cases hls : breakLines (r ++ s) with
      | nil =>
        rw [hls] at ht
        cases ht
      | cons line others =>
        rw [hls, List.map_cons] at ht
        obtain ⟨htext, hothers⟩ := List.cons.inj ht
        rw [extendFirst, List.map_cons, htext, hothers, List.cons_append]

end ComponentDocs.Text
