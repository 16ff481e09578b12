import ComponentDocs.Proofs.Doclet.Agreement

/-!
# Writing doclets

Doclets are written below a text, each from a line of its own. Reading undoes writing, and removing
the doclets leaves the text, when the doclets can be told apart: `readDoclets_writeDoclets`.
-/

namespace ComponentDocs

open Text

/-- A doclet as text: its name after an at sign, and its text, if it has one, after a space. -/
def writeDoclet (doclet : String × DocletValue) : List Char :=
  '@' :: doclet.1.toList ++
    match doclet.2 with
    | .flag _ => []
    | .text s => ' ' :: s.toList

/-- A text with doclets below it, each on a new line. -/
def writeDoclets (text : String) (doclets : List (String × DocletValue)) : String :=
  String.ofList (text.toList ++ doclets.flatMap fun doclet => '\n' :: writeDoclet doclet)

/-- Whether a line starts, white space apart, with an at sign or with a fence mark. -/
def isMarked (line : List Char) : Bool :=
  (trimLeft line).head? == some '@' || hasFenceMark line

/-- No line starts with an at sign or with a fence mark. -/
def Unmarked (ls : List (List Char)) : Prop :=
  ∀ line ∈ ls, isMarked line = false

/-- A value that can be told from what stands around it: a mark that the doclet is there, or a
trimmed text without marks below its first line. -/
def WritableValue : DocletValue → Prop
  | .flag b => b = true
  | .text s => s ≠ "" ∧ trim s.toList = s.toList ∧ Unmarked (brokenTexts s.toList).tail

/-- A doclet that can be told from what stands around it. -/
structure WritableDoclet (doclet : String × DocletValue) : Prop where
  name : doclet.1.toList ≠ [] ∧ ∀ c ∈ doclet.1.toList, isWord c
  value : WritableValue doclet.2

instance (ls : List (List Char)) : Decidable (Unmarked ls) :=
  inferInstanceAs (Decidable (∀ line ∈ ls, isMarked line = false))

instance (value : DocletValue) : Decidable (WritableValue value) :=
  match value with
  | .flag b => inferInstanceAs (Decidable (b = true))
  | .text s => inferInstanceAs (Decidable
      (s ≠ "" ∧ trim s.toList = s.toList ∧ Unmarked (brokenTexts s.toList).tail))

instance (doclet : String × DocletValue) : Decidable (WritableDoclet doclet) :=
  decidable_of_iff ((doclet.1.toList ≠ [] ∧ doclet.1.toList.all isWord) ∧ WritableValue doclet.2)
    ⟨fun h => ⟨⟨h.1.1, List.all_eq_true.1 h.1.2⟩, h.2⟩,
      fun h => ⟨⟨h.1.1, List.all_eq_true.2 h.1.2⟩, h.2⟩⟩

/-! ## Lines without marks -/

theorem isLineBreak_of_isWord {c : Char} (h : isWord c) : isLineBreak c = false := by
  by_contra hbreak
  have hblank : isBlank c := isBlank_of_isLineBreak (by simpa using hbreak)
  rw [not_isWord_of_isBlank hblank] at h
  cases h

-- A marker line has its at sign in its first line, however the line is broken.
theorem lineMarker?_of_unmarked {line : List Char} (h : Unmarked (brokenTexts line)) :
    lineMarker? line = none := by
  by_contra hne
  obtain ⟨⟨word, rest⟩, hmarker⟩ := Option.ne_none_iff_exists'.1 hne
  obtain ⟨hat, -⟩ := marker?_eq_some_iff.1 hmarker
  have hindent : ∀ c ∈ line.takeWhile isIndent, isIndent c := fun c hc =>
    List.mem_takeWhile_imp hc
  have hbreak : ∀ c ∈ line.takeWhile isIndent ++ ['@'], isLineBreak c = false := by
    intro c hc
    rcases List.mem_append.1 hc with hc | hc
    · have hc := hindent c hc
      simp only [isIndent, Bool.or_eq_true, beq_iff_eq] at hc
      rcases hc with rfl | rfl <;> rfl
    · rw [List.mem_singleton.1 hc]
      rfl
  have hline : line = (line.takeWhile isIndent ++ ['@']) ++ (word ++ rest) := by
    rw [List.append_assoc, List.singleton_append, ← List.cons_append, ← hat,
      List.takeWhile_append_dropWhile]
  obtain ⟨t, ht⟩ := brokenTexts_text_append hbreak (by simp) (word ++ rest)
  rw [← hline] at ht
  have hmarked := h _ (ht ▸ List.mem_cons_self)
  rw [isMarked, List.append_assoc,
    trimLeft_append_of_blank fun c hc => isBlank_of_isIndent (hindent c hc),
    List.singleton_append, trimLeft_cons_of_not_blank (by decide)] at hmarked
  cases hmarked

/-- A line beside itself: the masked line of a line outside code. -/
def MaskedLine.unmasked (line : List Char) : MaskedLine := ⟨line, line⟩

theorem map_text_unmasked (ls : List (List Char)) :
    (ls.map MaskedLine.unmasked).map MaskedLine.text = ls := by
  rw [List.map_map]
  exact List.map_id ls

theorem markerLine?_of_unmarked {line : List Char} (h : Unmarked (brokenTexts line)) :
    (MaskedLine.unmasked line).markerLine? = none := by
  rw [MaskedLine.markerLine?, MaskedLine.unmasked, lineMarker?_of_unmarked h]
  rfl

-- Without fence marks nothing is masked.
theorem maskedLines_of_noFence {text : List Char}
    (h : ∀ line ∈ brokenTexts text, hasFenceMark line = false) :
    maskedLines text = (lines text).map MaskedLine.unmasked := by
  have hmask : ∀ ls : List BrokenLine, (∀ line ∈ ls, hasFenceMark line.text = false) →
      maskFrom false ls = ls.flatMap BrokenLine.toList := by
    intro ls hls
    induction ls with
    | nil => rfl
    | cons line rest ih =>
      rw [List.forall_mem_cons] at hls
      rw [maskFrom, hls.1, Bool.false_and, if_neg Bool.false_ne_true, bne_self_eq_false, ih hls.2,
        List.flatMap_cons]
  have hself : maskCode text = text := by
    rw [maskCode_eq, hmask _ (List.forall_mem_map.1 h), flatMap_breakLines]
  rw [maskedLines, hself, List.zip, List.zipWith_self, List.map_map]
  rfl

/-! ## One doclet -/

theorem markerLine?_unmasked {name rest : List Char} (hne : name ≠ [])
    (hname : ∀ c ∈ name, isWord c) (hrest : ∀ c ∈ rest.head?, isBlank c) :
    (MaskedLine.unmasked ('@' :: name ++ rest)).markerLine? =
      some ⟨'@' :: name ++ rest, name, rest⟩ := by
  have hmarker : lineMarker? ('@' :: name ++ rest) = some (name, rest) :=
    marker?_eq_some_iff.2 ⟨rfl, hne, hname, fun c hc => not_isWord_of_isBlank (hrest c hc)⟩
  have hdrop : ('@' :: name ++ rest).drop (('@' :: name ++ rest).length - rest.length) = rest := by
    rw [List.length_append, Nat.add_sub_cancel, List.drop_left]
  rw [MaskedLine.markerLine?, MaskedLine.unmasked, hmarker, Option.map_some]
  exact congrArg (fun r => some (MarkerLine.mk ('@' :: name ++ rest) name r)) hdrop

-- However its lines are broken, a doclet has no mark but its own.
theorem exists_brokenTexts_writeDoclet {doclet : String × DocletValue} (h : WritableDoclet doclet) :
    ∃ t rest, brokenTexts (writeDoclet doclet) = ('@' :: t) :: rest ∧ Unmarked rest := by
  obtain ⟨name, value⟩ := doclet
  obtain ⟨⟨-, hname⟩, hvalue⟩ := h
  have hbreak : ∀ c ∈ '@' :: name.toList, isLineBreak c = false := by
    rw [List.forall_mem_cons]
    exact ⟨rfl, fun c hc => isLineBreak_of_isWord (hname c hc)⟩
  cases value with
  | flag b =>
    obtain ⟨t, ht⟩ := brokenTexts_text_append hbreak (List.cons_ne_nil _ _) []
    exact ⟨name.toList ++ t, [], ht, by simp [Unmarked]⟩
  | text s =>
    obtain ⟨t, ht⟩ := brokenTexts_text_append hbreak (List.cons_ne_nil _ _) (' ' :: s.toList)
    have hspace : ∀ c ∈ [' '], isLineBreak c = false := by simp [isLineBreak]
    obtain ⟨u, hu⟩ := brokenTexts_text_append hspace (List.cons_ne_nil _ _) s.toList
    rw [List.singleton_append] at hu
    rw [hu, List.tail_cons] at ht
    exact ⟨name.toList ++ t, _, ht, hvalue.2.2⟩

-- The lines of a doclet are a section, from which it is read and of which an empty line is left.
theorem exists_lines_writeDoclet {doclet : String × DocletValue} (h : WritableDoclet doclet) :
    ∃ line after found, lines (writeDoclet doclet) = line :: after ∧
      (MaskedLine.unmasked line).markerLine? = some found ∧
      (∀ l ∈ after, (MaskedLine.unmasked l).markerLine? = none) ∧
      DocletSection.doclet? (found, after.map MaskedLine.unmasked) = some doclet ∧
      DocletSection.kept (found, after.map MaskedLine.unmasked) = [[]] := by
  obtain ⟨name, value⟩ := doclet
  obtain ⟨⟨hne, hname⟩, hvalue⟩ := h
  have hnewline : '\n' ∉ '@' :: name.toList := by
    rw [List.mem_cons, not_or]
    exact ⟨by decide, newline_not_mem_of_isWord hname⟩
  cases value with
  | flag b =>
    have hb : b = true := hvalue
    refine ⟨'@' :: name.toList ++ [], [], _, lines_of_newline_not_mem ?_,
      markerLine?_unmasked hne hname (by simp), by simp, ?_, rfl⟩
    · change '\n' ∉ '@' :: name.toList ++ []
      rw [List.append_nil]
      exact hnewline
    · rw [DocletSection.doclet?, MarkerLine.form, String.ofList_toList, hb]
  | text s =>
    obtain ⟨hs, htrim, hmarks⟩ := hvalue
    obtain ⟨first, after, hlines⟩ := exists_lines_eq_cons s.toList
    have hunlines : unlines (first :: after) = s.toList := by rw [← hlines, unlines_lines]
    have hnewline' : '\n' ∉ '@' :: name.toList ++ [' '] := by
      rw [List.mem_append, not_or]
      exact ⟨hnewline, by decide⟩
    refine ⟨'@' :: name.toList ++ ' ' :: first, after, _, ?_,
      markerLine?_unmasked hne hname ?_, ?_, ?_, rfl⟩
    · have hjoined := lines_append_of_newline_not_mem hnewline' hlines
      rwa [List.append_assoc, List.append_assoc] at hjoined
    · rintro c hc
      rw [← Option.some.inj hc]
      rfl
    · intro l hl
      refine markerLine?_of_unmarked fun t ht => hmarks t ?_
      rw [← hunlines]
      exact subset_tail_brokenTexts_unlines hl ht
    · have hvalue : DocletSection.value (⟨'@' :: name.toList ++ ' ' :: first, name.toList,
          ' ' :: first⟩, after.map MaskedLine.unmasked) = .text s := by
        have hspace : unlines ((' ' :: first) :: after) = ' ' :: s.toList := by
          rw [← hunlines]
          cases after <;> rfl
        rw [DocletSection.value_eq, map_text_unmasked, hspace, trim_cons_of_blank rfl, htrim,
          String.ofList_toList, DocletValue.ofText, if_neg hs]
      rw [DocletSection.doclet?, hvalue, String.ofList_toList]
      rfl

/-! ## Reading and removing what was written -/

-- Doclets one after another are the sections of their lines.
theorem sections_writeDoclets {doclets : List (String × DocletValue)}
    (h : ∀ doclet ∈ doclets, WritableDoclet doclet) :
    ∃ found, sections MaskedLine.markerLine?
        ((doclets.flatMap fun doclet => lines (writeDoclet doclet)).map MaskedLine.unmasked) =
          ([], found) ∧
      found.filterMap DocletSection.doclet? = doclets ∧
      found.flatMap DocletSection.kept = doclets.map fun _ => [] := by
  induction doclets with
  | nil => exact ⟨[], rfl, rfl, rfl⟩
  | cons doclet rest ih =>
    rw [List.forall_mem_cons] at h
    obtain ⟨line, after, found, hlines, hline, hafter, hread, hkept⟩ :=
      exists_lines_writeDoclet h.1
    obtain ⟨others, hsections, hdoclets, hkepts⟩ := ih h.2
    refine ⟨(found, after.map MaskedLine.unmasked) :: others, ?_, ?_, ?_⟩
    · rw [List.flatMap_cons, hlines, List.map_append, List.map_cons,
        sections_section_append hline (List.forall_mem_map.2 hafter), hsections, List.append_nil]
    · rw [List.filterMap_cons, hread, hdoclets]
    · rw [List.flatMap_cons, hkept, hkepts]
      rfl

theorem writeDoclets_eq_unlines (text : String) (doclets : List (String × DocletValue)) :
    (writeDoclets text doclets).toList = unlines (text.toList :: doclets.map writeDoclet) := by
  rw [writeDoclets, String.toList_ofList]
  generalize text.toList = s
  induction doclets generalizing s with
  | nil => exact List.append_nil s
  | cons doclet rest ih =>
    rw [List.flatMap_cons, List.map_cons, unlines_cons (List.cons_ne_nil _ _), ← ih,
      List.cons_append]

-- No line of what is written has a fence mark.
theorem hasFenceMark_of_mem_writeDoclets {text : String} {doclets : List (String × DocletValue)}
    (htext : Unmarked (brokenTexts text.toList)) (h : ∀ doclet ∈ doclets, WritableDoclet doclet) :
    ∀ line ∈ brokenTexts (writeDoclets text doclets).toList, hasFenceMark line = false := by
  have hunmarked : ∀ line, isMarked line = false → hasFenceMark line = false := fun line hline =>
    (Bool.or_eq_false_iff.1 hline).2
  intro line hline
  rw [writeDoclets_eq_unlines] at hline
  rcases mem_brokenTexts_unlines hline with rfl | ⟨s, hs, hline⟩
  · rfl
  rcases List.mem_cons.1 hs with rfl | hs
  · exact hunmarked line (htext line hline)
  obtain ⟨doclet, hdoclet, rfl⟩ := List.mem_map.1 hs
  obtain ⟨t, rest, htexts, hrest⟩ := exists_brokenTexts_writeDoclet (h doclet hdoclet)
  rw [htexts] at hline
  rcases List.mem_cons.1 hline with rfl | hline
  · rw [hasFenceMark, trimLeft_cons_of_not_blank (by decide)]
    rfl
  · exact hunmarked line (hrest line hline)

-- Trimming takes off empty lines at the end.
theorem trim_unlines_append_empty {ls empties : List (List Char)} (hne : ls ≠ [])
    (h : ∀ line ∈ empties, line = []) : trim (unlines (ls ++ empties)) = trim (unlines ls) := by
  induction empties generalizing ls with
  | nil => rw [List.append_nil]
  | cons line rest ih =>
    rw [List.forall_mem_cons] at h
    have hnewline : ∀ c ∈ ['\n'], isBlank c := by simp [isBlank]
    have hlast : unlines (ls ++ [[]]) = unlines ls ++ ['\n'] :=
      unlines_append hne (List.cons_ne_nil _ _)
    rw [h.1, List.append_cons, ih (by simp) h.2, hlast, trim_append_of_blank hnewline]

/-- Doclets that are written below a text are read as they are, and removing them leaves the
text. -/
theorem readDoclets_writeDoclets {text : String} {doclets : List (String × DocletValue)}
    (htrim : trim text.toList = text.toList) (htext : Unmarked (brokenTexts text.toList))
    (h : ∀ doclet ∈ doclets, WritableDoclet doclet) (hnames : (doclets.map Prod.fst).Nodup) :
    (readDoclets (writeDoclets text doclets)).entries = doclets ∧
      removeDoclets (writeDoclets text doclets) = text := by
  obtain ⟨found, hfound, hdoclets, hkept⟩ := sections_writeDoclets h
  have hlines : lines (writeDoclets text doclets).toList =
      lines text.toList ++ doclets.flatMap fun doclet => lines (writeDoclet doclet) := by
    rw [writeDoclets_eq_unlines, lines_unlines_eq_flatMap (List.cons_ne_nil _ _),
      List.flatMap_cons, List.flatMap_map]
  have hhead : ∀ line ∈ (lines text.toList).map MaskedLine.unmasked,
      line.markerLine? = none := by
    rw [List.forall_mem_map]
    intro line hline
    refine markerLine?_of_unmarked fun t ht => htext t ?_
    rw [← unlines_lines text.toList]
    exact subset_brokenTexts_unlines hline ht
  have hsections : docletSections (writeDoclets text doclets).toList =
      ((lines text.toList).map MaskedLine.unmasked, found) := by
    rw [docletSections, maskedLines_of_noFence (hasFenceMark_of_mem_writeDoclets htext h), hlines,
      List.map_append, sections_append_of_none hhead, hfound, List.append_nil]
  constructor
  · have hlist : docletList (writeDoclets text doclets).toList = doclets := by
      rw [docletList, hsections, hdoclets]
    rw [readDoclets, hlist, Dict.ofList,
      Dict.entries_insertMany hnames (by simp [Dict.keys, Dict.empty])]
    rfl
  · have hempty : ∀ line ∈ doclets.map fun _ => ([] : List Char), line = [] := by simp
    rw [removeDoclets, hsections]
    dsimp only
    rw [map_text_unmasked, hkept, trim_unlines_append_empty (lines_ne_nil _) hempty, unlines_lines,
      htrim, String.ofList_toList]

/-- A text with an address in it, and doclets with and without a text. -/
def mailButton : String × List (String × DocletValue) :=
  ("Sends mail,\nsay, to me@home.\n\n - Keys: Enter",
    [("public", .flag true),
      ("returns", .text "the address of @home,\nor\n\n  nothing\x0bor @all"),
      ("see", .text "@home"),
      ("since", .text "\x60\x60\x60")])

example : writeDoclets mailButton.1 mailButton.2 =
    "Sends mail,\nsay, to me@home.\n\n - Keys: Enter\n@public\n" ++
    "@returns the address of @home,\nor\n\n  nothing\x0bor @all\n" ++
    "@see @home\n@since \x60\x60\x60" := by
  decide +kernel

theorem readDoclets_writeDoclets_mailButton :
    trim mailButton.1.toList = mailButton.1.toList ∧
      Unmarked (brokenTexts mailButton.1.toList) ∧
      (∀ doclet ∈ mailButton.2, WritableDoclet doclet) ∧
      (mailButton.2.map Prod.fst).Nodup ∧
      (readDoclets (writeDoclets mailButton.1 mailButton.2)).entries = mailButton.2 ∧
      removeDoclets (writeDoclets mailButton.1 mailButton.2) = mailButton.1 := by
  have htrim : trim mailButton.1.toList = mailButton.1.toList := by decide +kernel
  have htext : Unmarked (brokenTexts mailButton.1.toList) := by decide +kernel
  have hdoclets : ∀ doclet ∈ mailButton.2, WritableDoclet doclet := by decide +kernel
  have hnames : (mailButton.2.map Prod.fst).Nodup := by decide +kernel
  exact ⟨htrim, htext, hdoclets, hnames,
    readDoclets_writeDoclets htrim htext hdoclets hnames⟩

end ComponentDocs
