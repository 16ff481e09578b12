import ComponentDocs.Proofs.Doclet.Mask
import ComponentDocs.Proofs.Tag.Comment

/-!
# Doclets at the front of a line

Whether a line starts a doclet is decided by its first column: outside code by the marker that
stands there, and inside code by the one behind the first at sign, which the masked copy has lost:
`docletName?_maskLine`.
-/

namespace ComponentDocs

open Text

/-! ## The first column -/

theorem exists_indent (line : List Char) :
    ∃ front, line = front ++ line.dropWhile isIndent ∧ ∀ c ∈ front, isIndent c :=
  ⟨line.takeWhile isIndent, List.takeWhile_append_dropWhile.symm,
    fun _ hc => List.mem_takeWhile_imp hc⟩

theorem dropWhile_isIndent_append {front : List Char} (h : ∀ c ∈ front, isIndent c)
    (line : List Char) : (front ++ line).dropWhile isIndent = line.dropWhile isIndent :=
  List.dropWhile_append_of_pos h

theorem not_isIndent_of_head?_dropWhile {line : List Char} {c : Char}
    (h : c ∈ (line.dropWhile isIndent).head?) : ¬ isIndent c := by
  have hhead := List.head?_dropWhile_not isIndent line
  rw [Option.mem_def.1 h] at hhead
  simpa using hhead

/-- Nothing stands in the first column of a text, blanks apart: another white space, or no more. -/
def EmptyColumn (s : List Char) : Prop :=
  ∀ c ∈ (s.dropWhile isIndent).head?, isBlank c

theorem emptyColumn_of_isLineBreak {b : Char} (hb : isLineBreak b) (after : List Char) :
    EmptyColumn (b :: after) := by
  intro c hc
  rw [List.dropWhile_cons_of_neg (not_isIndent_of_isLineBreak hb)] at hc
  rw [← Option.some.inj hc]
  exact isBlank_of_isLineBreak hb

theorem emptyColumn_of_blank {back : List Char} (h : ∀ c ∈ back, isBlank c) : EmptyColumn back :=
  fun c hc => h c ((List.dropWhile_sublist isIndent).subset (List.mem_of_mem_head? hc))

theorem EmptyColumn.isBlank_head? {s : List Char} (h : EmptyColumn s) :
    ∀ c ∈ s.head?, isBlank c := by
  intro c hc
  cases s with
  | nil => cases hc
  | cons d rest =>
    obtain rfl := Option.some.inj hc
    by_cases hindent : isIndent d
    · exact isBlank_of_isIndent hindent
    · exact h d (by rw [List.dropWhile_cons_of_neg hindent]; rfl)

theorem EmptyColumn.head?_ne {s : List Char} (h : EmptyColumn s) :
    (s.dropWhile isIndent).head? ≠ some '@' := by
  intro hat
  exact absurd (h '@' hat) (by decide)

/-! ## Markers -/

theorem head?_of_lineMarker? {line word rest : List Char}
    (h : lineMarker? line = some (word, rest)) :
    (line.dropWhile isIndent).head? = some '@' := by
  rw [eq_of_marker? h]
  rfl

theorem lineMarker?_append_blank {line word rest back : List Char}
    (h : lineMarker? line = some (word, rest)) (hback : ∀ c ∈ back.head?, isBlank c) :
    lineMarker? (line ++ back) = some (word, rest ++ back) := by
  have hne : line.dropWhile isIndent ≠ [] := by
    intro hnil
    rw [lineMarker?, hnil] at h
    cases h
  rw [lineMarker?, List.dropWhile_append, if_neg (by simpa using hne)]
  exact marker?_append_blank h hback

-- White space is no character of a word, so a word ends before it.
theorem exists_marker?_of_append {s word rest back : List Char} (hs : s ≠ [])
    (hback : ∀ c ∈ back.head?, isBlank c) (h : marker? (s ++ back) = some (word, rest)) :
    ∃ rest', marker? s = some (word, rest') := by
  obtain ⟨hsplit, hne, hword, hrest⟩ := marker?_eq_some_iff.1 h
  rcases List.append_eq_append_iff.1 hsplit with
    ⟨middle, hmiddle, hafter⟩ | ⟨middle, hmiddle, hafter⟩
  · cases middle with
    | nil =>
      rw [List.append_nil] at hmiddle
      refine ⟨[], marker?_eq_some_iff.2 ⟨?_, hne, hword, by simp⟩⟩
      rw [List.append_nil]
      exact hmiddle.symm
    | cons d m =>
      have hd : isBlank d := hback d (by rw [hafter]; rfl)
      obtain ⟨c, p, rfl⟩ := List.exists_cons_of_ne_nil hs
      have hmem : d ∈ word := by
        rw [(List.cons.inj hmiddle).2]
        exact List.mem_append_right p List.mem_cons_self
      exact absurd (hword d hmem) (by rw [not_isWord_of_isBlank hd]; decide)
  · refine ⟨middle, marker?_eq_some_iff.2 ⟨hmiddle, hne, hword, fun c hc => hrest c ?_⟩⟩
    rw [hafter, List.head?_append, Option.mem_def.1 hc]
    rfl

-- Text without anything in its first column neither makes a marker nor takes one away.
theorem lineMarker?_of_append {part word rest back : List Char} (hback : EmptyColumn back)
    (h : lineMarker? (part ++ back) = some (word, rest)) :
    ∃ rest', lineMarker? part = some (word, rest') ∧ rest = rest' ++ back := by
  have hne : part.dropWhile isIndent ≠ [] := by
    intro hempty
    have hhead := head?_of_lineMarker? h
    rw [List.dropWhile_append, if_pos (by simpa using hempty)] at hhead
    exact hback.head?_ne hhead
  have hmarker := h
  rw [lineMarker?, List.dropWhile_append, if_neg (by simpa using hne)] at hmarker
  obtain ⟨rest', hpart⟩ := exists_marker?_of_append hne hback.isBlank_head? hmarker
  have hwhole := lineMarker?_append_blank hpart hback.isBlank_head?
  rw [h] at hwhole
  exact ⟨rest', hpart, (Prod.mk.inj (Option.some.inj hwhole)).2⟩

theorem titled?_of_lineMarker? {line word rest : List Char}
    (h : lineMarker? line = some (word, rest)) : titled? line = some (word, rest) := by
  obtain ⟨front, hline, hfront⟩ := exists_indent line
  rw [lineMarker?] at h
  rw [hline, titled?_blank_append (fun c hc => isBlank_of_isIndent (hfront c hc)), titled?]
  obtain ⟨hcore, -⟩ := marker?_eq_some_iff.1 h
  rw [hcore, List.cons_append, trimLeft_cons_of_not_blank (by decide), ← List.cons_append,
    ← hcore, h]

/-! ## Doclets -/

/-- The word of the doclet that a line of running text starts: of a marker in its first column that
white space or the end of the line follows. -/
def lineDoclet? (line : List Char) : Option (List Char) :=
  (lineMarker? line).bind fun (word, rest) => if rest.head?.all isBlank then some word else none

/-- The word of the doclet that stands behind an at sign in the first column of a line. -/
def hiddenDoclet? (line : List Char) : Option (List Char) :=
  match line.dropWhile isIndent with
  | '@' :: rest => lineDoclet? rest
  | _ => none

/-- The word of the doclet that a line starts, inside code the one behind its first at sign. -/
def startedDoclet? (inside : Bool) (line : List Char) : Option (List Char) :=
  if inside then hiddenDoclet? line else lineDoclet? line

theorem lineDoclet?_eq_some_iff {line word : List Char} :
    lineDoclet? line = some word ↔
      ∃ rest, lineMarker? line = some (word, rest) ∧ ∀ c ∈ rest.head?, isBlank c := by
  rw [lineDoclet?, Option.bind_eq_some_iff]
  constructor
  · rintro ⟨⟨found, rest⟩, hmarker, hword⟩
    by_cases hrest : rest.head?.all isBlank
    · simp only [hrest, if_true, Option.some.injEq] at hword
      obtain rfl := hword
      exact ⟨rest, hmarker, (Option.all_eq_true _ _).1 hrest⟩
    · simp only [hrest, Bool.false_eq_true, if_false, reduceCtorEq] at hword
  · rintro ⟨rest, hmarker, hrest⟩
    exact ⟨(word, rest), hmarker, if_pos ((Option.all_eq_true _ _).2 hrest)⟩

theorem lineDoclet?_dropWhile (line : List Char) :
    lineDoclet? (line.dropWhile isIndent) = lineDoclet? line := by
  rw [lineDoclet?, lineMarker?, List.dropWhile_idempotent, ← lineMarker?, ← lineDoclet?]

-- A doclet has an at sign in the first column.
theorem startedDoclet?_of_head? {line : List Char}
    (h : (line.dropWhile isIndent).head? ≠ some '@') (inside : Bool) :
    startedDoclet? inside line = none := by
  cases inside with
  | false =>
    by_contra hne
    obtain ⟨word, hword⟩ := Option.ne_none_iff_exists'.1 hne
    obtain ⟨rest, hmarker, -⟩ := lineDoclet?_eq_some_iff.1 hword
    exact h (head?_of_lineMarker? hmarker)
  | true =>
    change hiddenDoclet? line = none
    unfold hiddenDoclet?
    split
    · rename_i hline
      exact absurd (by rw [hline]; rfl) h
    · rfl

theorem startedDoclet?_of_blank {line : List Char} (h : ∀ c ∈ line, isBlank c) (inside : Bool) :
    startedDoclet? inside line = none :=
  startedDoclet?_of_head? (emptyColumn_of_blank h).head?_ne inside

theorem startedDoclet?_of_hasFenceMark {line : List Char} (h : hasFenceMark line) (inside : Bool) :
    startedDoclet? inside line = none := by
  refine startedDoclet?_of_head? (fun hat => ?_) inside
  obtain ⟨front, hline, hfront⟩ := exists_indent line
  obtain ⟨rest, hcore⟩ := List.head?_eq_some_iff.1 hat
  rw [hline, hasFenceMark_blank_append fun c hc => isBlank_of_isIndent (hfront c hc), hcore] at h
  cases h

theorem lineDoclet?_append {back : List Char} (hback : EmptyColumn back) (part : List Char) :
    lineDoclet? (part ++ back) = lineDoclet? part := by
  refine Option.ext fun word => ?_
  rw [lineDoclet?_eq_some_iff, lineDoclet?_eq_some_iff]
  constructor
  · rintro ⟨rest, hmarker, hrest⟩
    obtain ⟨rest', hpart, rfl⟩ := lineMarker?_of_append hback hmarker
    refine ⟨rest', hpart, fun c hc => hrest c ?_⟩
    rw [List.head?_append, Option.mem_def.1 hc]
    rfl
  · rintro ⟨rest, hmarker, hrest⟩
    refine ⟨rest ++ back, lineMarker?_append_blank hmarker hback.isBlank_head?, fun c hc => ?_⟩
    cases rest with
    | nil => exact hback.isBlank_head? c hc
    | cons d r => exact hrest c hc

-- Text without anything in its first column neither makes a doclet nor takes one away.
theorem startedDoclet?_append {back : List Char} (hback : EmptyColumn back) (inside : Bool)
    (part : List Char) : startedDoclet? inside (part ++ back) = startedDoclet? inside part := by
  cases inside with
  | false => exact lineDoclet?_append hback part
  | true =>
    by_cases hempty : part.dropWhile isIndent = []
    · have hhead : ((part ++ back).dropWhile isIndent).head? ≠ some '@' := by
        rw [List.dropWhile_append, if_pos (by simpa using hempty)]
        exact hback.head?_ne
      rw [startedDoclet?_of_head? hhead, startedDoclet?_of_head? (by rw [hempty]; simp)]
    · obtain ⟨c, rest, hcore⟩ := List.exists_cons_of_ne_nil hempty
      change hiddenDoclet? (part ++ back) = hiddenDoclet? part
      unfold hiddenDoclet?
      rw [List.dropWhile_append, if_neg (by simpa using hempty), hcore, List.cons_append]
      by_cases hc : c = '@'
      · rw [hc]
        exact lineDoclet?_append hback rest
      · split
        · rename_i heq
          exact absurd (List.cons.inj heq).1 hc
        · split
          · rename_i heq
            exact absurd (List.cons.inj heq).1 hc
          · rfl

/-! ## Doclets of the masked copy -/

-- The first at sign of a line is in its first column, or the blanked line has nothing there.
theorem lineDoclet?_blankMarker (line : List Char) :
    lineDoclet? (blankMarker line) = hiddenDoclet? line := by
  obtain ⟨front, hline, hfront⟩ := exists_indent line
  have hblank : ∀ c ∈ front, isBlank c := fun c hc => isBlank_of_isIndent (hfront c hc)
  have hmask : lineDoclet? (blankMarker line) =
      lineDoclet? (blankMarker (line.dropWhile isIndent)) := by
    conv_lhs => rw [hline, blankMarker_blank_append hblank]
    rw [← lineDoclet?_dropWhile, dropWhile_isIndent_append hfront, lineDoclet?_dropWhile]
  rw [hmask, hiddenDoclet?]
  cases hcore : line.dropWhile isIndent with
  | nil => rfl
  | cons c rest =>
    by_cases hc : c = '@'
    · rw [hc, blankMarker, if_pos rfl, ← lineDoclet?_dropWhile, List.dropWhile_cons_of_pos rfl]
      exact lineDoclet?_dropWhile rest
    · have hindent : ¬ isIndent c := not_isIndent_of_head?_dropWhile (by rw [hcore]; rfl)
      have hhead : ((c :: blankMarker rest).dropWhile isIndent).head? ≠ some '@' := by
        rw [List.dropWhile_cons_of_neg hindent]
        simpa using hc
      rw [blankMarker, if_neg hc]
      refine (startedDoclet?_of_head? hhead false).trans ?_
      split
      · rename_i heq
        exact absurd (List.cons.inj heq).1 hc
      · rfl

theorem length_blankMarker (line : List Char) : (blankMarker line).length = line.length := by
  induction line with
  | nil => rfl
  | cons c rest ih =>
    rw [blankMarker]
    split
    · rfl
    · rw [List.length_cons, ih, List.length_cons]

theorem length_maskFrom (inside : Bool) (ls : List BrokenLine) :
    (maskFrom inside ls).length = (ls.flatMap BrokenLine.toList).length := by
  induction ls generalizing inside with
  | nil => rfl
  | cons line rest ih =>
    rw [maskFrom, List.length_append, ih, List.flatMap_cons, List.length_append]
    split
    · rw [length_blankMarker]
    · rfl

-- From an at sign on, a blanked line is as it was.
theorem exists_of_blankMarker_eq {line front back : List Char}
    (h : blankMarker line = front ++ '@' :: back) : ∃ front', line = front' ++ '@' :: back := by
  induction line generalizing front with
  | nil => cases front <;> cases h
  | cons c rest ih =>
    by_cases hc : c = '@'
    · rw [blankMarker, if_pos hc] at h
      cases front with
      | nil => exact absurd (List.cons.inj h).1 (by decide)
      | cons d f => exact ⟨c :: f, by rw [(List.cons.inj h).2]; rfl⟩
    · rw [blankMarker, if_neg hc] at h
      cases front with
      | nil => exact absurd (List.cons.inj h).1 hc
      | cons d f =>
        obtain ⟨front', hrest⟩ := ih (List.cons.inj h).2
        exact ⟨c :: front', by rw [hrest]; rfl⟩

/-- The masked copy of a part of a line that holds no line break. -/
def maskPart (inside : Bool) (part : List Char) : List Char :=
  if inside && !hasFenceMark part then blankMarker part else part

theorem lineDoclet?_maskPart (inside : Bool) (part : List Char) :
    lineDoclet? (maskPart inside part) = startedDoclet? inside part := by
  unfold maskPart
  cases inside with
  | false => rfl
  | true =>
    cases hmark : hasFenceMark part with
    | true =>
      rw [startedDoclet?_of_hasFenceMark hmark]
      exact startedDoclet?_of_hasFenceMark hmark false
    | false => exact lineDoclet?_blankMarker part

-- The first part of a line is masked on its own, and what follows it has nothing in its first
-- column, masked or not.
theorem exists_maskLine (inside : Bool) (line : List Char) :
    ∃ part tail tail', line = part ++ tail ∧ maskLine inside line = maskPart inside part ++ tail' ∧
      tail.length = tail'.length ∧ EmptyColumn tail ∧ EmptyColumn tail' := by
  have hempty : EmptyColumn [] := emptyColumn_of_blank (by simp)
  have hline := flatMap_breakLines line
  cases hls : breakLines line with
  | nil =>
    rw [hls] at hline
    obtain rfl : [] = line := hline
    exact ⟨[], [], [], rfl, by cases inside <;> rfl, rfl, hempty, hempty⟩
  | cons first others =>
    have hlength := length_maskFrom (inside != hasFenceMark first.text) others
    rw [hls, List.flatMap_cons] at hline
    rcases ending_of_breakLines hls with ⟨hending, rfl⟩ | ⟨b, e, hending, hb, he⟩
    · refine ⟨first.text, [], [], ?_, ?_, rfl, hempty, hempty⟩
      · rw [← hline, BrokenLine.toList, hending]
        simp
      · rw [maskLine, hls, maskFrom, maskFrom, BrokenLine.toList, hending, List.append_nil,
          List.append_nil, List.append_nil, maskPart]
    · have hat : '@' ∉ first.ending := by
        rw [hending]
        intro hmem
        rcases List.mem_cons.1 hmem with rfl | hmem
        · exact absurd hb (by decide)
        · exact absurd (he '@' hmem) (by decide)
      refine ⟨first.text, first.ending ++ others.flatMap BrokenLine.toList,
        first.ending ++ maskFrom (inside != hasFenceMark first.text) others, ?_, ?_, ?_, ?_, ?_⟩
      · rw [← hline, BrokenLine.toList, List.append_assoc]
      · rw [maskLine, hls, maskFrom, BrokenLine.toList, blankMarker_append_of_not_mem hat, maskPart]
        split <;> rw [List.append_assoc]
      · rw [List.length_append, List.length_append, hlength]
      · rw [hending]
        exact emptyColumn_of_isLineBreak hb _
      · rw [hending]
        exact emptyColumn_of_isLineBreak hb _

theorem exists_of_maskPart_eq {inside : Bool} {part front back : List Char}
    (h : maskPart inside part = front ++ '@' :: back) :
    ∃ front', part = front' ++ '@' :: back := by
  unfold maskPart at h
  split at h
  · exact exists_of_blankMarker_eq h
  · exact ⟨front, h⟩

/-- The name of the doclet that a line starts, if it starts one. -/
def MaskedLine.docletName? (line : MaskedLine) : Option String :=
  line.markerLine?.bind fun found =>
    match found.form with
    | .other => none
    | _ => some (String.ofList found.name)

theorem MaskedLine.docletName?_eq_some_iff {line : MaskedLine} {name : String} :
    line.docletName? = some name ↔
      ∃ word rest, lineMarker? line.masked = some (word, rest) ∧ String.ofList word = name ∧
        ∀ c ∈ (line.text.drop (line.text.length - rest.length)).head?, isBlank c := by
  unfold MaskedLine.docletName? MaskedLine.markerLine?
  cases hmarker : lineMarker? line.masked with
  | none => simp
  | some found =>
    obtain ⟨word, rest⟩ := found
    have hform : ∀ tail : List Char,
        ((match (MarkerLine.mk line.text word tail).form with
          | .other => none
          | _ => some (String.ofList word)) = some name) ↔
          String.ofList word = name ∧ ∀ c ∈ tail.head?, isBlank c := by
      intro tail
      unfold MarkerLine.form
      cases tail with
      | nil => simp
      | cons c r => by_cases hc : isBlank c <;> simp [hc]
    rw [Option.map_some, Option.bind_some]
    refine (hform _).trans ?_
    constructor
    · exact fun h => ⟨word, rest, rfl, h⟩
    · rintro ⟨w, r, hsome, h⟩
      obtain ⟨rfl, rfl⟩ := Prod.mk.inj (Option.some.inj hsome)
      exact h

-- What follows the word of a marker is the same in the line and in its masked copy.
theorem drop_of_maskPart {inside : Bool} {part word rest tail tail' : List Char}
    (h : lineMarker? (maskPart inside part) = some (word, rest))
    (hlength : tail.length = tail'.length) :
    (part ++ tail).drop ((part ++ tail).length - (rest ++ tail').length) = rest ++ tail := by
  obtain ⟨front, hmask, -⟩ := exists_indent (maskPart inside part)
  rw [eq_of_marker? h] at hmask
  obtain ⟨front', hpart⟩ := exists_of_maskPart_eq hmask
  have hsuffix : rest ++ tail <:+ part ++ tail := by
    have hfront : part ++ tail = front' ++ '@' :: word ++ (rest ++ tail) := by
      rw [hpart]
      simp
    rw [hfront]
    exact List.suffix_append _ (rest ++ tail)
  have hrest : (rest ++ tail').length = (rest ++ tail).length := by
    rw [List.length_append, List.length_append, hlength]
  rw [hrest]
  exact (List.suffix_iff_eq_drop.1 hsuffix).symm

/-- A line starts the same doclet in the masked copy as it does in its state. -/
theorem docletName?_maskLine (inside : Bool) (line : List Char) :
    MaskedLine.docletName? ⟨line, maskLine inside line⟩ =
      (startedDoclet? inside line).map String.ofList := by
  obtain ⟨part, tail, tail', rfl, hmask, hlength, htail, htail'⟩ := exists_maskLine inside line
  rw [startedDoclet?_append htail, ← lineDoclet?_maskPart, hmask]
  refine Option.ext fun name => ?_
  rw [MaskedLine.docletName?_eq_some_iff, Option.map_eq_some_iff]
  constructor
  · rintro ⟨word, rest, hmarker, rfl, hrest⟩
    obtain ⟨rest', hpart, rfl⟩ := lineMarker?_of_append htail' hmarker
    rw [drop_of_maskPart hpart hlength] at hrest
    refine ⟨word, lineDoclet?_eq_some_iff.2 ⟨rest', hpart, fun c hc => hrest c ?_⟩, rfl⟩
    rw [List.head?_append, Option.mem_def.1 hc]
    rfl
  · rintro ⟨word, hword, rfl⟩
    obtain ⟨rest, hmarker, hrest⟩ := lineDoclet?_eq_some_iff.1 hword
    refine ⟨word, rest ++ tail', lineMarker?_append_blank hmarker htail'.isBlank_head?, rfl, ?_⟩
    rw [drop_of_maskPart hmarker hlength]
    intro c hc
    cases rest with
    | nil => exact htail.isBlank_head? c hc
    | cons d r => exact hrest c hc

end ComponentDocs
