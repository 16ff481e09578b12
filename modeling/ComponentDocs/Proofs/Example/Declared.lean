import ComponentDocs.Proofs.Example.Outcome
import ComponentDocs.Proofs.Fence.State
import ComponentDocs.Proofs.Text.Breaks

/-!
# Which inline examples are rendered

The header of an inline example stands on its first line with a fence mark. A text that has three
backticks only inside its lines has no such line: then its first visible line is taken for one, and
what stands behind three characters of it for the header. So an example is rendered that declares
it, or one whose caption looks like a header: `resolveExamples_rendered`.
-/

namespace ComponentDocs

open Text

/-! ## Visible lines -/

/-- The lines of a text that are not blank, trimmed. -/
def visibleTexts (text : List Char) : List (List Char) :=
  ((brokenTexts text).map trim).filter (· ≠ [])

theorem map_trim_visibleLines (text : List Char) :
    (visibleLines text).map trim = visibleTexts text := by
  have hvisible : (fun line => trim line != []) = (fun t => decide (t ≠ [])) ∘ trim := by
    funext line
    cases hline : trim line <;> simp [hline]
  rw [visibleLines, visibleTexts, brokenTexts, hvisible, ← List.filter_map]

theorem visibleTexts_cons_blank {c : Char} (hc : isBlank c) (s : List Char) :
    visibleTexts (c :: s) = visibleTexts s := by
  have hfront : trim [c] = [] := by
    rw [trim_cons_of_blank hc]
    rfl
  unfold visibleTexts brokenTexts
  by_cases hbreak : isLineBreak c
  · by_cases hreturn : c = '\r' ∧ s.head? = some '\n'
    · -- the newline that belongs to the carriage return is a break of its own without it
      obtain ⟨rfl, hhead⟩ := hreturn
      obtain ⟨t, rfl⟩ := List.head?_eq_some_iff.1 hhead
      rw [breakLines, breakLines_cons_break rfl fun h => absurd h (by decide)]
      rfl
    · rw [breakLines_cons_break hbreak fun hr hn => hreturn ⟨hr, hn⟩]
      rfl
  · rw [breakLines_cons_text (by simpa using hbreak)]
    cases breakLines s with
    | nil => simp [extendFirst, hfront]
    | cons line rest => simp only [extendFirst, List.map_cons, trim_cons_of_blank hc]

theorem filter_trim_extendLast {c : Char} (hc : isBlank c) (ls : List BrokenLine) :
    (((extendLast c ls).map BrokenLine.text).map trim).filter (· ≠ []) =
      ((ls.map BrokenLine.text).map trim).filter (· ≠ []) := by
  have hback : ∀ d ∈ [c], isBlank d := by simpa using hc
  have hself : trim [c] = [] := by
    rw [trim_cons_of_blank hc]
    rfl
  have hempty : trim [] = [] := rfl
  match ls with
  | [] =>
    unfold extendLast
    split <;> simp [hself, hempty]
  | [line] =>
    have hline : trim (line.text ++ [c]) = trim line.text := trim_append_of_blank hback line.text
    unfold extendLast
    split
    · split
      · rfl
      · simp only [List.map_cons, List.map_nil, hline]
    · split
      · rfl
      · unfold extendLast
        split <;> simp [List.filter_cons, hself, hempty]
  | line :: next :: rest =>
    rw [extendLast_cons c line (List.cons_ne_nil next rest)]
    simp only [List.map_cons, List.filter_cons]
    have hrest := filter_trim_extendLast hc (next :: rest)
    simp only [List.map_cons, List.filter_cons] at hrest
    rw [hrest]

/-- White space around a text is none of its visible lines. -/
theorem visibleTexts_trim (text : List Char) : visibleTexts (trim text) = visibleTexts text := by
  obtain ⟨front, back, htext, hfront, hback⟩ := exists_margins text
  have hleft (s : List Char) : visibleTexts (front ++ s) = visibleTexts s := by
    clear htext
    induction front with
    | nil => rfl
    | cons c rest ih =>
      rw [List.forall_mem_cons] at hfront
      rw [List.cons_append, visibleTexts_cons_blank hfront.1, ih hfront.2]
  have hright (s : List Char) : visibleTexts (s ++ back) = visibleTexts s := by
    clear htext
    induction back generalizing s with
    | nil => rw [List.append_nil]
    | cons c rest ih =>
      rw [List.forall_mem_cons] at hback
      have hlast : visibleTexts (s ++ [c]) = visibleTexts s := by
        rw [visibleTexts, brokenTexts, breakLines_concat]
        exact filter_trim_extendLast hback.1 (breakLines s)
      rw [List.append_cons, ih hback.2, hlast]
  conv_rhs => rw [htext]
  rw [hright, hleft]

/-! ## The line with the header -/

/-- Whether a text begins with a fence mark. -/
def beginsMarked (text : List Char) : Bool :=
  fenceMark.isPrefixOf text

theorem beginsMarked_trim (line : List Char) : beginsMarked (trim line) = hasFenceMark line := by
  obtain ⟨back, hline, hback⟩ := exists_margin_right (trimLeft line)
  rw [hasFenceMark, hline, isPrefixOf_fenceMark_append fun c hc =>
    hback c (List.mem_of_mem_head? hc), beginsMarked, trim]

theorem trim_ne_nil_of_hasFenceMark {line : List Char} (h : hasFenceMark line) :
    trim line ≠ [] := by
  intro hnil
  rw [← beginsMarked_trim, hnil] at h
  cases h

/-- The line that is taken for the one with the header: the first one with a mark, or else the
first one. -/
def headerLine? (texts : List (List Char)) : Option (List Char) :=
  (texts.find? beginsMarked).or texts.head?

theorem InlineExample.header_eq (body : List Char) :
    (ofChars body).header =
      ((headerLine? (visibleTexts body)).map fun t => trim (t.drop fenceMark.length)).getD [] := by
  have hfind : (visibleTexts body).find? beginsMarked =
      ((visibleLines body).find? hasFenceMark).map trim := by
    rw [← map_trim_visibleLines, List.find?_map]
    congr 2
    exact funext beginsMarked_trim
  have hhead : (visibleTexts body).head? = (visibleLines body).head?.map trim := by
    rw [← map_trim_visibleLines, List.head?_map]
  have hline : (fromFenceMark (visibleLines body)).head?.map trim =
      headerLine? (visibleTexts body) := by
    rw [headerLine?, hfind, hhead, List.find?_eq_head?_dropWhile_not, fromFenceMark]
    cases (visibleLines body).dropWhile (!hasFenceMark ·) <;> rfl
  rw [← hline, ofChars]
  cases fromFenceMark (visibleLines body) <;> rfl

/-- A header stands on the first line of a text with a fence mark. -/
def HasHeader (text header : List Char) : Prop :=
  ∃ above line rest below, brokenTexts text = above ++ line :: below ∧
    (∀ l ∈ above, ¬ hasFenceMark l) ∧ trimLeft line = fenceMark ++ rest ∧ header = trim rest

/-- No line of a text has a fence mark, and behind three characters of the first visible one stands
what is taken for a header. -/
def HasCaptionHeader (text header : List Char) : Prop :=
  (∀ l ∈ brokenTexts text, ¬ hasFenceMark l) ∧
    ∃ above line below, brokenTexts text = above ++ line :: below ∧ (∀ l ∈ above, trim l = []) ∧
      trim line ≠ [] ∧ header = trim ((trim line).drop fenceMark.length)

theorem find?_beginsMarked_visibleTexts (text : List Char) :
    (visibleTexts text).find? beginsMarked = ((brokenTexts text).find? hasFenceMark).map trim := by
  rw [visibleTexts, List.find?_filter, List.find?_map]
  congr 2
  funext line
  rw [Function.comp, beginsMarked_trim]
  by_cases hmark : hasFenceMark line
  · simp [hmark, trim_ne_nil_of_hasFenceMark hmark]
  · simp [hmark]

-- Behind the mark of a trimmed line stands what stood behind it before.
theorem trim_drop_fenceMark {line rest : List Char} (h : trimLeft line = fenceMark ++ rest) :
    trim ((trim line).drop fenceMark.length) = trim rest := by
  obtain ⟨back, hcore, hback⟩ := exists_margin_right rest
  have htrim : trim line = fenceMark ++ trimRight rest := by
    rw [trim, h]
    have hmark : ¬ isBlank '\x60' := by decide
    simp only [fenceMark, List.cons_append, List.nil_append, trimRight_cons_of_not_blank hmark]
  rw [htrim, List.drop_left, ← trim_append_of_blank hback, ← hcore]

theorem hasHeader_iff {text header : List Char} :
    HasHeader text header ↔
      ∃ line, (visibleTexts text).find? beginsMarked = some line ∧
        header = trim (line.drop fenceMark.length) := by
  rw [find?_beginsMarked_visibleTexts]
  simp only [Option.map_eq_some_iff, List.find?_eq_some_iff_append]
  constructor
  · rintro ⟨above, line, rest, below, htext, habove, hline, rfl⟩
    refine ⟨trim line, ⟨line, ⟨hasFenceMark_iff.2 ⟨rest, hline⟩, above, below, htext, ?_⟩, rfl⟩,
      (trim_drop_fenceMark hline).symm⟩
    simpa using habove
  · rintro ⟨-, ⟨line, ⟨hmark, above, below, htext, habove⟩, rfl⟩, rfl⟩
    obtain ⟨rest, hrest⟩ := hasFenceMark_iff.1 hmark
    refine ⟨above, line, rest, below, htext, ?_, hrest, trim_drop_fenceMark hrest⟩
    simpa using habove

theorem hasCaptionHeader_iff {text header : List Char} :
    HasCaptionHeader text header ↔
      (visibleTexts text).find? beginsMarked = none ∧
        ∃ line, (visibleTexts text).head? = some line ∧
          header = trim (line.drop fenceMark.length) := by
  rw [find?_beginsMarked_visibleTexts, Option.map_eq_none_iff, List.find?_eq_none, HasCaptionHeader]
  refine and_congr_right fun _ => ?_
  rw [visibleTexts, List.head?_filter, List.find?_map]
  simp only [Option.map_eq_some_iff, List.find?_eq_some_iff_append]
  constructor
  · rintro ⟨above, line, below, htext, habove, hline, rfl⟩
    exact ⟨trim line, ⟨line, ⟨by simpa using hline, above, below, htext, by simpa using habove⟩,
      rfl⟩, rfl⟩
  · rintro ⟨-, ⟨line, ⟨hline, above, below, htext, habove⟩, rfl⟩, rfl⟩
    exact ⟨above, line, below, htext, by simpa using habove, by simpa using hline, rfl⟩

/-! ## Verdicts -/

theorem judgeInline_eq_rendered_iff {room : Nat} {body : List Char} :
    judgeInline room body = .rendered ↔
      (Header.readChars room (InlineExample.ofChars body).header).renders := by
  unfold judgeInline
  dsimp only
  generalize Header.readChars room (InlineExample.ofChars body).header = header
  cases hrefusal : header.refusal? with
  | some refusal =>
    -- such a header is faulty, and asks for nothing
    have hfault : header.fault ≠ none := by
      intro hnone
      rw [Header.refusal?, hnone] at hrefusal
      cases hrefusal
    simp [Header.renders, hfault]
  | none => by_cases hrenders : header.renders <;> simp [hrenders]

theorem hasFence_iff_infix {s : List Char} : hasFence s ↔ fenceMark <:+: s := by
  induction s with
  | nil => decide
  | cons c rest ih =>
    rw [hasFence, Bool.or_eq_true, ih, List.isPrefixOf_iff_prefix, List.infix_cons_iff]

-- A line with a mark brings three backticks into the text, and into its trimmed core.
theorem HasHeader.hasFence_trim {text header : List Char} (h : HasHeader text header) :
    hasFence (trim text) := by
  obtain ⟨line, hfind, -⟩ := hasHeader_iff.1 h
  rw [← visibleTexts_trim] at hfind
  have hmark : fenceMark <+: line := List.isPrefixOf_iff_prefix.1 (List.find?_some hfind)
  have hmem := (List.mem_filter.1 (List.mem_of_find?_eq_some hfind)).1
  obtain ⟨part, hpart, rfl⟩ := List.mem_map.1 hmem
  exact hasFence_iff_infix.2
    (hmark.isInfix.trans ((infix_trim part).trans (infix_of_mem_brokenTexts hpart)))

theorem visibleTexts_ne_nil {text : List Char} (h : trim text ≠ []) : visibleTexts text ≠ [] := by
  obtain ⟨c, rest, hcore⟩ := List.exists_cons_of_ne_nil h
  have hc : ¬ isBlank c := by
    have hself := trimLeft_trim text
    rw [hcore, trimLeft_eq_self_iff] at hself
    exact hself c rfl
  have hbreak : isLineBreak c = false := by
    rw [← Bool.not_eq_true]
    exact fun hbreak => hc (isBlank_of_isLineBreak hbreak)
  have hvisible (line : List Char) : trim (c :: line) ≠ [] := by
    rw [trim, trimLeft_cons_of_not_blank hc, trimRight_cons_of_not_blank hc]
    exact List.cons_ne_nil _ _
  -- the first line of the core begins with its first character
  rw [← visibleTexts_trim, hcore, visibleTexts, brokenTexts, breakLines_cons_text hbreak]
  cases breakLines rest with
  | nil => simp [extendFirst, hvisible]
  | cons first others => simp [extendFirst, hvisible]

-- The header of an example is the one that its text declares, or what is taken for one.
theorem header_eq_iff {text header : List Char} (h : trim text ≠ []) :
    (InlineExample.ofChars text).header = header ↔
      HasHeader text header ∨ HasCaptionHeader text header := by
  rw [hasHeader_iff, hasCaptionHeader_iff, InlineExample.header_eq, headerLine?]
  obtain ⟨first, others, htexts⟩ := List.exists_cons_of_ne_nil (visibleTexts_ne_nil h)
  rw [htexts, List.head?_cons]
  cases (first :: others).find? beginsMarked <;> simp [eq_comm]

theorem Context.judge_eq_rendered_iff_header {ctx : Context} {body : String} :
    ctx.judge body = .rendered ↔ ctx.files.isFile (ctx.exampleFile body) = false ∧
      hasFence (trim body.toList) ∧
      (Header.readChars ctx.room (InlineExample.ofChars (trim body.toList)).header).renders := by
  unfold judge judgeExample exampleFile
  split
  · rename_i hcore
    simp [hcore, hasFence]
  · by_cases hfile :
      ctx.files.isFile (exampleFilePath ctx.source (String.ofList (trim body.toList)))
    · simp only [hfile, if_true, reduceCtorEq, false_and]
    · by_cases hfence : hasFence (trim body.toList)
      · simp only [hfile, hfence, if_true, Bool.false_eq_true, if_false,
          judgeInline_eq_rendered_iff, true_and]
      · simp only [hfile, hfence, Bool.false_eq_true, if_false, reduceCtorEq, false_and, and_false]

/-- An example is rendered when it names no file and declares it in a header, or in what is taken
for one because no line has a fence mark. -/
theorem Context.judge_eq_rendered_iff {ctx : Context} {body : String} :
    ctx.judge body = .rendered ↔ ctx.files.isFile (ctx.exampleFile body) = false ∧
      ∃ header, (Header.readChars ctx.room header).renders ∧
        (HasHeader body.toList header ∨
          hasFence (trim body.toList) ∧ HasCaptionHeader body.toList header) := by
  have hheader : (InlineExample.ofChars (trim body.toList)).header =
      (InlineExample.ofChars body.toList).header := by
    rw [InlineExample.header_eq, InlineExample.header_eq, visibleTexts_trim]
  have hvisible (h : hasFence (trim body.toList)) : trim body.toList ≠ [] := by
    intro hnil
    rw [hnil] at h
    cases h
  rw [judge_eq_rendered_iff_header, hheader]
  refine and_congr_right fun _ => ⟨?_, ?_⟩
  · rintro ⟨hfence, hrenders⟩
    refine ⟨_, hrenders, ?_⟩
    exact ((header_eq_iff (hvisible hfence)).1 rfl).imp_right fun h => ⟨hfence, h⟩
  · rintro ⟨header, hrenders, hor⟩
    have hfence : hasFence (trim body.toList) := hor.elim HasHeader.hasFence_trim And.left
    rw [(header_eq_iff (hvisible hfence)).2 (hor.imp_right And.right)]
    exact ⟨hfence, hrenders⟩

theorem HasHeader.exists_line {text header : List Char} (h : HasHeader text header) :
    ∃ line ∈ brokenTexts text, hasFenceMark line := by
  obtain ⟨above, line, rest, below, htext, -, hline, -⟩ := h
  exact ⟨line, htext ▸ List.mem_append_right above List.mem_cons_self,
    hasFenceMark_iff.2 ⟨rest, hline⟩⟩

/-- The examples that resolving adds to a record are those that name no file and declare it in a
header that they are to be rendered, or in what is taken for a header. An example that is added
declares it in its header when some line of it has a fence mark, and only then. -/
theorem resolveExamples_rendered {ctx : Context} {r r' : Record}
    (h : (resolveExamples ctx r).result = .ok r') :
    ∃ added, r'.examples = r.examples ++ added ∧ added.Sublist r.offered ∧
      ∀ body ∈ r.offered,
        (body ∈ added ↔ ctx.files.isFile (ctx.exampleFile body) = false ∧
          ∃ header, (Header.readChars ctx.room header).renders ∧
            (HasHeader body.toList header ∨
              hasFence (trim body.toList) ∧ HasCaptionHeader body.toList header)) ∧
        (body ∈ added →
          ((∃ header, (Header.readChars ctx.room header).renders ∧ HasHeader body.toList header) ↔
            ∃ line ∈ brokenTexts body.toList, hasFenceMark line)) := by
  obtain ⟨-, rfl⟩ := resolveExamples_eq_ok_iff.1 h
  refine ⟨r.offered.filter (ctx.judge · == .rendered), rfl, List.filter_sublist, ?_⟩
  intro body hbody
  have hadded :
      body ∈ r.offered.filter (ctx.judge · == .rendered) ↔ ctx.judge body = .rendered := by
    rw [List.mem_filter, beq_iff_eq, and_iff_right hbody]
  rw [hadded, Context.judge_eq_rendered_iff]
  refine ⟨Iff.rfl, ?_⟩
  rintro ⟨-, header, hrenders, hheader | ⟨-, hunmarked, -⟩⟩
  · exact iff_of_true ⟨header, hrenders, hheader⟩ hheader.exists_line
  · refine iff_of_false (fun ⟨_, _, hheader⟩ => ?_) (fun ⟨line, hline, hmark⟩ => ?_)
    · obtain ⟨line, hline, hmark⟩ := hheader.exists_line
      exact hunmarked line hline hmark
    · exact hunmarked line hline hmark

/-- An example with a caption above its code. -/
def captionedButton : String :=
  "To do\n\x60\x60\x60jsx render\n<Button />\n\x60\x60\x60"

-- The caption is not read for a header.
theorem resolveExamples_rendered_captionedButton :
    ∃ r', (resolveExamples .plain
        (.ofExamples [captionedButton])).result = .ok r' ∧
      r'.examples = [captionedButton] ∧
      ∃ header, (Header.readChars Context.plain.room header).renders ∧
        HasHeader captionedButton.toList header := by
  have hresult :=
    (@resolveExamples_eq_ok_iff .plain
      (.ofExamples [captionedButton]) _).2 ⟨by decide +kernel, rfl⟩
  obtain ⟨added, hadded, -, hbodies⟩ := resolveExamples_rendered hresult
  have hexamples : added = [captionedButton] := by
    refine hadded.symm.trans ?_
    decide +kernel
  obtain ⟨-, hdeclares⟩ := hbodies captionedButton (by decide +kernel)
  refine ⟨_, hresult, hadded.trans hexamples, (hdeclares ?_).2 (by decide +kernel)⟩
  rw [hexamples]
  exact List.mem_singleton_self _

/-- Without a line that has a fence mark, three characters are cut off a caption, and what is left
of it asks for the example to be rendered. -/
theorem resolveExamples_caption :
    ((resolveExamples .plain
        (.ofExamples ["See jsx render\nor \x60\x60\x60"])).result.toOption.map Record.examples) =
      some ["See jsx render\nor \x60\x60\x60"] ∧
    ∀ line ∈ brokenTexts "See jsx render\nor \x60\x60\x60".toList, ¬ hasFenceMark line := by
  decide +kernel

end ComponentDocs
