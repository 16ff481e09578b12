import ComponentDocs.Normal.Methods
import ComponentDocs.Proofs.Normal.Properties
import ComponentDocs.Proofs.Tag.Margin

/-!
# Methods with block comments

A text stands in a block comment behind gutters, between the delimiters. Unwrapping gives it back
without the newlines in front and with a blank line behind: `unwrapChars_wrapChars`. Neither changes
what the comment of a method says: `Method.withDocblock_wrap`.
-/

namespace ComponentDocs

open Text

/-! ## Wrapping -/

/-- A line behind a gutter. -/
def gutterLine (line : List Char) : List Char :=
  ' ' :: '*' :: ' ' :: line

/-- A text as a block comment: the opening delimiter, the lines of the text behind gutters, and the
closing delimiter, one below the other. -/
def wrapChars (text : List Char) : List Char :=
  unlines (['/', '*', '*'] :: (lines text).map gutterLine ++ [[' ', '*', '/']])

def wrap (text : String) : String :=
  String.ofList (wrapChars text.toList)

theorem dropGutter_gutterLine (line : List Char) : dropGutter (gutterLine line) = line := by
  have htrim : trimLeft (gutterLine line) = '*' :: ' ' :: line := by
    rw [gutterLine, trimLeft_cons_of_blank (by decide), trimLeft_cons_of_not_blank (by decide)]
  unfold dropGutter
  rw [htrim]
  rfl

theorem dropClosing_append (text : List Char) : dropClosing (text ++ ['*', '/']) = text := by
  have htrim : trimRight (text ++ ['*', '/']) = text ++ ['*', '/'] := by
    refine trimRight_eq_self_iff.2 fun c hc => ?_
    rw [List.getLast?_append] at hc
    obtain rfl := Option.some.inj hc
    decide
  have hreverse : (trimRight (text ++ ['*', '/'])).reverse = '/' :: '*' :: text.reverse := by
    rw [htrim, List.reverse_append]
    rfl
  unfold dropClosing
  rw [hreverse]
  exact List.reverse_reverse text

theorem trimNewlines_append_blank (text : List Char) :
    trimNewlines (text ++ [' ']) = (text ++ [' ']).dropWhile (· == '\n') := by
  have hdrop : (text ++ [' ']).dropWhile (· == '\n') = text.dropWhile (· == '\n') ++ [' '] := by
    rw [List.dropWhile_append]
    split
    · rename_i hempty
      rw [List.isEmpty_iff.1 hempty]
      rfl
    · rfl
  rw [trimNewlines, hdrop, dropEndWhile, List.reverse_append, List.reverse_singleton,
    List.singleton_append, List.dropWhile_cons_of_neg (by decide), List.reverse_cons,
    List.reverse_reverse]

theorem wrapChars_eq (text : List Char) :
    wrapChars text =
      '/' :: '*' :: '*' :: '\n' :: (unlines ((lines text).map gutterLine) ++ ['\n', ' ']) ++
        ['*', '/'] := by
  have hne : (lines text).map gutterLine ≠ [] := by simp [lines_ne_nil]
  rw [wrapChars, List.cons_append, unlines_cons (by simp),
    unlines_append hne (List.cons_ne_nil _ _)]
  simp [unlines]

theorem lines_gutters (text : List Char) :
    lines (unlines ((lines text).map gutterLine)) = (lines text).map gutterLine := by
  refine lines_unlines (by simp [lines_ne_nil]) fun line hline => ?_
  obtain ⟨own, hown, rfl⟩ := List.mem_map.1 hline
  simp [gutterLine, newline_not_mem_of_mem_lines hown]

/-- Of a text that has been wrapped unwrapping loses the newlines in front, and it leaves a blank
line behind it. -/
theorem unwrapChars_wrapChars (text : List Char) :
    unwrapChars (wrapChars text) = (text ++ ['\n', ' ']).dropWhile (· == '\n') := by
  have hlines : (lines ('\n' :: (unlines ((lines text).map gutterLine) ++ ['\n', ' ']))).map
      dropGutter = [] :: lines text ++ [[' ']] := by
    rw [lines_cons_newline, lines_append_newline, lines_gutters, List.map_cons, List.map_append,
      List.map_map]
    have hown : dropGutter ∘ gutterLine = id := funext dropGutter_gutterLine
    rw [hown, List.map_id]
    rfl
  have hblock : trimLeft (wrapChars text) = wrapChars text := by
    rw [wrapChars_eq]
    exact trimLeft_cons_of_not_blank (by decide) _
  have hunwrap : unwrapChars (wrapChars text) = trimNewlines (unlines ((lines (dropClosing
      ('\n' :: (unlines ((lines text).map gutterLine) ++ ['\n', ' ']) ++ ['*', '/']))).map
        dropGutter)) := by
    unfold unwrapChars
    rw [hblock, wrapChars_eq]
    rfl
  have hjoined : unlines ([] :: lines text ++ [[' ']]) = '\n' :: (text ++ ['\n']) ++ [' '] := by
    rw [List.cons_append, unlines_cons (by simp),
      unlines_append (lines_ne_nil text) (List.cons_ne_nil _ _), unlines_lines]
    simp [unlines]
  rw [hunwrap, dropClosing_append, hlines, hjoined, trimNewlines_append_blank, List.cons_append,
    List.dropWhile_cons_of_pos (by decide), List.append_assoc]
  rfl

/-! ## What a wrapped comment says -/

-- A blank line behind a text and newlines in front of it bring no doclets and take none away.
theorem isSet_readDoclets_unwrap_wrap (text name : String) :
    (readDoclets (unwrap (wrap text))).isSet name = (readDoclets text).isSet name := by
  have hblank : ∀ c ∈ ['\n', ' '], isBlank c :=
    List.forall_mem_cons.2 ⟨rfl, List.forall_mem_singleton.2 rfl⟩
  have hfront := apply_dropWhile_newline (f := fun s => docletNames false (lines s))
    docletNames_cons_newline
  rw [Bool.eq_iff_iff, isSet_readDoclets_iff, isSet_readDoclets_iff, unwrap, wrap,
    String.toList_ofList, String.toList_ofList, unwrapChars_wrapChars, hfront,
    docletNames_append_blank hblank]

theorem Comment.tags?_unwrap_wrap (sloppy : Bool) (text : String) :
    Comment.tags? sloppy (unwrap (wrap text)) = Comment.tags? sloppy text := by
  have hblank : ∀ c ∈ [' '], isBlank c := List.forall_mem_singleton.2 rfl
  rw [unwrap, wrap, String.toList_ofList, unwrapChars_wrapChars, Comment.tags?_dropWhile_newline,
    Comment.tags?_append_blankLine hblank (by decide), String.ofList_toList]

/-! ## Methods -/

def Method.withDocblock (m : Method) (docblock : String) : Method :=
  { m with docblock := some docblock }

-- What normalizing a method comes to depends on the comment through its tags only.
theorem Method.toOption_normalize (m : Method) (settings : Settings) (docblock : String) :
    ((m.withDocblock docblock).normalize settings).toOption =
      ((Comment.tags? true (unwrap docblock)).map TagGroups.ofTags).bind fun tags =>
        (settings.synonyms Settings.paramsGroup).toOption.bind fun titles =>
          (m.documentedReturns settings tags).toOption.map fun returns =>
            { m.withDocblock docblock with
              params := m.params.map (Param.document (tags.select titles))
              returns := returns
              tags := tags.without settings.allSynonyms } := by
  have hread : (m.withDocblock docblock).readTags.toOption =
      (Comment.tags? true (unwrap docblock)).map TagGroups.ofTags := by
    have htext : (m.withDocblock docblock).readTags =
        Fault.ofTag (ComponentDocs.readTags true (unwrap docblock)) := rfl
    rw [htext, ComponentDocs.readTags, Comment.tags?]
    cases Comment.read true (unwrap docblock) <;> rfl
  rw [normalize, toOption_bind, hread]
  refine Option.bind_congr fun tags _ => ?_
  rw [toOption_bind]
  refine Option.bind_congr fun titles _ => ?_
  have hreturns : documentedReturns settings tags (m.withDocblock docblock) =
      m.documentedReturns settings tags := rfl
  rw [toOption_bind, hreturns]
  cases m.documentedReturns settings tags <;> rfl

/-- A text says the same of a method when it stands in a block comment, unless it looks like one
itself. -/
theorem Method.withDocblock_wrap {text : String}
    (h : ¬ ['/', '*'].isPrefixOf (trimLeft text.toList)) (m : Method) :
    (m.withDocblock (wrap text)).isPublic = (m.withDocblock text).isPublic ∧
      ∀ settings, ((m.withDocblock (wrap text)).normalize settings).toOption =
        ((m.withDocblock text).normalize settings).toOption.map (·.withDocblock (wrap text)) := by
  have hplain : unwrap text = text := by
    rw [unwrap, unwrapChars_of_not_block h, String.ofList_toList]
  constructor
  · have hset := isSet_readDoclets_unwrap_wrap text Doclets.publicName
    change (readDoclets (unwrap (wrap text))).isPublic = (readDoclets (unwrap text)).isPublic
    rw [hplain]
    exact hset
  · intro settings
    rw [Method.toOption_normalize, Method.toOption_normalize, Comment.tags?_unwrap_wrap, hplain]
    simp only [Option.map_bind, Option.map_map, Function.comp_def]
    rfl

/-- A comment with a bullet, a closing delimiter in its text, code and a tag of several lines. -/
def bulletComment : String :=
  "\n* Focus, as in \x60*/\x60.\n\n  \x60\x60\x60\n  @a\n  \x60\x60\x60\n@public" ++
    "\n@param \x7bboolean\x7d [select=false] Select\n  the text"

def focusMethod : Method :=
  ⟨"focus", none, [⟨"select", none, none, none, Dict.empty⟩], none, [], Dict.empty, none,
    Dict.empty⟩

theorem Method.withDocblock_wrap_bulletComment :
    ¬ ['/', '*'].isPrefixOf (trimLeft bulletComment.toList) ∧
      (focusMethod.withDocblock (wrap bulletComment)).isPublic ∧
      ((focusMethod.withDocblock (wrap bulletComment)).normalize Settings.default).toOption =
        some { focusMethod with
          docblock := some (wrap bulletComment)
          params := [⟨"select", some ⟨"boolean", Dict.empty⟩, some "Select\n  the text",
            some "false", Dict.empty⟩]
          tags := TagGroups.ofTags [⟨"public", "", none, none, none⟩] } := by
  have hplain : ¬ ['/', '*'].isPrefixOf (trimLeft bulletComment.toList) := by decide +kernel
  obtain ⟨hpublic, hnormal⟩ := Method.withDocblock_wrap hplain focusMethod
  refine ⟨hplain, ?_, ?_⟩
  · rw [hpublic]
    decide +kernel
  · have htags : Comment.tags? true (unwrap bulletComment) = some
        [⟨"public", "", none, none, none⟩,
          ⟨"param", "Select\n  the text", some "select", some "boolean", some "false"⟩] := by
      decide +kernel
    rw [hnormal, Method.toOption_normalize, htags]
    rfl

end ComponentDocs
