import ComponentDocs.Proofs.Tag.Margin

/-!
# Names between brackets

Brackets around the name of a parameter say that it may be left out, and nothing else about it. They
end at the first closing bracket, which in a name like `items[].key` is its own, so such a name is
no longer read: `Comment.read_bracketed`.
-/

namespace ComponentDocs

open Text

/-! ## Reading a name between brackets -/

theorem readName_of_bracketed {text name after : List Char} (title : String) (h : isName name)
    (hbracket : '[' ∉ name) (htext : trimLeft text = '[' :: name ++ ']' :: after) :
    readName title true text = .ok ⟨name, none, after⟩ := by
  have hchars := mem_of_isName h hbracket
  have hassign : '=' ∉ name := not_mem_of_nameChars hchars (by decide)
  have hclose : ']' ∉ name := not_mem_of_nameChars hchars (by decide)
  rw [readName_of_brackets title hclose htext, span_ne_of_not_mem hassign,
    trim_of_nameChars hchars, if_pos h]
  rfl

-- Up to the closing bracket of its own a name is none.
theorem isName_concat_bracket {c : Char} {run : List Char} (hc : isNameChar c)
    (hrun : ∀ d ∈ run, isNameChar d || d == '.') : isName (c :: run ++ ['[']) = false := by
  have hspan : (run ++ ['[']).span (fun d => isNameChar d || d == '.') = (run, ['[']) := by
    refine span_append hrun fun d hd => ?_
    obtain rfl := Option.some.inj hd
    decide
  rw [isName, List.cons_append, takeName?, if_pos hc, hspan]
  rfl

theorem readName_of_cut_name {text name after : List Char} (title : String) (h : isName name)
    (hbracket : '[' ∈ name) (htext : trimLeft text = '[' :: name ++ ']' :: after) :
    readName title true text =
      .error ⟨.invalidIdentifier title, name.takeWhile (· != ']')⟩ := by
  obtain ⟨c, run, hc, hrun, hname⟩ := exists_of_isName h
  have hchars : ∀ d ∈ c :: run, isNameChar d || d == '.' :=
    List.forall_mem_cons.2 ⟨by rw [hc, Bool.true_or], hrun⟩
  obtain rfl | ⟨dotted, rfl, -⟩ := hname
  · exact absurd hbracket (not_mem_of_nameChars hchars (by decide))
  · -- the brackets hold the name up to its own closing bracket
    have hclose : ']' ∉ c :: run ++ ['['] := by
      rw [List.mem_append, not_or]
      exact ⟨not_mem_of_nameChars hchars (by decide), by decide⟩
    have hassign : '=' ∉ c :: run ++ ['['] := by
      rw [List.mem_append, not_or]
      exact ⟨not_mem_of_nameChars hchars (by decide), by decide⟩
    have hinner : (c :: run ++ '[' :: ']' :: dotted).takeWhile (· != ']') = c :: run ++ ['['] := by
      have hspan := span_ne_append hclose dotted
      rw [List.span_eq_takeWhile_dropWhile, List.append_assoc] at hspan
      exact (Prod.mk.inj hspan).1
    have htrim : trim (c :: run ++ ['[']) = c :: run ++ ['['] := by
      rw [trim_eq_self_iff_ends]
      refine ⟨fun d hd => ?_, fun d hd => ?_⟩
      · obtain rfl := Option.some.inj hd
        exact not_isBlank_of_isNameChar (hchars _ List.mem_cons_self)
      · rw [List.getLast?_concat] at hd
        obtain rfl := Option.some.inj hd
        decide
    have htext' : trimLeft text =
        '[' :: (c :: run ++ ['[']) ++ ']' :: (dotted ++ ']' :: after) := by
      rw [htext]
      simp
    rw [readName_of_brackets title hclose htext', span_ne_of_not_mem hassign, htrim,
      isName_concat_bracket hc hrun, if_neg Bool.false_ne_true, hinner]

/-! ## Tags with a name between brackets -/

/-- A tag on one line: its title, what names the parameter, and a text. -/
def parameterTag (title name text : String) : String :=
  "@" ++ title ++ " " ++ name ++ " " ++ text

def bracketed (name : String) : String :=
  "[" ++ name ++ "]"

theorem ofTitle_of_mem_parameterTitles {title : String} (h : title ∈ parameterTitles) :
    TagForm.ofTitle title = .parameter := by
  revert title
  decide

theorem isWord_of_mem_parameterTitles {title : String} (h : title ∈ parameterTitles) :
    title.toList ≠ [] ∧ ∀ c ∈ title.toList, isWord c := by
  rw [← List.all_eq_true]
  revert title
  decide

-- Without a type, what follows the title on the only line of the tag begins with its name.
theorem Comment.read_parameterTag {title name text : String} {c : Char} {rest : List Char}
    (sloppy : Bool) (htitle : title ∈ parameterTitles) (hcons : name.toList = c :: rest)
    (hblank : ¬ isBlank c) (hbrace : c ≠ '\x7b') (hname : '\n' ∉ name.toList)
    (htext : '\n' ∉ text.toList) :
    Comment.read sloppy (parameterTag title name text) =
      match readName title sloppy (name.toList ++ ' ' :: text.toList) with
      | .ok found => .ok ⟨"", [⟨title, String.ofList (cleanText found.rest),
          some (String.ofList found.name), none, found.default.map String.ofList⟩]⟩
      | .error flaw => .error ⟨flaw.problem, 1, String.ofList flaw.text⟩ := by
  obtain ⟨hne, hword⟩ := isWord_of_mem_parameterTitles htitle
  have hline : (parameterTag title name text).toList =
      '@' :: title.toList ++ ' ' :: (name.toList ++ ' ' :: text.toList) := by
    simp [parameterTag]
  have hopens : OpensTag (parameterTag title name text).toList title.toList
      (' ' :: (name.toList ++ ' ' :: text.toList)) := by
    refine ⟨⟨[], fun c hc => absurd hc List.not_mem_nil, hline⟩, hne, hword, fun c hc => ?_⟩
    obtain rfl := Option.some.inj hc
    decide
  have hfree : TagFree false [] := trivial
  have hsegment := tagSegments_unlines hopens hfree (by
    rw [List.forall_mem_singleton, hline]
    simp [newline_not_mem_of_isWord hword, hname, htext])
  have htrim : trimLeft (' ' :: (name.toList ++ ' ' :: text.toList)) =
      name.toList ++ ' ' :: text.toList := by
    rw [trimLeft_cons_of_blank (by decide), hcons, List.cons_append,
      trimLeft_cons_of_not_blank hblank]
  have htype : takeType (unlines [' ' :: (name.toList ++ ' ' :: text.toList)]) =
      .ok (none, name.toList ++ ' ' :: text.toList) := by
    have hhead : ∀ d ∈ (trimLeft (' ' :: (name.toList ++ ' ' :: text.toList))).head?,
        d ≠ '\x7b' := by
      rw [htrim, hcons]
      exact fun d hd => Option.some.inj hd ▸ hbrace
    rw [unlines, takeType_of_head? hhead, htrim]
  rw [Comment.read_of_segment hsegment, TagSegment.read, String.ofList_toList, tagOfLines,
    ofTitle_of_mem_parameterTitles htitle]
  simp only [htype, bind, Except.bind]
  cases readName title sloppy (name.toList ++ ' ' :: text.toList) <;> rfl

/-- In sloppy mode a parameter whose name stands between brackets is read like one with the bare
name, without a default, unless the name has brackets of its own. Then it is cut at the closing one,
and what is left of it is no name. -/
theorem Comment.read_bracketed {title name text : String} (htitle : title ∈ parameterTitles)
    (hname : isName name.toList) (htext : '\n' ∉ text.toList) :
    Comment.read true (parameterTag title name text) =
        .ok ⟨"", [⟨title, String.ofList (cleanText text.toList), some name, none, none⟩]⟩ ∧
      (Comment.read true (parameterTag title (bracketed name) text) =
        Comment.read true (parameterTag title name text) ↔ '[' ∉ name.toList) ∧
      ('[' ∈ name.toList →
        Comment.read true (parameterTag title (bracketed name) text) =
          .error ⟨.invalidIdentifier title, 1,
            String.ofList (name.toList.takeWhile (· != ']'))⟩) := by
  obtain ⟨c, rest, hcons, hc⟩ := exists_cons_of_isName hname
  have hline := newline_not_mem_of_isName hname
  have hclean : cleanText (' ' :: text.toList) = cleanText text.toList := by
    rw [cleanText, trim_cons_of_blank (by decide), cleanText]
  have hends : ∀ d ∈ (' ' :: text.toList).head?, EndsName d := by
    intro d hd
    obtain rfl := Option.some.inj hd
    exact endsName_of_isBlank (by decide)
  have hbare : Comment.read true (parameterTag title name text) =
      .ok ⟨"", [⟨title, String.ofList (cleanText text.toList), some name, none, none⟩]⟩ := by
    have htrim : trimLeft (name.toList ++ ' ' :: text.toList) =
        name.toList ++ ' ' :: text.toList := by
      rw [hcons, List.cons_append, trimLeft_cons_of_not_blank]
      exact not_isBlank_of_isNameChar (by rw [hc, Bool.true_or])
    rw [Comment.read_parameterTag true htitle hcons
      (not_isBlank_of_isNameChar (by rw [hc, Bool.true_or]))
      (fun hbrace => absurd (hbrace ▸ hc) (by decide)) hline htext,
      readName_of_isName title true hname hends htrim]
    simp only [hclean, String.ofList_toList, Option.map_none]
  have hchars : (bracketed name).toList = '[' :: (name.toList ++ [']']) := by
    simp [bracketed]
  have hbrackets := Comment.read_parameterTag true htitle hchars (by decide) (by decide)
    (by simp [hchars, hline]) htext
  have htrim : trimLeft ((bracketed name).toList ++ ' ' :: text.toList) =
      '[' :: name.toList ++ ']' :: ' ' :: text.toList := by
    rw [hchars, List.cons_append, trimLeft_cons_of_not_blank (by decide), List.append_assoc]
    rfl
  refine ⟨hbare, ⟨fun heq hmem => ?_, fun hmem => ?_⟩, fun hmem => ?_⟩
  · rw [hbare, hbrackets, readName_of_cut_name title hname hmem htrim] at heq
    cases heq
  · rw [hbare, hbrackets, readName_of_bracketed title hname hmem htrim]
    simp only [hclean, String.ofList_toList, Option.map_none]
  · rw [hbrackets, readName_of_cut_name title hname hmem htrim]

/-- A name with dotted parts and a dollar sign is the same in brackets. -/
theorem Comment.read_bracketed_dotted :
    "arg" ∈ parameterTitles ∧ isName "$opts.size_2".toList ∧ '\n' ∉ "- The [size]".toList ∧
      Comment.read true "@arg [$opts.size_2] - The [size]" =
        .ok ⟨"", [⟨"arg", "The [size]", some "$opts.size_2", none, none⟩]⟩ := by
  have htitle : "arg" ∈ parameterTitles := by decide
  have hname : isName "$opts.size_2".toList := by decide +kernel
  have htext : '\n' ∉ "- The [size]".toList := by decide
  obtain ⟨hbare, hsame, -⟩ := Comment.read_bracketed htitle hname htext
  refine ⟨htitle, hname, htext, ?_⟩
  exact (hsame.2 (by decide)).trans hbare

/-- A name with brackets of its own is read without brackets around it only. -/
theorem Comment.read_bracketed_items :
    isName "items[]".toList ∧
      Comment.read true "@param items[] The items" =
        .ok ⟨"", [⟨"param", "The items", some "items[]", none, none⟩]⟩ ∧
      Comment.read true "@param [items[]] The items" =
        .error ⟨.invalidIdentifier "param", 1, "items["⟩ := by
  decide +kernel

end ComponentDocs
