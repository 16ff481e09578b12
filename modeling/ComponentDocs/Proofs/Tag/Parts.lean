import ComponentDocs.Proofs.Tag.Braces
import ComponentDocs.Proofs.Text.Marker
import ComponentDocs.Tag.Comment
import Mathlib.Data.List.Infix

/-!
# The parts of a tag

What is read at the front of the text of a tag when a type, a name with or without a default, or a
description stands there: `takeType_of_balanced`, `readName_of_isName`, `readName_of_default` and
`cleanText_of_dash`.
-/

namespace ComponentDocs

open Text

/-! ## Types -/

/-- Every front part of a text opens as many braces as it closes, or more, and the whole text closes
all that it opens. -/
structure Balanced (text : List Char) : Prop where
  front : ∀ front ∈ text.inits, front.count '\x7d' ≤ front.count '\x7b'
  all : text.count '\x7d' = text.count '\x7b'

instance (text : List Char) : Decidable (Balanced text) :=
  decidable_of_iff ((∀ front ∈ text.inits, front.count '\x7d' ≤ front.count '\x7b') ∧
    text.count '\x7d' = text.count '\x7b') ⟨fun h => ⟨h.1, h.2⟩, fun h => ⟨h.1, h.2⟩⟩

/-- A balanced type between braces is read as it is written. -/
theorem takeType_of_balanced {text type after : List Char} (h : Balanced type)
    (htrim : trim type = type) (htext : trimLeft text = '\x7b' :: type ++ '\x7d' :: after) :
    takeType text = .ok (some type, after) := by
  have hsplit : splitClosing 0 (type ++ '\x7d' :: after) = some (type, after) := by
    apply splitClosing_append
    · intro front hfront
      rw [Nat.zero_add]
      exact h.front front ((List.mem_inits front type).2 hfront)
    · rw [Nat.zero_add]
      exact h.all
  rw [takeType, htext, List.cons_append]
  simp only [hsplit, htrim]

-- Without a brace at its front a text has no type.
theorem takeType_of_head? {text : List Char} (h : ∀ c ∈ (trimLeft text).head?, c ≠ '\x7b') :
    takeType text = .ok (none, trimLeft text) := by
  rw [takeType]
  split
  · rename_i rest hrest
    rw [hrest] at h
    exact absurd rfl (h _ rfl)
  · rfl

/-! ## Names -/

theorem eq_of_takeDotted {inside : Bool} {s dotted after : List Char}
    (h : takeDotted inside s = (dotted, after)) : s = dotted ++ after := by
  induction s generalizing inside dotted with
  | nil =>
    obtain ⟨rfl, rfl⟩ := Prod.mk.inj h
    rfl
  | cons c rest ih =>
    rw [takeDotted] at h
    split at h
    · obtain ⟨rfl, rfl⟩ := Prod.mk.inj h
      exact congrArg (c :: ·) (ih rfl)
    · obtain ⟨rfl, rfl⟩ := Prod.mk.inj h
      rfl

theorem mem_of_takeDotted {inside : Bool} {s dotted after : List Char}
    (h : takeDotted inside s = (dotted, after)) : ∀ c ∈ dotted, isNameChar c || c == '.' := by
  induction s generalizing inside dotted with
  | nil =>
    obtain ⟨rfl, -⟩ := Prod.mk.inj h
    exact fun c hc => absurd hc List.not_mem_nil
  | cons d rest ih =>
    rw [takeDotted] at h
    split at h
    · rename_i hgo
      obtain ⟨rfl, rfl⟩ := Prod.mk.inj h
      rw [List.forall_mem_cons]
      refine ⟨?_, ih rfl⟩
      simp only [Bool.or_eq_true, Bool.and_eq_true] at hgo ⊢
      rcases hgo with hgo | hgo
      · exact .inl hgo.2
      · exact .inr hgo.1
    · obtain ⟨rfl, -⟩ := Prod.mk.inj h
      exact fun c hc => absurd hc List.not_mem_nil

/-- A character with which no name goes on. -/
def EndsName (c : Char) : Prop :=
  isNameChar c = false ∧ c ≠ '.' ∧ c ≠ '['

-- What follows a run that does not go on in it stays behind it.
theorem takeDotted_append {inside : Bool} {s dotted after rest : List Char}
    (h : takeDotted inside s = (dotted, after)) (hrest : ∀ c ∈ rest.head?, EndsName c) :
    takeDotted inside (s ++ rest) = (dotted, after ++ rest) := by
  induction s generalizing inside dotted with
  | nil =>
    obtain ⟨rfl, rfl⟩ := Prod.mk.inj h
    cases rest with
    | nil => rfl
    | cons c r =>
      obtain ⟨hc, hdot, -⟩ := hrest c rfl
      simp [takeDotted, hc, hdot]
  | cons c t ih =>
    -- a dot at the end of the text is no part of the run, so what follows cannot make it one
    have hgo : ((inside && isNameChar c) || (c == '.' && (t ++ rest).head?.any isNameChar)) =
        ((inside && isNameChar c) || (c == '.' && t.head?.any isNameChar)) := by
      cases t with
      | nil =>
        cases rest with
        | nil => rfl
        | cons d r => simp [(hrest d rfl).1]
      | cons d r => rfl
    rw [takeDotted] at h
    rw [List.cons_append, takeDotted, hgo]
    split at h
    · rename_i htrue
      obtain ⟨rfl, rfl⟩ := Prod.mk.inj h
      rw [if_pos htrue, ih rfl]
    · rename_i hfalse
      obtain ⟨rfl, rfl⟩ := Prod.mk.inj h
      rw [if_neg hfalse]
      rfl

theorem span_append {p : Char → Bool} {run rest : List Char} (hrun : ∀ c ∈ run, p c)
    (hrest : ∀ c ∈ rest.head?, p c = false) : (run ++ rest).span p = (run, rest) := by
  rw [List.span_eq_takeWhile_dropWhile, List.takeWhile_append_of_pos hrun,
    List.dropWhile_append_of_pos hrun]
  cases rest with
  | nil => simp
  | cons c r => simp [hrest c rfl]

theorem exists_span (p : Char → Bool) (s : List Char) :
    ∃ run rest, s.span p = (run, rest) ∧ s = run ++ rest ∧ ∀ c ∈ run, p c :=
  ⟨s.takeWhile p, s.dropWhile p, List.span_eq_takeWhile_dropWhile p s,
    List.takeWhile_append_dropWhile.symm, fun _ hc => List.mem_takeWhile_imp hc⟩

theorem span_append_of_head? {p : Char → Bool} {back : List Char}
    (h : ∀ c ∈ back.head?, p c = false) (text : List Char) :
    (text ++ back).span p = ((text.span p).1, (text.span p).2 ++ back) := by
  induction text with
  | nil => exact span_append (fun c hc => absurd hc List.not_mem_nil) h
  | cons c rest ih =>
    rw [List.span_eq_takeWhile_dropWhile, List.span_eq_takeWhile_dropWhile] at ih ⊢
    obtain ⟨htake, hdrop⟩ := Prod.mk.inj ih
    by_cases hc : p c
    · rw [List.cons_append, List.takeWhile_cons_of_pos hc, List.dropWhile_cons_of_pos hc,
        List.takeWhile_cons_of_pos hc, List.dropWhile_cons_of_pos hc, htake, hdrop]
    · rw [List.cons_append, List.takeWhile_cons_of_neg hc, List.dropWhile_cons_of_neg hc,
        List.takeWhile_cons_of_neg hc, List.dropWhile_cons_of_neg hc, List.cons_append]

-- A text is cut at the first character of its kind, if it has one.
theorem span_ne_of_not_mem {c : Char} {s : List Char} (h : c ∉ s) :
    s.span (· != c) = (s, []) := by
  have hrun : ∀ d ∈ s, d != c := by
    intro d hd
    rw [bne_iff_ne]
    rintro rfl
    exact h hd
  have hend : ∀ d ∈ ([] : List Char).head?, (d != c) = false := by simp
  have hspan := span_append hrun hend
  rwa [List.append_nil] at hspan

theorem span_ne_append {c : Char} {s : List Char} (h : c ∉ s) (after : List Char) :
    (s ++ c :: after).span (· != c) = (s, c :: after) := by
  rw [span_append_of_head? (by simp), span_ne_of_not_mem h, List.nil_append]

theorem takeName?_of_brackets {c : Char} {rest run tail : List Char} (hc : isNameChar c)
    (hspan : rest.span (fun d => isNameChar d || d == '.') = (run, '[' :: ']' :: tail)) :
    takeName? (c :: rest) = some (c :: run ++ '[' :: ']' :: (takeDotted false tail).1,
      (takeDotted false tail).2) := by
  rw [takeName?, if_pos hc, hspan]
  rfl

theorem takeName?_of_not_brackets {c : Char} {rest run after : List Char} (hc : isNameChar c)
    (hspan : rest.span (fun d => isNameChar d || d == '.') = (run, after))
    (hafter : ∀ tail, after ≠ '[' :: ']' :: tail) :
    takeName? (c :: rest) = some (c :: run, after) := by
  rw [takeName?, if_pos hc, hspan]
  dsimp only
  split
  · exact absurd rfl (hafter _)
  · rfl

-- A name is a run of name characters and dots, and perhaps brackets with dotted names after
-- them.
theorem exists_of_isName {name : List Char} (h : isName name) :
    ∃ c run, isNameChar c ∧ (∀ d ∈ run, isNameChar d || d == '.') ∧
      (name = c :: run ∨ ∃ dotted, name = c :: run ++ '[' :: ']' :: dotted ∧
        takeDotted false dotted = (dotted, [])) := by
  cases name with
  | nil => cases h
  | cons c rest =>
    have hc : isNameChar c := by
      by_contra hc
      rw [isName, takeName?, if_neg hc] at h
      cases h
    obtain ⟨run, after, hspan, rfl, hrun⟩ := exists_span (fun d => isNameChar d || d == '.') rest
    refine ⟨c, run, hc, hrun, ?_⟩
    by_cases hbrackets : ∃ tail, after = '[' :: ']' :: tail
    · obtain ⟨tail, rfl⟩ := hbrackets
      rw [isName, takeName?_of_brackets hc hspan] at h
      have hlast : (takeDotted false tail).2 = [] := by
        cases hdotted : (takeDotted false tail).2 with
        | nil => rfl
        | cons d r => rw [hdotted] at h; cases h
      have htail : tail = (takeDotted false tail).1 := by
        have hspell : tail = (takeDotted false tail).1 ++ (takeDotted false tail).2 :=
          eq_of_takeDotted rfl
        rwa [hlast, List.append_nil] at hspell
      exact .inr ⟨tail, rfl, Prod.ext htail.symm hlast⟩
    · rw [isName, takeName?_of_not_brackets hc hspan fun tail htail => hbrackets ⟨tail, htail⟩] at h
      cases after with
      | nil => exact .inl (by rw [List.append_nil])
      | cons d r => cases h

-- A name is taken as a whole from the front of a text that does not go on with it.
theorem takeName?_append {name rest : List Char} (h : isName name)
    (hrest : ∀ c ∈ rest.head?, EndsName c) : takeName? (name ++ rest) = some (name, rest) := by
  obtain ⟨c, run, hc, hrun, rfl | ⟨dotted, rfl, hdotted⟩⟩ := exists_of_isName h
  · have hspan : (run ++ rest).span (fun d => isNameChar d || d == '.') = (run, rest) := by
      apply span_append hrun
      intro d hd
      obtain ⟨hname, hdot, -⟩ := hrest d hd
      simp [hname, hdot]
    refine takeName?_of_not_brackets hc hspan fun tail htail => ?_
    exact (hrest '[' (by rw [htail]; rfl)).2.2 rfl
  · have hspan : (run ++ '[' :: ']' :: (dotted ++ rest)).span
        (fun d => isNameChar d || d == '.') = (run, '[' :: ']' :: (dotted ++ rest)) := by
      apply span_append hrun
      intro d hd
      obtain rfl := Option.some.inj hd
      decide
    rw [List.append_assoc]
    refine (takeName?_of_brackets hc hspan).trans ?_
    rw [takeDotted_append hdotted hrest]
    rfl

-- A name without brackets has name characters and dots only.
theorem mem_of_isName {name : List Char} (h : isName name) (hbracket : '[' ∉ name) :
    ∀ d ∈ name, isNameChar d || d == '.' := by
  obtain ⟨c, run, hc, hrun, rfl | ⟨dotted, rfl, -⟩⟩ := exists_of_isName h
  · rw [List.forall_mem_cons]
    exact ⟨by rw [hc, Bool.true_or], hrun⟩
  · exact absurd (List.mem_append_right _ List.mem_cons_self) hbracket

theorem newline_not_mem_of_isName {name : List Char} (h : isName name) : '\n' ∉ name := by
  have hchar : ¬ (isNameChar '\n' || '\n' == '.') := by decide
  obtain ⟨c, run, hc, hrun, hname⟩ := exists_of_isName h
  have hfront : '\n' ∉ c :: run := by
    intro hmem
    rcases List.mem_cons.1 hmem with rfl | hmem
    · exact absurd hc (by decide)
    · exact hchar (hrun _ hmem)
  rcases hname with rfl | ⟨dotted, rfl, hdotted⟩
  · exact hfront
  · intro hmem
    rcases List.mem_append.1 hmem with hmem | hmem
    · exact hfront hmem
    · have hback : '\n' ∈ dotted := by simpa using hmem
      exact hchar (mem_of_takeDotted hdotted _ hback)

-- A name starts with a character that is neither white space nor a bracket nor a brace.
theorem exists_cons_of_isName {name : List Char} (h : isName name) :
    ∃ c rest, name = c :: rest ∧ isNameChar c := by
  obtain ⟨c, run, hc, -, rfl | ⟨dotted, rfl, -⟩⟩ := exists_of_isName h
  · exact ⟨c, run, rfl, hc⟩
  · exact ⟨c, run ++ '[' :: ']' :: dotted, rfl, hc⟩

theorem not_isBlank_of_isNameChar {c : Char} (h : isNameChar c || c == '.') : ¬ isBlank c := by
  intro hblank
  have hword : isWord c = false := not_isWord_of_isBlank hblank
  rw [isNameChar, hword, Bool.false_or, Bool.or_eq_true, beq_iff_eq, beq_iff_eq] at h
  rcases h with rfl | rfl <;> exact absurd hblank (by decide)

/-- A name at the front of a text is read. -/
theorem readName_of_isName {text name rest : List Char} (title : String) (sloppy : Bool)
    (h : isName name) (hrest : ∀ c ∈ rest.head?, EndsName c)
    (htext : trimLeft text = name ++ rest) :
    readName title sloppy text = .ok ⟨name, none, rest⟩ := by
  obtain ⟨c, r, hname, hc⟩ := exists_cons_of_isName h
  have hbracket : c ≠ '[' := by
    rintro rfl
    exact absurd hc (by decide)
  rw [readName, htext]
  split
  · rename_i hcons
    rw [hname] at hcons
    exact absurd (List.cons.inj hcons).1 hbracket
  · rw [takeName?_append h hrest]

-- What stands in brackets is cut at the first equals sign.
theorem readName_of_brackets {text inner after : List Char} (title : String) (hinner : ']' ∉ inner)
    (htext : trimLeft text = '[' :: inner ++ ']' :: after) :
    readName title true text =
      if isName (trim (inner.span (· != '=')).1) then
        .ok ⟨trim (inner.span (· != '=')).1,
          nonEmpty? (trim ((inner.span (· != '=')).2.drop 1)), after⟩
      else .error ⟨.invalidIdentifier title, inner⟩ := by
  rw [readName, htext, List.cons_append]
  simp only [Bool.not_true, Bool.false_eq_true, if_false, span_ne_append hinner after]

-- Characters of a name are neither trimmed nor cut at an equals sign.
theorem trim_of_nameChars {s : List Char} (h : ∀ d ∈ s, isNameChar d || d == '.') : trim s = s := by
  have hblank : ∀ d ∈ s, ¬ isBlank d := fun d hd => not_isBlank_of_isNameChar (h d hd)
  rw [trim_eq_self_iff_ends]
  exact ⟨fun d hd => hblank d (List.mem_of_mem_head? hd),
    fun d hd => hblank d (List.mem_of_mem_getLast? hd)⟩

theorem not_mem_of_nameChars {s : List Char} {c : Char} (h : ∀ d ∈ s, isNameChar d || d == '.')
    (hc : ¬ (isNameChar c || c == '.')) : c ∉ s :=
  fun hmem => hc (h c hmem)

/-- A name with a default between brackets is read in sloppy mode. -/
theorem readName_of_default {text name default rest : List Char} (title : String)
    (h : isName name) (hbracket : '[' ∉ name) (hne : default ≠ []) (htrim : trim default = default)
    (hclose : ']' ∉ default)
    (htext : trimLeft text = '[' :: (name ++ '=' :: default) ++ ']' :: rest) :
    readName title true text = .ok ⟨name, some default, rest⟩ := by
  have hchars := mem_of_isName h hbracket
  -- neither the name nor the default can end the brackets, and the name cannot end itself
  have hinner : ']' ∉ name ++ '=' :: default := by
    rw [List.mem_append, List.mem_cons, not_or, not_or]
    exact ⟨not_mem_of_nameChars hchars (by decide), by decide, hclose⟩
  have hassign := span_ne_append (not_mem_of_nameChars (c := '=') hchars (by decide)) default
  rw [readName_of_brackets title hinner htext, hassign, trim_of_nameChars hchars, if_pos h,
    List.drop_succ_cons, List.drop_zero, htrim, nonEmpty?, if_neg hne]

/-! ## Descriptions -/

/-- The dash in front of a description is dropped, and no other. -/
theorem cleanText_of_dash {text rest : List Char} (hne : text ≠ []) (htrim : trim text = text)
    (hrest : trimLeft rest = '-' :: ' ' :: text) : cleanText rest = text := by
  have hright := (trim_eq_self_iff.1 htrim).2
  have hdash : trim rest = '-' :: ' ' :: text := by
    rw [trim, hrest, trimRight_cons, trimRight_cons, hright]
    simp [hne]
  rw [cleanText, hdash]
  exact htrim

end ComponentDocs
