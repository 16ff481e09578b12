import ComponentDocs.Proofs.Log
import ComponentDocs.Proofs.Tag.Comment
import ComponentDocs.Proofs.Tag.TypeExpression

/-!
# Which comments are read
-/

namespace ComponentDocs

open Text

/-! ## Names -/

theorem isName_singleton {c : Char} (h : isNameChar c) : isName [c] := by
  rw [isName, takeName?, if_pos h]
  rfl

-- A text begins with a name when it begins with a character of names.
theorem exists_takeName?_iff {text : List Char} :
    (∃ found, takeName? text = some found) ↔ ∃ name, isName name ∧ name <+: text := by
  cases text with
  | nil =>
    refine iff_of_false (by simp [takeName?]) ?_
    rintro ⟨name, hname, hfront⟩
    rw [List.prefix_nil.1 hfront] at hname
    cases hname
  | cons c rest =>
    by_cases hc : isNameChar c
    · refine iff_of_true ?_ ⟨[c], isName_singleton hc, ⟨rest, rfl⟩⟩
      rw [takeName?, if_pos hc]
      dsimp only
      split <;> exact ⟨_, rfl⟩
    · refine iff_of_false (by simp [takeName?, hc]) ?_
      rintro ⟨name, hname, tail, htail⟩
      obtain ⟨d, run, rfl, hd⟩ := exists_cons_of_isName hname
      rw [(List.cons.inj htail).1] at hd
      exact hc hd

/-- A name stands at the front of a text, white space apart; or, in sloppy mode, brackets in which
a name stands before the first equals sign. -/
def HasName (sloppy : Bool) (text : List Char) : Prop :=
  (∃ name, isName name ∧ name <+: trimLeft text) ∨
    sloppy ∧ ∃ inner after, trimLeft text = '[' :: inner ++ ']' :: after ∧ ']' ∉ inner ∧
      isName (trim (inner.takeWhile (· != '=')))

-- In sloppy mode the brackets end at the first closing one, and what they hold decides.
theorem exists_readName_iff_of_bracket {title : String} {text rest : List Char}
    (htext : trimLeft text = '[' :: rest) :
    (∃ found, readName title true text = .ok found) ↔
      ∃ inner after, rest = inner ++ ']' :: after ∧ ']' ∉ inner ∧
        isName (trim (inner.takeWhile (· != '='))) := by
  by_cases hclosed : ']' ∈ rest
  · obtain ⟨inner, after, rfl, hinner⟩ := List.eq_append_cons_of_mem hclosed
    rw [readName_of_brackets title hinner htext, List.span_eq_takeWhile_dropWhile]
    constructor
    · intro h
      refine ⟨inner, after, rfl, hinner, ?_⟩
      by_contra hname
      rw [if_neg hname] at h
      obtain ⟨_, h⟩ := h
      cases h
    · rintro ⟨inner', after', hsplit, hinner', hname⟩
      -- the first closing bracket is in one place only
      have hspan := span_ne_append hinner' after'
      rw [← hsplit, span_ne_append hinner] at hspan
      rw [← (Prod.mk.inj hspan).1] at hname
      rw [if_pos hname]
      exact ⟨_, rfl⟩
  · have hread : readName title true text = .error ⟨.unclosedBracket title, '[' :: rest⟩ := by
      simp only [readName, htext, Bool.not_true, Bool.false_eq_true, if_false,
        span_ne_of_not_mem hclosed]
    rw [hread]
    refine iff_of_false (by simp) ?_
    rintro ⟨inner, after, rfl, -⟩
    exact hclosed (List.mem_append_right _ List.mem_cons_self)

theorem exists_readName_iff {title : String} {sloppy : Bool} {text : List Char} :
    (∃ found, readName title sloppy text = .ok found) ↔ HasName sloppy text := by
  by_cases hbracket : ∃ rest, trimLeft text = '[' :: rest
  · obtain ⟨rest, htext⟩ := hbracket
    have hname : ¬ ∃ name, isName name ∧ name <+: '[' :: rest := by
      rw [← exists_takeName?_iff, takeName?, if_neg (by decide)]
      simp
    rw [HasName, htext, or_iff_right hname]
    cases sloppy with
    | false => simp [readName, htext]
    | true =>
      rw [exists_readName_iff_of_bracket htext]
      simp only [true_and, List.cons_append, List.cons.injEq]
  · have hnone : ¬ (sloppy = true ∧ ∃ inner after, trimLeft text = '[' :: inner ++ ']' :: after ∧
        ']' ∉ inner ∧ isName (trim (inner.takeWhile (· != '=')))) := by
      rintro ⟨-, inner, after, htext, -⟩
      exact hbracket ⟨_, htext⟩
    rw [HasName, or_iff_left hnone, ← exists_takeName?_iff, readName]
    split
    · rename_i rest htext
      exact absurd ⟨rest, htext⟩ hbracket
    · cases takeName? (trimLeft text) with
      | none => simp
      | some found => exact iff_of_true ⟨_, rfl⟩ ⟨_, rfl⟩

/-! ## Tags -/

/-- Whether a tag can be read: an example and a tag of text always, a tag of a result when the
braces at the front of its text close, and a tag of a parameter when a name follows its type. -/
def TagAccepted (sloppy : Bool) (title : String) (text : List Char) : Prop :=
  match TagForm.ofTitle title with
  | .verbatim => True
  | .parameter => TypeCloses text ∧ ∃ rest, FollowsType text rest ∧ HasName sloppy rest
  | .result => TypeCloses text
  | .plain => True

theorem exists_tagOfLines_iff {sloppy : Bool} {title : String} {first : List Char}
    {body : List (List Char)} :
    (∃ tag, tagOfLines sloppy title first body = .ok tag) ↔
      TagAccepted sloppy title (unlines (first :: body)) := by
  unfold tagOfLines TagAccepted
  cases TagForm.ofTitle title with
  | verbatim => exact iff_of_true ⟨_, rfl⟩ trivial
  | plain => exact iff_of_true ⟨_, rfl⟩ trivial
  | result =>
    simp only [bind_eq_ok_iff, ← exists_takeType_iff]
    constructor
    · rintro ⟨_, found, htype, -⟩
      exact ⟨found, htype⟩
    · rintro ⟨found, htype⟩
      exact ⟨_, found, htype, rfl⟩
  | parameter =>
    simp only [bind_eq_ok_iff, ← exists_takeType_iff, ← @exists_readName_iff title]
    constructor
    · rintro ⟨_, ⟨type, rest⟩, htype, found, hname, -⟩
      exact ⟨⟨_, htype⟩, rest, followsType_of_takeType htype, found, hname⟩
    · rintro ⟨⟨⟨type, rest⟩, htype⟩, rest', hrest, found, hname⟩
      obtain rfl := hrest.unique (followsType_of_takeType htype)
      exact ⟨_, (type, rest'), htype, found, hname, rfl⟩

end ComponentDocs
