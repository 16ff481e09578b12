import ComponentDocs.Fence.Mark
import ComponentDocs.Proofs.Text.Trim

/-!
# The state between fence marks

Whether a line stands inside code depends on the marks above it only. The marks of a line are not
changed by white space around it.
-/

namespace ComponentDocs

open Text

/-- Whether the text after some lines stands inside code. -/
def fenceAfter (inside : Bool) (lines : List (List Char)) : Bool :=
  lines.foldl (fun inside line => inside != hasFenceMark line) inside

@[simp] theorem fenceAfter_nil (inside : Bool) : fenceAfter inside [] = inside := rfl

@[simp] theorem fenceAfter_cons (inside : Bool) (line : List Char) (rest : List (List Char)) :
    fenceAfter inside (line :: rest) = fenceAfter (inside != hasFenceMark line) rest := rfl

theorem mod_two_add (m n : Nat) :
    ((m + n) % 2 == 1) = ((m % 2 == 1) != (n % 2 == 1)) := by
  rcases Nat.mod_two_eq_zero_or_one m with hm | hm
  · rcases Nat.mod_two_eq_zero_or_one n with hn | hn <;> rw [Nat.add_mod, hm, hn] <;> rfl
  · rcases Nat.mod_two_eq_zero_or_one n with hn | hn <;> rw [Nat.add_mod, hm, hn] <;> rfl

-- After an even number of marks the state is what it was.
theorem fenceAfter_eq (inside : Bool) (lines : List (List Char)) :
    fenceAfter inside lines = (inside != (lines.countP hasFenceMark % 2 == 1)) := by
  induction lines generalizing inside with
  | nil => cases inside <;> rfl
  | cons line rest ih =>
    rw [fenceAfter_cons, ih, List.countP_cons, mod_two_add]
    cases hasFenceMark line with
    | false => simp
    | true => simp

-- Lines change both states or neither.
theorem fenceAfter_bne (inside other : Bool) (lines : List (List Char)) :
    fenceAfter (inside != other) lines = (fenceAfter inside lines != other) := by
  rw [fenceAfter_eq, fenceAfter_eq]
  cases inside <;> cases other <;> simp

theorem hasFenceMark_iff {line : List Char} :
    hasFenceMark line ↔ ∃ rest, trimLeft line = fenceMark ++ rest := by
  rw [hasFenceMark, List.isPrefixOf_iff_prefix]
  exact exists_congr fun rest => eq_comm

theorem hasFenceMark_blank_append {front : List Char} (h : ∀ c ∈ front, isBlank c)
    (line : List Char) : hasFenceMark (front ++ line) = hasFenceMark line := by
  rw [hasFenceMark, trimLeft_append_of_blank h, hasFenceMark]

theorem hasFenceMark_of_blank {line : List Char} (h : ∀ c ∈ line, isBlank c) :
    hasFenceMark line = false := by
  rw [hasFenceMark, trimLeft_eq_nil_iff.2 h]
  rfl

-- White space after a text does not complete a fence mark at its front.
theorem isPrefixOf_fenceMark_append {back : List Char} (h : ∀ c ∈ back.head?, isBlank c)
    (s : List Char) : fenceMark.isPrefixOf (s ++ back) = fenceMark.isPrefixOf s := by
  have hback : ∀ c r, back = c :: r → ('\x60' == c) = false := by
    rintro c r rfl
    rw [beq_eq_false_iff_ne]
    rintro rfl
    exact absurd (h _ rfl) (by decide)
  match s with
  | [] | [_] | [_, _] =>
    cases back with
    | nil => rfl
    | cons c r =>
      have := hback c r rfl
      simp [fenceMark, List.isPrefixOf, this]
  | a :: b :: c :: r => simp [fenceMark, List.isPrefixOf]

-- What follows white space behind a visible line does not change its mark.
theorem hasFenceMark_append_of_visible {line back : List Char} (hline : trimLeft line ≠ [])
    (hback : ∀ c ∈ back.head?, isBlank c) : hasFenceMark (line ++ back) = hasFenceMark line := by
  rw [hasFenceMark, trimLeft_append_of_ne_nil hline, isPrefixOf_fenceMark_append hback,
    hasFenceMark]

theorem hasFenceMark_append_blank {back : List Char} (h : ∀ c ∈ back, isBlank c)
    (line : List Char) : hasFenceMark (line ++ back) = hasFenceMark line := by
  by_cases hline : trimLeft line = []
  · have hblank := trimLeft_eq_nil_iff.1 hline
    rw [hasFenceMark_of_blank (List.forall_mem_append.2 ⟨hblank, h⟩), hasFenceMark_of_blank hblank]
  · exact hasFenceMark_append_of_visible hline fun c hc => h c (List.mem_of_mem_head? hc)

end ComponentDocs
