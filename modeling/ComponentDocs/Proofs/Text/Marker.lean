import ComponentDocs.Proofs.Text.Trim
import ComponentDocs.Text.Marker

/-!
# Where markers end

A marker is an at sign, a word, and a rest that does not go on with the word: `marker?_eq_some_iff`.
-/

namespace ComponentDocs.Text

theorem not_isWord_of_range {c : Char} (low length : Nat)
    (hrange : ∀ n ∈ List.range' low length, isWord (Char.ofNat n) = false)
    (hlow : low ≤ c.toNat) (hhigh : c.toNat < low + length) : isWord c = false := by
  have hc := hrange c.toNat (List.mem_range'_1.2 ⟨hlow, hhigh⟩)
  rwa [Char.ofNat_toNat] at hc

-- White space ends a word.
theorem not_isWord_of_isBlank {c : Char} (h : isBlank c) : isWord c = false := by
  simp only [isBlank, Bool.or_eq_true, Bool.and_eq_true, decide_eq_true_eq, beq_iff_eq] at h
  rcases h with (((((((((h | h) | h) | h) | h) | h) | h) | h) | h) | h) | h
  · exact not_isWord_of_range 9 5 (by decide +kernel) h.1 (by omega)
  · exact not_isWord_of_range 28 5 (by decide +kernel) h.1 (by omega)
  · exact not_isWord_of_range 0x85 1 (by decide +kernel) (by omega) (by omega)
  · exact not_isWord_of_range 0xA0 1 (by decide +kernel) (by omega) (by omega)
  · exact not_isWord_of_range 0x1680 1 (by decide +kernel) (by omega) (by omega)
  · exact not_isWord_of_range 0x2000 11 (by decide +kernel) h.1 (by omega)
  · exact not_isWord_of_range 0x2028 1 (by decide +kernel) (by omega) (by omega)
  · exact not_isWord_of_range 0x2029 1 (by decide +kernel) (by omega) (by omega)
  · exact not_isWord_of_range 0x202F 1 (by decide +kernel) (by omega) (by omega)
  · exact not_isWord_of_range 0x205F 1 (by decide +kernel) (by omega) (by omega)
  · exact not_isWord_of_range 0x3000 1 (by decide +kernel) (by omega) (by omega)

theorem ne_newline_of_isWord {c : Char} (h : isWord c) : c ≠ '\n' := by
  rintro rfl
  exact absurd h (by decide)

theorem newline_not_mem_of_isWord {word : List Char} (h : ∀ c ∈ word, isWord c) : '\n' ∉ word :=
  fun hmem => ne_newline_of_isWord (h _ hmem) rfl

theorem takeWord_append {word rest : List Char} (hword : ∀ c ∈ word, isWord c)
    (hrest : ∀ c ∈ rest.head?, isWord c = false) : takeWord (word ++ rest) = (word, rest) := by
  have hdrop : rest.dropWhile isWord = rest ∧ rest.takeWhile isWord = [] := by
    cases rest with
    | nil => exact ⟨rfl, rfl⟩
    | cons c r =>
      have hc := hrest c rfl
      simp [hc]
  rw [takeWord, List.takeWhile_append_of_pos hword, List.dropWhile_append_of_pos hword, hdrop.1,
    hdrop.2, List.append_nil]

theorem marker?_eq_some_iff {s word rest : List Char} :
    marker? s = some (word, rest) ↔
      s = '@' :: word ++ rest ∧ word ≠ [] ∧ (∀ c ∈ word, isWord c) ∧
        ∀ c ∈ rest.head?, isWord c = false := by
  constructor
  · intro h
    refine ⟨eq_of_marker? h, ne_nil_of_marker? h, ?_⟩
    unfold marker? at h
    split at h
    · rename_i s'
      split at h
      · simp at h
      · simp only [Option.some.injEq, takeWord, Prod.mk.injEq] at h
        obtain ⟨rfl, rfl⟩ := h
        refine ⟨fun c hc => List.mem_takeWhile_imp hc, fun c hc => ?_⟩
        have hhead := List.head?_dropWhile_not isWord s'
        rw [Option.mem_def.1 hc] at hhead
        exact hhead
    · simp at h
  · rintro ⟨rfl, hne, hword, hrest⟩
    rw [List.cons_append, marker?, takeWord_append hword hrest]
    cases word with
    | nil => exact absurd rfl hne
    | cons c w => rfl

-- Text after a marker leaves it a marker; white space leaves it its word, too.
theorem marker?_append_blank {s word rest back : List Char} (h : marker? s = some (word, rest))
    (hback : ∀ c ∈ back.head?, isBlank c) : marker? (s ++ back) = some (word, rest ++ back) := by
  obtain ⟨rfl, hne, hword, hrest⟩ := marker?_eq_some_iff.1 h
  refine marker?_eq_some_iff.2 ⟨List.append_assoc .., hne, hword, ?_⟩
  cases rest with
  | nil => exact fun c hc => not_isWord_of_isBlank (hback c hc)
  | cons d r => exact hrest

theorem marker?_isSome_append {s : List Char} (h : (marker? s).isSome) (back : List Char) :
    (marker? (s ++ back)).isSome := by
  obtain ⟨⟨word, rest⟩, hs⟩ := Option.isSome_iff_exists.1 h
  obtain ⟨rfl, hne, hword, -⟩ := marker?_eq_some_iff.1 hs
  obtain ⟨c, w, rfl⟩ := List.exists_cons_of_ne_nil hne
  have hc : isWord c := hword c List.mem_cons_self
  simp [marker?, takeWord, hc]

end ComponentDocs.Text
