import ComponentDocs.Proofs.Text.Trim

/-!
# Words between spaces

Words that are joined with single spaces are found again: `words_unwords`.
-/

namespace ComponentDocs.Text

/-- Words with single spaces between them. -/
def unwords : List (List Char) → List Char
  | [] => []
  | [word] => word
  | word :: others => word ++ ' ' :: unwords others

/-- A run of characters that are not white space. -/
def IsRun (word : List Char) : Prop :=
  word ≠ [] ∧ ∀ c ∈ word, ¬ isBlank c

theorem unwords_cons {word : List Char} {others : List (List Char)} (h : others ≠ []) :
    unwords (word :: others) = word ++ ' ' :: unwords others := by
  cases others with
  | nil => exact absurd rfl h
  | cons w ws => rfl

theorem words_cons_of_blank {c : Char} (h : isBlank c) (rest : List Char) :
    words (c :: rest) = words rest := by
  rw [words, if_pos h]

-- A run goes up to the first white space.
theorem words_append {word rest : List Char} (h : IsRun word)
    (hrest : ∀ c ∈ rest.head?, isBlank c) : words (word ++ rest) = word :: words rest := by
  obtain ⟨hne, hword⟩ := h
  induction word with
  | nil => exact absurd rfl hne
  | cons c others ih =>
    obtain ⟨hc, hothers⟩ := List.forall_mem_cons.1 hword
    rw [List.cons_append, words, if_neg hc]
    cases others with
    | nil =>
      have hhead : ¬ rest.head?.any (!isBlank ·) := by
        cases rest with
        | nil => exact Bool.false_ne_true
        | cons b _ => simp [hrest b rfl]
      rw [List.nil_append, if_neg hhead]
    | cons d r =>
      have hd : ¬ isBlank d := hothers d List.mem_cons_self
      rw [if_pos (by simp [hd]), ih (List.cons_ne_nil d r) hothers]

/-- Cutting at white space undoes joining. -/
theorem words_unwords {ws : List (List Char)} (h : ∀ w ∈ ws, IsRun w) :
    words (unwords ws) = ws := by
  induction ws with
  | nil => rfl
  | cons word others ih =>
    obtain ⟨hword, hothers⟩ := List.forall_mem_cons.1 h
    cases others with
    | nil =>
      have hend : words (word ++ []) = word :: words [] :=
        words_append hword fun c hc => absurd hc (by simp)
      rwa [List.append_nil] at hend
    | cons w ws =>
      have hspace : ∀ c ∈ (' ' :: unwords (w :: ws)).head?, isBlank c := by
        intro c hc
        obtain rfl := Option.some.inj hc
        rfl
      rw [unwords_cons (List.cons_ne_nil w ws), words_append hword hspace,
        words_cons_of_blank (by decide), ih hothers]

theorem mem_unwords {ws : List (List Char)} {c : Char} (h : c ∈ unwords ws) :
    c = ' ' ∨ ∃ w ∈ ws, c ∈ w := by
  induction ws with
  | nil => exact absurd h List.not_mem_nil
  | cons word others ih =>
    cases others with
    | nil => exact .inr ⟨word, List.mem_cons_self, h⟩
    | cons w ws =>
      rw [unwords_cons (List.cons_ne_nil w ws), List.mem_append, List.mem_cons] at h
      rcases h with hword | rfl | hothers
      · exact .inr ⟨word, List.mem_cons_self, hword⟩
      · exact .inl rfl
      · rcases ih hothers with hspace | ⟨w', hw', hc⟩
        · exact .inl hspace
        · exact .inr ⟨w', List.mem_cons_of_mem word hw', hc⟩

theorem unwords_ne_nil {word : List Char} (h : word ≠ []) (others : List (List Char)) :
    unwords (word :: others) ≠ [] := by
  cases others with
  | nil => exact h
  | cons w ws => simp [unwords_cons]

theorem head?_unwords {word : List Char} (h : word ≠ []) (others : List (List Char)) :
    (unwords (word :: others)).head? = word.head? := by
  obtain ⟨c, rest, rfl⟩ := List.exists_cons_of_ne_nil h
  cases others <;> rfl

theorem trim_unwords {ws : List (List Char)} (h : ∀ w ∈ ws, IsRun w) :
    trim (unwords ws) = unwords ws := by
  rw [trim_eq_self_iff_ends]
  constructor
  · cases ws with
    | nil => exact fun c hc => absurd hc (by simp [unwords])
    | cons word others =>
      obtain ⟨hne, hword⟩ := h word List.mem_cons_self
      rw [head?_unwords hne]
      exact fun c hc => hword c (List.mem_of_mem_head? hc)
  · induction ws with
    | nil => exact fun c hc => absurd hc (by simp [unwords])
    | cons word others ih =>
      obtain ⟨⟨hne, hword⟩, hothers⟩ := List.forall_mem_cons.1 h
      cases others with
      | nil => exact fun c hc => hword c (List.mem_of_mem_getLast? hc)
      | cons w ws =>
        have hrest : unwords (w :: ws) ≠ [] := unwords_ne_nil (hothers w List.mem_cons_self).1 ws
        rw [unwords_cons (List.cons_ne_nil w ws), ← List.singleton_append, ← List.append_assoc,
          List.getLast?_append_of_ne_nil _ hrest]
        exact ih hothers

end ComponentDocs.Text
