import ComponentDocs.Text.Blank
import Mathlib.Data.List.DropRight
import Mathlib.Data.List.TakeWhile

/-!
# Trimming

Trimming takes white space off both ends and nothing else, so that a text is its trimmed core
between two blank margins: `exists_margins`.
-/

namespace ComponentDocs.Text

theorem trimLeft_append_of_blank {front : List Char} (h : ∀ c ∈ front, isBlank c) (s : List Char) :
    trimLeft (front ++ s) = trimLeft s :=
  List.dropWhile_append_of_pos h

theorem trimLeft_append_of_ne_nil {s : List Char} (h : trimLeft s ≠ []) (back : List Char) :
    trimLeft (s ++ back) = trimLeft s ++ back := by
  unfold trimLeft at h ⊢
  rw [List.dropWhile_append, if_neg (by simpa using h)]

theorem trimLeft_cons_of_blank {c : Char} (h : isBlank c) (s : List Char) :
    trimLeft (c :: s) = trimLeft s :=
  List.dropWhile_cons_of_pos h

theorem trimLeft_cons_of_not_blank {c : Char} (h : ¬ isBlank c) (s : List Char) :
    trimLeft (c :: s) = c :: s :=
  List.dropWhile_cons_of_neg h

theorem trimRight_trimRight (s : List Char) : trimRight (trimRight s) = trimRight s :=
  List.rdropWhile_idempotent isBlank s

theorem trimLeft_eq_nil_iff {s : List Char} : trimLeft s = [] ↔ ∀ c ∈ s, isBlank c :=
  List.dropWhile_eq_nil_iff

theorem trimLeft_append_eq_nil {s back : List Char} (hs : trimLeft s = [])
    (h : ∀ c ∈ back, isBlank c) : trimLeft (s ++ back) = [] :=
  trimLeft_eq_nil_iff.2 (List.forall_mem_append.2 ⟨trimLeft_eq_nil_iff.1 hs, h⟩)

theorem exists_margin_left (s : List Char) :
    ∃ front, s = front ++ trimLeft s ∧ ∀ c ∈ front, isBlank c :=
  ⟨s.takeWhile isBlank, (List.takeWhile_append_dropWhile).symm,
    fun _ hc => List.mem_takeWhile_imp hc⟩

theorem exists_margin_right (s : List Char) :
    ∃ back, s = trimRight s ++ back ∧ ∀ c ∈ back, isBlank c :=
  ⟨s.rtakeWhile isBlank, List.rdropWhile_append_rtakeWhile.symm,
    fun _ hc => List.mem_rtakeWhile_imp hc⟩

/-- A text is its trimmed core between two blank margins. -/
theorem exists_margins (s : List Char) :
    ∃ front back, s = front ++ trim s ++ back ∧
      (∀ c ∈ front, isBlank c) ∧ ∀ c ∈ back, isBlank c := by
  obtain ⟨front, hs, hfront⟩ := exists_margin_left s
  obtain ⟨back, hcore, hback⟩ := exists_margin_right (trimLeft s)
  refine ⟨front, back, ?_, hfront, hback⟩
  calc s = front ++ trimLeft s := hs
    _ = front ++ (trim s ++ back) := by rw [trim, ← hcore]
    _ = front ++ trim s ++ back := (List.append_assoc ..).symm

theorem trim_eq_nil_iff {s : List Char} : trim s = [] ↔ ∀ c ∈ s, isBlank c := by
  constructor
  · intro h
    obtain ⟨front, back, hs, hfront, hback⟩ := exists_margins s
    rw [hs, h, List.append_nil]
    exact List.forall_mem_append.2 ⟨hfront, hback⟩
  · intro h
    rw [trim, trimLeft_eq_nil_iff.2 h]
    rfl

theorem infix_trim (s : List Char) : trim s <:+: s := by
  obtain ⟨front, back, hs, -, -⟩ := exists_margins s
  exact ⟨front, back, hs.symm⟩

theorem trimRight_cons (c : Char) (s : List Char) :
    trimRight (c :: s) =
      if trimRight s = [] then (if isBlank c then [] else [c]) else c :: trimRight s := by
  unfold trimRight dropEndWhile
  rw [List.reverse_cons, List.dropWhile_append]
  by_cases h : s.reverse.dropWhile isBlank = []
  · by_cases hc : isBlank c <;> simp [h, hc]
  · simp [h]

theorem trimRight_cons_of_not_blank {c : Char} (hc : ¬ isBlank c) (s : List Char) :
    trimRight (c :: s) = c :: trimRight s := by
  rw [trimRight_cons, if_neg hc]
  split
  · rename_i hs
    rw [hs]
  · rfl

theorem trimLeft_trimRight (s : List Char) : trimLeft (trimRight s) = trimRight (trimLeft s) := by
  induction s with
  | nil => rfl
  | cons c r ih =>
    by_cases hc : isBlank c
    · rw [trimLeft_cons_of_blank hc, ← ih, trimRight_cons, if_pos hc]
      by_cases hr : trimRight r = []
      · rw [if_pos hr, hr]
      · rw [if_neg hr, trimLeft_cons_of_blank hc]
    · rw [trimLeft_cons_of_not_blank hc, trimRight_cons, if_neg hc]
      by_cases hr : trimRight r = []
      · rw [if_pos hr, trimLeft_cons_of_not_blank hc]
      · rw [if_neg hr, trimLeft_cons_of_not_blank hc]

theorem trimLeft_trim (s : List Char) : trimLeft (trim s) = trim s := by
  rw [trim, trimLeft_trimRight, trimLeft_trimLeft]

theorem trimRight_trim (s : List Char) : trimRight (trim s) = trim s :=
  trimRight_trimRight (trimLeft s)

theorem trim_trim (s : List Char) : trim (trim s) = trim s := by
  rw [trim, trimLeft_trim, trimRight_trim]

theorem trim_eq_self_iff {s : List Char} : trim s = s ↔ trimLeft s = s ∧ trimRight s = s := by
  constructor
  · intro h
    rw [← h]
    exact ⟨trimLeft_trim s, trimRight_trim s⟩
  · rintro ⟨hl, hr⟩
    rw [trim, hl, hr]

theorem trimLeft_eq_self_iff {s : List Char} : trimLeft s = s ↔ ∀ c ∈ s.head?, ¬ isBlank c := by
  cases s with
  | nil => simp [trimLeft]
  | cons c rest =>
    by_cases hc : isBlank c
    · have hlength := (List.dropWhile_sublist (l := rest) isBlank).length_le
      constructor
      · intro h
        rw [trimLeft_cons_of_blank hc] at h
        have := congrArg List.length h
        rw [trimLeft, List.length_cons] at this
        omega
      · exact fun h => absurd hc (h c rfl)
    · rw [trimLeft_cons_of_not_blank hc]
      simpa using hc

theorem trimRight_eq_self_iff {s : List Char} :
    trimRight s = s ↔ ∀ c ∈ s.getLast?, ¬ isBlank c := by
  have hrev : trimRight s = s ↔ trimLeft s.reverse = s.reverse := by
    unfold trimRight dropEndWhile trimLeft
    rw [List.reverse_eq_iff]
  rw [hrev, trimLeft_eq_self_iff, List.head?_reverse]

-- A text is trimmed when neither its first nor its last character is white space.
theorem trim_eq_self_iff_ends {s : List Char} :
    trim s = s ↔ (∀ c ∈ s.head?, ¬ isBlank c) ∧ ∀ c ∈ s.getLast?, ¬ isBlank c := by
  rw [trim_eq_self_iff, trimLeft_eq_self_iff, trimRight_eq_self_iff]

theorem trimRight_append_of_blank {back : List Char} (h : ∀ c ∈ back, isBlank c) (s : List Char) :
    trimRight (s ++ back) = trimRight s := by
  have hreverse : ∀ c ∈ back.reverse, isBlank c := fun c hc => h c (List.mem_reverse.1 hc)
  unfold trimRight dropEndWhile
  rw [List.reverse_append, List.dropWhile_append_of_pos hreverse]

theorem trim_append_of_blank {back : List Char} (h : ∀ c ∈ back, isBlank c) (s : List Char) :
    trim (s ++ back) = trim s := by
  rw [trim, ← trimLeft_trimRight, trimRight_append_of_blank h, trimLeft_trimRight, trim]

theorem trim_blank_append {front : List Char} (h : ∀ c ∈ front, isBlank c) (s : List Char) :
    trim (front ++ s) = trim s := by
  rw [trim, trimLeft_append_of_blank h, trim]

theorem trim_cons_of_blank {c : Char} (h : isBlank c) (s : List Char) : trim (c :: s) = trim s := by
  rw [trim, trimLeft_cons_of_blank h, trim]

theorem sublist_dropEndWhile (p : Char → Bool) (s : List Char) : (dropEndWhile p s).Sublist s := by
  have hsub : (s.reverse.dropWhile p).Sublist s.reverse := List.dropWhile_sublist p
  simpa [dropEndWhile] using hsub.reverse

theorem dropEndWhile_append_newline (s : List Char) :
    dropEndWhile (· == '\n') (s ++ ['\n']) = dropEndWhile (· == '\n') s := by
  simp [dropEndWhile]

theorem dropEndWhile_append_of_ne {c : Char} (hc : c ≠ '\n') (s : List Char) :
    dropEndWhile (· == '\n') (s ++ [c]) = s ++ [c] :=
  List.rdropWhile_concat_neg _ _ _ (by simpa using hc)

theorem sublist_trim (s : List Char) : (trim s).Sublist s :=
  (sublist_dropEndWhile isBlank (trimLeft s)).trans (List.dropWhile_sublist isBlank)

end ComponentDocs.Text
