import ComponentDocs.DisplayName
import ComponentDocs.Proofs.Text.Case
import Mathlib.Data.List.Infix
import Mathlib.Data.List.TakeWhile

/-!
# Words of names

The words of a text are found one after another from its front, `nameWords_cons`, and together they
are its letters and digits, `flatten_nameWords`. A name made of a path has those of the name that
the path suggests: `displayNameOf_letters`.
-/

namespace ComponentDocs

open Text

/-! ## The letters of the words -/

theorem nameWords_cons_of_isAlphanum {c : Char} (h : c.isAlphanum) (rest : List Char) :
    nameWords (c :: rest) = nameWordsFrom [c] rest := by
  rw [nameWords, nameWordsFrom, if_pos h]

theorem nameWords_cons_of_not {c : Char} (h : ¬ c.isAlphanum) (rest : List Char) :
    nameWords (c :: rest) = nameWords rest := by
  rw [nameWords, nameWordsFrom, if_neg h, nameWords]

theorem nameWordsFrom_of_joins {last c : Char} {rest : List Char}
    (h : nameWordsFrom.joins last c rest) (before : List Char) :
    nameWordsFrom (last :: before) (c :: rest) = nameWordsFrom (c :: last :: before) rest := by
  rw [nameWordsFrom, if_pos h]

theorem nameWordsFrom_of_not_joins {last : Char} {s : List Char}
    (h : ∀ c rest, s = c :: rest → ¬ nameWordsFrom.joins last c rest) (before : List Char) :
    nameWordsFrom (last :: before) s = (last :: before).reverse :: nameWords s := by
  cases s with
  | nil => rfl
  | cons c rest => rw [nameWordsFrom, if_neg (h c rest rfl), nameWords, nameWordsFrom]

theorem joins_iff {last c : Char} {rest : List Char} :
    nameWordsFrom.joins last c rest ↔
      (last.isDigit ∧ c.isDigit) ∨ (last.isAlpha ∧ c.isLower) ∨
        (last.isUpper ∧ c.isUpper ∧ startsLower rest = false) := by
  simp [nameWordsFrom.joins, or_assoc, and_assoc]

theorem isAlphanum_of_joins {last c : Char} {rest : List Char}
    (h : nameWordsFrom.joins last c rest) : c.isAlphanum := by
  rw [isAlphanum_iff]
  rcases joins_iff.1 h with ⟨-, hdigit⟩ | ⟨-, hlower⟩ | ⟨-, hupper, -⟩
  · exact .inr hdigit
  · exact .inl (.inr hlower)
  · exact .inl (.inl hupper)

theorem flatten_nameWordsFrom (word s : List Char) :
    (nameWordsFrom word s).flatten = word.reverse ++ s.filter Char.isAlphanum := by
  fun_induction nameWordsFrom word s with
  | case1 word =>
    unfold nameWordsFrom.finish
    split
    · rename_i hempty
      rw [hempty]
      rfl
    · simp
  | case2 c rest hc ih =>
    rw [ih, List.filter_cons_of_pos hc]
    rfl
  | case3 c rest hc ih => rw [ih, List.filter_cons_of_neg hc]
  | case4 c rest last before hjoins ih =>
    rw [ih, List.filter_cons_of_pos (isAlphanum_of_joins hjoins), List.reverse_cons,
      List.append_assoc]
    rfl
  | case5 c rest last before hjoins ihword ihgap =>
    rw [List.flatten_cons]
    split
    · rename_i hc
      rw [ihword, List.filter_cons_of_pos hc]
      rfl
    · rename_i hc
      rw [ihgap, List.filter_cons_of_neg hc]
      rfl

/-- The words of a text are its letters and digits, in their order. -/
theorem flatten_nameWords (s : List Char) : (nameWords s).flatten = s.filter Char.isAlphanum :=
  flatten_nameWordsFrom [] s

/-! ## The first word of a text -/

/-- Whether a run of capitals may end before a text: where it is over, before a character that is no
letter, and before a capital with a small letter behind it. -/
def endsCapitals : List Char → Bool
  | [] => true
  | c :: rest => !c.isAlpha || (c.isUpper && startsLower rest)

theorem endsCapitals_cons_iff {c : Char} {rest : List Char} :
    endsCapitals (c :: rest) ↔ ¬ c.isAlpha ∨ (c.isUpper ∧ startsLower rest) := by
  simp [endsCapitals]

/-- Two or more capitals, as many as there are up to where they may end. -/
def acronym? (s : List Char) : Option (List Char) :=
  (s.takeWhile Char.isUpper).inits.reverse.find? fun word =>
    2 ≤ word.length && endsCapitals (s.drop word.length)

/-- Small letters, behind a capital or without one. -/
def smallWord? : List Char → Option (List Char)
  | [] => none
  | c :: rest =>
    if c.isLower || (c.isUpper && startsLower rest) then some (c :: rest.takeWhile Char.isLower)
    else none

/-- A capital. -/
def capital? : List Char → Option (List Char)
  | [] => none
  | c :: _ => if c.isUpper then some [c] else none

/-- Digits. -/
def number? : List Char → Option (List Char)
  | [] => none
  | c :: rest => if c.isDigit then some (c :: rest.takeWhile Char.isDigit) else none

/-- The word at the front of a text, the first that there is of: an acronym, a word of small
letters, a capital, a number. -/
def firstWord? (s : List Char) : Option (List Char) :=
  (acronym? s).or <| (smallWord? s).or <| (capital? s).or <| number? s

/-- Every character of `word` but the first goes on with the word before it, and none of `rest`
goes on with the last. -/
def IsWordBefore : List Char → List Char → Prop
  | [], _ => False
  | [c], rest => ∀ d after, rest = d :: after → ¬ nameWordsFrom.joins c d after
  | c :: d :: word, rest =>
    nameWordsFrom.joins c d (word ++ rest) ∧ IsWordBefore (d :: word) rest

theorem nameWordsFrom_append {c : Char} {word rest : List Char}
    (h : IsWordBefore (c :: word) rest) (before : List Char) :
    nameWordsFrom (c :: before) (word ++ rest) =
      (before.reverse ++ c :: word) :: nameWords rest := by
  induction word generalizing c before with
  | nil =>
    rw [List.nil_append, nameWordsFrom_of_not_joins h, List.reverse_cons]
  | cons d word ih =>
    rw [List.cons_append, nameWordsFrom_of_joins h.1, ih h.2, List.reverse_cons, List.append_assoc]
    rfl

theorem nameWords_append {c : Char} {word rest : List Char} (hc : c.isAlphanum)
    (h : IsWordBefore (c :: word) rest) :
    nameWords (c :: word ++ rest) = (c :: word) :: nameWords rest := by
  rw [List.cons_append, nameWords_cons_of_isAlphanum hc, nameWordsFrom_append h]
  rfl

-- A run of characters that go on with each other is a word where it is over.
theorem isWordBefore_of_run {p q : Char → Bool} {c : Char} {word rest : List Char}
    (hpq : ∀ d, p d → q d)
    (hstep : ∀ last d tail, q last → p d → (∀ e ∈ tail, p e) →
      nameWordsFrom.joins last d (tail ++ rest))
    (hc : q c) (hword : ∀ d ∈ word, p d)
    (hstop : ∀ d after, rest = d :: after →
      ¬ nameWordsFrom.joins ((c :: word).getLast (List.cons_ne_nil c word)) d after) :
    IsWordBefore (c :: word) rest := by
  induction word generalizing c with
  | nil => exact hstop
  | cons d word ih =>
    obtain ⟨hd, hword⟩ := List.forall_mem_cons.1 hword
    exact ⟨hstep c d word hc hd hword, ih (hpq d hd) hword hstop⟩

theorem isWordBefore_takeWhile {p q : Char → Bool} {c : Char} {rest : List Char}
    (hpq : ∀ d, p d → q d)
    (hstep : ∀ last d after, q last → p d → nameWordsFrom.joins last d after)
    (hstop : ∀ last d after, p last → ¬ p d → ¬ nameWordsFrom.joins last d after)
    (hc : q c) (hrun : ¬ p c → rest.takeWhile p ≠ []) :
    IsWordBefore (c :: rest.takeWhile p) (rest.dropWhile p) := by
  have hlast : p ((c :: rest.takeWhile p).getLast (List.cons_ne_nil _ _)) := by
    by_cases hrest : rest.takeWhile p = []
    · have hpc : p c := by_contra fun hpc => hrun hpc hrest
      simpa [hrest] using hpc
    · rw [List.getLast_cons hrest]
      exact List.mem_takeWhile_imp (List.getLast_mem hrest)
  refine isWordBefore_of_run hpq (fun last d tail hl hd _ => hstep last d _ hl hd) hc
    (fun d hd => List.mem_takeWhile_imp hd) fun d after hrest => hstop _ d after hlast ?_
  have hhead := List.head?_dropWhile_not p rest
  rw [hrest] at hhead
  exact ne_true_of_eq_false hhead

theorem isWordBefore_takeWhile_isLower {c : Char} {rest : List Char}
    (h : c.isLower ∨ c.isUpper ∧ startsLower rest) :
    IsWordBefore (c :: rest.takeWhile Char.isLower) (rest.dropWhile Char.isLower) := by
  apply isWordBefore_takeWhile (q := Char.isAlpha)
  · exact fun d hd => isAlpha_iff.2 (.inr hd)
  · intro last d after hlast hd
    exact joins_iff.2 (.inr (.inl ⟨hlast, hd⟩))
  · intro last d after hlast hd hjoins
    rcases joins_iff.1 hjoins with ⟨hdigit, -⟩ | ⟨-, hlower⟩ | ⟨hupper, -⟩
    · exact not_isAlpha_of_isDigit hdigit (isAlpha_iff.2 (.inr hlast))
    · exact hd hlower
    · exact not_isUpper_of_isLower hlast hupper
  · exact isAlpha_iff.2 (h.symm.imp And.left id)
  · intro hc
    obtain ⟨-, hstarts⟩ := h.resolve_left hc
    cases rest with
    | nil => cases hstarts
    | cons d tail =>
      have hd : d.isLower := hstarts
      rw [List.takeWhile_cons_of_pos hd]
      exact List.cons_ne_nil _ _

theorem isWordBefore_takeWhile_isDigit {c : Char} (hc : c.isDigit) (rest : List Char) :
    IsWordBefore (c :: rest.takeWhile Char.isDigit) (rest.dropWhile Char.isDigit) := by
  apply isWordBefore_takeWhile (q := Char.isDigit) (fun _ => id)
  · intro last d after hlast hd
    exact joins_iff.2 (.inl ⟨hlast, hd⟩)
  · intro last d after hlast hd hjoins
    have halpha := not_isAlpha_of_isDigit hlast
    rcases joins_iff.1 hjoins with ⟨-, hdigit⟩ | ⟨hletter, -⟩ | ⟨hupper, -⟩
    · exact hd hdigit
    · exact halpha hletter
    · exact halpha (isAlpha_iff.2 (.inl hupper))
  · exact hc
  · exact fun hnot => absurd hc hnot

theorem startsLower_of_endsCapitals {rest : List Char} (h : endsCapitals rest) :
    startsLower rest = false := by
  cases rest with
  | nil => rfl
  | cons d after =>
    rw [← Bool.not_eq_true]
    intro hlower
    have hd : d.isLower := hlower
    rcases endsCapitals_cons_iff.1 h with halpha | ⟨hupper, -⟩
    · exact halpha (isAlpha_iff.2 (.inr hd))
    · exact not_isUpper_of_isLower hd hupper

theorem isUpper_of_not_endsCapitals {c : Char} {rest : List Char}
    (hc : startsLower (c :: rest) = false) (h : ¬ endsCapitals (c :: rest)) :
    c.isUpper ∧ startsLower rest = false := by
  have hlower : ¬ c.isLower := ne_true_of_eq_false hc
  rw [endsCapitals_cons_iff, not_or, not_not, not_and, Bool.not_eq_true] at h
  have hupper : c.isUpper := (isAlpha_iff.1 h.1).resolve_right hlower
  exact ⟨hupper, h.2 hupper⟩

theorem startsLower_append_of_isUpper {word rest : List Char} (hword : ∀ c ∈ word, c.isUpper)
    (hrest : startsLower rest = false) : startsLower (word ++ rest) = false := by
  cases word with
  | nil => exact hrest
  | cons c tail =>
    rw [← Bool.not_eq_true]
    exact fun hc => not_isUpper_of_isLower hc (hword c List.mem_cons_self)

-- Where capitals may end, the last of them takes nothing more into its word.
theorem not_joins_of_endsCapitals {last d : Char} {after : List Char} (hlast : last.isUpper)
    (h : endsCapitals (d :: after)) : ¬ nameWordsFrom.joins last d after := by
  intro hjoins
  rcases joins_iff.1 hjoins with ⟨hdigit, -⟩ | ⟨-, hlower⟩ | ⟨-, hupper, hafter⟩
  · exact not_isAlpha_of_isDigit hdigit (isAlpha_iff.2 (.inl hlast))
  · exact absurd hlower (ne_true_of_eq_false (startsLower_of_endsCapitals h))
  · rcases endsCapitals_cons_iff.1 h with halpha | ⟨-, hstarts⟩
    · exact halpha (isAlpha_iff.2 (.inl hupper))
    · exact ne_true_of_eq_false hafter hstarts

theorem isWordBefore_of_isUpper {c : Char} {word rest : List Char} (hc : c.isUpper)
    (hword : ∀ d ∈ word, d.isUpper) (hrest : endsCapitals rest) :
    IsWordBefore (c :: word) rest := by
  refine isWordBefore_of_run (p := Char.isUpper) (q := Char.isUpper) (fun _ => id) ?_ hc hword ?_
  · intro last d tail hlast hd htail
    have hstarts := startsLower_append_of_isUpper htail (startsLower_of_endsCapitals hrest)
    exact joins_iff.2 (.inr (.inr ⟨hlast, hd, hstarts⟩))
  · rintro d after rfl
    have hall : ∀ e ∈ c :: word, e.isUpper := List.forall_mem_cons.2 ⟨hc, hword⟩
    exact not_joins_of_endsCapitals (hall _ (List.getLast_mem _)) hrest

theorem eq_of_acronym? {s word : List Char} (h : acronym? s = some word) :
    ∃ rest, s = word ++ rest ∧ (∀ c ∈ word, c.isUpper) ∧ 2 ≤ word.length ∧ endsCapitals rest := by
  have hmem := List.mem_of_find?_eq_some h
  have hword := List.find?_some h
  rw [List.mem_reverse, List.mem_inits] at hmem
  simp only [Bool.and_eq_true, decide_eq_true_eq] at hword
  obtain ⟨rest, rfl⟩ := hmem.trans (List.takeWhile_prefix _)
  rw [List.drop_left] at hword
  refine ⟨rest, rfl, fun c hc => ?_, hword⟩
  exact List.mem_takeWhile_imp (hmem.subset hc)

theorem not_endsCapitals_of_acronym? {word rest : List Char} (hword : ∀ c ∈ word, c.isUpper)
    (hlength : 2 ≤ word.length) (h : acronym? (word ++ rest) = none) : ¬ endsCapitals rest := by
  have hmem : word ∈ ((word ++ rest).takeWhile Char.isUpper).inits.reverse := by
    rw [List.mem_reverse, List.mem_inits, List.takeWhile_append_of_pos hword]
    exact List.prefix_append word _
  have hnone := List.find?_eq_none.1 h word hmem
  rw [List.drop_left] at hnone
  simpa [hlength] using hnone

-- Capitals that follow each other can end in front of the last one or behind it.
theorem exists_capitals {s : List Char} (h : startsLower s = false) :
    ∃ word rest, s = word ++ rest ∧ (∀ c ∈ word, c.isUpper) ∧ endsCapitals rest := by
  induction s with
  | nil => exact ⟨[], [], rfl, fun c hc => absurd hc List.not_mem_nil, rfl⟩
  | cons c rest ih =>
    by_cases hends : endsCapitals (c :: rest)
    · exact ⟨[], _, rfl, fun c hc => absurd hc List.not_mem_nil, hends⟩
    · obtain ⟨hc, hrest⟩ := isUpper_of_not_endsCapitals h hends
      obtain ⟨word, after, rfl, hword, hafter⟩ := ih hrest
      exact ⟨c :: word, after, rfl, List.forall_mem_cons.2 ⟨hc, hword⟩, hafter⟩

-- Where a capital would go on with the one before it there is an acronym.
theorem endsCapitals_of_acronym? {c : Char} {rest : List Char} (hc : c.isUpper)
    (hrest : startsLower rest = false) (h : acronym? (c :: rest) = none) : endsCapitals rest := by
  by_contra hends
  cases rest with
  | nil => exact hends rfl
  | cons d tail =>
    obtain ⟨hd, htail⟩ := isUpper_of_not_endsCapitals hrest hends
    obtain ⟨word, after, rfl, hword, hafter⟩ := exists_capitals htail
    have hcapitals : ∀ e ∈ c :: d :: word, e.isUpper :=
      List.forall_mem_cons.2 ⟨hc, List.forall_mem_cons.2 ⟨hd, hword⟩⟩
    have hlength : 2 ≤ (c :: d :: word).length := Nat.le_add_left 2 word.length
    exact not_endsCapitals_of_acronym? hcapitals hlength h hafter

theorem exists_of_firstWord? {c : Char} {rest word : List Char}
    (h : firstWord? (c :: rest) = some word) :
    c.isAlphanum ∧ ∃ tail after, word = c :: tail ∧ rest = tail ++ after ∧
      IsWordBefore (c :: tail) after := by
  simp only [firstWord?, Option.or_eq_some_iff] at h
  rcases h with hacronym | ⟨hacronym, hsmall | ⟨hsmall, hcapital | ⟨-, hnumber⟩⟩⟩
  · obtain ⟨after, hs, hword, hlength, hafter⟩ := eq_of_acronym? hacronym
    obtain ⟨d, tail, rfl⟩ := List.exists_cons_of_length_pos (Nat.lt_of_lt_of_le Nat.two_pos hlength)
    obtain ⟨rfl, rfl⟩ := List.cons.inj hs
    obtain ⟨hc, htail⟩ := List.forall_mem_cons.1 hword
    exact ⟨isAlphanum_iff.2 (.inl (.inl hc)), tail, after, rfl, rfl,
      isWordBefore_of_isUpper hc htail hafter⟩
  · rw [smallWord?, Option.ite_none_right_eq_some, Bool.or_eq_true, Bool.and_eq_true] at hsmall
    obtain ⟨hc, hword⟩ := hsmall
    exact ⟨isAlphanum_iff.2 (.inl (hc.symm.imp And.left id)), _, _, (Option.some.inj hword).symm,
      List.takeWhile_append_dropWhile.symm, isWordBefore_takeWhile_isLower hc⟩
  · rw [capital?, Option.ite_none_right_eq_some] at hcapital
    obtain ⟨hc, hword⟩ := hcapital
    have hrest : startsLower rest = false := by
      rw [← Bool.not_eq_true]
      intro hlower
      simp [smallWord?, hc, hlower] at hsmall
    exact ⟨isAlphanum_iff.2 (.inl (.inl hc)), [], rest, (Option.some.inj hword).symm, rfl,
      isWordBefore_of_isUpper hc (fun d hd => absurd hd List.not_mem_nil)
        (endsCapitals_of_acronym? hc hrest hacronym)⟩
  · rw [number?, Option.ite_none_right_eq_some] at hnumber
    obtain ⟨hc, hword⟩ := hnumber
    exact ⟨isAlphanum_iff.2 (.inr hc), _, _, (Option.some.inj hword).symm,
      List.takeWhile_append_dropWhile.symm, isWordBefore_takeWhile_isDigit hc rest⟩

theorem not_isAlphanum_of_firstWord? {c : Char} {rest : List Char}
    (h : firstWord? (c :: rest) = none) : ¬ c.isAlphanum := by
  simp only [firstWord?, Option.or_eq_none_iff] at h
  obtain ⟨-, hsmall, hcapital, hnumber⟩ := h
  rw [isAlphanum_iff]
  rintro ((hc | hc) | hc)
  · simp [capital?, hc] at hcapital
  · simp [smallWord?, hc] at hsmall
  · simp [number?, hc] at hnumber

/-- The words of a text are found from its front: the first word and then those of the text after
it, and where there is none, those of the text after the first character. -/
theorem nameWords_cons (c : Char) (rest : List Char) :
    nameWords (c :: rest) =
      match firstWord? (c :: rest) with
      | some word => word :: nameWords ((c :: rest).drop word.length)
      | none => nameWords rest := by
  cases hfirst : firstWord? (c :: rest) with
  | none => exact nameWords_cons_of_not (not_isAlphanum_of_firstWord? hfirst) rest
  | some word =>
    obtain ⟨hc, tail, after, rfl, rfl, hword⟩ := exists_of_firstWord? hfirst
    rw [← List.cons_append, nameWords_append hc hword]
    simp only [List.drop_left]

/-! ## Capitalized words -/

theorem map_toLower_capitalize (word : List Char) :
    (capitalize word).map Char.toLower = word.map Char.toLower := by
  cases word with
  | nil => rfl
  | cons c rest =>
    rw [capitalize, List.map_cons, List.map_map, toLower_toUpper, List.map_cons]
    congr 1
    exact List.map_congr_left fun d _ => toLower_toLower d

theorem startsLower_capitalize_append (word : List Char) {rest : List Char}
    (h : startsLower rest = false) : startsLower (capitalize word ++ rest) = false := by
  cases word with
  | nil => exact h
  | cons c tail => exact isLower_toUpper c

theorem map_toLower_pascalCase (s : List Char) :
    (pascalCase s).map Char.toLower = (s.filter Char.isAlphanum).map Char.toLower := by
  rw [pascalCase, List.map_flatMap, ← flatten_nameWords, List.map_flatten, List.flatMap_def]
  congr 1
  exact List.map_congr_left fun word _ => map_toLower_capitalize word

theorem isAlphanum_of_mem_pascalCase {s : List Char} {c : Char} (h : c ∈ pascalCase s) :
    c.isAlphanum := by
  have hmem : c.toLower ∈ (s.filter Char.isAlphanum).map Char.toLower := by
    rw [← map_toLower_pascalCase]
    exact List.mem_map_of_mem h
  obtain ⟨d, hd, hlower⟩ := List.mem_map.1 hmem
  rw [← isAlphanum_toLower, ← hlower, isAlphanum_toLower]
  exact (List.mem_filter.1 hd).2

theorem startsLower_pascalCase (s : List Char) : startsLower (pascalCase s) = false := by
  unfold pascalCase
  induction nameWords s with
  | nil => rfl
  | cons word words ih => exact startsLower_capitalize_append word ih

/-- The name that is made of a path has, but for the case of its letters, the letters and digits of
the name that the path suggests, in their order. It has no other character and does not start with
a small letter. -/
theorem displayNameOf_letters (source : String) :
    (displayNameOf source).toLower =
        (String.ofList ((Path.ofString source).suggestedName.toList.filter
          Char.isAlphanum)).toLower ∧
      (∀ c ∈ (displayNameOf source).toList, c.isAlphanum) ∧
      startsLower (displayNameOf source).toList = false := by
  rw [displayNameOf, String.toList_ofList]
  refine ⟨?_, fun c hc => isAlphanum_of_mem_pascalCase hc, startsLower_pascalCase _⟩
  rw [← String.toList_inj, toList_toLower, toList_toLower, String.toList_ofList,
    String.toList_ofList, map_toLower_pascalCase]

example : displayNameOf "lib/XMLHttp-request2/index.js" = "XmlHttpRequest2" := by
  decide +kernel

end ComponentDocs
