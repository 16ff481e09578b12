import ComponentDocs.Example.Resolve
import ComponentDocs.Proofs.Files
import ComponentDocs.Proofs.Json.Refusal
import ComponentDocs.Proofs.Text.Breaks
import ComponentDocs.Proofs.Text.Words

/-!
# Headers that cannot be read

Modifiers that are neither words nor JSON leave a header without settings. A run ends over others
only: those with an integer of too many digits, and those with more brackets inside one another than
there is room for. `judgeExample_headedExample` says so for an example with such modifiers.
-/

namespace ComponentDocs

open Text

namespace Json

theorem word?_eq_none_of_isDigit {digits : List Char} (h : ∀ c ∈ digits, c.isDigit) :
    word? ('-' :: digits) = none := by
  cases digits with
  | nil => rfl
  | cons c rest =>
    have hc : 'I' ≠ c := by
      rintro rfl
      exact absurd (h 'I' List.mem_cons_self) (by decide)
    simp [word?, words, afterWord?, hc]

theorem scalar?_of_long {digits : List Char} (h : ∀ c ∈ digits, c.isDigit)
    (hzero : ∀ c ∈ digits.head?, c ≠ '0') (hlong : maxDigits < digits.length) :
    scalar? ('-' :: digits) = some (.error digits.length, []) := by
  have hrun : digitRun digits = (digits, []) := by
    unfold digitRun
    rw [List.takeWhile_eq_self_iff.2 h, List.dropWhile_eq_nil_iff.2 h]
  have hwhole : wholeDigits? digits = some (digits, []) := by
    cases digits with
    | nil => cases hlong
    | cons c rest =>
      have hc := hzero c rfl
      unfold wholeDigits?
      split
      · rename_i heq
        cases heq
      · rename_i heq
        exact absurd (List.cons.inj heq).1 hc
      · rename_i heq
        obtain ⟨rfl, rfl⟩ := List.cons.inj heq
        rw [if_pos (h _ List.mem_cons_self), hrun]
  rw [scalar?, word?_eq_none_of_isDigit h]
  simp only [unsigned?, hwhole, fractionDigits, exponent?, if_pos hlong]

-- A document that is an integer with too many digits is not read.
theorem readChars_of_long {digits : List Char} (h : ∀ c ∈ digits, c.isDigit)
    (hzero : ∀ c ∈ digits.head?, c ≠ '0') (hlong : maxDigits < digits.length) (room : Nat) :
    readChars room ('-' :: digits) = .error (.refused (.longInteger digits.length)) := by
  have hscalar : scalar ('-' :: digits) = .error (.refused (.longInteger digits.length)) := by
    unfold scalar
    split
    · rename_i heq
      rw [scalar?_of_long h hzero hlong] at heq
      cases heq
    · rename_i heq
      rw [scalar?_of_long h hzero hlong] at heq
      cases heq
      rfl
    · rename_i heq
      rw [scalar?_of_long h hzero hlong] at heq
      cases heq
  have hvalue : value room (skip ('-' :: digits)) =
      .error (.refused (.longInteger digits.length)) := by
    change value room ('-' :: digits) = _
    rw [value]
    · exact hscalar
    all_goals simp
  unfold readChars
  split
  · rename_i heq
    cases heq
  · rw [hvalue]
    rfl

end Json

/-! ## Modifiers that end a run -/

theorem not_isBlank_of_isDigit {c : Char} (h : c.isDigit) : ¬ isBlank c := by
  have hrange : 48 ≤ c.toNat ∧ c.toNat ≤ 57 := by
    simpa [Char.isDigit, UInt32.le_iff_toNat_le] using h
  simp only [isBlank, Bool.or_eq_true, Bool.and_eq_true, decide_eq_true_eq, beq_iff_eq]
  omega

/-- Modifiers without white space that a reader with room for `room` arrays and objects inside one
another refuses. -/
structure RefusedRun (room : Nat) (modifiers : List Char) (refusal : Json.Refusal) : Prop where
  run : IsRun modifiers
  refused : readModifiers room modifiers = .error (.refused refusal)

-- A negative integer with too many digits.
theorem refusedRun_of_long {digits : List Char} (h : ∀ c ∈ digits, c.isDigit)
    (hzero : ∀ c ∈ digits.head?, c ≠ '0') (hlong : Json.maxDigits < digits.length) (room : Nat) :
    RefusedRun room ('-' :: digits) (.longInteger digits.length) where
  run := ⟨List.cons_ne_nil _ _, List.forall_mem_cons.2
    ⟨by decide, fun c hc => not_isBlank_of_isDigit (h c hc)⟩⟩
  refused := by
    have hwords : areWords ('-' :: digits) = false := rfl
    rw [readModifiers, hwords, Json.readChars_of_long h hzero hlong room]
    rfl

-- The smallest run of digits that is too long, written with ones.
theorem refusedRun_ones (room : Nat) :
    RefusedRun room ('-' :: List.replicate 4301 '1') (.longInteger 4301) := by
  have hones : ∀ c ∈ List.replicate 4301 '1', c = '1' := fun c hc => List.eq_of_mem_replicate hc
  have hlong : Json.maxDigits < (List.replicate 4301 '1').length := by
    rw [List.length_replicate]
    decide
  have hrefused := refusedRun_of_long (fun c hc => by rw [hones c hc]; rfl)
    (fun c hc => by rw [hones c (List.mem_of_mem_head? hc)]; decide) hlong room
  rwa [List.length_replicate] at hrefused

-- One bracket more than there is room for.
theorem refusedRun_brackets (room : Nat) :
    RefusedRun room (List.replicate (room + 1) '[') (.tooDeep .array) where
  run := ⟨List.cons_ne_nil _ _, fun c hc => by rw [List.eq_of_mem_replicate hc]; decide⟩
  refused := by
    have hwords : areWords (List.replicate (room + 1) '[') = false := rfl
    have hread := Json.readChars_brackets room []
    rw [List.append_nil] at hread
    rw [readModifiers, hwords, hread]
    rfl

/-! ## Examples with such modifiers -/

theorem trim_append_run {c : Char} (hc : ¬ isBlank c) (front : List Char) {run : List Char}
    (h : IsRun run) : trim (c :: front ++ run) = c :: front ++ run := by
  rw [trim_eq_self_iff_ends, List.getLast?_append_of_ne_nil (c :: front) h.1]
  refine ⟨fun d hd => ?_, fun d hd => h.2 d (List.mem_of_mem_getLast? hd)⟩
  obtain rfl := Option.some.inj hd
  exact hc

theorem trim_run {run : List Char} (h : IsRun run) : trim run = run :=
  trim_eq_self_iff_ends.2 ⟨fun c hc => h.2 c (List.mem_of_mem_head? hc),
    fun c hc => h.2 c (List.mem_of_mem_getLast? hc)⟩

/-- A line that opens code in a language, with modifiers. -/
def headedExample (modifiers : List Char) : List Char :=
  ['\x60', '\x60', '\x60', 'j', 's', ' '] ++ modifiers

variable {room : Nat} {modifiers : List Char} {refusal : Json.Refusal}

theorem trim_headedExample (h : IsRun modifiers) :
    trim (headedExample modifiers) = headedExample modifiers :=
  trim_append_run (by decide) _ h

theorem isLineBreak_headedExample (h : IsRun modifiers) :
    ∀ c ∈ headedExample modifiers, isLineBreak c = false := by
  refine List.forall_mem_append.2 ⟨?_, fun c hc => ?_⟩
  · simp only [List.forall_mem_cons, List.not_mem_nil, false_implies, implies_true, and_true]
    decide
  by_contra hbreak
  rw [Bool.not_eq_false] at hbreak
  exact h.2 c hc (isBlank_of_isLineBreak hbreak)

theorem header_headedExample (h : IsRun modifiers) :
    (InlineExample.ofChars (headedExample modifiers)).header = ['j', 's', ' '] ++ modifiers := by
  have htrim := trim_headedExample h
  have hlines : visibleLines (headedExample modifiers) = [headedExample modifiers] := by
    unfold visibleLines
    rw [breakLines_of_text (isLineBreak_headedExample h) (List.cons_ne_nil _ _),
      List.map_singleton]
    exact List.filter_eq_self.2 (List.forall_mem_singleton.2 (by rw [htrim]; rfl))
  have hmark : fromFenceMark [headedExample modifiers] = [headedExample modifiers] := rfl
  rw [InlineExample.ofChars, hlines, hmark]
  simp only [htrim]
  exact trim_append_run (by decide) _ h

theorem refusal?_headed (h : RefusedRun room modifiers refusal) :
    (Header.readChars room (['j', 's', ' '] ++ modifiers)).refusal? = some refusal := by
  have hheader : trim (['j', 's', ' '] ++ modifiers) = ['j', 's', ' '] ++ modifiers :=
    trim_append_run (by decide) ['s', ' '] h.run
  have hmodifiers : trim (((['j', 's', ' '] ++ modifiers).dropWhile (· != ' ')).drop 1) =
      modifiers := trim_run h.run
  unfold Header.readChars
  rw [hheader]
  split
  · rename_i heq
    cases heq
  · dsimp only
    rw [hmodifiers]
    split
    · exact absurd rfl h.run.1
    · rw [h.refused]
      rfl

theorem judgeInline_headedExample (h : RefusedRun room modifiers refusal) :
    judgeInline room (headedExample modifiers) = .refused refusal := by
  unfold judgeInline
  rw [header_headedExample h.run]
  simp only [refusal?_headed h]

/-! ## File systems without files -/

theorem FileSystem.isFile_empty (path : Path) : FileSystem.empty.isFile path = false := by
  rw [← Bool.not_eq_true]
  intro h
  obtain ⟨-, content, hfind⟩ := exists_find_of_isFile h
  have hnode := node?_resolve_of_find hfind
  change (if _ = [] then some Node.directory else none) = _ at hnode
  split at hnode
  · cases hnode
  · cases hnode

-- Without files, the example is neither accepted nor rejected.
theorem judgeExample_headedExample (h : RefusedRun room modifiers refusal)
    (source : Option String) :
    judgeExample room .empty source (String.ofList (headedExample modifiers)) =
      .refused refusal := by
  have hfence : hasFence (headedExample modifiers) = true := rfl
  unfold judgeExample
  rw [String.toList_ofList, trim_headedExample h.run]
  split
  · rename_i heq
    cases heq
  · simp only [FileSystem.isFile_empty, hfence, if_true]
    exact judgeInline_headedExample h

end ComponentDocs
