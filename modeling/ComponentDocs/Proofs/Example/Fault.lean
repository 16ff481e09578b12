import ComponentDocs.Proofs.Example.Modifiers
import ComponentDocs.Proofs.Example.Resolve
import ComponentDocs.Proofs.Files
import ComponentDocs.Proofs.Text.Breaks

/-!
# Faults of examples

What a header is refused for stands in the body of its example, and only inline code has a header:
`fault?_judge`. An integer that is too long makes the body too long for the name of a file, so the
files decide about nothing but brackets that are too deep: `fault?_judge_of_ne_tooDeep`.
-/

namespace ComponentDocs

open Text

/-! ## Headers -/

theorem Header.grounds_of_refusal? {room : Nat} {header : List Char} {refusal : Json.Refusal}
    (h : (Header.readChars room header).refusal? = some refusal) :
    refusal.Grounds room header := by
  obtain ⟨lang, modifiers, hcut, -, hfollows⟩ := exists_cut room header
  have hmodifiers := grounds_of_readModifiers (hfollows.refusal?_eq_some_iff.1 h)
  exact hmodifiers.mono (hcut.infix_modifiers.trans (infix_trim header))

theorem InlineExample.infix_header (body : List Char) : (ofChars body).header <:+: body := by
  have hvisible : ∀ line ∈ visibleLines body, line <:+: body :=
    fun line hline => infix_of_mem_brokenTexts (List.mem_filter.1 hline).1
  have hfound : ∀ line ∈ fromFenceMark (visibleLines body), line ∈ visibleLines body := by
    unfold fromFenceMark
    split
    · exact fun line hline => hline
    · exact fun line hline => (List.dropWhile_suffix _).subset hline
  unfold ofChars
  split
  · exact List.nil_infix
  · rename_i first rest hlines
    have hfirst : first <:+: body := hvisible first (hfound first (hlines ▸ List.mem_cons_self))
    have hheader : trim ((trim first).drop fenceMark.length) <:+: trim first :=
      (infix_trim _).trans (List.drop_suffix _ _).isInfix
    exact (hheader.trans (infix_trim first)).trans hfirst

theorem grounds_of_judgeInline {room : Nat} {body : List Char} {refusal : Json.Refusal}
    (h : judgeInline room body = .refused refusal) : refusal.Grounds room body := by
  unfold judgeInline at h
  dsimp only at h
  split at h
  · rename_i why hrefusal
    obtain rfl := ExampleVerdict.refused.inj h
    exact (Header.grounds_of_refusal? hrefusal).mono (InlineExample.infix_header body)
  · split at h <;> cases h

/-! ## References -/

-- A reference with an integer that is too long has a name that is too long.
theorem exists_name_of_hasLongRun {reference : String} (h : HasLongRun reference.toList) :
    ∃ name ∈ (Path.ofString reference).names, maxNameBytes < name.utf8ByteSize := by
  obtain ⟨digits, hinfix, hlong, hdigits⟩ := h
  have hslash : '/' ∉ digits := fun hmem => absurd (hdigits '/' hmem) (by decide)
  obtain ⟨name, hmem, hname⟩ := Path.exists_name_of_infix hslash hinfix
  have hbytes : maxNameBytes < (String.ofList name).utf8ByteSize := by
    have hrun : digits.length ≤ String.utf8Len name :=
      (length_le_utf8Len digits).trans (String.utf8Len_le_of_infix hname)
    have hmax : maxNameBytes < Json.maxDigits := by decide
    rw [String.utf8ByteSize_ofList]
    omega
  refine ⟨String.ofList name, List.mem_filter.2 ⟨List.mem_map_of_mem hmem, ?_⟩, hbytes⟩
  -- a name of so many bytes is neither empty nor a single dot
  have hne (short : String) (hshort : short.utf8ByteSize ≤ maxNameBytes) :
      (String.ofList name != short) = true := by
    rw [bne_iff_ne]
    rintro rfl
    omega
  rw [hne "" (by decide), hne "." (by decide)]
  rfl

theorem isFile_of_hasLongRun {reference : String} (h : HasLongRun reference.toList)
    (fs : FileSystem) (source : Option String) :
    fs.isFile (exampleFilePath source reference) = false := by
  obtain ⟨name, hmem, hlong⟩ := exists_name_of_hasLongRun h
  by_contra hfile
  rw [Bool.not_eq_false] at hfile
  have hshort := FileSystem.utf8ByteSize_le_of_isFile hfile name (Path.names_subset_join _ _ hmem)
  omega

/-! ## Verdicts -/

/-- What ends a run over an example with the body `body` if that names no file: a header of inline
code that is refused. -/
def inlineFault? (room : Nat) (body : String) : Option Fault :=
  let reference := trim body.toList
  if hasFence reference then (judgeInline room reference).fault? else none

theorem ExampleVerdict.refused_of_fault? {verdict : ExampleVerdict} {fault : Fault}
    (h : verdict.fault? = some fault) :
    ∃ refusal, verdict = .refused refusal ∧ fault = .refused refusal := by
  cases verdict with
  | refused refusal => exact ⟨refusal, rfl, (Option.some.inj h).symm⟩
  | _ => cases h

theorem grounds_of_inlineFault? {room : Nat} {body : String} {fault : Fault}
    (h : inlineFault? room body = some fault) :
    ∃ refusal, fault = .refused refusal ∧ refusal.Grounds room (trim body.toList) := by
  unfold inlineFault? at h
  dsimp only at h
  split at h
  · obtain ⟨refusal, hverdict, rfl⟩ := ExampleVerdict.refused_of_fault? h
    exact ⟨refusal, rfl, grounds_of_judgeInline hverdict⟩
  · cases h

/-- A file ends no run, and inline code does when its header is refused. -/
theorem fault?_judge (ctx : Context) (body : String) :
    (ctx.judge body).fault? =
      if (ctx.judge body).file?.isSome then none else inlineFault? ctx.room body := by
  unfold Context.judge judgeExample inlineFault?
  split
  · rename_i hblank
    rw [hblank]
    rfl
  · dsimp only
    split
    · rfl
    · split
      · rw [file?_judgeInline]
        rfl
      · rfl

/-- What ends a run over an example stands in its body. -/
theorem grounds_of_fault? {ctx : Context} {body : String} {fault : Fault}
    (h : (ctx.judge body).fault? = some fault) :
    ∃ refusal, fault = .refused refusal ∧ refusal.Grounds ctx.room body.toList := by
  rw [fault?_judge] at h
  split at h
  · cases h
  · obtain ⟨refusal, hfault, hgrounds⟩ := grounds_of_inlineFault? h
    exact ⟨refusal, hfault, hgrounds.mono (infix_trim body.toList)⟩

/-- Unless its brackets are too deep, neither the files nor the source file decide whether an
example ends a run. -/
theorem fault?_judge_of_ne_tooDeep {ctx : Context} {body : String}
    (h : ∀ container, inlineFault? ctx.room body ≠ some (.refused (.tooDeep container))) :
    (ctx.judge body).fault? = inlineFault? ctx.room body := by
  rw [fault?_judge]
  split
  · rename_i hfile
    cases hinline : inlineFault? ctx.room body with
    | none => rfl
    | some fault =>
      obtain ⟨refusal, rfl, hgrounds⟩ := grounds_of_inlineFault? hinline
      cases refusal with
      | tooDeep container => exact absurd hinline (h container)
      | longInteger n =>
        -- the file that the body names would have a name that is too long
        have hrun : HasLongRun (String.ofList (trim body.toList)).toList := by
          rw [String.toList_ofList]
          exact hgrounds
        cases hjudge : ctx.judge body with
        | file path =>
          have hisFile := (Context.judge_eq_file hjudge).1
          rw [Context.exampleFile, isFile_of_hasLongRun hrun] at hisFile
          cases hisFile
        | _ =>
          rw [hjudge] at hfile
          cases hfile
  · rfl

end ComponentDocs
