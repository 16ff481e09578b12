import ComponentDocs.Proofs.Example.Fault
import ComponentDocs.Proofs.Example.Unreadable

/-!
# Resolving examples, in full

What a record, its log and a second run come to when its examples are resolved:
`resolveExamples_full`.
-/

namespace ComponentDocs

theorem Record.hasExamples_iff {r : Record} :
    r.hasExamples ↔ r.doclets.isSet Doclets.exampleName ∧ r.exampleBodies ≠ [] := by
  simp [hasExamples, Doclets.wantsExample]

-- The wish for an example goes when one is accepted.
theorem Record.isSome_example_withExamples (ctx : Context) (bodies : List String) (r : Record) :
    ((r.withExamples ctx bodies).doclets.get? Doclets.exampleName).isSome =
      ((r.doclets.get? Doclets.exampleName).isSome &&
        !bodies.any fun body => (ctx.judge body).isAccepted) := by
  unfold withExamples
  by_cases haccepted : bodies.any fun body => (ctx.judge body).isAccepted
  · simp [haccepted, Dict.get?_without]
  · simp [haccepted]

-- Examples of which none is accepted leave the record as it is.
theorem Record.withExamples_of_not_any {ctx : Context} {bodies : List String} {r : Record}
    (h : ¬ bodies.any fun body => (ctx.judge body).isAccepted) : r.withExamples ctx bodies = r := by
  have hnone : ∀ body ∈ bodies, (ctx.judge body == .rendered) = false ∧
      (ctx.judge body).file? = none := by
    intro body hbody
    have hbody' : ¬ (ctx.judge body).isAccepted := fun haccepted =>
      h (List.any_eq_true.2 ⟨body, hbody, haccepted⟩)
    simpa [ExampleVerdict.isAccepted] using hbody'
  have hrendered : bodies.filter (ctx.judge · == .rendered) = [] :=
    List.filter_eq_nil_iff.2 fun body hbody => by simp [(hnone body hbody).1]
  have hfiles : (bodies.filterMap fun body => (ctx.judge body).file?) = [] :=
    List.filterMap_eq_nil_iff.2 fun body hbody => (hnone body hbody).2
  unfold withExamples Context.loadLast
  rw [if_neg h, hrendered, hfiles, List.append_nil]
  rfl

-- Once an example is accepted, none is left to be judged.
theorem Record.offered_withExamples (ctx : Context) (r : Record) :
    (r.withExamples ctx r.offered).offered =
      if r.offered.any fun body => (ctx.judge body).isAccepted then [] else r.offered := by
  by_cases haccepted : r.offered.any fun body => (ctx.judge body).isAccepted
  · have hsome := r.isSome_example_withExamples ctx r.offered
    rw [haccepted, Bool.not_true, Bool.and_false, Option.isSome_eq_false_iff,
      Option.isNone_iff_eq_none] at hsome
    have hunset : (r.withExamples ctx r.offered).hasExamples = false := by
      unfold hasExamples Doclets.wantsExample Doclets.isSet
      rw [hsome]
      rfl
    rw [if_pos haccepted]
    conv_lhs => rw [offered, hunset]
    rfl
  · rw [if_neg haccepted, withExamples_of_not_any haccepted]

/-- A record whose examples have been resolved stays as it is. -/
theorem resolveExamples_of_result {ctx : Context} {r r' : Record}
    (h : (resolveExamples ctx r).result = .ok r') : (resolveExamples ctx r').result = .ok r' := by
  obtain ⟨hreadable, rfl⟩ := resolveExamples_eq_ok_iff.1 h
  rw [resolveExamples_eq_ok_iff, Record.offered_withExamples]
  by_cases haccepted : r.offered.any fun body => (ctx.judge body).isAccepted
  · rw [if_pos haccepted]
    exact ⟨fun body hbody => absurd hbody List.not_mem_nil,
      (Record.withExamples_of_not_any (by simp)).symm⟩
  · rw [if_neg haccepted, Record.withExamples_of_not_any haccepted]
    exact ⟨hreadable, (Record.withExamples_of_not_any haccepted).symm⟩

-- Only a header that is refused ends a run over examples.
theorem grounds_of_resolveExamples {ctx : Context} {r : Record} {fault : Fault}
    (h : (resolveExamples ctx r).result = .error fault) :
    ∃ refusal, fault = .refused refusal ∧
      ∃ body ∈ r.exampleBodies, refusal.Grounds ctx.room body.toList := by
  rw [resolveExamples_eq_outcome, Record.outcome] at h
  split at h
  · cases h
  · rename_i first hfirst
    obtain rfl := Except.error.inj h
    obtain ⟨body, hbody, hfault⟩ := List.exists_of_findSome?_eq_some hfirst
    obtain ⟨refusal, hrefusal, hgrounds⟩ := grounds_of_fault? hfault
    refine ⟨refusal, hrefusal, body, ?_, hgrounds⟩
    unfold Record.offered at hbody
    split at hbody
    · exact hbody
    · cases hbody

/-- Resolving the examples of a record. Without an example doclet that is set, or without example
tags, nothing happens. Otherwise the examples have the outcome that their verdicts call for: the
example doclet stays iff none is accepted, and each one that is neither blank nor accepted has its
warning, which names the source file. Nothing but an example with an integer that is too long or
with brackets that are too deep ends the run without a record. Another run changes nothing. -/
theorem resolveExamples_full (ctx : Context) (r : Record) :
    resolveExamples ctx r =
        (if r.doclets.isSet Doclets.exampleName ∧ r.exampleBodies ≠ [] then
          r.outcome ctx r.exampleBodies
        else pure r) ∧
      (∀ bodies, ((r.withExamples ctx bodies).doclets.get? Doclets.exampleName).isSome =
        ((r.doclets.get? Doclets.exampleName).isSome &&
          !bodies.any fun body => (ctx.judge body).isAccepted)) ∧
      (∀ bodies, ctx.warnings bodies = (ctx.report bodies).filter (·.level == .warning) ∧
        ∀ e ∈ ctx.warnings bodies, (Event.sourceText ctx.source).toList <:+: e.message.toList) ∧
      (∀ fault, (resolveExamples ctx r).result = .error fault →
        ∃ refusal, fault = .refused refusal ∧
          ∃ body ∈ r.exampleBodies, refusal.Grounds ctx.room body.toList) ∧
      (resolveExamples ctx r >>= resolveExamples ctx).result = (resolveExamples ctx r).result := by
  refine ⟨?_, r.isSome_example_withExamples ctx, fun bodies =>
    ⟨ctx.warnings_eq_filter bodies, fun e he => ?_⟩, fun _ => grounds_of_resolveExamples, ?_⟩
  · rw [resolveExamples]
    simp only [Record.hasExamples_iff, takeExamples_eq_outcome]
  · obtain ⟨body, -, hbody⟩ := List.mem_filterMap.1 he
    exact ExampleVerdict.sourceText_infix hbody
  · cases hresult : (resolveExamples ctx r).result with
    | ok r' =>
      rw [Logged.bind_result_eq_ok_iff]
      exact ⟨r', hresult, resolveExamples_of_result hresult⟩
    | error fault => exact Logged.bind_result_of_error hresult _

/-! ## A run without a record -/

/-- A record that asks for examples, with the bodies of its example tags. -/
def Record.ofExamples (bodies : List String) : Record :=
  ⟨none, none, [], none, Dict.ofList [(Doclets.exampleName, .flag true)],
    Dict.ofList [(exampleTitle, bodies.map fun body => ⟨exampleTitle, body, none, none, none⟩)],
    [], .value .null, none, Dict.empty⟩

theorem Record.exampleBodies_ofExamples (bodies : List String) :
    (Record.ofExamples bodies).exampleBodies = bodies := by
  change (bodies.map fun body => Tag.mk exampleTitle body none none none).map Tag.description = _
  rw [List.map_map]
  exact List.map_id bodies

theorem resolveExamples_of_fault {ctx : Context} {body : String} {fault : Fault}
    (h : (ctx.judge body).fault? = some fault) :
    resolveExamples ctx (.ofExamples [body]) = ⟨[], .error fault⟩ := by
  have hunreadable : ¬ (ctx.judge body).isReadable := by
    rw [← ExampleVerdict.fault?_eq_none_iff, h]
    exact Option.some_ne_none fault
  have hoffered : (Record.ofExamples [body]).offered = [body] := by
    rw [Record.offered, if_pos (Record.hasExamples_iff.2 ?_), Record.exampleBodies_ofExamples]
    rw [Record.exampleBodies_ofExamples]
    exact ⟨rfl, List.cons_ne_nil _ _⟩
  have hnone : [body].takeWhile (fun body => (ctx.judge body).isReadable) = [] :=
    List.takeWhile_cons_of_neg hunreadable
  rw [resolveExamples_eq_outcome, hoffered, Record.outcome, List.findSome?_cons, h, hnone]
  rfl

theorem resolveExamples_headedExample {modifiers : List Char} {refusal : Json.Refusal}
    (h : RefusedRun Context.plain.room modifiers refusal) :
    resolveExamples .plain (.ofExamples [String.ofList (headedExample modifiers)]) =
      ⟨[], .error (.refused refusal)⟩ := by
  apply resolveExamples_of_fault
  have hjudge : Context.plain.judge (String.ofList (headedExample modifiers)) =
      .refused refusal := judgeExample_headedExample h none
  rw [hjudge]
  rfl

/-- An example whose header has an integer with too many digits ends the run, and one whose header
has more brackets inside one another than there is room for does so too: there is no record, and no
warning. -/
theorem resolveExamples_refused :
    resolveExamples .plain
        (.ofExamples [String.ofList (headedExample ('-' :: List.replicate 4301 '1'))]) =
      ⟨[], .error (.refused (.longInteger 4301))⟩ ∧
    resolveExamples .plain
        (.ofExamples [String.ofList (headedExample (List.replicate 991 '['))]) =
      ⟨[], .error (.refused (.tooDeep .array))⟩ :=
  ⟨resolveExamples_headedExample (refusedRun_ones 990),
    resolveExamples_headedExample (refusedRun_brackets 990)⟩

end ComponentDocs
