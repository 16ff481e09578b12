import ComponentDocs.Example.Resolve
import ComponentDocs.Proofs.Dict
import ComponentDocs.Proofs.Log
import Mathlib.Data.List.Infix

/-!
# What resolving examples comes to

Each example is judged on its own and reported by at most one event, so the log and the result of a
run over several of them can be said without the run: `takeExamples_eq_outcome`. It ends in a record
unless the header of one of them cannot be read.
-/

namespace ComponentDocs

/-- The file that was found. -/
def ExampleVerdict.file? : ExampleVerdict → Option Path
  | .file path => some path
  | _ => none

/-- Whether the header of an example can be read. -/
def ExampleVerdict.isReadable : ExampleVerdict → Bool
  | .refused _ => false
  | _ => true

/-- Whether an example has a place in the record. -/
def ExampleVerdict.isAccepted (verdict : ExampleVerdict) : Bool :=
  verdict == .rendered || verdict.file?.isSome

/-- The verdict on the body of an example tag in a run. -/
def Context.judge (ctx : Context) (body : String) : ExampleVerdict :=
  judgeExample ctx.room ctx.files ctx.source body

/-- Settings that nothing changes, without a source file, without files and without lexers. -/
def Context.plain : Context :=
  ⟨none, .default, referTo Settings.defaultLangs, .empty, .plain, 990⟩

/-- The file that the body of an example names in a run. -/
def Context.exampleFile (ctx : Context) (body : String) : Path :=
  exampleFilePath ctx.source (String.ofList (Text.trim body.toList))

theorem file?_judgeInline (room : Nat) (body : List Char) :
    (judgeInline room body).file? = none := by
  unfold judgeInline
  dsimp only
  split
  · rfl
  · split <;> rfl

theorem Context.judge_eq_file {ctx : Context} {body : String} {p : Path}
    (h : ctx.judge body = .file p) :
    ctx.files.isFile (ctx.exampleFile body) = true ∧
      p = (ctx.exampleFile body).resolve ctx.files.workingDir := by
  unfold judge judgeExample at h
  split at h
  · cases h
  · dsimp only at h
    split at h
    · rename_i hfile
      exact ⟨hfile, (ExampleVerdict.file.inj h).symm⟩
    · split at h
      · have hinline := file?_judgeInline ctx.room (Text.trim body.toList)
        rw [h] at hinline
        cases hinline
      · cases h

/-- What is loaded for the last file among examples, or what was there before. -/
def Context.loadLast (ctx : Context) (external : ExternalExample) (bodies : List String) :
    ExternalExample :=
  match (bodies.filterMap fun body => (ctx.judge body).file?).getLast? with
  | some path => ctx.loadExample (Specifier.mk ctx.settings.examplesLoader path.text).text
  | none => external

/-- The record with the examples that are accepted. -/
def Record.withExamples (ctx : Context) (bodies : List String) (r : Record) : Record :=
  { r with
    doclets :=
      if bodies.any fun body => (ctx.judge body).isAccepted then
        r.doclets.without [Doclets.exampleName]
      else r.doclets
    examples := r.examples ++ bodies.filter (ctx.judge · == .rendered)
    external := ctx.loadLast r.external bodies }

theorem Record.external_withExamples (ctx : Context) (bodies : List String) (r : Record) :
    (r.withExamples ctx bodies).external = ctx.loadLast r.external bodies := rfl

theorem Context.loadLast_cons (ctx : Context) (external : ExternalExample) (body : String)
    (rest : List String) :
    ctx.loadLast external (body :: rest) = ctx.loadLast (ctx.loadLast external [body]) rest := by
  unfold loadLast
  rw [List.filterMap_cons, List.filterMap_cons, List.filterMap_nil]
  cases (ctx.judge body).file? with
  | none => rfl
  | some path =>
    rw [List.getLast?_cons]
    cases (rest.filterMap fun body => (ctx.judge body).file?).getLast? <;> rfl

-- Examples one after another have the places that they have together.
theorem Record.withExamples_cons (ctx : Context) (body : String) (rest : List String) (r : Record) :
    r.withExamples ctx (body :: rest) = (r.withExamples ctx [body]).withExamples ctx rest := by
  -- the wish for an example goes with the first one that is accepted, and only once
  have hdoclets : (if (body :: rest).any fun body => (ctx.judge body).isAccepted then
      r.doclets.without [Doclets.exampleName] else r.doclets) =
      ((r.withExamples ctx [body]).withExamples ctx rest).doclets := by
    simp only [withExamples, List.any_cons, List.any_nil, Bool.or_false]
    by_cases hbody : (ctx.judge body).isAccepted
    · simp only [hbody, Bool.true_or, if_true, Dict.without_without, ite_self]
    · simp only [hbody, Bool.false_or]
      rfl
  have hexamples : r.examples ++ (body :: rest).filter (ctx.judge · == .rendered) =
      ((r.withExamples ctx [body]).withExamples ctx rest).examples := by
    simp only [withExamples]
    rw [List.append_assoc, ← List.filter_append, List.singleton_append]
  have hexternal := Context.loadLast_cons ctx r.external body rest
  rw [withExamples, hdoclets, hexamples, hexternal]
  rfl

/-! ## Reports -/

/-- The warning about an example that has no place in the record. -/
def ExampleVerdict.warning? (source : Option String) : ExampleVerdict → Option Event
  | .unrendered => some (.renderMissing source)
  | .missing reference => some (.exampleNotFound reference source)
  | _ => none

/-- The event of an example: the file that was found, or a warning. -/
def ExampleVerdict.event? (source : Option String) : ExampleVerdict → Option Event
  | .file path => some (.exampleFileResolved path source)
  | verdict => verdict.warning? source

/-- The fault of an example whose header cannot be read. -/
def ExampleVerdict.fault? : ExampleVerdict → Option Fault
  | .refused refusal => some (.refused refusal)
  | _ => none

/-- The events of examples, in order. -/
def Context.report (ctx : Context) (bodies : List String) : List Event :=
  bodies.filterMap fun body => (ctx.judge body).event? ctx.source

/-- The warnings about examples, in order. -/
def Context.warnings (ctx : Context) (bodies : List String) : List Event :=
  bodies.filterMap fun body => (ctx.judge body).warning? ctx.source

theorem ExampleVerdict.fault?_eq_none_iff {verdict : ExampleVerdict} :
    verdict.fault? = none ↔ verdict.isReadable := by
  cases verdict <;> simp [fault?, isReadable]

theorem ExampleVerdict.warning?_eq_filter (source : Option String) (verdict : ExampleVerdict) :
    verdict.warning? source = (verdict.event? source).filter (·.level == .warning) := by
  cases verdict <;> rfl

-- Whatever is no warning tells of a file that was found.
theorem Context.warnings_eq_filter (ctx : Context) (bodies : List String) :
    ctx.warnings bodies = (ctx.report bodies).filter (·.level == .warning) := by
  rw [warnings, report, List.filter_filterMap]
  exact List.filterMap_congr fun body _ => ExampleVerdict.warning?_eq_filter _ _

theorem Context.report_append (ctx : Context) (before after : List String) :
    ctx.report (before ++ after) = ctx.report before ++ ctx.report after :=
  List.filterMap_append

theorem infix_toList_append (before text after : String) :
    text.toList <:+: (before ++ text ++ after).toList := by
  rw [String.toList_append, String.toList_append]
  exact List.infix_append ..

-- A warning names the source file.
theorem ExampleVerdict.sourceText_infix {source : Option String} {verdict : ExampleVerdict}
    {e : Event} (h : verdict.warning? source = some e) :
    (Event.sourceText source).toList <:+: e.message.toList := by
  cases verdict with
  | unrendered =>
    obtain rfl := Option.some.inj h
    unfold Event.message
    exact infix_toList_append ..
  | missing reference =>
    obtain rfl := Option.some.inj h
    unfold Event.message
    exact infix_toList_append ..
  | _ => cases h

/-! ## Runs -/

/-- What a run over examples comes to: their events and their places in the record, or the events
before the first header that cannot be read. -/
def Record.outcome (ctx : Context) (bodies : List String) (r : Record) : Logged Record :=
  match bodies.findSome? fun body => (ctx.judge body).fault? with
  | none => ⟨ctx.report bodies, .ok (r.withExamples ctx bodies)⟩
  | some fault => ⟨ctx.report (bodies.takeWhile fun body => (ctx.judge body).isReadable),
      .error fault⟩

theorem takeExample_eq_outcome (ctx : Context) (r : Record) (body : String) :
    takeExample ctx r body = r.outcome ctx [body] := by
  have hjudge : judgeExample ctx.room ctx.files ctx.source body = ctx.judge body := rfl
  unfold takeExample Record.outcome Record.withExamples Context.loadLast Context.report
  rw [hjudge]
  cases hverdict : ctx.judge body with
  | refused refusal =>
    simp [hverdict, ExampleVerdict.fault?, ExampleVerdict.isReadable, Logged.fail]
  | _ =>
    simp [hverdict, ExampleVerdict.fault?, ExampleVerdict.event?, ExampleVerdict.warning?,
      ExampleVerdict.isAccepted, ExampleVerdict.file?, Record.exampleAccepted]

-- The first example goes before the others, and ends the run if it cannot be read.
theorem Record.outcome_cons (ctx : Context) (body : String) (rest : List String) (r : Record) :
    r.outcome ctx (body :: rest) =
      r.outcome ctx [body] >>= fun r => r.outcome ctx rest := by
  unfold outcome
  rw [List.findSome?_cons, List.findSome?_cons, List.findSome?_nil]
  cases hfault : (ctx.judge body).fault? with
  | none =>
    have hreadable := ExampleVerdict.fault?_eq_none_iff.1 hfault
    have htake : (body :: rest).takeWhile (fun body => (ctx.judge body).isReadable) =
        [body] ++ rest.takeWhile fun body => (ctx.judge body).isReadable :=
      List.takeWhile_cons_of_pos hreadable
    simp only [Logged.bind_ok, htake]
    cases rest.findSome? fun body => (ctx.judge body).fault? with
    | none =>
      rw [Record.withExamples_cons]
      exact congrArg (Logged.mk · _) (ctx.report_append [body] rest)
    | some fault =>
      exact congrArg (Logged.mk · _) (ctx.report_append [body] _)
  | some fault =>
    have hunreadable : ¬ (ctx.judge body).isReadable := by
      rw [← ExampleVerdict.fault?_eq_none_iff, hfault]
      exact Option.some_ne_none fault
    have htake (others : List String) :
        (body :: others).takeWhile (fun body => (ctx.judge body).isReadable) = [] :=
      List.takeWhile_cons_of_neg hunreadable
    simp only [htake, Logged.bind_error]

theorem Record.outcome_nil (ctx : Context) (r : Record) : r.outcome ctx [] = pure r := by
  have hnone : r.withExamples ctx [] = r := by
    unfold withExamples
    rw [List.filter_nil, List.append_nil]
    rfl
  rw [outcome, List.findSome?_nil, hnone]
  rfl

/-- A run over examples does what their verdicts call for. -/
theorem takeExamples_eq_outcome (ctx : Context) (r : Record) (bodies : List String) :
    takeExamples ctx r bodies = r.outcome ctx bodies := by
  induction bodies generalizing r with
  | nil => rw [takeExamples, Record.outcome_nil]
  | cons body rest ih =>
    rw [takeExamples, Record.outcome_cons, takeExample_eq_outcome]
    exact congrArg _ (funext fun r => ih r)

theorem Context.findSome?_fault?_eq_none_iff {ctx : Context} {bodies : List String} :
    bodies.findSome? (fun body => (ctx.judge body).fault?) = none ↔
      ∀ body ∈ bodies, (ctx.judge body).isReadable := by
  rw [List.findSome?_eq_none_iff]
  simp only [ExampleVerdict.fault?_eq_none_iff]

theorem Record.outcome_of_readable {ctx : Context} {bodies : List String}
    (h : ∀ body ∈ bodies, (ctx.judge body).isReadable) (r : Record) :
    r.outcome ctx bodies = ⟨ctx.report bodies, .ok (r.withExamples ctx bodies)⟩ := by
  rw [outcome, Context.findSome?_fault?_eq_none_iff.2 h]

-- The examples of a run that ends in a record.
theorem Record.outcome_eq_ok_iff {ctx : Context} {bodies : List String} {r r' : Record} :
    (r.outcome ctx bodies).result = .ok r' ↔
      (∀ body ∈ bodies, (ctx.judge body).isReadable) ∧ r' = r.withExamples ctx bodies := by
  constructor
  · intro h
    have hnone : bodies.findSome? (fun body => (ctx.judge body).fault?) = none := by
      rw [outcome] at h
      cases hfault : bodies.findSome? fun body => (ctx.judge body).fault? with
      | none => rfl
      | some fault =>
        rw [hfault] at h
        cases h
    have hreadable := Context.findSome?_fault?_eq_none_iff.1 hnone
    rw [outcome_of_readable hreadable] at h
    exact ⟨hreadable, (Except.ok.inj h).symm⟩
  · rintro ⟨hreadable, rfl⟩
    rw [outcome_of_readable hreadable]

/-! ## Records that ask for examples -/

/-- The bodies of the examples that are judged. -/
def Record.offered (r : Record) : List String :=
  if r.hasExamples then r.exampleBodies else []

theorem resolveExamples_eq_outcome (ctx : Context) (r : Record) :
    resolveExamples ctx r = r.outcome ctx r.offered := by
  rw [resolveExamples, Record.offered]
  by_cases hwant : r.hasExamples
  · rw [if_pos hwant, if_pos hwant, takeExamples_eq_outcome]
  · rw [if_neg hwant, if_neg hwant, Record.outcome_nil]

theorem resolveExamples_eq_ok_iff {ctx : Context} {r r' : Record} :
    (resolveExamples ctx r).result = .ok r' ↔
      (∀ body ∈ r.offered, (ctx.judge body).isReadable) ∧ r' = r.withExamples ctx r.offered := by
  rw [resolveExamples_eq_outcome, Record.outcome_eq_ok_iff]

end ComponentDocs
