import ComponentDocs.CommandLine.Run
import ComponentDocs.Proofs.Json.Document
import ComponentDocs.Proofs.Normal.Failure
import Mathlib.Data.List.Permutation

/-!
# How a run ends

A run with a record and a source file ends with an answer or with a report, and breaks down exactly
on the faults that it does not provide for: `run_ends`.
-/

namespace ComponentDocs.CommandLine

open Text

/-! ## The arguments -/

/-- An argument that is read as such, and not as an option. -/
def IsArgument (text : String) : Prop :=
  classify text = .ok (.argument text)

instance (text : String) : Decidable (IsArgument text) :=
  inferInstanceAs (Decidable (_ = _))

theorem IsArgument.ne_separator {text : String} (h : IsArgument text) : text ≠ "--" := by
  rintro rfl
  exact absurd h (by decide +kernel)

/-- The options of a run with a record and a source file. -/
def Options.of (record source : String) : Options :=
  ⟨record, some source, some 2, false⟩

theorem ofArguments_source {record source : String} (hrecord : IsArgument record)
    (hsource : IsArgument source) :
    Request.ofArguments [record, "--source", source] = .ok (.run (.of record source)) := by
  have hoption : classify "--source" = .ok (.option .source false none) := by decide +kernel
  have htokens : classifyAll [record, "--source", source] =
      .ok [.argument record, .option .source false none, .argument source] := by
    rw [classifyAll, if_neg hrecord.ne_separator, hrecord, classifyAll, if_neg (by decide), hoption,
      classifyAll, if_neg hsource.ne_separator, hsource]
    rfl
  have hgiven : given? source = some source := if_neg hsource.ne_separator
  have hassign (p : Progress) :
      p.assign .source source = .ok { p with source := some source } := by
    simp [Progress.assign, hgiven]
  rw [Request.ofArguments, htokens]
  change Progress.start.read .nothing _ = _
  simp only [Progress.read, Progress.start, Progress.take, Option.isNone_none, Flag.takesArgument,
    hassign, if_true]
  rfl

/-! ## What a run breaks down on -/

/-- What a run with the given options breaks down on. -/
inductive BreaksDown (input : Input) (options : Options) : Breakdown → Prop
  /-- The path of the record has a null character. -/
  | path (hname : options.record ≠ stdinName)
    (hnull : FileSystem.hasNull (Path.ofString options.record)) :
    BreaksDown input options .nullCharacter
  /-- The file of the record is no UTF-8 text. -/
  | encoding {bytes : List UInt8} {fault : Utf8.Fault} (hname : options.record ≠ stdinName)
    (hnull : ¬ FileSystem.hasNull (Path.ofString options.record))
    (hread : input.files.read (Path.ofString options.record) = .ok bytes)
    (hdecode : Utf8.decode bytes = .error fault) : BreaksDown input options (.encoding fault)
  /-- The document is refused: an integer is too long, or brackets are too deep. -/
  | document {text : List Char} {refusal : Json.Refusal}
    (htext : recordText input options.record = .ok (.ok text))
    (hread : Json.readChars input.host.recordRoom text = .error (.refused refusal)) :
    BreaksDown input options (.refused refusal)
  /-- An example of the description has a header that is refused. -/
  | header {r : Record} {refusal : Json.Refusal}
    (hload : loadRecord input options.record = .ok (.ok r))
    (hfault : r.fault? (contextOf input options) = some (.refused refusal)) :
    BreaksDown input options (.refused refusal)

section

variable {input : Input} {options : Options} {breakdown : Breakdown}

theorem recordText_eq_error_iff {name : String} :
    recordText input name = .error breakdown ↔
      name ≠ stdinName ∧
        ((FileSystem.hasNull (Path.ofString name) ∧ breakdown = .nullCharacter) ∨
          ¬ FileSystem.hasNull (Path.ofString name) ∧
            ∃ bytes fault, input.files.read (Path.ofString name) = .ok bytes ∧
              Utf8.decode bytes = .error fault ∧ breakdown = .encoding fault) := by
  unfold recordText
  by_cases hname : name = stdinName
  · simp [hname]
  · rw [if_neg hname, FileSystem.readText]
    by_cases hnull : FileSystem.hasNull (Path.ofString name)
    · simp [hname, hnull, eq_comm]
    · rw [if_neg hnull]
      cases input.files.read (Path.ofString name) with
      | error fault => simp [hname, hnull]
      | ok bytes =>
        cases hdecode : Utf8.decode bytes with
        | error fault => simp [hname, hnull, hdecode, eq_comm]
        | ok text => simp [hname, hnull, hdecode]

theorem readRecord_eq_error_iff {room : Nat} {text : List Char} :
    readRecord room text = .error breakdown ↔
      ∃ refusal, Json.readChars room text = .error (.refused refusal) ∧
        breakdown = .refused refusal := by
  unfold readRecord
  split
  · rename_i refusal hread
    simp [hread, eq_comm]
  · rename_i hread
    simp [hread]
  · rename_i j hread
    split <;> simp [hread]

-- Loading breaks down for want of a text, or over a text that is refused.
theorem loadRecord_eq_error_iff {name : String} :
    loadRecord input name = .error breakdown ↔
      recordText input name = .error breakdown ∨
        ∃ text, recordText input name = .ok (.ok text) ∧
          readRecord input.host.recordRoom text = .error breakdown := by
  unfold loadRecord
  cases recordText input name with
  | error b => simp [bind, Except.bind]
  | ok found =>
    cases found with
    | error failure => simp [bind, Except.bind, pure, Except.pure]
    | ok text => simp [bind, Except.bind]

theorem breaksDown_iff :
    BreaksDown input options breakdown ↔
      loadRecord input options.record = .error breakdown ∨
        ∃ r refusal, loadRecord input options.record = .ok (.ok r) ∧
          r.fault? (contextOf input options) = some (.refused refusal) ∧
            breakdown = .refused refusal := by
  rw [loadRecord_eq_error_iff, recordText_eq_error_iff]
  constructor
  · rintro (⟨hname, hnull⟩ | ⟨hname, hnull, hread, hdecode⟩ | ⟨htext, hread⟩ | ⟨hload, hfault⟩)
    · exact .inl (.inl ⟨hname, .inl ⟨hnull, rfl⟩⟩)
    · exact .inl (.inl ⟨hname, .inr ⟨hnull, _, _, hread, hdecode, rfl⟩⟩)
    · exact .inl (.inr ⟨_, htext, readRecord_eq_error_iff.2 ⟨_, hread, rfl⟩⟩)
    · exact .inr ⟨_, _, hload, hfault, rfl⟩
  · rintro ((⟨hname, ⟨hnull, rfl⟩ | ⟨hnull, _, _, hread, hdecode, rfl⟩⟩ | ⟨_, htext, hrecord⟩) |
      ⟨_, _, hload, hfault, rfl⟩)
    · exact .path hname hnull
    · exact .encoding hname hnull hread hdecode
    · obtain ⟨_, hread, rfl⟩ := readRecord_eq_error_iff.1 hrecord
      exact .document htext hread
    · exact .header hload hfault

/-- Whether a text that a run reads has what it is refused for: the document itself, or the body of
an example that its description asks for. -/
def HasGrounds (input : Input) (options : Options) (refusal : Json.Refusal) : Prop :=
  (∃ text, recordText input options.record = .ok (.ok text) ∧
    refusal.Grounds input.host.recordRoom text) ∨
  ∃ r, loadRecord input options.record = .ok (.ok r) ∧
    ∃ body ∈ r.describedExamples, refusal.Grounds input.host.modifierRoom body.toList

theorem BreaksDown.hasGrounds {refusal : Json.Refusal}
    (h : BreaksDown input options (.refused refusal)) : HasGrounds input options refusal := by
  cases h with
  | document htext hread => exact .inl ⟨_, htext, Json.grounds_of_readChars hread⟩
  | header hload hfault =>
    obtain ⟨e, he⟩ | hexample := Record.fault?_cases hfault
    · cases he
    · obtain ⟨_, hrefusal, hbody⟩ := Record.grounds_of_exampleFault? hexample
      cases hrefusal
      exact .inr ⟨_, hload, hbody⟩

/-! ## What a run ends with -/

/-- What a run with an answer or with a report ends with. -/
inductive EndsWith (input : Input) (options : Options) : Output → Prop
  /-- The normal form of the record as a document and a newline, and the log. -/
  | answer {r normal : Record} (hload : loadRecord input options.record = .ok (.ok r))
    (hnormal : (normalize (contextOf input options) r).result = .ok normal)
    (hdocument : Json.IsDocument (normal.toJson.render 2).toList) :
    EndsWith input options
      ⟨0, normal.toJson.render 2 ++ "\n",
        logText input options (normalize (contextOf input options) r).log⟩
  /-- No document, and why there is no record, behind a cross. -/
  | unread {failure : Failure} (hload : loadRecord input options.record = .ok (.error failure)) :
    EndsWith input options ⟨1, "", "✗ " ++ failure.text input.host.note options.record ++ "\n"⟩
  /-- No document, and below the log the first comment that cannot be read, behind a cross. -/
  | unnormalized {r : Record} {e : TagError}
    (hload : loadRecord input options.record = .ok (.ok r))
    (hfault : r.fault? (contextOf input options) = some (.tag e))
    (hfirst : r.comments.findSome? CommentText.error? = some e) :
    EndsWith input options
      ⟨1, "", logText input options (normalize (contextOf input options) r).log ++
        ("✗ " ++ e.message ++ "\n")⟩

theorem errorOf?_normalize_contextOf (input : Input) (options : Options) (r : Record) :
    errorOf? (normalize (contextOf input options) r).result = r.fault? (contextOf input options) :=
  errorOf?_normalize (Settings.hasGroups_ofEnv input.env) r

theorem writeNormal_eq_error_iff {r : Record} (hindent : indentWidth options.indent = .ok 2) :
    writeNormal input options r = .error breakdown ↔
      ∃ refusal, r.fault? (contextOf input options) = some (.refused refusal) ∧
        breakdown = .refused refusal := by
  have hfault := errorOf?_normalize_contextOf input options r
  unfold writeNormal
  rw [← hfault]
  cases hresult : (normalize (contextOf input options) r).result with
  | ok normal => simp [errorOf?, hindent, hresult, bind, Except.bind, pure, Except.pure]
  | error fault =>
    cases fault with
    | tag e => simp [errorOf?, hresult]
    | refused refusal => simp [errorOf?, hresult, eq_comm]
    | noSynonyms group =>
      rw [hresult] at hfault
      exact absurd hfault.symm (r.fault?_ne_noSynonyms _ group)

theorem endsWith_of_writeNormal {r : Record} {output : Output}
    (hindent : indentWidth options.indent = .ok 2)
    (hload : loadRecord input options.record = .ok (.ok r))
    (h : writeNormal input options r = .ok output) : EndsWith input options output := by
  have hfault := errorOf?_normalize_contextOf input options r
  unfold writeNormal at h
  cases hresult : (normalize (contextOf input options) r).result with
  | ok normal =>
    simp only [hresult, hindent] at h
    cases h
    exact .answer hload hresult (Json.isDocument_render 2 _)
  | error fault =>
    rw [hresult] at hfault
    cases fault with
    | tag e =>
      simp only [hresult] at h
      cases h
      exact .unnormalized hload hfault.symm (Record.error?_of_fault? hfault.symm)
    | refused refusal => simp [hresult] at h
    | noSynonyms group => simp [hresult] at h

end

/-- A run with a record and a source file breaks down exactly on the faults that it does not provide
for; what is refused then is in the document, or in an example of its description. Otherwise the run
ends with the normal form as one document, or with the report of a failure and no document. -/
theorem run_ends {input : Input} {record source : String}
    (harguments : input.arguments = [record, "--source", source])
    (hrecord : IsArgument record) (hsource : IsArgument source) :
    (∀ breakdown, run input = .error breakdown ↔
        BreaksDown input (.of record source) breakdown) ∧
      (∀ refusal, run input = .error (.refused refusal) →
        HasGrounds input (.of record source) refusal) ∧
      ((∀ breakdown, ¬ BreaksDown input (.of record source) breakdown) →
        ∃ output, run input = .ok output ∧ EndsWith input (.of record source) output) := by
  have hrun : run input = process input (.of record source) := by
    rw [run, harguments, ofArguments_source hrecord hsource]
  have hindent : indentWidth (some 2) = .ok 2 := by decide +kernel
  suffices hends : (∀ breakdown, run input = .error breakdown ↔
      BreaksDown input (.of record source) breakdown) ∧
        ((∀ breakdown, ¬ BreaksDown input (.of record source) breakdown) →
          ∃ output, run input = .ok output ∧ EndsWith input (.of record source) output) from
    ⟨hends.1, fun refusal h => ((hends.1 _).1 h).hasGrounds, hends.2⟩
  rw [hrun, process]
  simp only [breaksDown_iff]
  have hload : (Options.of record source).record = record := rfl
  rw [hload]
  cases hloaded : loadRecord input record with
  | error b =>
    refine ⟨fun breakdown => ?_, fun h => absurd (h b) ?_⟩
    · simp [bind, Except.bind, eq_comm]
    · simp
  | ok found =>
    cases found with
    | error failure =>
      refine ⟨fun breakdown => ?_, fun _ => ⟨_, rfl, .unread hloaded⟩⟩
      simp [bind, Except.bind, pure, Except.pure]
    | ok r =>
      have hwritten {b : Breakdown} :=
        @writeNormal_eq_error_iff input (.of record source) b r hindent
      refine ⟨fun breakdown => ?_, fun h => ?_⟩
      · change writeNormal input (.of record source) r = .error breakdown ↔ _
        rw [hwritten]
        simp
      · change ∃ output, writeNormal input (.of record source) r = .ok output ∧ _
        cases houtput : writeNormal input (.of record source) r with
        | ok output => exact ⟨output, rfl, endsWith_of_writeNormal hindent hloaded houtput⟩
        | error b =>
          obtain ⟨refusal, hfault, hb⟩ := hwritten.1 houtput
          exact absurd (.inr ⟨r, refusal, rfl, hfault, hb⟩) (h b)

/-! ## A run with a warning, and one with a byte that is no text -/

/-- A directory with a single file. -/
def singleFile (name : String) (content : List UInt8) : FileSystem :=
  ⟨[], fun place =>
    if place = [] then some .directory else if place = [name] then some (.file content) else none⟩

/-- A run with a record file and a source file in an empty environment, at a single point in
time. -/
def buttonRun (content : List UInt8) : Input :=
  ⟨["button.json", "--source", "Button.jsx"], "", fun _ => none,
    singleFile "button.json" content,
    ⟨.plain, 990, 990, fun _ => "2024-05-01 12:00:00,000", fun _ _ => "]"⟩⟩

theorem recordText_buttonRun {content : List UInt8} {text : List Char}
    (h : Utf8.decode content = .ok text) :
    recordText (buttonRun content) "button.json" = .ok (.ok (normalizeNewlines text)) := by
  have hname : "button.json" ≠ stdinName := by decide
  have hnull : ¬ FileSystem.hasNull (Path.ofString "button.json") := by decide +kernel
  have hread : (buttonRun content).files.read (Path.ofString "button.json") = .ok content := by
    rfl
  simp only [recordText, if_neg hname, FileSystem.readText, if_neg hnull, hread, h]

/-- A record with a description, an example that is no file, and a public method. -/
def focusDocument : Json :=
  .obj [("description", .str "A button.\n@public\n@example ./demo.md"),
    ("methods", .arr [.obj [("name", .str "focus"),
      ("docblock", .str "Focus it.\n@public\n@return \x7bboolean\x7d Whether it was ready")]])]

/-- The document as a text. -/
def focusText : String :=
  "\x7b\"description\": \"A button.\\n@public\\n@example ./demo.md\", \"methods\": [" ++
    "\x7b\"name\": \"focus\", \"docblock\": " ++
      "\"Focus it.\\n@public\\n@return \x7bboolean\x7d Whether it was ready\"\x7d]\x7d\n"

/-- The bytes of a text in ASCII. -/
def asciiBytes (text : String) : List UInt8 :=
  text.toList.map fun c => UInt8.ofNat c.toNat

def focusRun : Input := buttonRun (asciiBytes focusText)

def focusOptions : Options := .of "button.json" "Button.jsx"

def focusWarning : String :=
  "2024-05-01 12:00:00,000 WARNING docnorm.examples: " ++
    "An example file ./demo.md defined in Button.jsx component not found.\n"

theorem readChars_focusText : Json.readChars 990 focusText.toList = .ok focusDocument := by
  cbv

/-- The record of the run is normalized with one warning. -/
theorem exists_loadRecord_focusRun :
    ∃ r, loadRecord focusRun focusOptions.record = .ok (.ok r) ∧
      r.fault? (contextOf focusRun focusOptions) = none ∧
      logText focusRun focusOptions (normalize (contextOf focusRun focusOptions) r).log =
        focusWarning := by
  obtain ⟨r, hrecord, hfault, hlog⟩ : ∃ r, Record.ofJson focusDocument = .ok r ∧
      r.fault? (contextOf focusRun focusOptions) = none ∧
      logText focusRun focusOptions (normalize (contextOf focusRun focusOptions) r).log =
        focusWarning :=
    ⟨_, rfl, by decide +kernel, by decide +kernel⟩
  have hdecode : Utf8.decode (asciiBytes focusText) = .ok focusText.toList := by decide +kernel
  have hnewlines : normalizeNewlines focusText.toList = focusText.toList := by decide +kernel
  have htext : recordText focusRun focusOptions.record = .ok (.ok focusText.toList) := by
    rw [← hnewlines]
    exact recordText_buttonRun hdecode
  have hroom : focusRun.host.recordRoom = 990 := rfl
  refine ⟨r, ?_, hfault, hlog⟩
  simp only [loadRecord, htext, bind, Except.bind, readRecord, hroom, readChars_focusText, hrecord]

theorem not_breaksDown_focusRun (breakdown : Breakdown) :
    ¬ BreaksDown focusRun focusOptions breakdown := by
  obtain ⟨r, hload, hfault, -⟩ := exists_loadRecord_focusRun
  rw [breaksDown_iff, hload]
  rintro (h | ⟨_, refusal, h, hrefusal, -⟩)
  · cases h
  · cases h
    rw [hfault] at hrefusal
    cases hrefusal

/-- The run ends with a document, and reports the example. -/
theorem run_ends_focusRun :
    focusRun.arguments = ["button.json", "--source", "Button.jsx"] ∧
      IsArgument "button.json" ∧ IsArgument "Button.jsx" ∧
      (∀ breakdown, ¬ BreaksDown focusRun focusOptions breakdown) ∧
      ∃ output, run focusRun = .ok output ∧ EndsWith focusRun focusOptions output ∧
        output.status = 0 ∧ output.stderr = focusWarning := by
  have hrecord : IsArgument "button.json" := by decide
  have hsource : IsArgument "Button.jsx" := by decide
  obtain ⟨output, houtput, hends⟩ :=
    (@run_ends focusRun _ _ rfl hrecord hsource).2.2 not_breaksDown_focusRun
  refine ⟨rfl, hrecord, hsource, not_breaksDown_focusRun, output, houtput, hends, ?_⟩
  obtain ⟨r, hload, hfault, hlog⟩ := exists_loadRecord_focusRun
  change EndsWith focusRun focusOptions output at hends
  cases hends with
  | answer hloaded hnormal hdocument =>
    rw [hload] at hloaded
    cases hloaded
    exact ⟨rfl, hlog⟩
  | unread hloaded =>
    rw [hload] at hloaded
    cases hloaded
  | unnormalized hloaded he =>
    rw [hload] at hloaded
    cases hloaded
    rw [hfault] at he
    cases he

/-- A record file that is no text makes a run break down. -/
theorem run_invalidByte :
    run (buttonRun [0xff]) = .error (.encoding ⟨0xff, 0, 1, .startByte⟩) := by
  decide +kernel

end ComponentDocs.CommandLine
