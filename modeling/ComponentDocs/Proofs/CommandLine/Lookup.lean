import ComponentDocs.CommandLine.Lookup
import ComponentDocs.Proofs.Dict
import ComponentDocs.Proofs.Normal.Methods

/-!
# A run and the files that it looks up

A run is the same on two file systems that have the same at the places on the way to the record and
to the files that its examples may name: `run_congr`. Which these are is settled by the record alone:
`examplePathsOf_congr`.
-/

namespace ComponentDocs.CommandLine

open Text

/-! ## Paths -/

/-- File systems with the same working directory, and with the same at the places on the way along
some paths. -/
structure AgreeOn (paths : List Path) (fs other : FileSystem) : Prop where
  workingDir : other.workingDir = fs.workingDir
  node? : ∀ path ∈ paths, ∀ place ∈ places fs.workingDir path, other.node? place = fs.node? place

/-- Following names asks only for the places that it passes. -/
theorem walk_congr {fs other : FileSystem} {directory names : List String}
    (h : ∀ place ∈ passed directory names, other.node? place = fs.node? place) :
    other.walk directory names = fs.walk directory names := by
  induction names generalizing directory with
  | nil => rw [FileSystem.walk, FileSystem.walk, h directory (List.mem_singleton_self _)]
  | cons name rest ih =>
    have hrest : ∀ place ∈ passed
        (if name = ".." then directory.dropLast else directory ++ [name]) rest,
        other.node? place = fs.node? place :=
      fun place hplace => h place (List.mem_cons_of_mem _ hplace)
    rw [FileSystem.walk, FileSystem.walk, h directory List.mem_cons_self]
    by_cases hname : name = ".."
    · rw [if_pos hname] at hrest
      simp only [if_pos hname, ih hrest]
    · rw [if_neg hname] at hrest
      simp only [if_neg hname, ih hrest]

namespace AgreeOn

variable {paths others : List Path} {fs other : FileSystem}

theorem mono (h : AgreeOn paths fs other) (hsub : others ⊆ paths) : AgreeOn others fs other :=
  ⟨h.workingDir, fun path hpath => h.node? path (hsub hpath)⟩

theorem find (h : AgreeOn paths fs other) {path : Path} (hpath : path ∈ paths) :
    other.find path = fs.find path := by
  have hplaces := h.node? path hpath
  unfold places at hplaces
  unfold FileSystem.find
  cases hroot : path.root with
  | relative =>
    rw [hroot] at hplaces
    simp only [h.workingDir, walk_congr hplaces]
  | slash =>
    rw [hroot] at hplaces
    simp only [walk_congr hplaces]
  | twoSlashes =>
    rw [hroot] at hplaces
    simp only [walk_congr hplaces]

theorem isFile (h : AgreeOn paths fs other) {path : Path} (hpath : path ∈ paths) :
    other.isFile path = fs.isFile path := by
  rw [FileSystem.isFile, FileSystem.isFile, h.find hpath]

theorem readText (h : AgreeOn paths fs other) {path : Path} (hpath : path ∈ paths) :
    other.readText path = fs.readText path := by
  rw [FileSystem.readText, FileSystem.readText, FileSystem.read, FileSystem.read, h.find hpath]

end AgreeOn

/-! ## Examples -/

section

variable {ctx : Context} {files : FileSystem} {r : Record}

theorem judgeExample_congr {paths : List Path} (h : AgreeOn paths ctx.files files) {body : String}
    (hbody : exampleFilePath ctx.source (String.ofList (trim body.toList)) ∈ paths) :
    judgeExample ctx.room files ctx.source body =
      judgeExample ctx.room ctx.files ctx.source body := by
  unfold judgeExample
  cases hreference : trim body.toList with
  | nil => rfl
  | cons c rest =>
    rw [hreference] at hbody
    simp only [h.isFile hbody, h.workingDir]

theorem takeExamples_congr {bodies : List String}
    (h : ∀ body ∈ bodies, judgeExample ctx.room files ctx.source body =
      judgeExample ctx.room ctx.files ctx.source body) :
    takeExamples { ctx with files := files } r bodies = takeExamples ctx r bodies := by
  induction bodies generalizing r with
  | nil => rfl
  | cons body rest ih =>
    have hbody : takeExample { ctx with files := files } r body = takeExample ctx r body := by
      unfold takeExample
      rw [h body List.mem_cons_self]
    have hrest (r₁ : Record) :
        takeExamples { ctx with files := files } r₁ rest = takeExamples ctx r₁ rest :=
      ih fun b hb => h b (List.mem_cons_of_mem _ hb)
    rw [takeExamples, takeExamples, hbody, funext hrest]

theorem resolveExamples_congr
    (h : ∀ body ∈ r.exampleBodies, judgeExample ctx.room files ctx.source body =
      judgeExample ctx.room ctx.files ctx.source body) :
    resolveExamples { ctx with files := files } r = resolveExamples ctx r := by
  rw [resolveExamples, resolveExamples, takeExamples_congr h]

-- Tags of a description take the place of the record's own ones of the same title.
theorem exampleBodies_describe_subset (lexers : Lexers) (cssClass : String) {text : String}
    {tags : TagGroups} (htext : r.description = some text) (htags : readTags false text = .ok tags) :
    (r.describe lexers cssClass text tags).exampleBodies ⊆ candidateBodies r := by
  have hdescribed : candidateBodies r =
      r.exampleBodies ++ (tags.tagged exampleTitle).map Tag.description := by
    simp only [candidateBodies, htext, Option.getD_some, htags]
  have hmerged : (r.describe lexers cssClass text tags).tags.get? exampleTitle =
      (tags.get? exampleTitle).or (r.tags.get? exampleTitle) := Dict.get?_merge ..
  rw [hdescribed, Record.exampleBodies, TagGroups.tagged, hmerged]
  cases hown : tags.get? exampleTitle with
  | none => exact List.subset_append_left _ _
  | some found =>
    rw [TagGroups.tagged, hown]
    exact List.subset_append_right _ _

/-! ## Stages -/

theorem normalizeDescription_congr (h : AgreeOn (examplePaths ctx.source r) ctx.files files) :
    normalizeDescription { ctx with files := files } r = normalizeDescription ctx r := by
  unfold normalizeDescription
  split
  · rfl
  · rfl
  · rename_i text hne htext
    refine Logged.bind_congr fun tags htags => resolveExamples_congr fun body hbody => ?_
    have hread : readTags false text = .ok tags := Fault.ofTag_eq_ok_iff.1 htags
    have hcandidates := exampleBodies_describe_subset ctx.lexers ctx.settings.highlightCssClass
      htext hread
    exact judgeExample_congr h (List.mem_map_of_mem (hcandidates hbody))

theorem normalizeEntries_congr (entries : List (String × Property)) :
    normalizeEntries { ctx with files := files } entries = normalizeEntries ctx entries := by
  induction entries with
  | nil => rfl
  | cons e rest ih =>
    rw [normalizeEntries, normalizeEntries, ih]
    rfl

theorem stageRun_congr {stage : Stage} (h : stage ≠ .description) :
    stage.run { ctx with files := files } r = stage.run ctx r := by
  cases stage with
  | methods => rfl
  | description => exact absurd rfl h
  | props => simp only [Stage.run, normalizeProperties, normalizeEntries_congr]
  | displayName => rfl
  | visibleName => rfl

-- Stages behind that of the description look up no files.
theorem runStages_congr {stages : List Stage} (h : .description ∉ stages) :
    runStages { ctx with files := files } r stages = runStages ctx r stages := by
  induction stages generalizing r with
  | nil => rfl
  | cons stage rest ih =>
    rw [List.mem_cons, not_or] at h
    have hrest (r₁ : Record) :
        runStages { ctx with files := files } r₁ rest = runStages ctx r₁ rest := ih h.2
    rw [runStages, runStages, stageRun_congr (Ne.symm h.1), funext hrest]

-- Methods leave the description and the tags of a record alone, so it names the same files after
-- them.
theorem normalize_congr (h : AgreeOn (examplePaths ctx.source r) ctx.files files) :
    normalize { ctx with files := files } r = normalize ctx r := by
  have hdescribed (r₁ : Record) (hr₁ : (Stage.run ctx .methods r).result = .ok r₁) :
      runStages { ctx with files := files } r₁ [.description, .props, .displayName, .visibleName] =
        runStages ctx r₁ [.description, .props, .displayName, .visibleName] := by
    obtain ⟨-, hframe⟩ := normalizeMethods_eq_ok_iff.1 hr₁
    have hpaths : examplePaths ctx.source r₁ = examplePaths ctx.source r := by
      rw [hframe]
      rfl
    have hstage : Stage.run { ctx with files := files } .description r₁ =
        Stage.run ctx .description r₁ := normalizeDescription_congr (by rwa [hpaths])
    have hlater (r₂ : Record) :
        runStages { ctx with files := files } r₂ [.props, .displayName, .visibleName] =
          runStages ctx r₂ [.props, .displayName, .visibleName] := runStages_congr (by decide)
    rw [runStages, runStages, hstage, funext hlater]
  rw [normalize, normalize, Stage.all, runStages, runStages, stageRun_congr (by decide),
    Logged.bind_congr hdescribed]

end

/-! ## Runs -/

section

variable {input : Input} {files : FileSystem}

theorem loadRecord_congr {options : Options}
    (hrequest : Request.ofArguments input.arguments = .ok (.run options))
    (h : AgreeOn (recordPath? input.arguments).toList input.files files) :
    loadRecord { input with files := files } options.record =
      loadRecord input options.record := by
  have htext : recordText { input with files := files } options.record =
      recordText input options.record := by
    unfold recordText
    by_cases hname : options.record = stdinName
    · rw [if_pos hname, if_pos hname]
    · have hpath : recordPath? input.arguments = some (Path.ofString options.record) := by
        simp only [recordPath?, hrequest, if_neg hname]
      have hread : files.readText (Path.ofString options.record) =
          input.files.readText (Path.ofString options.record) :=
        h.readText (by rw [hpath]; exact List.mem_singleton_self _)
      simp only [if_neg hname, hread]
  rw [loadRecord, loadRecord, htext]

/-- Which files the examples of a record may name is known once its own file is. -/
theorem examplePathsOf_congr (h : AgreeOn (recordPath? input.arguments).toList input.files files) :
    examplePathsOf { input with files := files } = examplePathsOf input := by
  unfold examplePathsOf
  cases hrequest : Request.ofArguments input.arguments with
  | error fault => rfl
  | ok request =>
    cases request with
    | help => rfl
    | run options => simp only [loadRecord_congr hrequest h]

theorem writeNormal_congr {options : Options} {r : Record}
    (h : AgreeOn (examplePaths (knownSource options.source) r) input.files files) :
    writeNormal { input with files := files } options r = writeNormal input options r := by
  have hcontext : contextOf { input with files := files } options =
      { contextOf input options with files := files } := rfl
  have hnormal : normalize { contextOf input options with files := files } r =
      normalize (contextOf input options) r := normalize_congr h
  rw [writeNormal, writeNormal, hcontext, hnormal]
  rfl

theorem process_congr {options : Options}
    (hrequest : Request.ofArguments input.arguments = .ok (.run options))
    (h : AgreeOn (lookedUpPaths input) input.files files) :
    process { input with files := files } options = process input options := by
  have hrecord := loadRecord_congr hrequest (h.mono (List.subset_append_left _ _))
  unfold process
  rw [hrecord]
  cases hload : loadRecord input options.record with
  | error breakdown => simp only [bind, Except.bind]
  | ok found =>
    cases found with
    | error failure => simp only [bind, Except.bind]
    | ok r =>
      have hpaths : examplePathsOf input = examplePaths (knownSource options.source) r := by
        simp only [examplePathsOf, hrequest, hload]
      have hexamples : examplePaths (knownSource options.source) r ⊆ lookedUpPaths input := by
        rw [lookedUpPaths, hpaths]
        exact List.subset_append_right _ _
      simp only [bind, Except.bind, writeNormal_congr (h.mono hexamples)]

/-- A run asks the file system for nothing but the places on the way to the record and to the files
that its examples may name. -/
theorem run_congr (h : AgreeOn (lookedUpPaths input) input.files files) :
    run { input with files := files } = run input := by
  unfold run
  cases hrequest : Request.ofArguments input.arguments with
  | error fault => rfl
  | ok request =>
    cases request with
    | help => rfl
    | run options => exact process_congr hrequest h

end

end ComponentDocs.CommandLine
