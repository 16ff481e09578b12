import ComponentDocs.Proofs.Example.Declared
import ComponentDocs.Proofs.Example.Load
import ComponentDocs.Proofs.FileTree
import ComponentDocs.Proofs.Normal.Stages

/-!
# References to examples files

The log of a run tells which files were taken for examples, and the record holds a reference to the
last of them. The reference is read back as the loader and the path of that file unless the loader
has an exclamation mark: `normalize_reference`. Then the loader is cut there, and the reference
names another file or none.
-/

namespace ComponentDocs

open Text

/-! ## Files that a log tells of -/

/-- The file that an event tells of. -/
def Event.file? : Event → Option Path
  | .exampleFileResolved file _ => some file
  | _ => none

/-- The files that were taken for examples, in order. -/
def acceptedFiles (log : List Event) : List Path :=
  log.filterMap Event.file?

theorem acceptedFiles_append (log log' : List Event) :
    acceptedFiles (log ++ log') = acceptedFiles log ++ acceptedFiles log' :=
  List.filterMap_append

theorem ExampleVerdict.bind_file?_event? (source : Option String) (verdict : ExampleVerdict) :
    (verdict.event? source).bind Event.file? = verdict.file? := by
  cases verdict <;> rfl

theorem Context.acceptedFiles_report (ctx : Context) (bodies : List String) :
    acceptedFiles (ctx.report bodies) = bodies.filterMap fun body => (ctx.judge body).file? := by
  rw [acceptedFiles, report, List.filterMap_filterMap]
  exact List.filterMap_congr fun body _ => ExampleVerdict.bind_file?_event? _ _

namespace Logged

variable {α β : Type}

theorem acceptedFiles_bind {x : Logged α} {f : α → Logged β} {a : α} (h : x.result = .ok a) :
    acceptedFiles (x >>= f).log = acceptedFiles x.log ++ acceptedFiles (f a).log := by
  obtain ⟨log, result⟩ := x
  obtain rfl : result = .ok a := h
  rw [bind_ok, acceptedFiles_append]

theorem acceptedFiles_bind_eq_nil {x : Logged α} {f : α → Logged β}
    (hx : acceptedFiles x.log = []) (hf : ∀ a, acceptedFiles (f a).log = []) :
    acceptedFiles (x >>= f).log = [] := by
  obtain ⟨log, result⟩ := x
  cases result with
  | error fault => exact hx
  | ok a => rw [acceptedFiles_bind rfl, hx, hf, List.append_nil]

end Logged

theorem acceptedFiles_normalizeEntries (ctx : Context) (entries : List (String × Property)) :
    acceptedFiles (normalizeEntries ctx entries).log = [] := by
  induction entries with
  | nil => rfl
  | cons entry rest ih =>
    have hproperty : acceptedFiles (normalizeProperty ctx entry.1 entry.2).log = [] := by
      refine Logged.acceptedFiles_bind_eq_nil rfl fun comment => ?_
      split <;> rfl
    refine Logged.acceptedFiles_bind_eq_nil hproperty fun found => ?_
    exact Logged.acceptedFiles_bind_eq_nil ih fun _ => rfl

-- Only the stage of the description takes files.
theorem Stage.acceptedFiles_run {stage : Stage} (h : stage ≠ .description) (ctx : Context)
    (r : Record) : acceptedFiles (stage.run ctx r).log = [] := by
  cases stage with
  | methods => rfl
  | description => exact absurd rfl h
  | props =>
    rw [run, normalizeProperties]
    split
    · rfl
    · exact Logged.acceptedFiles_bind_eq_nil (acceptedFiles_normalizeEntries ctx _) fun _ => rfl
  | displayName =>
    obtain ⟨_, hpure⟩ := fillDisplayName_eq_pure ctx r
    rw [run, hpure]
    rfl
  | visibleName =>
    obtain ⟨_, _, hpure⟩ := promoteVisibleName_eq_pure ctx r
    rw [run, hpure]
    rfl

theorem acceptedFiles_runStages_cons {ctx : Context} {r r₁ : Record} {stage : Stage}
    (h : (stage.run ctx r).result = .ok r₁) (rest : List Stage) :
    acceptedFiles (runStages ctx r (stage :: rest)).log =
      acceptedFiles (stage.run ctx r).log ++ acceptedFiles (runStages ctx r₁ rest).log := by
  have hevent : runStages ctx r (stage :: rest) =
      Logged.event (.stageStarted stage.name ctx.source) >>=
        fun _ => stage.run ctx r >>= fun r₁ => runStages ctx r₁ rest := rfl
  have hstarted : acceptedFiles (Logged.event (.stageStarted stage.name ctx.source)).log = [] := rfl
  rw [hevent, Logged.acceptedFiles_bind rfl, Logged.acceptedFiles_bind h, hstarted,
    List.nil_append]

theorem acceptedFiles_runStages {ctx : Context} {stages : List Stage}
    (h : Stage.description ∉ stages) (r : Record) :
    acceptedFiles (runStages ctx r stages).log = [] := by
  induction stages generalizing r with
  | nil => rfl
  | cons stage rest ih =>
    rw [List.mem_cons, not_or] at h
    refine Logged.acceptedFiles_bind_eq_nil rfl fun _ => ?_
    exact Logged.acceptedFiles_bind_eq_nil (Stage.acceptedFiles_run (Ne.symm h.1) ctx r) (ih h.2)

theorem acceptedFiles_normalize {ctx : Context} {r r₁ r₂ : Record}
    (hmethods : (normalizeMethods ctx r).result = .ok r₁)
    (hdescription : (normalizeDescription ctx r₁).result = .ok r₂) :
    acceptedFiles (normalize ctx r).log = acceptedFiles (normalizeDescription ctx r₁).log := by
  have hfirst : (Stage.run ctx .methods r).result = .ok r₁ := hmethods
  have hsecond : (Stage.run ctx .description r₁).result = .ok r₂ := hdescription
  rw [normalize, Stage.all, acceptedFiles_runStages_cons hfirst,
    Stage.acceptedFiles_run (by decide), acceptedFiles_runStages_cons hsecond,
    acceptedFiles_runStages (by decide), List.append_nil]
  rfl

-- What is loaded is loaded for the last file that the log tells of.
theorem external_of_normalizeDescription {ctx : Context} {r r' : Record} {p : Path}
    (h : (normalizeDescription ctx r).result = .ok r')
    (hlast : (acceptedFiles (normalizeDescription ctx r).log).getLast? = some p) :
    (∃ body, ctx.judge body = .file p) ∧
      r'.external = ctx.loadExample (Specifier.mk ctx.settings.examplesLoader p.text).text := by
  by_cases hempty : ∀ text ∈ r.description, text = ""
  · rw [normalizeDescription_of_empty hempty] at hlast
    cases hlast
  · push Not at hempty
    obtain ⟨text, htext, hne⟩ := hempty
    obtain ⟨found, hfound, -, hr'⟩ := (normalizeDescription_eq_ok_iff htext hne).1 h
    rw [log_of_normalizeDescription htext hne hfound h, Context.acceptedFiles_report] at hlast
    constructor
    · obtain ⟨body, -, hbody⟩ := List.mem_filterMap.1 (List.mem_of_getLast? hlast)
      refine ⟨body, ?_⟩
      cases hjudge : ctx.judge body with
      | file path =>
        rw [hjudge] at hbody
        rw [Option.some.inj hbody]
      | _ =>
        rw [hjudge] at hbody
        cases hbody
    · rw [hr', Record.external_withDescription, Context.loadLast, hlast]

theorem external_of_normalize {ctx : Context} {r r' : Record} {p : Path}
    (h : (normalize ctx r).result = .ok r')
    (hlast : (acceptedFiles (normalize ctx r).log).getLast? = some p) :
    (∃ body, ctx.judge body = .file p) ∧
      r'.external = ctx.loadExample (Specifier.mk ctx.settings.examplesLoader p.text).text := by
  obtain ⟨r₁, r₂, r₃, hmethods, hdescription, hprops, hnames⟩ := normalize_eq_ok_iff.1 h
  rw [acceptedFiles_normalize hmethods hdescription] at hlast
  obtain ⟨hbody, hexternal⟩ := external_of_normalizeDescription hdescription hlast
  refine ⟨hbody, ?_⟩
  rw [(fields_of_giveNames hnames).2.2.1, (normalizeProperties_eq_ok_iff.1 hprops).1]
  exact hexternal

/-! ## References that are read back -/

theorem Settings.examplesLoader_ofEnv (env : String → Option String) :
    (ofEnv env).examplesLoader ≠ "" := by
  change override env loaderVariable id default.examplesLoader ≠ ""
  unfold override
  split
  · split
    · decide
    · rename_i hvalue
      exact hvalue
  · decide

/-- The context of a run whose settings come from the environment. -/
def Context.ofEnv (lexers : Lexers) (room : Nat) (env : String → Option String)
    (source : Option String) (files : FileSystem) : Context :=
  ⟨source, .ofEnv env, referTo (Settings.ofEnv env).playgroundLangs, files, lexers, room⟩

/-- A run that takes files for examples makes a reference to the last of them. It is read back as
the loader of the settings and the absolute path of that file iff the loader has no exclamation
mark; then loading reads that file, unless its path is too long. A loader with an exclamation mark
is cut at its first one, and the rest of it goes to the path. -/
theorem normalize_reference {lexers : Lexers} {room : Nat} {env : String → Option String}
    {source : Option String} {files : FileSystem} {r r' : Record} {p : Path}
    (h : (normalize (.ofEnv lexers room env source files) r).result = .ok r')
    (hlast : (acceptedFiles
      (normalize (.ofEnv lexers room env source files) r).log).getLast? = some p) :
    ∃ m body content, r'.external = .ref m ∧ m.langs = (Settings.ofEnv env).playgroundLangs ∧
      p = ((Context.ofEnv lexers room env source files).exampleFile body).resolve
        files.workingDir ∧
      files.read ((Context.ofEnv lexers room env source files).exampleFile body) = .ok content ∧
      (Specifier.ofString? m.specifier = some ⟨(Settings.ofEnv env).examplesLoader, p.text⟩ ↔
        '!' ∉ (Settings.ofEnv env).examplesLoader.toList) ∧
      (∀ front back, (Settings.ofEnv env).examplesLoader.toList = front ++ '!' :: back →
        '!' ∉ front → Specifier.ofString? m.specifier =
          if front = [] then none
          else some ⟨String.ofList front, String.ofList (back ++ '!' :: p.text.toList)⟩) ∧
      (files.IsTree → '!' ∉ (Settings.ofEnv env).examplesLoader.toList → ∀ room,
        m.load room files =
          if maxPathBytes ≤ p.text.utf8ByteSize then .error (.unreadable p.text .nameTooLong)
          else chunksOfFile room m.langs p.text content) := by
  have hfiles : (Context.ofEnv lexers room env source files).files = files := rfl
  obtain ⟨⟨body, hbody⟩, hexternal⟩ := external_of_normalize h hlast
  obtain ⟨hfile, hp⟩ := Context.judge_eq_file hbody
  rw [hfiles] at hfile hp
  obtain ⟨-, content, hfind⟩ := FileSystem.exists_find_of_isFile hfile
  have hread : files.read ((Context.ofEnv lexers room env source files).exampleFile body) =
      .ok content :=
    FileSystem.read_eq_ok_iff.2 hfind
  have hpath : p.text ≠ "" := by
    rw [hp]
    exact Path.text_resolve_ne_empty _ _
  let s : Specifier := ⟨(Settings.ofEnv env).examplesLoader, p.text⟩
  have hparts : Specifier.ofString? s.text = some s ↔ '!' ∉ s.loader.toList :=
    Specifier.ofString?_text_eq_some_iff (Settings.examplesLoader_ofEnv env) hpath
  refine ⟨⟨s.text, (Settings.ofEnv env).playgroundLangs⟩, body, content, hexternal, rfl, hp, hread,
    hparts, fun _ _ => Specifier.ofString?_text_of_mark (s := s), fun htree hmark room => ?_⟩
  obtain ⟨hback, hnull, hfound⟩ := htree.read_resolve hfind
  rw [← hp] at hback hnull hfound
  have hload := @ModuleRef.load_eq room files ⟨s.text, (Settings.ofEnv env).playgroundLangs⟩ s
    (hparts.2 hmark) (by rw [hback]; exact hnull)
  rw [hload, hback, hfound]
  by_cases hlong : maxPathBytes ≤ p.text.utf8ByteSize
  · rw [if_pos hlong, if_pos hlong]
  · rw [if_neg hlong, if_neg hlong]

/-- A directory with one file in it, which is also the working directory. -/
def demoFiles : FileSystem where
  workingDir := ["src"]
  node? place :=
    if place = ["src", "demo.md"] then some (.file [120])
    else if place = [] ∨ place = ["src"] then some .directory
    else none

/-- An environment that sets the loader of examples files and nothing else. -/
def loaderEnv (loader : String) (key : String) : Option String :=
  if key = Settings.loaderVariable then some loader else none

/-- A run on a description that names the file, with a loader from the environment. -/
def demoRun (loader : String) : Logged Record :=
  normalize (.ofEnv .plain 990 (loaderEnv loader) none demoFiles)
    (.ofDescription "@example ./demo.md")

theorem isTree_demoFiles : demoFiles.IsTree := by
  intro directory name node h
  change (if _ then _ else _) = _ at h
  split at h
  · rename_i hplace
    have hplaces : directory ++ [name] = ["src"] ++ ["demo.md"] := hplace
    obtain ⟨rfl, hname⟩ := List.append_inj' hplaces rfl
    obtain rfl := List.singleton_inj.1 hname
    exact ⟨by simp [demoFiles], by decide, by decide, by decide, by decide⟩
  · split at h
    · rename_i hplace
      rcases hplace with hnil | hplace
      · exact absurd hnil (List.append_ne_nil_of_right_ne_nil directory (List.cons_ne_nil name []))
      · have hplaces : directory ++ [name] = [] ++ ["src"] := hplace
        obtain ⟨rfl, hname⟩ := List.append_inj' hplaces rfl
        obtain rfl := List.singleton_inj.1 hname
        exact ⟨by simp [demoFiles], by decide, by decide, by decide, by decide⟩
    · cases h

/-- Without an exclamation mark in the loader, the file is found again and read. -/
theorem normalize_reference_demo :
    ∃ r', (demoRun "demo-loader").result = .ok r' ∧
      (acceptedFiles (demoRun "demo-loader").log).getLast? = some ⟨.slash, ["src", "demo.md"]⟩ ∧
      demoFiles.IsTree ∧ '!' ∉ (Settings.ofEnv (loaderEnv "demo-loader")).examplesLoader.toList ∧
      ∃ m, r'.external = .ref m ∧
        Specifier.ofString? m.specifier = some ⟨"demo-loader", "/src/demo.md"⟩ ∧
        m.load 990 demoFiles = chunksOfFile 990 Settings.defaultLangs "/src/demo.md" [120] := by
  obtain ⟨r', hresult, -⟩ := exists_ok_of_any (x := (demoRun "demo-loader").result)
    (p := fun _ => true) (by decide +kernel)
  have hlast : (acceptedFiles (demoRun "demo-loader").log).getLast? =
      some ⟨.slash, ["src", "demo.md"]⟩ := by decide +kernel
  have hmark : '!' ∉ (Settings.ofEnv (loaderEnv "demo-loader")).examplesLoader.toList := by decide
  obtain ⟨m, body, content, hexternal, hlangs, hpath, hread, hparts, -, hload⟩ :=
    normalize_reference hresult hlast
  have hnode := FileSystem.node?_resolve_of_find (FileSystem.read_eq_ok_iff.1 hread)
  rw [← hpath] at hnode
  obtain rfl : [120] = content := Node.file.inj (Option.some.inj hnode)
  refine ⟨r', hresult, hlast, isTree_demoFiles, hmark, m, hexternal, hparts.2 hmark, ?_⟩
  exact (hload isTree_demoFiles hmark 990).trans (by rw [hlangs]; rfl)

/-- A loader with an exclamation mark gives a part of itself to the path, and the file is not
found. -/
theorem normalize_reference_markedLoader :
    ∃ r' m, (demoRun "a!b").result = .ok r' ∧
      (acceptedFiles (demoRun "a!b").log).getLast? = some ⟨.slash, ["src", "demo.md"]⟩ ∧
      (Settings.ofEnv (loaderEnv "a!b")).examplesLoader = "a!b" ∧ r'.external = .ref m ∧
      Specifier.ofString? m.specifier = some ⟨"a", "b!/src/demo.md"⟩ ∧
      m.load 990 demoFiles = .error (.unreadable "b!/src/demo.md" .notFound) := by
  obtain ⟨r', hresult, -⟩ := exists_ok_of_any (x := (demoRun "a!b").result)
    (p := fun _ => true) (by decide +kernel)
  have hlast : (acceptedFiles (demoRun "a!b").log).getLast? =
      some ⟨.slash, ["src", "demo.md"]⟩ := by decide +kernel
  have hexternal := (external_of_normalize hresult hlast).2
  have hparts : Specifier.ofString? "!!a!b!/src/demo.md" = some ⟨"a", "b!/src/demo.md"⟩ := by decide
  have hread : demoFiles.read (Path.ofString "b!/src/demo.md") = .error .notFound := by
    decide +kernel
  refine ⟨r', ⟨"!!a!b!/src/demo.md", Settings.defaultLangs⟩, hresult, hlast, by decide, hexternal,
    hparts, ?_⟩
  rw [ModuleRef.load_eq hparts (by decide), hread]

end ComponentDocs
