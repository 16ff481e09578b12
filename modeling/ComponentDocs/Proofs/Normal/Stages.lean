import ComponentDocs.Normal.Stage
import ComponentDocs.Proofs.Example.Resolve
import ComponentDocs.Proofs.Normal.Clean
import ComponentDocs.Proofs.Normal.Methods
import ComponentDocs.Proofs.Normal.Properties

/-!
# What the stages do to a record

Each stage has its own fields and leaves the others alone, so a run is the work of its stages one
after another: `normalize_eq_ok_iff`.
-/

namespace ComponentDocs

open Text

theorem runStages_cons_eq_ok_iff {ctx : Context} {r r' : Record} {stage : Stage}
    {rest : List Stage} :
    (runStages ctx r (stage :: rest)).result = .ok r' ↔
      ∃ r₁, (stage.run ctx r).result = .ok r₁ ∧ (runStages ctx r₁ rest).result = .ok r' := by
  have hevent : runStages ctx r (stage :: rest) =
      Logged.event (.stageStarted stage.name ctx.source) >>=
        fun _ => stage.run ctx r >>= fun r₁ => runStages ctx r₁ rest := rfl
  rw [hevent, Logged.bind_result_eq_ok_iff]
  simp only [Logged.bind_result_eq_ok_iff]
  constructor
  · rintro ⟨_, _, h⟩
    exact h
  · exact fun h => ⟨(), rfl, h⟩

/-- The last two stages give names, and always have a result. -/
def giveNames (ctx : Context) (r : Record) : Logged Record :=
  fillDisplayName ctx r >>= promoteVisibleName ctx

theorem normalize_eq_ok_iff {ctx : Context} {r r' : Record} :
    (normalize ctx r).result = .ok r' ↔
      ∃ r₁ r₂ r₃, (normalizeMethods ctx r).result = .ok r₁ ∧
        (normalizeDescription ctx r₁).result = .ok r₂ ∧
        (normalizeProperties ctx r₂).result = .ok r₃ ∧ (giveNames ctx r₃).result = .ok r' := by
  unfold normalize Stage.all giveNames
  simp only [runStages_cons_eq_ok_iff, Stage.run, Logged.bind_result_eq_ok_iff]
  constructor
  · rintro ⟨r₁, h₁, r₂, h₂, r₃, h₃, r₄, h₄, r₅, h₅, h⟩
    obtain rfl := Except.ok.inj h
    exact ⟨r₁, r₂, r₃, h₁, h₂, h₃, r₄, h₄, h₅⟩
  · rintro ⟨r₁, r₂, r₃, h₁, h₂, h₃, r₄, h₄, h₅⟩
    exact ⟨r₁, h₁, r₂, h₂, r₃, h₃, r₄, h₄, r', h₅, rfl⟩

/-! ## Names -/

theorem fillDisplayName_eq_pure (ctx : Context) (r : Record) :
    ∃ name, fillDisplayName ctx r = pure { r with displayName := name } := by
  unfold fillDisplayName
  split
  · exact ⟨r.displayName, rfl⟩
  · exact ⟨r.displayName, rfl⟩
  · rename_i source _ _
    by_cases hname : hasText r.displayName
    · rw [if_pos hname]
      exact ⟨r.displayName, rfl⟩
    · rw [if_neg hname]
      exact ⟨some (displayNameOf source), rfl⟩

theorem promoteVisibleName_eq_pure (ctx : Context) (r : Record) :
    ∃ name doclets, promoteVisibleName ctx r = pure { r with
      visibleName := name
      doclets := doclets
      tags :=
        if r.doclets.isSet ctx.settings.labelDoclet then
          r.tags.without [ctx.settings.labelDoclet]
        else r.tags } := by
  unfold promoteVisibleName Doclets.isSet
  cases r.doclets.get? ctx.settings.labelDoclet with
  | none => exact ⟨r.visibleName, r.doclets, rfl⟩
  | some label =>
    by_cases hset : label.isSet
    · simp only [if_pos hset, Option.any_some]
      exact ⟨_, _, rfl⟩
    · simp only [if_neg hset, Option.any_some]
      exact ⟨r.visibleName, r.doclets, rfl⟩

-- Giving names changes names and doclets, and takes the tags of the label away if it is set.
theorem giveNames_eq_pure (ctx : Context) (r : Record) :
    ∃ displayName visibleName doclets, giveNames ctx r = pure { r with
      displayName := displayName
      visibleName := visibleName
      doclets := doclets
      tags :=
        if r.doclets.isSet ctx.settings.labelDoclet then
          r.tags.without [ctx.settings.labelDoclet]
        else r.tags } := by
  obtain ⟨displayName, hfill⟩ := fillDisplayName_eq_pure ctx r
  obtain ⟨visibleName, doclets, hpromote⟩ :=
    promoteVisibleName_eq_pure ctx { r with displayName := displayName }
  refine ⟨displayName, visibleName, doclets, ?_⟩
  rw [giveNames, hfill, Logged.pure_def, Logged.bind_ok, hpromote]
  rfl

theorem exists_giveNames (ctx : Context) (r : Record) :
    ∃ r', (giveNames ctx r).result = .ok r' := by
  obtain ⟨_, _, _, hpure⟩ := giveNames_eq_pure ctx r
  rw [hpure]
  exact ⟨_, rfl⟩

theorem fields_of_giveNames {ctx : Context} {r r' : Record}
    (h : (giveNames ctx r).result = .ok r') :
    r'.description = r.description ∧ r'.examples = r.examples ∧ r'.external = r.external ∧
      r'.tags =
        if r.doclets.isSet ctx.settings.labelDoclet then
          r.tags.without [ctx.settings.labelDoclet]
        else r.tags := by
  obtain ⟨_, _, _, hpure⟩ := giveNames_eq_pure ctx r
  rw [hpure] at h
  obtain rfl := Except.ok.inj h
  exact ⟨rfl, rfl, rfl, rfl⟩

/-! ## Descriptions -/

theorem normalizeDescription_of_empty {ctx : Context} {r : Record}
    (h : ∀ text ∈ r.description, text = "") :
    normalizeDescription ctx r = pure { r with doclets := Dict.empty } := by
  unfold normalizeDescription
  cases hdescription : r.description with
  | none => rfl
  | some text =>
    rw [h text hdescription]
    rfl

/-- The record with what a text that has the tags `found` says as its description. -/
def Record.withDescription (ctx : Context) (r : Record) (text : String) (found : TagGroups) :
    Record :=
  let described := r.describe ctx.lexers ctx.settings.highlightCssClass text found
  described.withExamples ctx described.offered

theorem Record.external_withDescription (ctx : Context) (r : Record) (text : String)
    (found : TagGroups) : (r.withDescription ctx text found).external =
      ctx.loadLast r.external
        (r.describe ctx.lexers ctx.settings.highlightCssClass text found).offered := by
  rw [withDescription, external_withExamples, describe]

-- The stage of a text that is not empty: its tags are read, and then its examples are resolved.
theorem normalizeDescription_of_text {ctx : Context} {r : Record} {text : String}
    (hdescription : r.description = some text) (hne : text ≠ "") :
    normalizeDescription ctx r = Logged.ofExcept (Fault.ofTag (readTags false text)) >>= fun tags =>
      resolveExamples ctx (r.describe ctx.lexers ctx.settings.highlightCssClass text tags) := by
  rw [normalizeDescription, hdescription]
  split
  · rename_i h
    cases h
  · rename_i h
    exact absurd (Option.some.inj h) hne
  · rename_i h
    obtain rfl := Option.some.inj h
    rfl

-- What a description comes to: its tags have to be readable, and the headers of its examples.
theorem normalizeDescription_eq_ok_iff {ctx : Context} {r r' : Record} {text : String}
    (hdescription : r.description = some text) (hne : text ≠ "") :
    (normalizeDescription ctx r).result = .ok r' ↔
      ∃ found, readTags false text = .ok found ∧
        (∀ body ∈ (r.describe ctx.lexers ctx.settings.highlightCssClass text found).offered,
          (ctx.judge body).isReadable) ∧
        r' = r.withDescription ctx text found := by
  rw [normalizeDescription_of_text hdescription hne, Logged.bind_result_eq_ok_iff,
    Logged.ofExcept_result]
  simp only [resolveExamples_eq_ok_iff, Fault.ofTag_eq_ok_iff]
  rfl

theorem log_of_normalizeDescription {ctx : Context} {r r' : Record} {text : String}
    {found : TagGroups} (hdescription : r.description = some text) (hne : text ≠ "")
    (hfound : readTags false text = .ok found)
    (h : (normalizeDescription ctx r).result = .ok r') :
    (normalizeDescription ctx r).log =
      ctx.report (r.describe ctx.lexers ctx.settings.highlightCssClass text found).offered := by
  obtain ⟨found', hfound', hreadable, -⟩ := (normalizeDescription_eq_ok_iff hdescription hne).1 h
  obtain rfl := Except.ok.inj (hfound.symm.trans hfound')
  rw [normalizeDescription_of_text hdescription hne, hfound, Fault.ofTag, Logged.ofExcept,
    Logged.bind_ok, resolveExamples_eq_outcome, Record.outcome_of_readable hreadable,
    List.nil_append]

theorem normalizeDescription_frame {ctx : Context} {r r' : Record}
    (h : (normalizeDescription ctx r).result = .ok r') :
    r'.methods = r.methods ∧ r'.props = r.props ∧ r'.extra = r.extra := by
  by_cases hempty : ∀ text ∈ r.description, text = ""
  · rw [normalizeDescription_of_empty hempty] at h
    obtain rfl := Except.ok.inj h
    exact ⟨rfl, rfl, rfl⟩
  · push Not at hempty
    obtain ⟨text, htext, hne⟩ := hempty
    obtain ⟨found, -, -, rfl⟩ := (normalizeDescription_eq_ok_iff htext hne).1 h
    exact ⟨rfl, rfl, rfl⟩

-- A text that has been cleaned has no white space at its ends.
theorem trim_of_normalizeDescription {ctx : Context} {r r' : Record}
    (hlexers : ctx.lexers.WriteBlocks) (h : (normalizeDescription ctx r).result = .ok r') :
    ∀ text ∈ r'.description, trim text.toList = text.toList := by
  intro cleaned hcleaned
  by_cases hempty : ∀ text ∈ r.description, text = ""
  · rw [normalizeDescription_of_empty hempty] at h
    obtain rfl := Except.ok.inj h
    rw [hempty cleaned hcleaned]
    rfl
  · push Not at hempty
    obtain ⟨text, htext, hne⟩ := hempty
    obtain ⟨found, -, -, rfl⟩ := (normalizeDescription_eq_ok_iff htext hne).1 h
    rw [← Option.some.inj hcleaned]
    exact trim_cleanDescription hlexers _ text

/-! ## Runs -/

/-- The parts of a normal form that hold what no field stands for. -/
theorem frame_of_normalize {ctx : Context} {r r' : Record} (h : (normalize ctx r).result = .ok r') :
    r'.extra = r.extra ∧
      (r.methods.filter Method.isPublic).mapM (Method.normalize ctx.settings) = .ok r'.methods ∧
      Option.Rel (fun props props' =>
        (normalizeEntries ctx props.entries).result = .ok props'.entries) r.props r'.props := by
  obtain ⟨r₁, r₂, r₃, hmethods, hdescription, hprops, hnames⟩ := normalize_eq_ok_iff.1 h
  obtain ⟨hmethods₁, hr₁⟩ := normalizeMethods_eq_ok_iff.1 hmethods
  obtain ⟨hmethods₂, hprops₂, hextra₂⟩ := normalizeDescription_frame hdescription
  obtain ⟨hr₃, hprops₃⟩ := normalizeProperties_eq_ok_iff.1 hprops
  obtain ⟨_, _, _, hpure⟩ := giveNames_eq_pure ctx r₃
  rw [hpure] at hnames
  obtain rfl := Except.ok.inj hnames
  refine ⟨?_, ?_, ?_⟩
  · change r₃.extra = r.extra
    rw [hr₃]
    change r₂.extra = r.extra
    rw [hextra₂, hr₁]
  · change _ = Except.ok r₃.methods
    rw [hr₃]
    change _ = Except.ok r₂.methods
    rw [hmethods₂, hmethods₁]
  · rw [hprops₂, hr₁] at hprops₃
    exact hprops₃

/-! ## Plain runs -/

/-- A record with a description and nothing else. -/
def Record.ofDescription (text : String) : Record :=
  ⟨some text, none, [], none, Dict.empty, Dict.empty, [], .value .null, none, Dict.empty⟩

end ComponentDocs
