import ComponentDocs.Proofs.Normal.Stages
import ComponentDocs.Proofs.Record.Bare

/-!
# Normal forms of bare records

No stage looks at what no field stands for, so a bare record has the bare normal form, with the same
log: `normalize_bare`.
-/

namespace ComponentDocs

open Json

/-! ## Methods -/

theorem Param.typeFrom_bare (p : Param) (tag : Tag) :
    p.bare.typeFrom tag = (p.typeFrom tag).map TypeInfo.bare := by
  have hname : p.bare.type.map TypeInfo.name = p.type.map TypeInfo.name :=
    Option.map_map ..
  unfold typeFrom
  cases tag.type with
  | none => rfl
  | some name =>
    simp only [hname]
    split <;> rfl

theorem Param.document_bare (tags : List Tag) (p : Param) :
    p.bare.document tags = (p.document tags).bare := by
  have hwith (tag : Tag) : p.bare.withTag tag = (p.withTag tag).bare := by
    rw [withTag, typeFrom_bare]
    rfl
  have hname : p.bare.name = p.name := rfl
  rw [document, document, hname]
  cases tags.find? fun tag => tag.name = some p.name with
  | none => rfl
  | some tag => exact hwith tag

theorem Method.documentedReturns_bare (settings : Settings) (tags : TagGroups) (m : Method) :
    m.bare.documentedReturns settings tags =
      Option.map Returns.bare <$> m.documentedReturns settings tags := by
  have hreturns : m.bare.returns = m.returns.map Returns.bare := rfl
  have htag : Returns.bare ∘ Returns.ofTag = Returns.ofTag := by
    funext tag
    obtain ⟨title, description, name, type, default⟩ := tag
    cases type <;> rfl
  rw [documentedReturns, documentedReturns, hreturns]
  cases m.returns with
  | some returns => rfl
  | none => simp only [Option.map_none, map_bind, map_pure, Option.map_map, htag]

theorem Method.normalize_bare (settings : Settings) (m : Method) :
    m.bare.normalize settings = Method.bare <$> m.normalize settings := by
  have hreadTags : m.bare.readTags = m.readTags := rfl
  have hparams (tags : List Tag) : m.bare.params.map (Param.document tags) =
      (m.params.map (Param.document tags)).map Param.bare := by
    change (m.params.map Param.bare).map (Param.document tags) = _
    rw [List.map_map, List.map_map]
    exact List.map_congr_left fun p _ => p.document_bare tags
  simp only [Method.normalize, hreadTags, hparams, documentedReturns_bare, map_bind, bind_map_left,
    map_pure]
  rfl

-- A function that passes through the work on each element passes through the work on all of them.
theorem mapM_map_of_commutes {ε α : Type} {work : α → Except ε α} {f : α → α}
    (h : ∀ a, work (f a) = f <$> work a) (l : List α) :
    (l.map f).mapM work = List.map f <$> l.mapM work := by
  induction l with
  | nil => rfl
  | cons a rest ih =>
    simp only [List.map_cons, List.mapM_cons, h, ih, map_bind, bind_map_left, map_pure]

theorem normalizeMethods_bare (ctx : Context) (r : Record) :
    normalizeMethods ctx r.bare = Record.bare <$> normalizeMethods ctx r := by
  have hpublic : r.bare.methods.filter Method.isPublic =
      (r.methods.filter Method.isPublic).map Method.bare :=
    List.filter_map ..
  rw [normalizeMethods, hpublic, mapM_map_of_commutes (Method.normalize_bare ctx.settings),
    normalizeMethods, ← Logged.ofExcept_map]
  refine congrArg Logged.ofExcept ?_
  cases (r.methods.filter Method.isPublic).mapM (Method.normalize ctx.settings) <;> rfl

/-! ## Descriptions -/

theorem Record.outcome_bare (ctx : Context) (bodies : List String) (r : Record) :
    r.bare.outcome ctx bodies = Record.bare <$> r.outcome ctx bodies := by
  rw [Logged.map_eq, outcome, outcome]
  cases bodies.findSome? fun body => (ctx.judge body).fault? <;> rfl

theorem resolveExamples_bare (ctx : Context) (r : Record) :
    resolveExamples ctx r.bare = Record.bare <$> resolveExamples ctx r := by
  rw [resolveExamples_eq_outcome, resolveExamples_eq_outcome, ← Record.outcome_bare]
  rfl

theorem normalizeDescription_bare (ctx : Context) (r : Record) :
    normalizeDescription ctx r.bare = Record.bare <$> normalizeDescription ctx r := by
  by_cases hempty : ∀ text ∈ r.description, text = ""
  · have hempty' : ∀ text ∈ r.bare.description, text = "" := hempty
    rw [normalizeDescription_of_empty hempty, normalizeDescription_of_empty hempty', map_pure]
    rfl
  · push Not at hempty
    obtain ⟨text, htext, hne⟩ := hempty
    have htext' : r.bare.description = some text := htext
    have hdescribe (tags : TagGroups) :
        r.bare.describe ctx.lexers ctx.settings.highlightCssClass text tags =
          (r.describe ctx.lexers ctx.settings.highlightCssClass text tags).bare := rfl
    simp only [normalizeDescription_of_text htext hne, normalizeDescription_of_text htext' hne,
      hdescribe, resolveExamples_bare, map_bind]

/-! ## Properties -/

theorem normalizeProperty_bare (ctx : Context) (name : String) (p : Property) :
    normalizeProperty ctx name p.bare =
      Option.map Property.bare <$> normalizeProperty ctx name p := by
  have hdescription : p.bare.description = p.description := rfl
  have hhidden : p.bare.isHidden ctx.settings = p.isHidden ctx.settings := rfl
  rw [normalizeProperty, normalizeProperty, hdescription, hhidden, map_bind]
  refine congrArg _ (funext fun comment => ?_)
  cases p.isHidden ctx.settings <;> rfl

theorem normalizeEntries_bare (ctx : Context) (entries : List (String × Property)) :
    normalizeEntries ctx (entries.map fun e => (e.1, e.2.bare)) =
      List.map (fun e => (e.1, e.2.bare)) <$> normalizeEntries ctx entries := by
  induction entries with
  | nil => rfl
  | cons e rest ih =>
    obtain ⟨name, p⟩ := e
    have hkept (found : Option Property) (others : List (String × Property)) :
        ((found.map Property.bare).map (name, ·)).toList ++
            others.map (fun e => (e.1, e.2.bare)) =
          ((found.map (name, ·)).toList ++ others).map fun e => (e.1, e.2.bare) := by
      cases found <;> rfl
    simp only [List.map_cons, normalizeEntries, normalizeProperty_bare, ih, map_bind, bind_map_left,
      map_pure, hkept]

theorem normalizeProperties_bare (ctx : Context) (r : Record) :
    normalizeProperties ctx r.bare = Record.bare <$> normalizeProperties ctx r := by
  have hprops : r.bare.props = r.props.map fun props => props.map Property.bare := rfl
  rw [normalizeProperties, normalizeProperties, hprops]
  cases r.props with
  | none => rfl
  | some props =>
    have hentries : (props.map Property.bare).entries =
        props.entries.map fun e => (e.1, e.2.bare) := rfl
    simp only [Option.map_some, hentries, normalizeEntries_bare, map_bind, bind_map_left, map_pure,
      Dict.ofList_map]
    rfl

/-! ## Runs -/

theorem fillDisplayName_bare (ctx : Context) (r : Record) :
    fillDisplayName ctx r.bare = Record.bare <$> fillDisplayName ctx r := by
  have hname : r.bare.displayName = r.displayName := rfl
  unfold fillDisplayName
  rw [hname]
  split
  · rfl
  · rfl
  · split <;> rfl

theorem promoteVisibleName_bare (ctx : Context) (r : Record) :
    promoteVisibleName ctx r.bare = Record.bare <$> promoteVisibleName ctx r := by
  have hdoclets : r.bare.doclets = r.doclets := rfl
  unfold promoteVisibleName
  rw [hdoclets]
  cases r.doclets.get? ctx.settings.labelDoclet with
  | none => rfl
  | some label =>
    by_cases hset : label.isSet
    · simp only [if_pos hset]
      rfl
    · simp only [if_neg hset]
      rfl

theorem Stage.run_bare (ctx : Context) (stage : Stage) (r : Record) :
    stage.run ctx r.bare = Record.bare <$> stage.run ctx r := by
  cases stage with
  | methods => exact normalizeMethods_bare ctx r
  | description => exact normalizeDescription_bare ctx r
  | props => exact normalizeProperties_bare ctx r
  | displayName => exact fillDisplayName_bare ctx r
  | visibleName => exact promoteVisibleName_bare ctx r

theorem runStages_bare (ctx : Context) (r : Record) (stages : List Stage) :
    runStages ctx r.bare stages = Record.bare <$> runStages ctx r stages := by
  induction stages generalizing r with
  | nil => rfl
  | cons stage rest ih =>
    simp only [runStages, Stage.run_bare, ih, map_bind, bind_map_left]

/-- A bare record has the bare normal form, with the same log. -/
theorem normalize_bare (ctx : Context) (r : Record) :
    normalize ctx r.bare = Record.bare <$> normalize ctx r :=
  runStages_bare ctx r Stage.all

end ComponentDocs
