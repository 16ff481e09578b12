import ComponentDocs.Proofs.Example.Fault
import ComponentDocs.Proofs.Example.Unreadable
import ComponentDocs.Proofs.Normal.Examples

/-!
# Failing runs

A run fails over the first comment that cannot be read: those of public methods first, then the
description, then those of properties. In between it fails over an example whose header is refused.
Nothing else makes it fail: `errorOf?_normalize`.
-/

namespace ComponentDocs

open Text

/-! ## What a run reads -/

/-- A text that is read as a comment. Sloppy mode accepts brackets around the names of
parameters. -/
structure CommentText where
  sloppy : Bool
  text : String
  deriving DecidableEq, Repr

namespace CommentText

def error? (c : CommentText) : Option TagError :=
  errorOf? (Comment.read c.sloppy c.text)

def fault? (c : CommentText) : Option Fault :=
  c.error?.map .tag

end CommentText

/-- The text of the comment of a method, without its stars. -/
def Method.comment (m : Method) : CommentText :=
  ⟨true, unwrap (m.docblock.getD "")⟩

def Property.comment (p : Property) : CommentText :=
  ⟨false, p.description.getD ""⟩

namespace Record

/-- The comments of the public methods, and the description. -/
def leadingComments (r : Record) : List CommentText :=
  (r.methods.filter Method.isPublic).map Method.comment ++ [⟨false, r.description.getD ""⟩]

/-- The comments of all properties, those that are hidden among them. -/
def propertyComments (r : Record) : List CommentText :=
  (r.props.map Dict.values).getD [] |>.map Property.comment

/-- The comments that a run reads, in order. -/
def comments (r : Record) : List CommentText :=
  r.leadingComments ++ r.propertyComments

/-- The bodies of the examples that the description asks for. -/
def describedExamples (r : Record) : List String :=
  match r.description with
  | none => []
  | some text =>
    match readTags false text with
    | .error _ => []
    | .ok tags =>
      if (readDoclets text).wantsExample then
        (TagGroups.tagged (r.tags.merge tags) exampleTitle).map Tag.description
      else []

/-- What is wrong with the first of the examples that cannot be read. -/
def exampleFault? (ctx : Context) (r : Record) : Option Fault :=
  r.describedExamples.findSome? fun body => (ctx.judge body).fault?

/-- What ends the run over a record. -/
def fault? (ctx : Context) (r : Record) : Option Fault :=
  (r.leadingComments.findSome? CommentText.fault?).or
    ((r.exampleFault? ctx).or (r.propertyComments.findSome? CommentText.fault?))

end Record

/-! ## Methods -/

/-- Settings with synonyms for what methods are asked for. -/
def Settings.HasGroups (s : Settings) : Prop :=
  ∃ params returns, s.synonyms paramsGroup = .ok params ∧ s.synonyms returnsGroup = .ok returns

theorem Settings.hasGroups_default : Settings.default.HasGroups :=
  ⟨_, _, rfl, rfl⟩

theorem Settings.hasGroups_ofEnv (env : String → Option String) : (Settings.ofEnv env).HasGroups :=
  hasGroups_default

theorem errorOf?_readTags (sloppy : Bool) (text : String) :
    errorOf? (Fault.ofTag (readTags sloppy text)) = CommentText.fault? ⟨sloppy, text⟩ := by
  rw [errorOf?_ofTag, CommentText.fault?, CommentText.error?, readTags]
  cases Comment.read sloppy text <;> rfl

theorem Method.exists_documentedReturns {settings : Settings} (h : settings.HasGroups)
    (tags : TagGroups) (m : Method) : ∃ found, m.documentedReturns settings tags = .ok found := by
  obtain ⟨-, returns, -, hreturns⟩ := h
  unfold documentedReturns
  cases m.returns with
  | some found => exact ⟨some found, rfl⟩
  | none => exact ⟨(tags.select returns).head?.map Returns.ofTag, by rw [hreturns]; rfl⟩

-- With synonyms at hand, only the tags of a method can be wrong.
theorem Method.errorOf?_normalize {settings : Settings} (h : settings.HasGroups) (m : Method) :
    errorOf? (m.normalize settings) = m.comment.fault? := by
  have hread : errorOf? m.readTags = m.comment.fault? := by
    rw [readTags, errorOf?_readTags, comment]
  rw [← hread]
  cases htags : m.readTags with
  | error e =>
    rw [normalize, htags]
    rfl
  | ok tags =>
    obtain ⟨found, hfound⟩ := m.exists_documentedReturns h tags
    obtain ⟨titles, -, htitles, -⟩ := h
    have hnormal : ∃ m', m.normalize settings = .ok m' :=
      ⟨{ m with
          params := m.params.map (Param.document (tags.select titles))
          returns := found
          tags := tags.without settings.allSynonyms },
        normalize_eq_ok_iff.2 ⟨tags, titles, htags, htitles, hfound, rfl⟩⟩
    obtain ⟨m', hm'⟩ := hnormal
    rw [hm']
    rfl

theorem errorOf?_normalizeMethods {ctx : Context} (h : ctx.settings.HasGroups) (r : Record) :
    errorOf? (normalizeMethods ctx r).result =
      ((r.methods.filter Method.isPublic).map Method.comment).findSome? CommentText.fault? := by
  have hnormalize : (fun m => errorOf? (Method.normalize ctx.settings m)) =
      CommentText.fault? ∘ Method.comment := by
    funext m
    rw [Method.errorOf?_normalize h, Function.comp_apply]
  have hmethods : errorOf? (normalizeMethods ctx r).result =
      errorOf? ((r.methods.filter Method.isPublic).mapM (Method.normalize ctx.settings)) := by
    rw [normalizeMethods]
    cases (r.methods.filter Method.isPublic).mapM (Method.normalize ctx.settings) <;> rfl
  rw [hmethods, errorOf?_mapM, hnormalize, List.findSome?_map]

/-! ## Descriptions -/

theorem errorOf?_outcome (ctx : Context) (bodies : List String) (r : Record) :
    errorOf? (r.outcome ctx bodies).result =
      bodies.findSome? fun body => (ctx.judge body).fault? := by
  rw [Record.outcome]
  cases bodies.findSome? fun body => (ctx.judge body).fault? <;> rfl

theorem Record.offered_eq (r : Record) :
    r.offered = if r.doclets.wantsExample then r.exampleBodies else [] := by
  unfold offered hasExamples
  cases r.doclets.wantsExample with
  | false => rfl
  | true =>
    cases r.exampleBodies <;> rfl

theorem Record.describedExamples_of_text {r : Record} {text : String} {tags : TagGroups}
    (hdescription : r.description = some text) (htags : readTags false text = .ok tags)
    (lexers : Lexers) (cssClass : String) :
    r.describedExamples = (r.describe lexers cssClass text tags).offered := by
  rw [offered_eq, describedExamples, hdescription]
  simp only [htags]
  rfl

-- A record without a description asks for no examples.
theorem Record.describedExamples_of_empty {r : Record} (h : ∀ text ∈ r.description, text = "") :
    r.describedExamples = [] := by
  unfold describedExamples
  cases hdescription : r.description with
  | none => rfl
  | some text =>
    rw [h text hdescription]
    rfl

theorem errorOf?_normalizeDescription (ctx : Context) (r : Record) :
    errorOf? (normalizeDescription ctx r).result =
      (CommentText.fault? ⟨false, r.description.getD ""⟩).or (r.exampleFault? ctx) := by
  by_cases hempty : ∀ text ∈ r.description, text = ""
  · have hblank : r.description.getD "" = "" := by
      cases hdescription : r.description with
      | none => rfl
      | some text => exact hempty text hdescription
    rw [normalizeDescription_of_empty hempty, hblank, Record.exampleFault?,
      Record.describedExamples_of_empty hempty]
    rfl
  · push Not at hempty
    obtain ⟨text, hdescription, hne⟩ := hempty
    rw [Option.mem_def] at hdescription
    have hexamples : ∀ tags,
        (Logged.ofExcept (Fault.ofTag (readTags false text))).result = .ok tags →
          errorOf? (resolveExamples ctx
            (r.describe ctx.lexers ctx.settings.highlightCssClass text tags)).result =
              r.exampleFault? ctx := by
      intro tags htags
      have hread : readTags false text = .ok tags := Fault.ofTag_eq_ok_iff.1 htags
      rw [resolveExamples_eq_outcome, errorOf?_outcome, Record.exampleFault?,
        Record.describedExamples_of_text hdescription hread ctx.lexers]
    rw [normalizeDescription_of_text hdescription hne, Logged.errorOf?_bind hexamples,
      Logged.ofExcept_result, errorOf?_readTags, hdescription, Option.getD_some]

/-! ## Properties -/

theorem errorOf?_normalizeProperty (ctx : Context) (name : String) (p : Property) :
    errorOf? (normalizeProperty ctx name p).result = p.comment.fault? := by
  rw [normalizeProperty, Logged.errorOf?_bind_of_none, Logged.ofExcept_result, errorOf?_ofTag]
  · rfl
  · intro comment _
    split <;> rfl

theorem errorOf?_normalizeEntries (ctx : Context) (entries : List (String × Property)) :
    errorOf? (normalizeEntries ctx entries).result =
      ((entries.map Prod.snd).map Property.comment).findSome? CommentText.fault? := by
  induction entries with
  | nil => rfl
  | cons e rest ih =>
    obtain ⟨name, p⟩ := e
    have hrest (kept : Option Property) : errorOf? (normalizeEntries ctx rest >>= fun others =>
        (pure ((kept.map (name, ·)).toList ++ others) : Logged _)).result =
          errorOf? (normalizeEntries ctx rest).result :=
      Logged.errorOf?_bind_of_none fun _ _ => rfl
    rw [normalizeEntries, Logged.errorOf?_bind fun kept _ => hrest kept,
      errorOf?_normalizeProperty, ih, List.map_cons, List.map_cons, List.findSome?_cons]
    cases p.comment.fault? <;> rfl

theorem errorOf?_normalizeProperties (ctx : Context) (r : Record) :
    errorOf? (normalizeProperties ctx r).result =
      r.propertyComments.findSome? CommentText.fault? := by
  unfold normalizeProperties Record.propertyComments
  cases r.props with
  | none => rfl
  | some props =>
    have hvalues : props.values = props.entries.map Prod.snd := rfl
    rw [Option.map_some, Option.getD_some, hvalues, ← errorOf?_normalizeEntries ctx]
    exact Logged.errorOf?_bind_of_none fun _ _ => rfl

/-! ## Runs -/

theorem errorOf?_runStages_cons {ctx : Context} {r : Record} {stage : Stage} {rest : List Stage}
    {later : Option Fault}
    (h : ∀ r₁, (stage.run ctx r).result = .ok r₁ →
      errorOf? (runStages ctx r₁ rest).result = later) :
    errorOf? (runStages ctx r (stage :: rest)).result =
      (errorOf? (stage.run ctx r).result).or later := by
  have hstage : errorOf? (stage.run ctx r >>= fun r₁ => runStages ctx r₁ rest).result =
      (errorOf? (stage.run ctx r).result).or later := Logged.errorOf?_bind h
  exact Logged.errorOf?_bind fun _ _ => hstage

theorem errorOf?_nameStages (ctx : Context) (r : Record) :
    errorOf? (runStages ctx r [.displayName, .visibleName]).result = none := by
  have hvisible (r₁ : Record) : errorOf? (runStages ctx r₁ [.visibleName]).result = none := by
    obtain ⟨_, _, hpure⟩ := promoteVisibleName_eq_pure ctx r₁
    rw [errorOf?_runStages_cons fun _ _ => rfl, Option.or_none, Stage.run, hpure]
    rfl
  obtain ⟨_, hpure⟩ := fillDisplayName_eq_pure ctx r
  rw [errorOf?_runStages_cons fun r₁ _ => hvisible r₁, Option.or_none, Stage.run, hpure]
  rfl

theorem errorOf?_propertyStages (ctx : Context) (r : Record) :
    errorOf? (runStages ctx r [.props, .displayName, .visibleName]).result =
      r.propertyComments.findSome? CommentText.fault? := by
  rw [errorOf?_runStages_cons fun r₁ _ => errorOf?_nameStages ctx r₁, Option.or_none, Stage.run,
    errorOf?_normalizeProperties]

theorem errorOf?_descriptionStages (ctx : Context) (r : Record) :
    errorOf? (runStages ctx r [.description, .props, .displayName, .visibleName]).result =
      (CommentText.fault? ⟨false, r.description.getD ""⟩).or
        ((r.exampleFault? ctx).or (r.propertyComments.findSome? CommentText.fault?)) := by
  have hlater : ∀ r₁, (Stage.run ctx .description r).result = .ok r₁ →
      errorOf? (runStages ctx r₁ [.props, .displayName, .visibleName]).result =
        r.propertyComments.findSome? CommentText.fault? := by
    intro r₁ hr₁
    obtain ⟨-, hprops, -⟩ := normalizeDescription_frame hr₁
    rw [errorOf?_propertyStages, Record.propertyComments, hprops, Record.propertyComments]
  rw [errorOf?_runStages_cons hlater, Stage.run, errorOf?_normalizeDescription, Option.or_assoc]

-- What ends a run is said by the record and by what its examples are in the run.
theorem errorOf?_normalize {ctx : Context} (h : ctx.settings.HasGroups) (r : Record) :
    errorOf? (normalize ctx r).result = r.fault? ctx := by
  have hlater : ∀ r₁, (Stage.run ctx .methods r).result = .ok r₁ →
      errorOf? (runStages ctx r₁ [.description, .props, .displayName, .visibleName]).result =
        (CommentText.fault? ⟨false, r.description.getD ""⟩).or
          ((r.exampleFault? ctx).or (r.propertyComments.findSome? CommentText.fault?)) := by
    intro r₁ hr₁
    obtain ⟨-, hframe⟩ := normalizeMethods_eq_ok_iff.1 hr₁
    rw [errorOf?_descriptionStages, hframe]
    rfl
  rw [normalize, Stage.all, errorOf?_runStages_cons hlater, Stage.run, errorOf?_normalizeMethods h,
    Record.fault?, Record.leadingComments, List.findSome?_append, List.findSome?_singleton,
    Option.or_assoc]

/-! ## Faults -/

theorem CommentText.findSome?_fault? (comments : List CommentText) :
    comments.findSome? fault? = (comments.findSome? error?).map .tag := by
  induction comments with
  | nil => rfl
  | cons c rest ih =>
    rw [List.findSome?_cons, List.findSome?_cons, ih, fault?]
    cases c.error? <;> rfl

theorem Record.fault?_of_exampleFault? {ctx : Context} {r : Record}
    (h : r.exampleFault? ctx = none) :
    r.fault? ctx = (r.comments.findSome? CommentText.error?).map .tag := by
  rw [fault?, h, Option.none_or, ← List.findSome?_append, ← comments,
    CommentText.findSome?_fault?]

-- Only its header makes an example end a run.
theorem Record.grounds_of_exampleFault? {ctx : Context} {r : Record} {fault : Fault}
    (h : r.exampleFault? ctx = some fault) :
    ∃ refusal, fault = .refused refusal ∧
      ∃ body ∈ r.describedExamples, refusal.Grounds ctx.room body.toList := by
  obtain ⟨body, hmem, hbody⟩ := List.exists_of_findSome?_eq_some h
  obtain ⟨refusal, hfault, hgrounds⟩ := grounds_of_fault? hbody
  exact ⟨refusal, hfault, body, hmem, hgrounds⟩

-- An example has no tag that is wrong.
theorem Record.exampleFault?_ne_tag (ctx : Context) (r : Record) (e : TagError) :
    r.exampleFault? ctx ≠ some (.tag e) := by
  intro h
  obtain ⟨refusal, hrefusal, -⟩ := Record.grounds_of_exampleFault? h
  cases hrefusal

theorem CommentText.tag_of_findSome? {comments : List CommentText} {fault : Fault}
    (h : comments.findSome? CommentText.fault? = some fault) : ∃ e, fault = .tag e := by
  rw [findSome?_fault?] at h
  obtain ⟨e, -, rfl⟩ := Option.map_eq_some_iff.1 h
  exact ⟨e, rfl⟩

-- Whatever ends a run is the tag of a comment or the header of an example.
theorem Record.fault?_cases {ctx : Context} {r : Record} {fault : Fault}
    (h : r.fault? ctx = some fault) :
    (∃ e, fault = .tag e) ∨ r.exampleFault? ctx = some fault := by
  rw [fault?, Option.or_eq_some_iff, Option.or_eq_some_iff] at h
  rcases h with h | ⟨-, h | ⟨-, h⟩⟩
  · exact .inl (CommentText.tag_of_findSome? h)
  · exact .inr h
  · exact .inl (CommentText.tag_of_findSome? h)

-- The synonyms of the settings are no matter of the record.
theorem Record.fault?_ne_noSynonyms (ctx : Context) (r : Record) (group : String) :
    r.fault? ctx ≠ some (.noSynonyms group) := by
  intro h
  obtain ⟨e, he⟩ | hexample := Record.fault?_cases h
  · cases he
  · obtain ⟨refusal, hrefusal, -⟩ := Record.grounds_of_exampleFault? hexample
    cases hrefusal

-- A tag that ends a run is the first one that is wrong, whatever its examples are.
theorem Record.error?_of_fault? {ctx : Context} {r : Record} {e : TagError}
    (h : r.fault? ctx = some (.tag e)) :
    r.comments.findSome? CommentText.error? = some e := by
  have hfirst : r.comments.findSome? CommentText.fault? = some (.tag e) := by
    rw [comments, List.findSome?_append]
    rw [fault?] at h
    cases hexample : r.exampleFault? ctx with
    | none => rwa [hexample, Option.none_or] at h
    | some fault =>
      rw [hexample, Option.some_or] at h
      cases hleading : r.leadingComments.findSome? CommentText.fault? with
      | none =>
        rw [hleading, Option.none_or] at h
        rw [h] at hexample
        exact absurd hexample (r.exampleFault?_ne_tag ctx e)
      | some first => rwa [hleading] at h
  rw [CommentText.findSome?_fault?] at hfirst
  obtain ⟨e', he', heq⟩ := Option.map_eq_some_iff.1 hfirst
  rwa [Fault.tag.inj heq] at he'

-- Examples whose brackets are too deep end a run unless they are files; about all others the files
-- have no say.
theorem Record.exampleFault?_congr {ctx ctx' : Context} {r : Record} (hroom : ctx'.room = ctx.room)
    (hfiles : ∀ body ∈ r.describedExamples, ∀ container,
      inlineFault? ctx.room body = some (.refused (.tooDeep container)) →
        (ctx'.judge body).file?.isSome = (ctx.judge body).file?.isSome) :
    r.exampleFault? ctx' = r.exampleFault? ctx := by
  rw [exampleFault?, exampleFault?, ← List.head?_filterMap, ← List.head?_filterMap]
  refine congrArg _ (List.filterMap_congr fun body hbody => ?_)
  by_cases hdeep : ∃ container, inlineFault? ctx.room body = some (.refused (.tooDeep container))
  · obtain ⟨container, hcontainer⟩ := hdeep
    rw [fault?_judge, fault?_judge, hfiles body hbody container hcontainer, hroom]
  · have hdeep' : ∀ container, inlineFault? ctx.room body ≠ some (.refused (.tooDeep container)) :=
      not_exists.1 hdeep
    rw [fault?_judge_of_ne_tooDeep hdeep', fault?_judge_of_ne_tooDeep (by rwa [hroom]), hroom]

/-- A run with the default settings or those of an environment fails over the first comment of a
public method, the description or a property that cannot be read, or over an example of the
description whose header has an integer that is too long or brackets that are too deep, and over
nothing else. Methods that are not public do not decide whether it fails, and neither do the source
file and the files, except that a body with brackets that are too deep ends no run when it names a
file. -/
theorem normalize_fails {ctx : Context}
    (h : ctx.settings = .default ∨ ∃ env, ctx.settings = .ofEnv env) (r : Record) :
    (∀ fault, (normalize ctx r).result = .error fault ↔ r.fault? ctx = some fault) ∧
      (∀ e, (normalize ctx r).result = .error (.tag e) →
        r.comments.findSome? CommentText.error? = some e) ∧
      (r.exampleFault? ctx = none → ∀ e, r.comments.findSome? CommentText.error? = some e →
        (normalize ctx r).result = .error (.tag e)) ∧
      (∀ fault, r.exampleFault? ctx = some fault → ∃ refusal, fault = .refused refusal ∧
        ∃ body ∈ r.describedExamples, refusal.Grounds ctx.room body.toList) ∧
      ∀ (ctx' : Context) (methods : List Method),
        (ctx'.settings = .default ∨ ∃ env, ctx'.settings = .ofEnv env) → ctx'.room = ctx.room →
        methods.filter Method.isPublic = r.methods.filter Method.isPublic →
        (∀ body ∈ r.describedExamples, ∀ container,
          inlineFault? ctx.room body = some (.refused (.tooDeep container)) →
            (ctx'.judge body).file?.isSome = (ctx.judge body).file?.isSome) →
          errorOf? (normalize ctx' { r with methods := methods }).result =
            errorOf? (normalize ctx r).result := by
  have hgroups {s : Settings} (hs : s = .default ∨ ∃ env, s = .ofEnv env) : s.HasGroups := by
    rcases hs with rfl | ⟨env, rfl⟩
    · exact Settings.hasGroups_default
    · exact Settings.hasGroups_ofEnv env
  have hfault : ∀ fault, (normalize ctx r).result = .error fault ↔ r.fault? ctx = some fault := by
    intro fault
    rw [← errorOf?_normalize (hgroups h), errorOf?_eq_some_iff]
  refine ⟨hfault, fun e he => Record.error?_of_fault? ((hfault _).1 he), ?_,
    fun _ => Record.grounds_of_exampleFault?, ?_⟩
  · intro hexample e he
    rw [hfault, Record.fault?_of_exampleFault? hexample, he]
    rfl
  · intro ctx' methods h' hroom hpublic hfiles
    have hexamples : Record.exampleFault? ctx' { r with methods := methods } =
        r.exampleFault? ctx := Record.exampleFault?_congr hroom hfiles
    rw [errorOf?_normalize (hgroups h'), errorOf?_normalize (hgroups h), Record.fault?,
      Record.fault?, Record.leadingComments, Record.leadingComments, hpublic, hexamples]
    rfl

/-- A record with a method that is not public and a public one, both with a type that is not
closed. -/
def openBraceRecord : Record :=
  { Record.ofDescription "A button." with
    methods := [⟨"reset", some "@param \x7bx", [], none, [], Dict.empty, none, Dict.empty⟩,
      ⟨"focus", some "@public\n@param \x7bx", [], none, [], Dict.empty, none, Dict.empty⟩] }

/-- The public method ends the run. -/
theorem normalize_fails_openBraceRecord :
    Context.plain.settings = .default ∧
      (normalize .plain openBraceRecord).result =
        .error (.tag ⟨.unbalancedBraces, 2, "\x7bx"⟩) := by
  have hfault : openBraceRecord.fault? .plain = some (.tag ⟨.unbalancedBraces, 2, "\x7bx"⟩) := by
    decide +kernel
  exact ⟨rfl, ((normalize_fails (.inl rfl) openBraceRecord).1 _).2 hfault⟩

/-! ## A run that an example ends -/

/-- A description that is one example, a line that opens code with modifiers. -/
def headedDescription (modifiers : List Char) : List Char :=
  '@' :: exampleTitle.toList ++ ' ' :: headedExample modifiers

section

variable {modifiers : List Char}

theorem commentLines_headedDescription (h : IsRun modifiers) :
    commentLines (headedDescription modifiers) = [⟨1, false, headedDescription modifiers⟩] := by
  have hline : '\n' ∉ headedDescription modifiers := by
    intro hmem
    rcases List.mem_append.1 hmem with hmem | hmem
    · exact absurd hmem (by decide)
    · rcases List.mem_cons.1 hmem with hmem | hmem
      · exact absurd hmem (by decide)
      · exact absurd (isLineBreak_headedExample h _ hmem) (by decide)
  rw [commentLines_eq, lines_of_newline_not_mem hline]
  rfl

theorem commentSections_headedDescription (h : IsRun modifiers) :
    commentSections (headedDescription modifiers) =
      ([], [(⟨1, exampleTitle.toList, ' ' :: headedExample modifiers⟩, [])]) := by
  have htitled : titled? (headedDescription modifiers) =
      some (exampleTitle.toList, ' ' :: headedExample modifiers) := by
    have hat : ¬ isBlank '@' := by decide
    have hword : exampleTitle.toList.all isWord = true := by decide +kernel
    rw [titled?, headedDescription, List.cons_append, trimLeft_cons_of_not_blank hat,
      marker?_eq_some_iff]
    refine ⟨rfl, by decide, List.all_eq_true.1 hword, fun c hc => ?_⟩
    obtain rfl := Option.some.inj hc
    rfl
  have htag : CommentLine.tagLine? ⟨1, false, headedDescription modifiers⟩ =
      some ⟨1, exampleTitle.toList, ' ' :: headedExample modifiers⟩ := by
    rw [CommentLine.tagLine?, htitled]
    rfl
  rw [commentSections, commentLines_headedDescription h, sections_cons_some htag, sections_nil]

theorem read_headedDescription (h : IsRun modifiers) :
    Comment.read false (String.ofList (headedDescription modifiers)) =
      .ok ⟨"", [⟨exampleTitle, String.ofList (headedExample modifiers), none, none, none⟩]⟩ := by
  have htrim := trim_headedExample h
  have htext : verbatimText (' ' :: headedExample modifiers) [] = headedExample modifiers := by
    have hfirst : trim (' ' :: headedExample modifiers) = headedExample modifiers := by
      rw [trim_cons_of_blank (by decide), htrim]
    have hne : headedExample modifiers ≠ [] := List.cons_ne_nil _ _
    simp only [verbatimText, hfirst, if_neg hne, unlines, (trim_eq_self_iff.1 htrim).2]
  have htag : tagOfLines false exampleTitle (' ' :: headedExample modifiers) [] =
      .ok ⟨exampleTitle, String.ofList (headedExample modifiers), none, none, none⟩ := by
    have hform : TagForm.ofTitle exampleTitle = .verbatim := rfl
    simp only [tagOfLines, hform, htext]
  rw [Comment.read_eq_ok_iff, String.toList_ofList, commentSections_headedDescription h]
  refine ⟨mapM_eq_ok_iff.2 (.cons (TagLine.read_eq_ok_iff.2 ?_) .nil), rfl⟩
  rw [String.ofList_toList]
  exact htag

-- Modifiers have no white space, and the rest of the line has single spaces only.
theorem eq_space_of_mem_headedDescription (h : IsRun modifiers) {c : Char}
    (hc : c ∈ headedDescription modifiers) (hblank : isBlank c) : c = ' ' := by
  have hfront : ('@' :: exampleTitle.toList ++ ' ' :: headedExample []).all
      (fun c => !isBlank c || c == ' ') = true := by decide +kernel
  have hsplit : headedDescription modifiers =
      '@' :: exampleTitle.toList ++ ' ' :: headedExample [] ++ modifiers := rfl
  rw [hsplit] at hc
  rcases List.mem_append.1 hc with hmem | hmem
  · have hspace := List.all_eq_true.1 hfront c hmem
    rw [hblank] at hspace
    exact beq_iff_eq.1 hspace
  · exact absurd hblank (h.2 c hmem)

theorem wantsExample_headedDescription (h : IsRun modifiers) :
    (readDoclets (String.ofList (headedDescription modifiers))).wantsExample := by
  rw [wantsExample_readDoclets_iff]
  · rw [String.toList_ofList, commentSections_headedDescription h]
    refine ⟨_, List.mem_singleton_self _, String.ofList_toList, fun c hc => ?_⟩
    obtain rfl := Option.some.inj hc
    decide
  · rw [String.toList_ofList]
    exact fun c hc hblank => .inl (eq_space_of_mem_headedDescription h hc hblank)
  · rw [String.toList_ofList, commentLines_headedDescription h]
    intro line hmem hfenced
    rw [List.mem_singleton.1 hmem] at hfenced
    cases hfenced

/-- A record with an example that opens code with modifiers, and a property with a tag that has no
name. -/
def headedRecord (modifiers : List Char) : Record :=
  { Record.ofDescription (String.ofList (headedDescription modifiers)) with
    props := some (Dict.ofList
      [("size", ⟨some "@param", none, false, ⟨none, false⟩, Dict.empty, Dict.empty⟩)]) }

theorem describedExamples_headedRecord (h : IsRun modifiers) :
    (headedRecord modifiers).describedExamples = [String.ofList (headedExample modifiers)] := by
  have htags : readTags false (String.ofList (headedDescription modifiers)) = .ok
      (TagGroups.ofTags
        [⟨exampleTitle, String.ofList (headedExample modifiers), none, none, none⟩]) := by
    rw [readTags, read_headedDescription h]
    rfl
  simp only [Record.describedExamples, headedRecord, Record.ofDescription, htags,
    if_pos (wantsExample_headedDescription h)]
  rfl

theorem fault?_headedRecord {refusal : Json.Refusal}
    (h : RefusedRun Context.plain.room modifiers refusal) :
    (headedRecord modifiers).fault? .plain = some (.refused refusal) := by
  have hleading : (headedRecord modifiers).leadingComments =
      [⟨false, String.ofList (headedDescription modifiers)⟩] := rfl
  have hread : CommentText.fault? ⟨false, String.ofList (headedDescription modifiers)⟩ = none := by
    rw [CommentText.fault?, CommentText.error?, read_headedDescription h.run]
    rfl
  have hjudge : Context.plain.judge (String.ofList (headedExample modifiers)) =
      .refused refusal := judgeExample_headedExample h none
  rw [Record.fault?, hleading, List.findSome?_singleton, hread, Option.none_or,
    Record.exampleFault?, describedExamples_headedRecord h.run, List.findSome?_singleton, hjudge]
  rfl

theorem error?_headedRecord (h : IsRun modifiers) :
    (headedRecord modifiers).comments.findSome? CommentText.error? =
      some ⟨.missingIdentifier "param", 1, ""⟩ := by
  have hcomments : (headedRecord modifiers).comments =
      [⟨false, String.ofList (headedDescription modifiers)⟩, ⟨false, "@param"⟩] := rfl
  have hread : CommentText.error? ⟨false, String.ofList (headedDescription modifiers)⟩ = none := by
    rw [CommentText.error?, read_headedDescription h]
    rfl
  rw [hcomments, List.findSome?_cons, hread]
  decide +kernel

theorem normalize_of_refusedRun {refusal : Json.Refusal}
    (h : RefusedRun Context.plain.room modifiers refusal) :
    (normalize .plain (headedRecord modifiers)).result = .error (.refused refusal) ∧
      (headedRecord modifiers).comments.findSome? CommentText.error? =
        some ⟨.missingIdentifier "param", 1, ""⟩ := by
  refine ⟨?_, error?_headedRecord h.run⟩
  rw [← errorOf?_eq_some_iff, errorOf?_normalize Settings.hasGroups_default, fault?_headedRecord h]

end

/-- The example ends the run, so the tag of the property is not reported: with an integer of too
many digits, and with more brackets inside one another than there is room for. -/
theorem normalize_headedRecord :
    ((normalize .plain (headedRecord ('-' :: List.replicate 4301 '1'))).result =
        .error (.refused (.longInteger 4301)) ∧
      (headedRecord ('-' :: List.replicate 4301 '1')).comments.findSome? CommentText.error? =
        some ⟨.missingIdentifier "param", 1, ""⟩) ∧
      (normalize .plain (headedRecord (List.replicate 991 '['))).result =
        .error (.refused (.tooDeep .array)) ∧
      (headedRecord (List.replicate 991 '[')).comments.findSome? CommentText.error? =
        some ⟨.missingIdentifier "param", 1, ""⟩ :=
  ⟨normalize_of_refusedRun (refusedRun_ones 990),
    normalize_of_refusedRun (refusedRun_brackets 990)⟩

end ComponentDocs
