import ComponentDocs.Proofs.Doclet.Agreement
import ComponentDocs.Proofs.Example.Unreadable
import ComponentDocs.Proofs.Normal.Idempotence

/-!
# Examples of a description

A description that has the example doclet loses none of its example tags: each has a place in the
record or a warning in the log, `normalizeDescription_accounts`. In plain text the doclet is there
as soon as one line has the tag with white space or the end of the line after it.
-/

namespace ComponentDocs

open Text

/-- What becomes of the example `body`, which stands between other examples, when the stage takes
the record `r` to `r'`. -/
inductive Accounted (ctx : Context) (r r' : Record) (log : List Event) (before : List String)
    (body : String) (after : List String) : Prop
  /-- It is among the examples. -/
  | rendered (h : r'.examples = r.examples ++ before.filter (ctx.judge · == .rendered) ++
      body :: after.filter (ctx.judge · == .rendered))
  /-- Its file has been loaded, and only a file after it takes its place. -/
  | loaded (path : Path) (hfile : ctx.judge body = .file path)
      (h : r'.external = ctx.loadLast
        (ctx.loadExample (Specifier.mk ctx.settings.examplesLoader path.text).text) after)
  /-- It has its warning. -/
  | reported (warning : Event) (hwarning : (ctx.judge body).warning? ctx.source = some warning)
      (hlevel : warning.level = .warning)
      (h : log = ctx.report before ++ warning :: ctx.report after)

theorem ExampleVerdict.level_of_warning? {source : Option String} {verdict : ExampleVerdict}
    {warning : Event} (h : verdict.warning? source = some warning) : warning.level = .warning := by
  rw [warning?_eq_filter, Option.filter_eq_some_iff] at h
  exact beq_iff_eq.1 h.2

theorem Context.loadLast_append (ctx : Context) (external : ExternalExample)
    (before after : List String) :
    ctx.loadLast external (before ++ after) =
      ctx.loadLast (ctx.loadLast external before) after := by
  induction before generalizing external with
  | nil => rfl
  | cons body rest ih =>
    rw [List.cons_append, loadLast_cons, ih, ← loadLast_cons]

theorem judgeExample_ne_blank {room : Nat} {files : FileSystem} {source : Option String}
    {body : String} (h : trim body.toList ≠ []) :
    judgeExample room files source body ≠ .blank := by
  unfold judgeExample
  split
  · rename_i hblank
    exact absurd hblank h
  · dsimp only
    split
    · exact ExampleVerdict.noConfusion
    · split
      · unfold judgeInline
        dsimp only
        split
        · exact ExampleVerdict.noConfusion
        · split <;> exact ExampleVerdict.noConfusion
      · exact ExampleVerdict.noConfusion

theorem ExampleVerdict.event?_of_warning? {source : Option String} {verdict : ExampleVerdict}
    {warning : Event} (h : verdict.warning? source = some warning) :
    verdict.event? source = some warning := by
  cases verdict with
  | file path => cases h
  | _ => exact h

theorem Context.report_of_warning? {ctx : Context} {body : String} {warning : Event}
    (h : (ctx.judge body).warning? ctx.source = some warning) (before after : List String) :
    ctx.report (before ++ body :: after) = ctx.report before ++ warning :: ctx.report after := by
  rw [report_append]
  congr 1
  exact List.filterMap_cons_some (ExampleVerdict.event?_of_warning? h)

-- One of the examples of a record, when all of them are readable.
theorem Record.accounted_withExamples {ctx : Context} {r r₀ : Record} {before after : List String}
    {body : String} (hexamples : r₀.examples = r.examples) (hreadable : (ctx.judge body).isReadable)
    (hblank : trim body.toList ≠ []) :
    Accounted ctx r (r₀.withExamples ctx (before ++ body :: after))
      (ctx.report (before ++ body :: after)) before body after := by
  have hreported {warning : Event} (h : (ctx.judge body).warning? ctx.source = some warning) :
      Accounted ctx r (r₀.withExamples ctx (before ++ body :: after))
        (ctx.report (before ++ body :: after)) before body after :=
    .reported warning h (ExampleVerdict.level_of_warning? h) (Context.report_of_warning? h _ _)
  cases hverdict : ctx.judge body with
  | blank => exact absurd hverdict (judgeExample_ne_blank hblank)
  | refused refusal =>
    rw [hverdict] at hreadable
    cases hreadable
  | rendered =>
    apply Accounted.rendered
    have hbody : (ctx.judge body == .rendered) = true := beq_iff_eq.2 hverdict
    change r₀.examples ++ (before ++ body :: after).filter (ctx.judge · == .rendered) = _
    rw [hexamples, List.filter_append, List.filter_cons, if_pos hbody, List.append_assoc]
  | file path =>
    refine Accounted.loaded path hverdict ?_
    have hload (external : ExternalExample) : ctx.loadLast external [body] =
        ctx.loadExample (Specifier.mk ctx.settings.examplesLoader path.text).text := by
      rw [Context.loadLast, List.filterMap_cons, hverdict]
      rfl
    change ctx.loadLast r₀.external (before ++ body :: after) = _
    rw [Context.loadLast_append, Context.loadLast_cons, hload]
  | unrendered => exact hreported (by rw [hverdict]; rfl)
  | missing reference => exact hreported (by rw [hverdict]; rfl)

/-! ## The tags of a description -/

theorem TagGroups.tagged_merge {groups found : TagGroups} {title : String}
    (h : found.tagged title ≠ []) : TagGroups.tagged (groups.merge found) title =
      found.tagged title := by
  unfold tagged at h ⊢
  rw [Dict.get?_merge]
  cases hget : found.get? title with
  | none =>
    rw [hget] at h
    exact absurd rfl h
  | some tags => rfl

-- The examples of a text go before those that the record had.
theorem Record.offered_describe (r : Record) (lexers : Lexers) (cssClass : String) {text : String}
    {found : TagGroups} (hwants : (readDoclets text).wantsExample)
    (htags : found.tagged exampleTitle ≠ []) :
    (r.describe lexers cssClass text found).offered =
      (found.tagged exampleTitle).map Tag.description := by
  have hbodies : (r.describe lexers cssClass text found).exampleBodies =
      (found.tagged exampleTitle).map Tag.description :=
    congrArg _ (TagGroups.tagged_merge htags)
  have hsome : (r.describe lexers cssClass text found).hasExamples := by
    rw [hasExamples, hbodies, Bool.and_eq_true, Bool.not_eq_true', List.isEmpty_eq_false_iff]
    exact ⟨hwants, mt List.map_eq_nil_iff.1 htags⟩
  rw [offered, if_pos hsome, hbodies]

theorem map_fst_tagDoclet?_eq_some_iff {s : TagLine × List CommentLine} {name : String} :
    (tagDoclet? s).map Prod.fst = some name ↔
      String.ofList s.1.title = name ∧ ∀ c ∈ s.1.rest.head?, isBlank c := by
  unfold tagDoclet?
  cases s.1.rest with
  | nil => simp
  | cons c rest =>
    by_cases hc : isBlank c <;> simp [hc]

-- In plain text, the example doclet is a tag line with white space or the end of the line after it.
theorem wantsExample_readDoclets_iff {text : String}
    (hblank : ∀ c ∈ text.toList, isBlank c → c = ' ' ∨ c = '\t' ∨ c = '\n')
    (hcode : ∀ line ∈ commentLines text.toList, line.fenced → hidesMarker line.text = false) :
    (readDoclets text).wantsExample ↔
      ∃ s ∈ (commentSections text.toList).2,
        String.ofList s.1.title = exampleTitle ∧ ∀ c ∈ s.1.rest.head?, isBlank c := by
  have hmem : (readDoclets text).wantsExample ↔
      exampleTitle ∈ (docletList text.toList).map Prod.fst := by
    rw [map_fst_docletList]
    exact isSet_readDoclets_iff
  rw [hmem, docletList_eq_filterMap hblank hcode, List.map_filterMap, List.mem_filterMap]
  simp only [map_fst_tagDoclet?_eq_some_iff]

/-- A description that has the example doclet loses none of its example tags that is not blank: it
is among the examples, or its file has been loaded, or the log has a warning about it. In plain text
the doclet is there iff some line has the tag with white space or the end of the line after it. -/
theorem normalizeDescription_accounts {ctx : Context} {r r' : Record} {text : String}
    (hdescription : r.description = some text)
    (h : (normalizeDescription ctx r).result = .ok r') :
    ∃ found, readTags false text = .ok found ∧
      ((readDoclets text).wantsExample → ∀ before body after,
        (found.tagged exampleTitle).map Tag.description = before ++ body :: after →
        trim body.toList ≠ [] →
          Accounted ctx r r' (normalizeDescription ctx r).log before body after) ∧
      ((∀ c ∈ text.toList, isBlank c → c = ' ' ∨ c = '\t' ∨ c = '\n') →
        (∀ line ∈ commentLines text.toList, line.fenced → hidesMarker line.text = false) →
        ((readDoclets text).wantsExample ↔
          ∃ s ∈ (commentSections text.toList).2,
            String.ofList s.1.title = exampleTitle ∧ ∀ c ∈ s.1.rest.head?, isBlank c)) := by
  by_cases hne : text = ""
  · subst hne
    refine ⟨Dict.empty, rfl, fun _ before body after hbodies => ?_, wantsExample_readDoclets_iff⟩
    exact absurd hbodies.symm (List.append_ne_nil_of_right_ne_nil before (List.cons_ne_nil _ _))
  · obtain ⟨found, hfound, hreadable, hr'⟩ :=
      (normalizeDescription_eq_ok_iff hdescription hne).1 h
    refine ⟨found, hfound, fun hwants before body after hbodies hbody => ?_,
      wantsExample_readDoclets_iff⟩
    have htags : found.tagged exampleTitle ≠ [] := by
      intro hnil
      rw [hnil, List.map_nil] at hbodies
      exact List.append_ne_nil_of_right_ne_nil before (List.cons_ne_nil _ _) hbodies.symm
    have hoffered :=
      Record.offered_describe r ctx.lexers ctx.settings.highlightCssClass hwants htags
    rw [hbodies] at hoffered
    rw [log_of_normalizeDescription hdescription hne hfound h, hr', Record.withDescription,
      hoffered]
    refine Record.accounted_withExamples rfl (hreadable body ?_) hbody
    rw [hoffered]
    exact List.mem_append_right before List.mem_cons_self

/-- A file that is not there has its warning. -/
theorem normalizeDescription_accounts_noFile :
    ∃ r', (normalizeDescription .plain (.ofDescription "Hi.\n@example ./demo.md")).result = .ok r' ∧
      (readDoclets "Hi.\n@example ./demo.md").wantsExample ∧
      Accounted .plain (.ofDescription "Hi.\n@example ./demo.md") r'
        (normalizeDescription .plain (.ofDescription "Hi.\n@example ./demo.md")).log
        [] "./demo.md" [] := by
  have hread : readTags false "Hi.\n@example ./demo.md" =
      .ok (Dict.ofList [(exampleTitle, [⟨exampleTitle, "./demo.md", none, none, none⟩])]) := by
    decide +kernel
  have hwants : (readDoclets "Hi.\n@example ./demo.md").wantsExample := by decide +kernel
  have hrun : ∃ r', (normalizeDescription .plain
      (.ofDescription "Hi.\n@example ./demo.md")).result = .ok r' := by
    refine ⟨_, (normalizeDescription_eq_ok_iff rfl (by decide)).2 ⟨_, hread, ?_, rfl⟩⟩
    rw [Record.offered_describe _ _ _ hwants (by decide)]
    decide +kernel
  obtain ⟨r', hr'⟩ := hrun
  obtain ⟨found, hfound, haccounts, -⟩ := normalizeDescription_accounts rfl hr'
  obtain rfl := Except.ok.inj (hread.symm.trans hfound)
  exact ⟨r', hr', hwants, haccounts hwants [] "./demo.md" [] rfl (by decide)⟩

/-- A colon after the word makes a tag but no doclet, so the example is lost without a warning. -/
theorem normalizeDescription_colon :
    ∃ found r', readTags false "@example:./demo.md" = .ok found ∧
      (found.tagged exampleTitle).map Tag.description = [":./demo.md"] ∧
      normalizeDescription .plain (.ofDescription "@example:./demo.md") = ⟨[], .ok r'⟩ ∧
      ¬ Accounted .plain (.ofDescription "@example:./demo.md") r' [] [] ":./demo.md" [] := by
  have hread : readTags false "@example:./demo.md" =
      .ok (Dict.ofList [(exampleTitle, [⟨exampleTitle, ":./demo.md", none, none, none⟩])]) := by
    decide +kernel
  have hunset : (readDoclets "@example:./demo.md").wantsExample = false := by decide +kernel
  have hrun (found : TagGroups) (h : readTags false "@example:./demo.md" = .ok found) :
      normalizeDescription .plain (.ofDescription "@example:./demo.md") =
        pure ((Record.ofDescription "@example:./demo.md").describe Context.plain.lexers
          Context.plain.settings.highlightCssClass "@example:./demo.md" found) := by
    have hunoffered : ((Record.ofDescription "@example:./demo.md").describe Context.plain.lexers
        Context.plain.settings.highlightCssClass "@example:./demo.md" found).offered = [] := by
      rw [Record.offered, Record.hasExamples, Record.describe, hunset]
      rfl
    rw [normalizeDescription_of_text rfl (by decide), h, Fault.ofTag, Logged.ofExcept,
      Logged.bind_ok, resolveExamples_eq_outcome, hunoffered, Record.outcome_nil]
    rfl
  refine ⟨_, _, hread, rfl, hrun _ hread, ?_⟩
  · rintro (hrendered | ⟨path, hfile, -⟩ | ⟨warning, -, -, hlog⟩)
    · cases hrendered
    · have hjudge : Context.plain.judge ":./demo.md" = .missing ":./demo.md" := by decide +kernel
      rw [hjudge] at hfile
      cases hfile
    · cases hlog

end ComponentDocs
