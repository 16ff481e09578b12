import ComponentDocs.Proofs.Example.Outcome
import ComponentDocs.Proofs.Normal.Stages

/-!
# What every normal form has

Each stage establishes what the normal form has in its own fields, and no later stage undoes it:
`normalForm_of_normalize`. The label doclet and the example doclet are found by one stage and taken
away by another one, so they must not have the same name.
-/

namespace ComponentDocs

/-- A method and its normal form: the tags that mean the same as others have been used up, and only
parameters, result and tags differ. -/
structure Method.Documented (settings : Settings) (m m' : Method) : Prop where
  same : m' = { m with params := m'.params, returns := m'.returns, tags := m'.tags }
  params : m'.params.map Param.name = m.params.map Param.name
  tags : ∀ titles ∈ settings.tagSynonyms.values, ∀ title ∈ titles, m'.tags.get? title = none

/-- A record and its normal form. Public methods and properties that nothing hides stay in their
order, and no others. The label doclet has become the visible name, and the example doclet is only
there as long as no example has been accepted. -/
structure Record.NormalForm (settings : Settings) (r r' : Record) : Prop where
  methods : List.Forall₂ (Method.Documented settings) (r.methods.filter Method.isPublic) r'.methods
  props : Option.Rel (fun props props' =>
    List.Forall₂ (fun e e' => e'.1 = e.1 ∧ e.2.TakenApart e'.2)
      (props.entries.filter fun e => !e.2.isHidden settings) props'.entries) r.props r'.props
  unlabelled : r'.doclets.get? settings.labelDoclet = none
  labelled : ∀ label ∈ (readDoclets (r.description.getD "")).get? settings.labelDoclet,
    r'.tags.get? settings.labelDoclet = none ∧ ∀ s, label = .text s → r'.visibleName = some s
  pending : r'.doclets.get? Doclets.exampleName ≠ none →
    r'.examples = r.examples ∧ r'.external = r.external

/-! ## Methods -/

theorem Settings.mem_allSynonyms {s : Settings} {titles : List String} {title : String}
    (htitles : titles ∈ s.tagSynonyms.values) (htitle : title ∈ titles) : title ∈ s.allSynonyms :=
  List.mem_flatten.2 ⟨titles, htitles, htitle⟩

theorem Method.documented_of_normalize {settings : Settings} {m m' : Method}
    (h : m.normalize settings = .ok m') : m.Documented settings m' := by
  obtain ⟨tags, titles, -, -, -, hm'⟩ := normalize_eq_ok_iff.1 h
  refine ⟨?_, ?_, fun others hothers title htitle => ?_⟩
  · rw [hm']
  · rw [hm']
    change (m.params.map (Param.document (tags.select titles))).map Param.name = _
    rw [List.map_map]
    exact List.map_congr_left fun p _ => Param.document_name _ p
  · rw [hm']
    change (tags.without settings.allSynonyms).get? title = none
    rw [Dict.get?_without, if_pos (Settings.mem_allSynonyms hothers htitle)]

/-! ## Doclets of the description -/

theorem isSet_of_get?_readDoclets {text name : String} {value : DocletValue}
    (h : (readDoclets text).get? name = some value) : value.isSet :=
  isSet_of_mem_docletList (Dict.mem_of_get?_ofList h)

theorem Record.get?_doclets_withExamples (ctx : Context) (bodies : List String) (r : Record)
    {name : String} (hname : name ≠ Doclets.exampleName) :
    (r.withExamples ctx bodies).doclets.get? name = r.doclets.get? name := by
  unfold withExamples
  by_cases haccepted : bodies.any fun body => (ctx.judge body).isAccepted
  · simp [haccepted, Dict.get?_without, hname]
  · simp [haccepted]

-- The description gives the record its doclets, apart from the one that asks for an example.
theorem get?_doclets_of_normalizeDescription {ctx : Context} {r r' : Record}
    (h : (normalizeDescription ctx r).result = .ok r') {name : String}
    (hname : name ≠ Doclets.exampleName) :
    r'.doclets.get? name = (readDoclets (r.description.getD "")).get? name := by
  by_cases hempty : ∀ text ∈ r.description, text = ""
  · rw [normalizeDescription_of_empty hempty] at h
    obtain rfl := Except.ok.inj h
    have hnone : r.description.getD "" = "" := by
      cases hdescription : r.description with
      | none => rfl
      | some text => exact hempty text hdescription
    rw [hnone]
    rfl
  · push Not at hempty
    obtain ⟨text, htext, hne⟩ := hempty
    obtain ⟨found, -, -, rfl⟩ := (normalizeDescription_eq_ok_iff htext hne).1 h
    rw [Record.withDescription, Record.get?_doclets_withExamples ctx _ _ hname, htext,
      Option.getD_some, Record.describe]

-- As long as the record asks for an example, it has none that it had not before.
theorem examples_of_normalizeDescription {ctx : Context} {r r' : Record}
    (h : (normalizeDescription ctx r).result = .ok r')
    (hexample : r'.doclets.get? Doclets.exampleName ≠ none) :
    r'.examples = r.examples ∧ r'.external = r.external := by
  by_cases hempty : ∀ text ∈ r.description, text = ""
  · rw [normalizeDescription_of_empty hempty] at h
    obtain rfl := Except.ok.inj h
    exact ⟨rfl, rfl⟩
  · push Not at hempty
    obtain ⟨text, htext, hne⟩ := hempty
    obtain ⟨found, -, -, rfl⟩ := (normalizeDescription_eq_ok_iff htext hne).1 h
    rw [ne_eq, ← Option.not_isSome_iff_eq_none, not_not, Record.withDescription,
      Record.isSome_example_withExamples, Bool.and_eq_true, Bool.not_eq_true'] at hexample
    rw [Record.withDescription, Record.withExamples_of_not_any (by rw [hexample.2]; decide)]
    exact ⟨rfl, rfl⟩

/-! ## Names -/

-- A label that is set becomes the visible name.
theorem promoteVisibleName_of_isSet {ctx : Context} {r : Record}
    (hset : ∀ label ∈ r.doclets.get? ctx.settings.labelDoclet, label.isSet) :
    ∃ r', promoteVisibleName ctx r = pure r' ∧
      r'.doclets = r.doclets.without [ctx.settings.labelDoclet] ∧
      ∀ label ∈ r.doclets.get? ctx.settings.labelDoclet,
        r' = r.promote ctx.settings.labelDoclet label := by
  unfold promoteVisibleName
  cases hlabel : r.doclets.get? ctx.settings.labelDoclet with
  | none =>
    have hlacks : r.doclets.Lacks [ctx.settings.labelDoclet] := by
      simpa [Dict.Lacks] using hlabel
    exact ⟨r, rfl, (Dict.without_eq_self_iff.2 hlacks).symm, fun _ h => absurd h (by simp)⟩
  | some label =>
    refine ⟨r.promote ctx.settings.labelDoclet label, ?_, rfl, fun label' h => ?_⟩
    · exact congrArg pure (if_pos (hset label hlabel))
    · rw [Option.mem_some_iff.1 h]

theorem label_of_giveNames {ctx : Context} {r r' : Record}
    (hset : ∀ label ∈ r.doclets.get? ctx.settings.labelDoclet, label.isSet)
    (h : (giveNames ctx r).result = .ok r') :
    r'.doclets = r.doclets.without [ctx.settings.labelDoclet] ∧
      ∀ label ∈ r.doclets.get? ctx.settings.labelDoclet,
        r'.tags.get? ctx.settings.labelDoclet = none ∧
          ∀ s, label = .text s → r'.visibleName = some s := by
  obtain ⟨name, hfill⟩ := fillDisplayName_eq_pure ctx r
  obtain ⟨r'', hpromote, hdoclets, hpromoted⟩ :=
    promoteVisibleName_of_isSet (r := { r with displayName := name }) hset
  rw [giveNames, hfill, Logged.pure_def, Logged.bind_ok, hpromote] at h
  obtain rfl := Except.ok.inj h
  refine ⟨hdoclets, fun label hlabel => ?_⟩
  rw [hpromoted label hlabel]
  refine ⟨?_, fun s hs => ?_⟩
  · exact (Dict.get?_without ..).trans (if_pos List.mem_cons_self)
  · rw [hs]
    rfl

/-! ## Runs -/

/-- What a run over a record comes to is a normal form of the record. -/
theorem normalForm_of_normalize {ctx : Context} {r r' : Record}
    (hlabel : ctx.settings.labelDoclet ≠ Doclets.exampleName)
    (h : (normalize ctx r).result = .ok r') : r.NormalForm ctx.settings r' := by
  obtain ⟨-, hmethods, hprops⟩ := frame_of_normalize h
  obtain ⟨r₁, r₂, r₃, hmethods₁, hdescription, hprops₃, hnames⟩ := normalize_eq_ok_iff.1 h
  obtain ⟨-, hr₁⟩ := normalizeMethods_eq_ok_iff.1 hmethods₁
  obtain ⟨hr₃, -⟩ := normalizeProperties_eq_ok_iff.1 hprops₃
  obtain ⟨-, hexamples', hexternal', -⟩ := fields_of_giveNames hnames
  have hdoclets₃ : r₃.doclets = r₂.doclets := by rw [hr₃]
  have hfound : r₃.doclets.get? ctx.settings.labelDoclet =
      (readDoclets (r.description.getD "")).get? ctx.settings.labelDoclet := by
    rw [hdoclets₃, get?_doclets_of_normalizeDescription hdescription hlabel, hr₁]
  obtain ⟨hdoclets, hlabelled⟩ := label_of_giveNames
    (fun label hmem => isSet_of_get?_readDoclets (hfound.symm.trans hmem)) hnames
  refine ⟨?_, ?_, ?_, fun label hmem => hlabelled label (hfound.trans hmem), fun hexample => ?_⟩
  · exact (mapM_eq_ok_iff.1 hmethods).imp fun _ _ => Method.documented_of_normalize
  · generalize r.props = props, r'.props = props' at hprops ⊢
    cases hprops with
    | some hentries => exact Option.Rel.some (forall₂_of_normalizeEntries hentries)
    | none => exact Option.Rel.none
  · rw [hdoclets, Dict.get?_without, if_pos List.mem_cons_self]
  · have hexample₂ : r₂.doclets.get? Doclets.exampleName ≠ none := by
      intro hnone
      apply hexample
      rw [hdoclets, Dict.get?_without, hdoclets₃, hnone, ite_self]
    obtain ⟨hexamples₂, hexternal₂⟩ := examples_of_normalizeDescription hdescription hexample₂
    refine ⟨?_, ?_⟩
    · rw [hexamples', hr₃]
      change r₂.examples = _
      rw [hexamples₂, hr₁]
    · rw [hexternal', hr₃]
      change r₂.external = _
      rw [hexternal₂, hr₁]

/-- A record with a label, a method that is not public, a property that is hidden, and an example
that is not there. -/
def labelledRecord : Record :=
  { Record.ofDescription "A button.\n@visibleName Big\n@example ./demo.md" with
    methods := [⟨"reset", none, [], none, [], Dict.empty, none, Dict.empty⟩,
      ⟨"focus", some "@public\n@param deep", [], none, [], Dict.empty, none, Dict.empty⟩]
    props := some (Dict.ofList
      [("raw", ⟨some "@ignore", none, false, ⟨none, false⟩, Dict.empty, Dict.empty⟩),
        ("size", ⟨some "The size.", none, false, ⟨none, false⟩, Dict.empty, Dict.empty⟩)]) }

/-- The normal form has one method, one property and the label, and it still asks for an example. -/
theorem normalForm_of_normalize_labelledRecord :
    ∃ r', (normalize .plain labelledRecord).result = .ok r' ∧
      labelledRecord.NormalForm Context.plain.settings r' ∧
      r'.methods.map Method.name = ["focus"] ∧ r'.props.map Dict.keys = some ["size"] ∧
      r'.visibleName = some "Big" ∧ r'.examples = labelledRecord.examples := by
  have hrun : ((normalize .plain labelledRecord).result.toOption.any fun r' =>
      r'.methods.map Method.name == ["focus"] && r'.props.map Dict.keys == some ["size"] &&
        r'.visibleName == some "Big" && r'.doclets.contains Doclets.exampleName) = true := by
    decide +kernel
  obtain ⟨r', hresult, hfound⟩ := exists_ok_of_any hrun
  have hnormal : labelledRecord.NormalForm Context.plain.settings r' :=
    normalForm_of_normalize (by decide) hresult
  simp only [Bool.and_eq_true, beq_iff_eq] at hfound
  obtain ⟨⟨⟨hmethods, hprops⟩, hname⟩, hexample⟩ := hfound
  have hpending : r'.doclets.get? Doclets.exampleName ≠ none := Option.isSome_iff_ne_none.1 hexample
  exact ⟨r', hresult, hnormal, hmethods, hprops, hname, (hnormal.pending hpending).1⟩

end ComponentDocs
