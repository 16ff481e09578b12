import ComponentDocs.Proofs.Normal.Stages

/-!
# Normal records

The stages of methods and properties change nothing in what they have made. The stage of the
description may: it reads its own output again, where code is no longer fenced. Another run leaves
the description as it is when nothing in it is a doclet, a block of code or an unknown tag:
`normalize_again_iff`.
-/

namespace ComponentDocs

open Text

/-- Methods and properties are normal after one run of their stages: another one gives the same
record, without an event. -/
theorem normalizeMethods_normalizeProperties_idempotent (ctx : Context) (r : Record) :
    normalizeMethods ctx r >>= normalizeMethods ctx = normalizeMethods ctx r ∧
      normalizeProperties ctx r >>= normalizeProperties ctx = normalizeProperties ctx r := by
  constructor
  · apply Logged.bind_eq_self
    intro r' h
    exact normalizeMethods_of_normal (mapM_normalize_of_result (normalizeMethods_eq_ok_iff.1 h).1)
  · apply Logged.bind_eq_self
    intro r' h
    exact normalizeProperties_of_normal (normalProperties_of_result h)

/-! ## Another run -/

/-- What a run leaves for another one: normal methods and properties. -/
structure Record.Normal (ctx : Context) (r : Record) : Prop where
  methods : (r.methods.filter Method.isPublic).mapM (Method.normalize ctx.settings) = .ok r.methods
  properties : r.NormalProperties ctx

theorem Record.normal_of_normalize {ctx : Context} {r r' : Record}
    (h : (normalize ctx r).result = .ok r') : r'.Normal ctx := by
  obtain ⟨r₁, r₂, r₃, hmethods, hdescription, hprops, hnames⟩ := normalize_eq_ok_iff.1 h
  obtain ⟨hmethods₁, -⟩ := normalizeMethods_eq_ok_iff.1 hmethods
  obtain ⟨hmethods₂, -⟩ := normalizeDescription_frame hdescription
  have hnormal := normalProperties_of_result hprops
  obtain ⟨hr₃, -⟩ := normalizeProperties_eq_ok_iff.1 hprops
  have hmethods₃ : r₃.methods = r₁.methods := by rw [hr₃, ← hmethods₂]
  obtain ⟨_, _, _, hpure⟩ := giveNames_eq_pure ctx r₃
  rw [hpure] at hnames
  obtain rfl := Except.ok.inj hnames
  refine ⟨?_, hnormal⟩
  change (r₃.methods.filter Method.isPublic).mapM _ = Except.ok r₃.methods
  rw [hmethods₃]
  exact mapM_normalize_of_result hmethods₁

-- Where lexers write blocks, the text of a normal form is trimmed.
theorem trim_of_normalize {ctx : Context} {r r' : Record} (hlexers : ctx.lexers.WriteBlocks)
    (h : (normalize ctx r).result = .ok r') :
    ∀ text ∈ r'.description, trim text.toList = text.toList := by
  obtain ⟨r₁, r₂, r₃, -, hdescription, hprops, hnames⟩ := normalize_eq_ok_iff.1 h
  have htext : r₃.description = r₂.description := by rw [(normalizeProperties_eq_ok_iff.1 hprops).1]
  rw [(fields_of_giveNames hnames).1, htext]
  exact trim_of_normalizeDescription hlexers hdescription

-- Another run is the stage of the description and the names.
theorem Record.Normal.eq_ok_iff {ctx : Context} {r r' : Record} (h : r.Normal ctx) :
    (normalize ctx r).result = .ok r' ↔
      ∃ r₁, (normalizeDescription ctx r).result = .ok r₁ ∧ (giveNames ctx r₁).result = .ok r' := by
  -- the stage of the description leaves the properties alone, so they are normal after it
  have hkept : ∀ r₁, (normalizeDescription ctx r).result = .ok r₁ →
      normalizeProperties ctx r₁ = pure r₁ := by
    intro r₁ hr₁
    apply normalizeProperties_of_normal
    unfold Record.NormalProperties
    rw [(normalizeDescription_frame hr₁).2.1]
    exact h.properties
  rw [normalize_eq_ok_iff, normalizeMethods_of_normal h.methods]
  constructor
  · rintro ⟨_, r₁, r₂, hsame, hdescription, hprops, hnames⟩
    obtain rfl := Except.ok.inj hsame
    rw [hkept r₁ hdescription] at hprops
    obtain rfl := Except.ok.inj hprops
    exact ⟨r₁, hdescription, hnames⟩
  · rintro ⟨r₁, hdescription, hnames⟩
    refine ⟨r, r₁, r₁, rfl, hdescription, ?_, hnames⟩
    rw [hkept r₁ hdescription]
    rfl

/-- Records that agree in what comes from descriptions. -/
structure Record.SameDescription (r r' : Record) : Prop where
  description : r'.description = r.description
  tags : ∀ title, r'.tags.get? title = r.tags.get? title
  examples : r'.examples = r.examples
  external : r'.external = r.external

/-- Reading a text once more leaves a record as it is: the text is clean, its tags are there
already, and its doclets, if any, bring no new example and take no tags away. -/
structure Record.Settled (ctx : Context) (r : Record) (text : String) (found : TagGroups) :
    Prop where
  read : readTags false text = .ok found
  clean : cleanDescription ctx.lexers ctx.settings.highlightCssClass text = text
  examples : ∀ body ∈ (r.describe ctx.lexers ctx.settings.highlightCssClass text found).offered,
    (ctx.judge body).isReadable ∧ ctx.judge body ≠ .rendered
  external : (r.withDescription ctx text found).external = r.external
  known : ∀ title group, found.get? title = some group → r.tags.get? title = some group ∨
    ((r.withDescription ctx text found).doclets.isSet ctx.settings.labelDoclet ∧
      title = ctx.settings.labelDoclet)
  unlabelled : (r.withDescription ctx text found).doclets.isSet ctx.settings.labelDoclet →
    r.tags.get? ctx.settings.labelDoclet = none

theorem Record.description_withDescription (ctx : Context) (r : Record) (text : String)
    (found : TagGroups) : (r.withDescription ctx text found).description =
      some (cleanDescription ctx.lexers ctx.settings.highlightCssClass text) := rfl

theorem Record.tags_withDescription (ctx : Context) (r : Record) (text : String)
    (found : TagGroups) : (r.withDescription ctx text found).tags = r.tags.merge found := rfl

theorem Record.examples_withDescription (ctx : Context) (r : Record) (text : String)
    (found : TagGroups) : (r.withDescription ctx text found).examples = r.examples ++
      (r.describe ctx.lexers ctx.settings.highlightCssClass text found).offered.filter
        (ctx.judge · == .rendered) := rfl

theorem or_eq_right_iff {α : Type} {a b : Option α} :
    a.or b = b ↔ ∀ x, a = some x → b = some x := by
  cases a with
  | none => simp
  | some y => simp [eq_comm]

-- Tags that are merged, and lose the group of the label if it is set, are as they were.
theorem get?_merge_without_eq_iff {tags found : TagGroups} {label : String} {isSet : Bool} :
    (∀ title, (if isSet then (tags.merge found).without [label] else tags.merge found).get? title =
      tags.get? title) ↔
      (∀ title group, found.get? title = some group →
        tags.get? title = some group ∨ (isSet ∧ title = label)) ∧
        (isSet → tags.get? label = none) := by
  cases isSet with
  | false => simp [Dict.get?_merge, or_eq_right_iff]
  | true =>
    simp only [if_true, Dict.get?_without, Dict.get?_merge, List.mem_singleton, true_and,
      forall_const]
    constructor
    · intro h
      refine ⟨fun title group hgroup => ?_, ?_⟩
      · by_cases htitle : title = label
        · exact .inr htitle
        · have hsame := h title
          rw [if_neg htitle, or_eq_right_iff] at hsame
          exact .inl (hsame group hgroup)
      · have hlabel := h label
        rw [if_pos rfl] at hlabel
        exact hlabel.symm
    · rintro ⟨hknown, hlabel⟩ title
      by_cases htitle : title = label
      · rw [if_pos htitle, htitle, hlabel]
      · rw [if_neg htitle, or_eq_right_iff]
        exact fun group hgroup => (hknown title group hgroup).resolve_right htitle

theorem append_filter_eq_self_iff {α : Type} {a b : List α} {p : α → Bool} :
    a ++ b.filter p = a ↔ ∀ x ∈ b, ¬ p x := by
  rw [List.append_right_eq_self, List.filter_eq_nil_iff]

-- A run over a text that is not empty leaves the record as it is when the text is settled.
theorem Record.Normal.sameDescription_iff {ctx : Context} {r : Record} (h : r.Normal ctx)
    {text : String} (htext : r.description = some text) (hne : text ≠ "") :
    (∃ r', (normalize ctx r).result = .ok r' ∧ r.SameDescription r') ↔
      ∃ found, r.Settled ctx text found := by
  simp only [h.eq_ok_iff, normalizeDescription_eq_ok_iff htext hne]
  constructor
  · rintro ⟨r', ⟨_, ⟨found, hread, hreadable, rfl⟩, hresult⟩, hsame⟩
    obtain ⟨hdescription, hexamples, hexternal, htags⟩ := fields_of_giveNames hresult
    have hclean := hsame.description
    rw [hdescription, description_withDescription, htext] at hclean
    have hnone := hsame.examples
    rw [hexamples, examples_withDescription] at hnone
    have hrendered := append_filter_eq_self_iff.1 hnone
    have hkept := hsame.tags
    rw [htags, tags_withDescription, get?_merge_without_eq_iff] at hkept
    refine ⟨found, hread, Option.some.inj hclean, fun body hbody => ?_, ?_, hkept.1, hkept.2⟩
    · exact ⟨hreadable body hbody, by simpa using hrendered body hbody⟩
    · rw [← hexternal, hsame.external]
  · rintro ⟨found, hsettled⟩
    obtain ⟨r', hresult⟩ := exists_giveNames ctx (r.withDescription ctx text found)
    obtain ⟨hdescription, hexamples, hexternal, htags⟩ := fields_of_giveNames hresult
    refine ⟨r', ⟨_, ⟨found, hsettled.read, fun body hbody => (hsettled.examples body hbody).1,
      rfl⟩, hresult⟩, ⟨?_, ?_, ?_, ?_⟩⟩
    · rw [hdescription, description_withDescription, hsettled.clean, htext]
    · rw [htags, tags_withDescription, get?_merge_without_eq_iff]
      exact ⟨hsettled.known, hsettled.unlabelled⟩
    · rw [hexamples, examples_withDescription]
      exact append_filter_eq_self_iff.2 fun body hbody => by
        simpa using (hsettled.examples body hbody).2
    · rw [hexternal, hsettled.external]

-- A run over no text leaves the record as it is.
theorem Record.Normal.sameDescription_of_empty {ctx : Context} {r : Record} (h : r.Normal ctx)
    (hempty : ∀ text ∈ r.description, text = "") :
    ∃ r', (normalize ctx r).result = .ok r' ∧ r.SameDescription r' := by
  obtain ⟨r', hresult⟩ := exists_giveNames ctx { r with doclets := Dict.empty }
  obtain ⟨hdescription, hexamples, hexternal, htags⟩ := fields_of_giveNames hresult
  refine ⟨r', h.eq_ok_iff.2 ⟨_, ?_, hresult⟩, hdescription, ?_, hexamples, hexternal⟩
  · rw [normalizeDescription_of_empty hempty]
    rfl
  · intro title
    rw [htags]
    rfl

theorem readDoclets_of_docletList {text : String} (h : docletList text.toList = []) :
    readDoclets text = Dict.empty := by
  rw [readDoclets, h]
  rfl

-- A text without doclets is settled when it has no block of code and no unknown tag.
theorem Record.settled_iff {ctx : Context} (hlexers : ctx.lexers.Faithful)
    (hcss : '@' ∉ ctx.settings.highlightCssClass.toList) {r : Record} {text : String}
    (htrim : trim text.toList = text.toList) {found : TagGroups} :
    r.Settled ctx text found ↔
      readTags false text = .ok found ∧ docletList text.toList = [] ∧ fences text = [] ∧
        ∀ title group, found.get? title = some group → r.tags.get? title = some group := by
  have hdescribe : docletList text.toList = [] →
      (r.describe ctx.lexers ctx.settings.highlightCssClass text found).offered = [] := by
    intro h
    unfold Record.offered Record.hasExamples Record.describe
    rw [readDoclets_of_docletList h]
    rfl
  have hagain : docletList text.toList = [] →
      (r.withDescription ctx text found).doclets.isSet ctx.settings.labelDoclet = false ∧
        (r.withDescription ctx text found).external = r.external := by
    intro h
    rw [withDescription, hdescribe h]
    unfold Record.describe
    rw [readDoclets_of_docletList h]
    exact ⟨rfl, rfl⟩
  constructor
  · intro h
    obtain ⟨hdoclets, hfences⟩ := (cleanDescription_eq_self_iff hlexers hcss htrim).1 h.clean
    refine ⟨h.read, hdoclets, hfences, fun title group hgroup => ?_⟩
    refine (h.known title group hgroup).resolve_right fun hlabel => ?_
    rw [(hagain hdoclets).1] at hlabel
    exact absurd hlabel.1 (by decide)
  · rintro ⟨hread, hdoclets, hfences, hknown⟩
    refine ⟨hread, (cleanDescription_eq_self_iff hlexers hcss htrim).2 ⟨hdoclets, hfences⟩, ?_,
      (hagain hdoclets).2, fun title group hgroup => .inl (hknown title group hgroup), ?_⟩
    · rw [hdescribe hdoclets]
      exact fun body hbody => absurd hbody List.not_mem_nil
    · rw [(hagain hdoclets).1]
      intro hset
      cases hset

/-- Another run has a result with the same description, tags and examples exactly when the
description is empty or settled. If lexers write blocks of HTML and no at signs of their own, and
the class of code has none, that is when it has no doclets, no blocks of code, and only tags that
the record has already. -/
theorem normalize_again_iff {ctx : Context} {r r' : Record}
    (h : (normalize ctx r).result = .ok r') :
    ((∃ r'', (normalize ctx r').result = .ok r'' ∧ r'.SameDescription r'') ↔
        ∀ text ∈ r'.description, text ≠ "" → ∃ found, r'.Settled ctx text found) ∧
      (ctx.lexers.Faithful → '@' ∉ ctx.settings.highlightCssClass.toList →
        ∀ text ∈ r'.description, ∀ found, (r'.Settled ctx text found ↔
          readTags false text = .ok found ∧ docletList text.toList = [] ∧ fences text = [] ∧
            ∀ title group, found.get? title = some group →
              r'.tags.get? title = some group)) := by
  have hnormal := Record.normal_of_normalize h
  refine ⟨?_, fun hlexers hcss text htext found =>
    Record.settled_iff hlexers hcss (trim_of_normalize hlexers.blocks h text htext)⟩
  by_cases hempty : ∀ text ∈ r'.description, text = ""
  · have hsame := hnormal.sameDescription_of_empty hempty
    exact ⟨fun _ text htext hne => absurd (hempty text htext) hne, fun _ => hsame⟩
  · push Not at hempty
    obtain ⟨text, htext, hne⟩ := hempty
    rw [hnormal.sameDescription_iff htext hne, Option.mem_def.1 htext]
    constructor
    · intro hfound text' htext' _
      obtain rfl := Option.some.inj htext'
      exact hfound
    · exact fun hall => hall text rfl hne

/-! ## Code that becomes text -/

/-- A public component with code in a language that no lexer is known by. -/
def publicButton : String := "Use:\n\x60\x60\x60jsx\n<Button />\n\x60\x60\x60\n@public"

/-- What a run over the component comes to. -/
def settledButton : Record :=
  { Record.ofDescription
      "Use:\n<div class=\"highlight\"><pre><span></span>&lt;Button /&gt;\n</pre></div>" with
    doclets := Dict.ofList [("public", .flag true)]
    tags := TagGroups.ofTags [⟨"public", "", none, none, none⟩] }

theorem normalize_publicButton :
    (normalize .plain (.ofDescription publicButton)).result = .ok settledButton := by
  have hread : readTags false publicButton =
      .ok (TagGroups.ofTags [⟨"public", "", none, none, none⟩]) := by
    decide +kernel
  have hclean : cleanDescription Context.plain.lexers Context.plain.settings.highlightCssClass
      publicButton =
        "Use:\n<div class=\"highlight\"><pre><span></span>&lt;Button /&gt;\n</pre></div>" := by
    decide +kernel
  have hdoclets : readDoclets publicButton = Dict.ofList [("public", .flag true)] := by
    decide +kernel
  have hdescribe : (Record.ofDescription publicButton).describe Context.plain.lexers
      Context.plain.settings.highlightCssClass publicButton
        (TagGroups.ofTags [⟨"public", "", none, none, none⟩]) = settledButton := by
    rw [Record.describe, hclean, hdoclets]
    rfl
  refine normalize_eq_ok_iff.2 ⟨.ofDescription publicButton, settledButton, settledButton,
    rfl, ?_, rfl, rfl⟩
  refine (normalizeDescription_eq_ok_iff rfl (by decide)).2 ⟨_, hread, ?_⟩
  rw [Record.withDescription, hdescribe]
  exact ⟨fun body hbody => absurd hbody List.not_mem_nil, rfl⟩

/-- Another run leaves the component as it is. -/
theorem normalize_again_public :
    (normalize .plain (.ofDescription publicButton)).result = .ok settledButton ∧
      Context.plain.lexers.Faithful ∧ '@' ∉ Context.plain.settings.highlightCssClass.toList ∧
      ∃ r'', (normalize .plain settledButton).result = .ok r'' ∧
        settledButton.SameDescription r'' := by
  have hcss : '@' ∉ Context.plain.settings.highlightCssClass.toList := by decide
  refine ⟨normalize_publicButton, Lexers.faithful_plain, hcss,
    (normalize_again_iff normalize_publicButton).1.2 ?_⟩
  intro text htext _
  obtain ⟨-, hsettled⟩ := normalize_again_iff normalize_publicButton
  refine ⟨Dict.empty, (hsettled Lexers.faithful_plain hcss text htext Dict.empty).2 ?_⟩
  obtain rfl := Option.some.inj htext
  exact ⟨by decide +kernel, by decide +kernel, by decide +kernel, fun _ _ hgroup => by cases hgroup⟩

/-- A rule of a style sheet in a block of code. -/
def fencedRule : String := "\x60\x60\x60\n.a\n@media print\n\x60\x60\x60"

/-- The block as HTML, where nothing protects the rule. -/
def bareRule : String := "<div class=\"highlight\"><pre><span></span>.a\n@media print\n</pre></div>"

theorem normalize_fencedRule :
    (normalize .plain (.ofDescription fencedRule)).result = .ok (.ofDescription bareRule) := by
  have hclean :
      cleanDescription Context.plain.lexers Context.plain.settings.highlightCssClass fencedRule =
        bareRule := by
    decide +kernel
  have hdoclets : readDoclets fencedRule = Dict.empty := by decide +kernel
  have hdescribe : (Record.ofDescription fencedRule).describe Context.plain.lexers
      Context.plain.settings.highlightCssClass fencedRule Dict.empty = .ofDescription bareRule := by
    rw [Record.describe, hclean, hdoclets]
    rfl
  refine normalize_eq_ok_iff.2 ⟨.ofDescription fencedRule, .ofDescription bareRule,
    .ofDescription bareRule, rfl, ?_, rfl, rfl⟩
  refine (normalizeDescription_eq_ok_iff rfl (by decide)).2 ⟨Dict.empty, by decide +kernel, ?_⟩
  rw [Record.withDescription, hdescribe]
  exact ⟨fun body hbody => absurd hbody List.not_mem_nil, rfl⟩

/-- A rule inside a block of code is no doclet, but another run takes it for one, and what follows
it is lost. -/
theorem normalize_again_fencedRule :
    (normalize .plain (.ofDescription fencedRule)).result = .ok (.ofDescription bareRule) ∧
      ¬ ∃ r', (normalize .plain (.ofDescription bareRule)).result = .ok r' ∧
        (Record.ofDescription bareRule).SameDescription r' := by
  refine ⟨normalize_fencedRule, fun hsame => ?_⟩
  have hnormal := Record.normal_of_normalize normalize_fencedRule
  obtain ⟨found, hsettled⟩ := (hnormal.sameDescription_iff rfl (by decide)).1 hsame
  have hcut : cleanDescription Context.plain.lexers Context.plain.settings.highlightCssClass
      bareRule ≠ bareRule := by
    decide +kernel
  exact hcut hsettled.clean

end ComponentDocs
