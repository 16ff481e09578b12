import ComponentDocs.Proofs.Normal.Methods
import ComponentDocs.Proofs.Tag.Groups
import Mathlib.Data.List.Flatten

/-!
# Merging the tags of a method

The tags of a comment go to three places: to the parameters, to the result, or, when no synonym is
their title, to the tags of the method. `Method.Merged` says what goes where, and
`Method.normalize_merges` that normalizing a method brings it about.
-/

namespace ComponentDocs

/-! ## Parameters -/

/-- The second parameter is the first one with what the first tag of its name says, and the first
one itself when no tag has its name. -/
inductive Param.DocumentedBy (tags : List Tag) (p : Param) : Param → Prop
  | untouched (unnamed : ∀ tag ∈ tags, tag.name ≠ some p.name) : DocumentedBy tags p p
  | tagged {q : Param} (before : List Tag) (tag : Tag) (after : List Tag)
      (split : tags = before ++ tag :: after)
      (first : ∀ earlier ∈ before, earlier.name ≠ some p.name)
      (named : tag.name = some p.name)
      (description : q.description = some tag.description)
      (default : q.default = tag.default.or p.default)
      (typeName : q.type.map TypeInfo.name = tag.type.or (p.type.map TypeInfo.name))
      (sameType : q.type.map TypeInfo.name = p.type.map TypeInfo.name → q.type = p.type)
      (otherType : q.type.map TypeInfo.name ≠ p.type.map TypeInfo.name →
        q.type.map TypeInfo.details = some Dict.empty)
      (rest : q.name = p.name ∧ q.extra = p.extra) : DocumentedBy tags p q

theorem Param.map_name_typeFrom (p : Param) (tag : Tag) :
    (p.typeFrom tag).map TypeInfo.name = tag.type.or (p.type.map TypeInfo.name) := by
  unfold typeFrom
  cases tag.type with
  | none => rfl
  | some name =>
    by_cases hname : p.type.map TypeInfo.name = some name
    · simp [hname]
    · simp [hname]

-- A type that a tag names anew has no details.
theorem Param.typeFrom_cases (p : Param) (tag : Tag) :
    p.typeFrom tag = p.type ∨
      (p.typeFrom tag).map TypeInfo.name ≠ p.type.map TypeInfo.name ∧
        (p.typeFrom tag).map TypeInfo.details = some Dict.empty := by
  unfold typeFrom
  cases tag.type with
  | none => exact .inl rfl
  | some name =>
    by_cases hname : p.type.map TypeInfo.name = some name
    · exact .inl (if_pos hname)
    · refine .inr ?_
      simp only [if_neg hname]
      exact ⟨Ne.symm hname, rfl⟩

theorem Param.documentedBy_document (tags : List Tag) (p : Param) :
    p.DocumentedBy tags (p.document tags) := by
  cases hfind : tags.find? fun tag => tag.name = some p.name with
  | none =>
    have hself : p.document tags = p := by rw [document, hfind]
    rw [hself]
    refine .untouched fun tag htag => ?_
    simpa using List.find?_eq_none.1 hfind tag htag
  | some tag =>
    obtain ⟨hnamed, before, after, hsplit, hfirst⟩ := List.find?_eq_some_iff_append.1 hfind
    have htag : p.document tags = p.withTag tag := by rw [document, hfind]
    rw [htag]
    have htype := p.typeFrom_cases tag
    refine .tagged before tag after hsplit (fun earlier hearlier => ?_) (by simpa using hnamed) rfl
      ?_ (p.map_name_typeFrom tag) (fun hsame => ?_) (fun hother => ?_) ⟨rfl, rfl⟩
    · simpa using hfirst earlier hearlier
    · cases hdefault : tag.default <;> simp [withTag, hdefault]
    · exact htype.resolve_right fun hnew => hnew.1 hsame
    · exact (htype.resolve_left fun hself => hother (congrArg _ hself)).2

/-! ## Titles -/

theorem subperm_flatMap {α β : Type} {l l' : List α} (h : l.Subperm l') (f : α → List β) :
    (l.flatMap f).Subperm (l'.flatMap f) := by
  obtain ⟨some, hperm, hsublist⟩ := h
  exact ⟨some.flatMap f, hperm.flatMap_right f, hsublist.flatMap f⟩

namespace Settings

theorem titlesOf_cases (s : Settings) (group : String) :
    s.titlesOf group = [] ∨ (group, s.titlesOf group) ∈ s.tagSynonyms.entries := by
  unfold titlesOf
  cases hget : s.tagSynonyms.get? group with
  | none => exact .inl rfl
  | some titles => exact .inr (Dict.get?_eq_some_iff.1 hget)

theorem titlesOf_sublist (s : Settings) (group : String) :
    (s.titlesOf group).Sublist s.allSynonyms := by
  rcases s.titlesOf_cases group with hnone | hmem
  · rw [hnone]
    exact List.nil_sublist _
  · exact List.sublist_flatten_of_mem (List.mem_map_of_mem hmem)

-- Different groups are different entries of the table.
theorem subperm_titlesOf (s : Settings) {group other : String} (h : group ≠ other) :
    (s.titlesOf group ++ s.titlesOf other).Subperm s.allSynonyms := by
  rcases s.titlesOf_cases group with hnone | hgroup
  · rw [hnone, List.nil_append]
    exact (s.titlesOf_sublist other).subperm
  rcases s.titlesOf_cases other with hnone | hother
  · rw [hnone, List.append_nil]
    exact (s.titlesOf_sublist group).subperm
  have hnodup : [(group, s.titlesOf group), (other, s.titlesOf other)].Nodup := by simp [h]
  have hentries : [(group, s.titlesOf group), (other, s.titlesOf other)].Subperm
      s.tagSynonyms.entries :=
    hnodup.subperm (by simp [hgroup, hother])
  simpa [allSynonyms, Dict.values, List.flatMap_def] using subperm_flatMap hentries Prod.snd

end Settings

/-! ## Methods -/

/-- The tags that end up somewhere: those for the parameters, those for the result and those that
the method keeps. -/
def Method.placed (settings : Settings) (groups : TagGroups) (m' : Method) : List Tag :=
  groups.select (settings.titlesOf Settings.paramsGroup) ++
    groups.select (settings.titlesOf Settings.returnsGroup) ++ m'.tags.values.flatten

/-- What becomes of the tags of a comment, which are `tags` in their order and `groups` by title,
when the first method is made the second one. -/
structure Method.Merged (settings : Settings) (tags : List Tag) (groups : TagGroups)
    (m m' : Method) : Prop where
  /-- Tags are selected title after title, and under each title in the order of the comment. -/
  ordered : ∀ titles, groups.select titles = titles.flatMap (tagsTitled tags)
  /-- The synonyms of a group select the tags that have one of them as their title. -/
  selected : ∀ group, (groups.select (settings.titlesOf group)).Perm
    (tags.filter fun tag => tag.title ∈ settings.titlesOf group)
  /-- The method keeps the other tags, title after title as the titles first come up. -/
  kept : m'.tags.entries =
    (((tags.filter fun tag => tag.title ∉ settings.allSynonyms).map Tag.title).eraseDups.map
      fun title => (title, tagsTitled tags title))
  /-- No tag is both selected and kept. -/
  apart : ∀ group, (groups.select (settings.titlesOf group)).Disjoint m'.tags.values.flatten
  /-- None ends up in two places. -/
  once : (Method.placed settings groups m').Subperm tags
  /-- None is lost when there are no groups of synonyms besides the usual ones. -/
  all : settings.tagSynonyms = Settings.defaultSynonyms →
    (Method.placed settings groups m').Perm tags
  params : List.Forall₂
    (Param.DocumentedBy (groups.select (settings.titlesOf Settings.paramsGroup))) m.params m'.params
  returns : m'.returns = m.returns.or
    ((groups.select (settings.titlesOf Settings.returnsGroup)).head?.map Returns.ofTag)
  rest : m' = { m with params := m'.params, returns := m'.returns, tags := m'.tags }

-- The groups of the parameters and of the result give different synonyms, and the synonyms that are
-- all different select every tag once.
theorem Method.subperm_placed {settings : Settings} (hdistinct : settings.allSynonyms.Nodup)
    (tags : List Tag) {m' : Method}
    (h : m'.tags = (TagGroups.ofTags tags).without settings.allSynonyms) :
    (Method.placed settings (TagGroups.ofTags tags) m').Subperm tags := by
  have hgroups : Settings.paramsGroup ≠ Settings.returnsGroup := by decide
  have hselected := subperm_flatMap (settings.subperm_titlesOf hgroups)
    (TagGroups.ofTags tags).tagged
  rw [placed, h, ← TagGroups.select_append]
  exact (List.Subperm.append hselected (List.Subperm.refl _)).trans
    (TagGroups.perm_select_append_without hdistinct tags).subperm

/-- With synonyms that are all different, normalizing a method puts each tag of its comment into its
place. -/
theorem Method.normalize_merges {settings : Settings} {m m' : Method}
    (hdistinct : settings.allSynonyms.Nodup) (h : m.normalize settings = .ok m') :
    ∃ comment, Comment.read true (unwrap (m.docblock.getD "")) = .ok comment ∧
      Method.Merged settings comment.tags (TagGroups.ofTags comment.tags) m m' := by
  obtain ⟨groups, titles, hgroups, htitles, hreturns, hm'⟩ := normalize_eq_ok_iff.1 h
  obtain ⟨comment, hcomment, hread⟩ := bind_eq_ok_iff.1 (Fault.ofTag_eq_ok_iff.1 hgroups)
  obtain rfl := Except.ok.inj hread
  have htags : m'.tags = (TagGroups.ofTags comment.tags).without settings.allSynonyms := by rw [hm']
  have hselected : ∀ group,
      ((TagGroups.ofTags comment.tags).select (settings.titlesOf group)).Perm
        (comment.tags.filter fun tag => tag.title ∈ settings.titlesOf group) := by
    intro group
    rw [TagGroups.select_ofTags]
    exact TagGroups.perm_flatMap_tagsTitled (hdistinct.sublist (settings.titlesOf_sublist group)) _
  have hparams := Settings.titlesOf_of_synonyms htitles
  refine ⟨comment, hcomment, ?_⟩
  constructor
  case ordered => exact TagGroups.select_ofTags comment.tags
  case selected => exact hselected
  case kept =>
    rw [htags]
    exact TagGroups.entries_without_ofTags comment.tags settings.allSynonyms
  case apart =>
    intro group tag htag hkept
    have htitle := of_decide_eq_true (List.mem_filter.1 ((hselected group).mem_iff.1 htag)).2
    rw [htags] at hkept
    exact (TagGroups.mem_flatten_values_without_ofTags.1 hkept).2
      ((settings.titlesOf_sublist group).subset htitle)
  case once => exact subperm_placed hdistinct comment.tags htags
  case all =>
    intro hdefault
    have hall : settings.allSynonyms =
        settings.titlesOf Settings.paramsGroup ++ settings.titlesOf Settings.returnsGroup := by
      rw [Settings.allSynonyms, Settings.titlesOf, Settings.titlesOf, hdefault]
      decide
    rw [placed, htags, ← TagGroups.select_append, ← hall]
    exact TagGroups.perm_select_append_without hdistinct comment.tags
  case params =>
    rw [hm', hparams]
    exact List.forall₂_map_right_iff.2 (List.forall₂_same.2 fun p _ => p.documentedBy_document _)
  case returns => exact returns_of_documentedReturns hreturns
  case rest => exact hm'.trans (by rw [hm'])

/-- A method with two tags for one parameter, the one of the second synonym first, and with tags
that are no synonyms before, between and after them. -/
def renameMethod : Method :=
  ⟨"rename", some ("@since 1\n@arg \x7bstring\x7d name Second\n@see clear" ++
      "\n@param \x7bText\x7d [name=a] First\n@since 2\n@returns \x7bstring\x7d Old"),
    [⟨"name", some ⟨"string", Dict.ofList [("raw", .str "string")]⟩, none, none, Dict.empty⟩,
      ⟨"silent", none, none, some "false", Dict.empty⟩],
    none, [], Dict.empty, none, Dict.empty⟩

/-- The tags of its comment, in their order. -/
def renameTags : List Tag :=
  [⟨"since", "1", none, none, none⟩,
    ⟨"arg", "Second", some "name", some "string", none⟩,
    ⟨"see", "clear", none, none, none⟩,
    ⟨"param", "First", some "name", some "Text", some "a"⟩,
    ⟨"since", "2", none, none, none⟩,
    ⟨"returns", "Old", none, some "string", none⟩]

/-- The method after merging. -/
def renamedMethod : Method :=
  { renameMethod with
    params := [⟨"name", some ⟨"Text", Dict.empty⟩, some "First", some "a",
        Dict.empty⟩, ⟨"silent", none, none, some "false", Dict.empty⟩]
    returns := some ⟨some ⟨"string", Dict.empty⟩, some "Old", Dict.empty⟩
    tags := Dict.ofList [
      ("since", [⟨"since", "1", none, none, none⟩, ⟨"since", "2", none, none, none⟩]),
      ("see", [⟨"see", "clear", none, none, none⟩])] }

theorem Method.normalize_merges_renameMethod :
    Settings.default.allSynonyms.Nodup ∧
      renameMethod.normalize Settings.default = .ok renamedMethod ∧
      Method.Merged Settings.default renameTags (TagGroups.ofTags renameTags) renameMethod
        renamedMethod := by
  have hdistinct : Settings.default.allSynonyms.Nodup := by decide
  have hcomment : Comment.read true (unwrap (renameMethod.docblock.getD "")) =
      .ok ⟨"", renameTags⟩ := by decide +kernel
  have hread : renameMethod.readTags = .ok (TagGroups.ofTags renameTags) := by
    rw [readTags, ComponentDocs.readTags, hcomment]
    rfl
  have hnormal : renameMethod.normalize Settings.default = .ok renamedMethod :=
    normalize_eq_ok_iff.2 ⟨TagGroups.ofTags renameTags, _, hread, rfl, rfl, rfl⟩
  obtain ⟨comment, hcomment', hmerged⟩ := normalize_merges hdistinct hnormal
  obtain rfl := Except.ok.inj (hcomment.symm.trans hcomment')
  exact ⟨hdistinct, hnormal, hmerged⟩

end ComponentDocs
