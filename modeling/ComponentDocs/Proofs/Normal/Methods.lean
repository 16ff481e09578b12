import ComponentDocs.Normal.Methods
import ComponentDocs.Proofs.Log

/-!
# Methods that are normal already

The comment of a method is kept, so it makes the method public again, and its tags say nothing that
they have not said before: `Method.normalize_of_result`.
-/

namespace ComponentDocs

theorem Param.typeFrom_of_type {p q : Param} {tag : Tag} (h : q.type = p.typeFrom tag) :
    q.typeFrom tag = p.typeFrom tag := by
  unfold typeFrom at h ⊢
  cases htag : tag.type with
  | none =>
    rw [htag] at h
    exact h
  | some name =>
    simp only [htag] at h ⊢
    rw [h]
    by_cases hname : p.type.map TypeInfo.name = some name
    · rw [if_pos hname, if_pos hname]
    · rw [if_neg hname, Option.map_some, if_pos rfl]

theorem Param.withTag_withTag (p : Param) (tag : Tag) :
    (p.withTag tag).withTag tag = p.withTag tag := by
  have htype : (p.withTag tag).typeFrom tag = p.typeFrom tag := typeFrom_of_type rfl
  have hdefault : (tag.default <|> tag.default <|> p.default) = (tag.default <|> p.default) := by
    cases tag.default <;> rfl
  conv_lhs => rw [withTag, htype]
  unfold withTag
  rw [hdefault]

theorem Param.document_name (tags : List Tag) (p : Param) : (p.document tags).name = p.name := by
  unfold document
  split <;> rfl

-- What tags say about a parameter is said once.
theorem Param.document_document (tags : List Tag) (p : Param) :
    (p.document tags).document tags = p.document tags := by
  conv_lhs => rw [document, document_name]
  cases hfind : tags.find? fun tag => tag.name = some p.name with
  | none => rfl
  | some tag =>
    have hp : p.document tags = p.withTag tag := by rw [document, hfind]
    simp only [hp, withTag_withTag]

/-- The titles of a group of synonyms; a group that is not there has none. -/
def Settings.titlesOf (s : Settings) (group : String) : List String :=
  (s.tagSynonyms.get? group).getD []

theorem Settings.titlesOf_of_synonyms {s : Settings} {group : String} {titles : List String}
    (h : s.synonyms group = .ok titles) : s.titlesOf group = titles := by
  unfold synonyms at h
  cases hget : s.tagSynonyms.get? group with
  | none =>
    rw [hget] at h
    cases h
  | some found =>
    rw [hget] at h
    rw [titlesOf, hget, ← Except.ok.inj h, Option.getD_some]

theorem Method.returns_of_documentedReturns {settings : Settings} {groups : TagGroups} {m : Method}
    {found : Option Returns} (h : m.documentedReturns settings groups = .ok found) :
    found = m.returns.or
      ((groups.select (settings.titlesOf Settings.returnsGroup)).head?.map Returns.ofTag) := by
  unfold documentedReturns at h
  cases hreturns : m.returns with
  | some returns =>
    rw [hreturns] at h
    exact (Except.ok.inj h).symm
  | none =>
    rw [hreturns] at h
    obtain ⟨titles, htitles, hfound⟩ := bind_eq_ok_iff.1 h
    rw [Settings.titlesOf_of_synonyms htitles]
    exact (Except.ok.inj hfound).symm

theorem Method.documentedReturns_of_result {settings : Settings} {tags : TagGroups} {m m' : Method}
    (h : m.documentedReturns settings tags = .ok m'.returns) :
    m'.documentedReturns settings tags = .ok m'.returns := by
  cases hm' : m'.returns with
  | some found => rw [documentedReturns, hm']
  | none =>
    have hm : m.returns = none := by
      cases hm : m.returns with
      | none => rfl
      | some found =>
        rw [documentedReturns, hm, hm'] at h
        cases Except.ok.inj h
    rw [documentedReturns, hm, hm'] at h
    rw [documentedReturns, hm']
    exact h

theorem Method.isPublic_of_docblock {m m' : Method} (h : m'.docblock = m.docblock) :
    m'.isPublic = m.isPublic := by
  rw [isPublic, isPublic, h]

-- What it takes to normalize a method, and what comes of it.
theorem Method.normalize_eq_ok_iff {settings : Settings} {m m' : Method} :
    m.normalize settings = .ok m' ↔
      ∃ tags titles, m.readTags = .ok tags ∧
        settings.synonyms Settings.paramsGroup = .ok titles ∧
        m.documentedReturns settings tags = .ok m'.returns ∧
        m' = { m with
          params := m.params.map (Param.document (tags.select titles))
          returns := m'.returns
          tags := tags.without settings.allSynonyms } := by
  unfold normalize
  simp only [bind_eq_ok_iff]
  constructor
  · rintro ⟨tags, htags, titles, htitles, returns, hreturns, h⟩
    obtain rfl := Except.ok.inj h
    exact ⟨tags, titles, htags, htitles, hreturns, rfl⟩
  · rintro ⟨tags, titles, htags, htitles, hreturns, h⟩
    exact ⟨tags, htags, titles, htitles, m'.returns, hreturns, congrArg _ h.symm⟩

/-- A method that has been normalized is normal. -/
theorem Method.normalize_of_result {settings : Settings} {m m' : Method}
    (h : m.normalize settings = .ok m') :
    m'.docblock = m.docblock ∧ m'.normalize settings = .ok m' := by
  obtain ⟨tags, titles, htags, htitles, hreturns, hm'⟩ := normalize_eq_ok_iff.1 h
  have hdocblock : m'.docblock = m.docblock := by rw [hm']
  have hparams : m'.params.map (Param.document (tags.select titles)) = m'.params := by
    have hmap : m'.params = m.params.map (Param.document (tags.select titles)) := by rw [hm']
    rw [hmap, List.map_map]
    exact List.map_congr_left fun p _ => Param.document_document _ p
  have htags' : tags.without settings.allSynonyms = m'.tags := by rw [hm']
  refine ⟨hdocblock, normalize_eq_ok_iff.2 ⟨tags, titles, ?_, htitles, ?_, ?_⟩⟩
  · rw [readTags, hdocblock, ← htags, readTags]
  · exact documentedReturns_of_result hreturns
  · rw [hparams, htags']

-- The methods of a record that has been normalized are normal.
theorem mapM_normalize_of_result {settings : Settings} {methods found : List Method}
    (h : (methods.filter Method.isPublic).mapM (Method.normalize settings) = .ok found) :
    (found.filter Method.isPublic).mapM (Method.normalize settings) = .ok found := by
  refine mapM_filter_of_fixed ?_ h
  intro m m' hpublic hm
  obtain ⟨hdocblock, hnormal⟩ := Method.normalize_of_result hm
  exact ⟨by rw [Method.isPublic_of_docblock hdocblock, hpublic], hnormal⟩

theorem normalizeMethods_eq_ok_iff {ctx : Context} {r r' : Record} :
    (normalizeMethods ctx r).result = .ok r' ↔
      (r.methods.filter Method.isPublic).mapM (Method.normalize ctx.settings) = .ok r'.methods ∧
        r' = { r with methods := r'.methods } := by
  rw [normalizeMethods, Logged.ofExcept_result, bind_eq_ok_iff]
  constructor
  · rintro ⟨methods, hmethods, h⟩
    obtain rfl := Except.ok.inj h
    exact ⟨hmethods, rfl⟩
  · rintro ⟨hmethods, h⟩
    exact ⟨r'.methods, hmethods, congrArg _ h.symm⟩

-- A record with normal methods stays as it is.
theorem normalizeMethods_of_normal {ctx : Context} {r : Record}
    (h : (r.methods.filter Method.isPublic).mapM (Method.normalize ctx.settings) = .ok r.methods) :
    normalizeMethods ctx r = pure r := by
  rw [normalizeMethods, h]
  rfl

end ComponentDocs
