import ComponentDocs.Proofs.Normal.Bare
import ComponentDocs.Proofs.Normal.Idempotence
import ComponentDocs.Proofs.Record.Place
import ComponentDocs.Proofs.Record.RoundTrip

/-!
# Data that no field stands for

What no field stands for is carried through a run as it is, and changes nothing else:
`normalize_unmodeled`.
-/

namespace ComponentDocs

open Json

/-! ## What a run carries -/

/-- The first tag of a method that is about a parameter. -/
def Method.paramTag? (settings : Settings) (m : Method) (name : String) : Option Tag :=
  match m.readTags, settings.synonyms Settings.paramsGroup with
  | .ok tags, .ok titles => (tags.select titles).find? fun tag => tag.name = some name
  | _, _ => none

/-- The methods that are documented, with their places. -/
def Record.publicMethods (r : Record) : List (Method × Nat) :=
  r.methods.zipIdx.filter fun e => e.1.isPublic

/-- Two documents of a method, the second one of its normal form: they hold the same beside the
fields, and so do those of its parameters and of its result. The details of the type of a parameter
are the same unless its tag gives it a type of another name. -/
structure Method.Carried (settings : Settings) (m : Method) (j o : Json) : Prop where
  beside : SameBeside methodKept j o
  params : ∀ k p, m.params[k]? = some p → ∃ item item',
    j.at? [.key "params", .index k] = some item ∧ o.at? [.key "params", .index k] = some item' ∧
      SameBeside paramKept item item' ∧
      ((∀ tag ∈ m.paramTag? settings p.name, ∀ name ∈ tag.type,
        p.type.map TypeInfo.name = some name) → SameDetails item item')
  returns : m.returns.isSome → ∃ item item',
    j.at? [.key "returns"] = some item ∧ o.at? [.key "returns"] = some item' ∧
      SameBeside returnsKept item item' ∧ SameDetails item item'

/-- Two documents of a record, the second one of its normal form: they hold the same beside the
fields, and so do those of the methods and the properties that stay. -/
structure Record.Carried (settings : Settings) (r : Record) (j o : Json) : Prop where
  beside : SameBeside recordKept j o
  methods : ∀ n m i, r.publicMethods[n]? = some (m, i) → ∃ item item',
    j.at? [.key "methods", .index i] = some item ∧ o.at? [.key "methods", .index n] = some item' ∧
      m.Carried settings item item'
  props : ∀ props ∈ r.props, ∀ name p, props.get? name = some p → p.isHidden settings = false →
    ∃ item item', j.at? [.key "props", .key name] = some item ∧
      o.at? [.key "props", .key name] = some item' ∧
      SameBeside propertyKept item item' ∧ SameDetails item item'

/-! ## Methods -/

theorem Param.extra_document (tags : List Tag) (p : Param) : (p.document tags).extra = p.extra := by
  unfold document
  split <;> rfl

theorem Param.type_document {tags : List Tag} {p : Param}
    (h : ∀ tag ∈ tags.find? fun tag => tag.name = some p.name, ∀ name ∈ tag.type,
      p.type.map TypeInfo.name = some name) : (p.document tags).type = p.type := by
  unfold document
  cases hfind : tags.find? fun tag => tag.name = some p.name with
  | none => rfl
  | some tag =>
    change p.typeFrom tag = p.type
    unfold typeFrom
    cases htype : tag.type with
    | none => rfl
    | some name => exact if_pos (h tag hfind name htype)

theorem Param.carried_document {item : Json} {p : Param} (h : Record.readParam item = .valid p)
    (tags : List Tag) :
    SameBeside paramKept item (p.document tags).toJson ∧
      ((∀ tag ∈ tags.find? fun tag => tag.name = some p.name, ∀ name ∈ tag.type,
        p.type.map TypeInfo.name = some name) → SameDetails item (p.document tags).toJson) := by
  obtain ⟨hbeside, hdetails, htype⟩ := Param.holds_of_read h
  have hextra := Param.extra_document tags p
  obtain ⟨hbeside', hdetails'⟩ :=
    Param.holds_toJson (p := p.document tags) (by rw [hextra, htype])
  exact ⟨hbeside.same (hextra ▸ hbeside'),
    fun hsame => hdetails.same (Param.type_document hsame ▸ hdetails')⟩

theorem Returns.carried_of_read {item : Json} {r : Returns}
    (h : Record.readReturns item = .valid r) :
    SameBeside returnsKept item r.toJson ∧ SameDetails item r.toJson := by
  obtain ⟨hbeside, hdetails, htype⟩ := Returns.holds_of_read h
  obtain ⟨hbeside', hdetails'⟩ := Returns.holds_toJson htype
  exact ⟨hbeside.same hbeside', hdetails.same hdetails'⟩

theorem Method.carried_of_normalize {settings : Settings} {m m' : Method} {j : Json}
    (hread : Record.readMethod j = .valid m) (h : m.normalize settings = .ok m') :
    m.Carried settings j m'.toJson := by
  obtain ⟨tags, titles, htags, htitles, hreturns, hm'⟩ := normalize_eq_ok_iff.1 h
  obtain ⟨d, hd, -, -, -, -, hparams, hreturnsField, -, hextra⟩ :=
    Record.readMethod_eq_valid_iff.1 hread
  have htag (name : String) : m.paramTag? settings name =
      (tags.select titles).find? fun tag => tag.name = some name := by
    unfold paramTag?
    rw [htags, htitles]
  have hget {key : String} (hkey : key ∈ Record.methodFields) :
      (m'.extra.writeFields m'.fields).get? key = (m'.fields.lookup key).join := by
    refine Dict.get?_writeFields_of_lacks ?_ m'.nodup_fields hkey
    rw [hm', ← hextra]
    exact d.lacks_without _
  refine ⟨?_, ?_, ?_⟩
  · have hsame : m'.extra = m.extra := by rw [hm']
    exact (holdsBeside_of_read hread).same (hsame ▸ m'.holdsBeside_toJson)
  · intro k p hp
    obtain ⟨item, hitem, hreadItem⟩ := at?_listField hd hparams hp
    have hp' : m'.params[k]? = some (p.document (tags.select titles)) := by
      rw [hm']
      change (m.params.map _)[k]? = _
      rw [List.getElem?_map, hp]
      rfl
    obtain ⟨hbeside, hdetails⟩ := Param.carried_document hreadItem (tags.select titles)
    refine ⟨item, _, hitem, ?_, hbeside, fun hsame => ?_⟩
    · rw [toJson_eq]
      exact at?_list (hget (by decide)) hp'
    · rw [htag] at hsame
      exact hdetails hsame
  · intro hsome
    obtain ⟨r, hr⟩ := Option.isSome_iff_exists.1 hsome
    rw [hr] at hreturnsField
    obtain ⟨item, hitem, -, hreadItem⟩ := Record.optionalField_eq_some_iff.1 hreturnsField
    obtain ⟨hbeside, hdetails⟩ := Returns.carried_of_read hreadItem
    have hr' : m'.returns = some r := by
      rw [documentedReturns, hr] at hreturns
      exact (Except.ok.inj hreturns).symm
    refine ⟨item, r.toJson, ?_, ?_, hbeside, hdetails⟩
    · rw [at?_singleton, step?_key_of_dict? hd, hitem]
    · rw [toJson_eq, at?_singleton, step?_key_of_dict? (dict?_obj_entries _), hget (by decide)]
      change some ((m'.returns.map Returns.toJson).getD .null) = _
      rw [hr']
      rfl

theorem Record.map_fst_publicMethods (r : Record) :
    r.publicMethods.map Prod.fst = r.methods.filter Method.isPublic := by
  have hmap : r.methods.filter Method.isPublic =
      (r.methods.zipIdx.map Prod.fst).filter Method.isPublic := by
    rw [List.zipIdx_map_fst]
  rw [hmap, List.filter_map]
  rfl

theorem Record.getElem?_of_publicMethods {r : Record} {n i : Nat} {m : Method}
    (h : r.publicMethods[n]? = some (m, i)) : r.methods[i]? = some m :=
  List.mk_mem_zipIdx_iff_getElem?.1 (List.mem_of_mem_filter (List.mem_of_getElem? h))

/-! ## Records -/

theorem Record.carried_of_normalize {ctx : Context} {r r' : Record} {j : Json}
    (hread : Record.ofJson j = .ok r) (h : (normalize ctx r).result = .ok r') :
    r.Carried ctx.settings j r'.toJson := by
  obtain ⟨d, hd, hmembers⟩ := ofJson_eq_ok_iff.1 hread
  obtain ⟨hextra, hmethods, hprops⟩ := frame_of_normalize h
  obtain ⟨-, -, hmethodsField, hpropsField, -, -, -, -, -, -⟩ := readMembers_eq_valid_iff.1 hmembers
  have hlacks := lacks_of_readMembers hmembers
  rw [← hextra] at hlacks
  have hget {key : String} (hkey : key ∈ recordFields "displayName" "visibleName") :
      (r'.extra.writeFields r'.fields).get? key = (r'.fields.lookup key).join :=
    Dict.get?_writeFields_of_lacks hlacks r'.nodup_fields hkey
  refine ⟨?_, ?_, ?_⟩
  · exact (holdsBeside_of_read hd hmembers).same (hextra ▸ r'.holdsBeside_toJson)
  · intro n m i hm
    obtain ⟨item, hitem, hreadItem⟩ :=
      at?_listField hd hmethodsField (getElem?_of_publicMethods hm)
    have hfilter : (r.methods.filter Method.isPublic)[n]? = some m := by
      rw [← map_fst_publicMethods, List.getElem?_map, hm]
      rfl
    obtain ⟨m', hm', hnormal⟩ :=
      exists_getElem?_of_forall₂ (List.Forall₂.flip (mapM_eq_ok_iff.1 hmethods)) hfilter
    refine ⟨item, m'.toJson, hitem, ?_, Method.carried_of_normalize hreadItem hnormal⟩
    rw [toJson_eq]
    exact at?_list (hget (by decide)) hm'
  · intro props hr name p hp hkept
    rw [Option.mem_def.1 hr] at hpropsField
    obtain ⟨item, hitem, hreadItem⟩ := at?_dictField hd hpropsField hp
    rw [Option.mem_def.1 hr] at hprops
    obtain ⟨props', hprops', hentries⟩ := exists_of_rel_some_left hprops
    obtain ⟨c, hc⟩ := mem_normalizeEntries hentries (Dict.get?_eq_some_iff.1 hp) hkept
    have hp' : props'.get? name = some (p.withComment c) := Dict.get?_eq_some_iff.2 hc
    obtain ⟨hbeside, hdetails, htype⟩ := Property.holds_of_read hreadItem
    obtain ⟨hbeside', hdetails'⟩ := Property.holds_toJson (p := p.withComment c) htype
    refine ⟨item, (p.withComment c).toJson, hitem, ?_, hbeside.same hbeside',
      hdetails.same hdetails'⟩
    rw [toJson_eq]
    refine at?_dict ((hget (by decide)).trans ?_) hp'
    change r'.props.map _ = _
    rw [hprops']
    rfl

/-! ## Documents -/

/-- The normal form of a document, with the log of the run, or the issues of the document. -/
def normalDocument (ctx : Context) (j : Json) : Except (List Issue) (Logged Json) :=
  (Record.ofJson j).map fun r => Record.toJson <$> normalize ctx r

-- A bare document has the bare normal form, the same log and the same issues and faults.
theorem normalDocument_bareRecord (ctx : Context) (j : Json) :
    normalDocument ctx (bareRecord j) =
      (normalDocument ctx j).map fun run => bareRecord <$> run := by
  unfold normalDocument
  rw [Record.ofJson_bareRecord]
  cases Record.ofJson j with
  | error issues => rfl
  | ok r =>
    change Except.ok (Record.toJson <$> normalize ctx r.bare) =
      Except.ok (bareRecord <$> Record.toJson <$> normalize ctx r)
    rw [normalize_bare, ← comp_map, ← comp_map]
    exact congrArg (fun f => Except.ok (f <$> normalize ctx r)) (funext Record.toJson_bare)

/-- What no field stands for is carried through a run: a normal form holds it at the same places,
beside the fields of the record and of each method and property that stays, of their parameters and
results, and in the details of their types, unless a tag has given a parameter a type of another
name. And it changes nothing else: documents that are the same without it have the same issues or
faults, the same log, and normal forms that are the same without it. -/
theorem normalize_unmodeled (ctx : Context) (j : Json) :
    (∀ r r', Record.ofJson j = .ok r → (normalize ctx r).result = .ok r' →
      r.Carried ctx.settings j r'.toJson) ∧
      ∀ j₂, bareRecord j₂ = bareRecord j →
        ((normalDocument ctx j₂).map fun run => bareRecord <$> run) =
          (normalDocument ctx j).map fun run => bareRecord <$> run := by
  refine ⟨fun r r' hread h => Record.carried_of_normalize hread h, fun j₂ hsame => ?_⟩
  rw [← normalDocument_bareRecord, ← normalDocument_bareRecord, hsame]

/-! ## A run over data that no field stands for -/

/-- A document with data that no field stands for, in the record, in a method and in the type of a
property. -/
def annotatedDocument : Json :=
  .obj [("custom", .int 1),
    ("methods", .arr [.obj [("name", .str "reset")],
      .obj [("name", .str "focus"), ("docblock", .str "@public"), ("async", .bool true)]]),
    ("props", .obj [("size",
      .obj [("type", .obj [("name", .str "enum"), ("raw", .str "s | m")])])])]

/-- The same document without these data. -/
def unannotatedDocument : Json :=
  .obj [("methods", .arr [.obj [("name", .str "reset")],
      .obj [("name", .str "focus"), ("docblock", .str "@public")]]),
    ("props", .obj [("size", .obj [("type", .obj [("name", .str "enum")])])])]

theorem exists_normalize_annotatedDocument :
    ∃ r r', Record.ofJson annotatedDocument = .ok r ∧ (normalize .plain r).result = .ok r' ∧
      r.publicMethods.map Prod.snd = [1] := by
  have hrun : ((Record.ofJson annotatedDocument).toOption.any fun r =>
      (normalize .plain r).result.toOption.any fun _ => r.publicMethods.map Prod.snd == [1]) =
      true := by
    decide +kernel
  obtain ⟨r, hread, hrun⟩ := exists_ok_of_any hrun
  obtain ⟨r', hresult, hpublic⟩ := exists_ok_of_any hrun
  exact ⟨r, r', hread, hresult, beq_iff_eq.1 hpublic⟩

/-- The second method becomes the first one, with its data, and the run is the same without them. -/
theorem normalize_unmodeled_annotatedDocument :
    ∃ r r', Record.ofJson annotatedDocument = .ok r ∧ (normalize .plain r).result = .ok r' ∧
      r.publicMethods.map Prod.snd = [1] ∧
      r.Carried Context.plain.settings annotatedDocument r'.toJson ∧
      r'.toJson.at? [.key "custom"] = some (.int 1) ∧
      bareRecord unannotatedDocument = bareRecord annotatedDocument ∧
      ((normalDocument .plain unannotatedDocument).map fun run => bareRecord <$> run) =
        (normalDocument .plain annotatedDocument).map fun run => bareRecord <$> run := by
  obtain ⟨r, r', hread, hrun, hpublic⟩ := exists_normalize_annotatedDocument
  obtain ⟨hcarried, hsame⟩ := normalize_unmodeled .plain annotatedDocument
  have hr := hcarried r r' hread hrun
  have hcustom : r'.toJson.at? [.key "custom"] = annotatedDocument.at? [.key "custom"] :=
    hr.beside "custom" (by decide)
  exact ⟨r, r', hread, hrun, hpublic, hr, hcustom, rfl, hsame unannotatedDocument rfl⟩

end ComponentDocs
