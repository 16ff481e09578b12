import ComponentDocs.Proofs.Normal.Stages
import ComponentDocs.Proofs.Record.Place
import ComponentDocs.Proofs.Record.RoundTrip

/-!
# Normal forms as documents

A normal form is written as a document that is read again, and what has been read is written as the
same document: `normalize_ofJson_toJson`. What a stage adds to a record stays apart from the data
that no field stands for, and nothing that is read again takes its place.
-/

namespace ComponentDocs

open Json

/-! ## What is written of a record -/

/-- A property as it is read again: without a text, a default is not known to be computed. -/
def Property.asWritten (p : Property) : Property :=
  { p with default := ⟨p.default.text, p.default.text.isSome && p.default.computed⟩ }

/-- A record as it is read again: an external example is the data as which it is written. -/
def Record.asWritten (r : Record) : Record :=
  { r with
    props := r.props.map (Dict.map Property.asWritten)
    external := .value r.external.toJson }

theorem Property.toJson_asWritten (p : Property) : p.asWritten.toJson = p.toJson := by
  obtain ⟨description, type, required, ⟨text, computed⟩, tags, extra⟩ := p
  cases text <;> rfl

theorem Record.toJson_asWritten (r : Record) : r.asWritten.toJson = r.toJson := by
  have hprops : (r.asWritten.props.map fun props => Json.obj (props.map Property.toJson).entries) =
      r.props.map fun props => Json.obj (props.map Property.toJson).entries := by
    unfold asWritten
    cases r.props with
    | none => rfl
    | some props =>
      have hsame : Property.toJson ∘ Property.asWritten = Property.toJson :=
        funext Property.toJson_asWritten
      simp only [Option.map_some, Dict.map_map, hsame]
  have hfields : r.asWritten.fields = r.fields := by
    unfold fields
    rw [hprops]
    rfl
  rw [toJson_eq, toJson_eq, hfields]
  rfl

/-- Nothing stands under the second name of a field that is not written. -/
structure Record.SecondFree (r : Record) : Prop where
  defaultValue : ∀ props ∈ r.props, ∀ e ∈ props.entries, e.2.extra.get? "default_value" = none
  visibleName : r.extra.get? "visible_name" = none

theorem Property.Apart.asWritten {p : Property} (h : p.Apart) : p.asWritten.Apart :=
  ⟨h.type, h.extra⟩

theorem Record.Apart.asWritten {r : Record} (h : r.Apart) : r.asWritten.Apart := by
  refine ⟨h.methods, fun props' hprops' e' he' => ?_, h.extra⟩
  obtain ⟨props, hprops, rfl⟩ := Option.map_eq_some_iff.1 hprops'
  obtain ⟨e, he, rfl⟩ := List.mem_map.1 he'
  exact (h.props props hprops e he).asWritten

theorem Record.SecondFree.restorable {r : Record} (h : r.SecondFree) : r.asWritten.Restorable := by
  refine ⟨fun props' hprops' e' he' htext => ?_, fun _ => h.visibleName⟩
  obtain ⟨props, hprops, rfl⟩ := Option.map_eq_some_iff.1 hprops'
  obtain ⟨e, he, rfl⟩ := List.mem_map.1 he'
  have hnone : e.2.default.text = none := htext
  refine ⟨?_, h.defaultValue props hprops e he⟩
  change (e.2.default.text.isSome && e.2.default.computed) = false
  rw [hnone]
  rfl

/-- A record is read from what is written, if its other data stand apart from its fields and from
their second names. -/
theorem Record.ofJson_toJson_of_apart {r : Record} (h : r.Apart) (hsecond : r.SecondFree) :
    ofJson r.toJson = .ok r.asWritten := by
  have hread : readMembers (r.asWritten.extra.writeFields r.asWritten.fields) =
      .valid r.asWritten :=
    (readMembers_writeFields_iff_of_apart h.asWritten ⟨_, rfl⟩).2 hsecond.restorable
  rw [← toJson_asWritten, toJson_eq, ofJson_eq_ok_iff]
  exact ⟨_, dict?_obj_entries _, hread⟩

/-! ## Stages -/

theorem TypeInfo.apart_of_name (name : String) : TypeInfo.Apart ⟨name, Dict.empty⟩ :=
  fun _ _ => rfl

theorem Param.apart_document {p : Param} (h : p.Apart) (tags : List Tag) :
    (p.document tags).Apart := by
  unfold document
  cases tags.find? fun tag => tag.name = some p.name with
  | none => exact h
  | some tag =>
    refine ⟨fun t ht => ?_, h.extra⟩
    change t ∈ p.typeFrom tag at ht
    unfold typeFrom at ht
    split at ht
    · exact h.type t ht
    · split at ht
      · exact h.type t ht
      · obtain rfl := Option.some.inj ht
        exact TypeInfo.apart_of_name _

theorem Returns.apart_ofTag (tag : Tag) : (Returns.ofTag tag).Apart := by
  refine ⟨fun t ht => ?_, fun _ _ => rfl⟩
  obtain ⟨name, -, rfl⟩ := Option.map_eq_some_iff.1 ht
  exact TypeInfo.apart_of_name name

theorem Method.apart_of_documentedReturns {settings : Settings} {tags : TagGroups} {m : Method}
    (hm : m.Apart) {o : Option Returns} (h : m.documentedReturns settings tags = .ok o) :
    ∀ r ∈ o, r.Apart := by
  intro r hr
  obtain rfl := returns_of_documentedReturns h
  rcases Option.or_eq_some_iff.1 hr with hfound | ⟨-, hmap⟩
  · exact hm.returns r hfound
  · obtain ⟨tag, -, rfl⟩ := Option.map_eq_some_iff.1 hmap
    exact Returns.apart_ofTag tag

theorem Method.apart_of_normalize {settings : Settings} {m m' : Method} (hm : m.Apart)
    (h : m.normalize settings = .ok m') : m'.Apart := by
  obtain ⟨tags, titles, -, -, hreturns, hm'⟩ := normalize_eq_ok_iff.1 h
  refine ⟨fun p hp => ?_, apart_of_documentedReturns hm hreturns, ?_⟩
  · rw [hm'] at hp
    obtain ⟨q, hq, rfl⟩ := List.mem_map.1 hp
    exact Param.apart_document (hm.params q hq) _
  · rw [hm']
    exact hm.extra

-- Every property of a normal form is one of the record with its comment taken apart.
theorem exists_of_mem_normalize_props {ctx : Context} {r r' : Record}
    (h : (normalize ctx r).result = .ok r') {props' : Dict Property}
    (hprops' : r'.props = some props') {e' : String × Property} (he' : e' ∈ props'.entries) :
    ∃ props, r.props = some props ∧ ∃ e ∈ props.entries, e'.1 = e.1 ∧ e.2.TakenApart e'.2 := by
  obtain ⟨-, -, hrel⟩ := frame_of_normalize h
  rw [hprops'] at hrel
  obtain ⟨props, hprops, hentries⟩ := exists_of_rel_some_right hrel
  obtain ⟨e, he, hname, htaken⟩ := exists_of_mem_right (forall₂_of_normalizeEntries hentries) he'
  exact ⟨props, hprops, e, List.mem_of_mem_filter he, hname, htaken⟩

/-- What no field stands for is apart from the fields of a normal form. -/
theorem Record.apart_of_normalize {ctx : Context} {r r' : Record} (hr : r.Apart)
    (h : (normalize ctx r).result = .ok r') : r'.Apart := by
  obtain ⟨hextra, hmethods, -⟩ := frame_of_normalize h
  refine ⟨fun m' hm' => ?_, fun props' hprops' e' he' => ?_, hextra ▸ hr.extra⟩
  · obtain ⟨m, hm, hnormal⟩ := exists_of_mem_right (mapM_eq_ok_iff.1 hmethods) hm'
    exact Method.apart_of_normalize (hr.methods m (List.mem_of_mem_filter hm)) hnormal
  · obtain ⟨props, hprops, e, he, -, c, -, hc⟩ := exists_of_mem_normalize_props h hprops' he'
    rw [hc]
    exact ⟨(hr.props props hprops e he).type, (hr.props props hprops e he).extra⟩

theorem Record.secondFree_of_normalize {ctx : Context} {r r' : Record} (hr : r.SecondFree)
    (h : (normalize ctx r).result = .ok r') : r'.SecondFree := by
  obtain ⟨hextra, -, -⟩ := frame_of_normalize h
  refine ⟨fun props' hprops' e' he' => ?_, hextra ▸ hr.visibleName⟩
  obtain ⟨props, hprops, e, he, -, c, -, hc⟩ := exists_of_mem_normalize_props h hprops' he'
  rw [hc]
  exact hr.defaultValue props hprops e he

/-! ## Documents -/

/-- Whether a document keeps to the first spelling of the names of fields that may be left out. -/
structure Json.FirstSpelling (j : Json) : Prop where
  visibleName : j.at? [.key "visible_name"] = none
  defaultValue : ∀ name, j.at? [.key "props", .key name, .key "default_value"] = none

theorem Record.secondFree_of_read {j : Json} {r : Record} (hread : ofJson j = .ok r)
    (h : j.FirstSpelling) : r.SecondFree := by
  obtain ⟨d, hd, hmembers⟩ := ofJson_eq_ok_iff.1 hread
  obtain ⟨-, -, -, hprops, -, -, -, -, -, hextra⟩ := readMembers_eq_valid_iff.1 hmembers
  constructor
  · intro props hr e he
    rw [Option.mem_def.1 hr] at hprops
    obtain ⟨item, hitem, hreadItem⟩ := at?_dictField hd hprops (Dict.get?_eq_some_iff.2 he)
    obtain ⟨d', hd', -, -, -, -, -, hextra'⟩ := readProperty_eq_valid_iff.1 hreadItem
    have hplace : j.at? ([.key "props", .key e.1] ++ [.key "default_value"]) = none :=
      h.defaultValue e.1
    rw [at?_append, hitem, Option.bind_some, at?_singleton, step?_key_of_dict? hd'] at hplace
    rw [← hextra', Dict.get?_without, hplace, ite_self]
  · have hplace := h.visibleName
    rw [at?_singleton, step?_key_of_dict? hd] at hplace
    rw [← hextra, Dict.get?_without, hplace, ite_self]

/-- A normal form is written as a document that is read again, if its own document keeps to the
first spelling of each name, and what has been read is written as the same document. -/
theorem normalize_ofJson_toJson {ctx : Context} {j : Json} {r r' : Record}
    (hspelling : j.FirstSpelling) (hread : Record.ofJson j = .ok r)
    (h : (normalize ctx r).result = .ok r') :
    ∃ again, Record.ofJson r'.toJson = .ok again ∧ again.toJson = r'.toJson := by
  have hapart : r'.Apart := Record.apart_of_normalize (Record.apart_of_read hread) h
  have hsecond : r'.SecondFree :=
    Record.secondFree_of_normalize (Record.secondFree_of_read hread hspelling) h
  exact ⟨r'.asWritten, Record.ofJson_toJson_of_apart hapart hsecond, r'.toJson_asWritten⟩

/-- A property with a default. -/
def sizeMember : String × Json :=
  ("size", .obj [("defaultValue", .obj [("value", .str "s"), ("computed", .bool true)])])

/-- A document with a name and a type that only comments know, a default, and a member that no field
stands for. -/
def labelledDocument : Json :=
  .obj [("custom", .int 1), ("description", .str "A button.\n@visibleName Big"),
    ("methods", .arr [.obj [("name", .str "focus"),
      ("docblock", .str "@public\n@param {bool} deep"),
      ("params", .arr [.obj [("name", .str "deep")]])]]),
    ("props", .obj [sizeMember])]

theorem firstSpelling_labelledDocument : labelledDocument.FirstSpelling := by
  refine ⟨rfl, fun name => ?_⟩
  have hprops : labelledDocument.step? (.key "props") = some (.obj [sizeMember]) := rfl
  rw [at?_cons, hprops, Option.bind_some, at?_cons]
  change ((Dict.ofList [sizeMember]).get? name).bind _ = none
  cases hget : (Dict.ofList [sizeMember]).get? name with
  | none => rfl
  | some j =>
    obtain ⟨-, rfl⟩ := Prod.mk.inj (List.mem_singleton.1 (Dict.mem_of_get?_ofList hget))
    rfl

/-- The normal form of a document with a visible name is read again. -/
theorem normalize_ofJson_toJson_labelledDocument :
    ∃ r r' again, Record.ofJson labelledDocument = .ok r ∧ (normalize .plain r).result = .ok r' ∧
      r'.visibleName = some "Big" ∧ Record.ofJson r'.toJson = .ok again ∧
      again.toJson = r'.toJson := by
  have hrun : ((Record.ofJson labelledDocument).toOption.any fun r =>
      (normalize .plain r).result.toOption.any fun r' => r'.visibleName == some "Big") = true := by
    decide +kernel
  obtain ⟨r, hread, hrun⟩ := exists_ok_of_any hrun
  obtain ⟨r', hresult, hname⟩ := exists_ok_of_any hrun
  obtain ⟨again, hagain, hsame⟩ :=
    normalize_ofJson_toJson firstSpelling_labelledDocument hread hresult
  exact ⟨r, r', again, hread, hresult, beq_iff_eq.1 hname, hagain, hsame⟩

end ComponentDocs
