import ComponentDocs.Proofs.Record.Apart

/-!
# Records that are read back

What has been read is read back from what is written, apart from two things: a default without a
text is not written, so that it is lost that it is computed, and a field that is not written is read
from the second spelling of its name. `Record.ofJson_toJson_iff` says that nothing else is lost.
-/

namespace ComponentDocs

open Json Checked

namespace Record

variable {α : Type}

/-! ## Fields -/

theorem requiredField_of_string {d : Dict Json} {key s : String} (h : d.get? key = some (.str s)) :
    requiredField d key readString = .valid s :=
  requiredField_eq_valid_iff.2 ⟨_, h, rfl⟩

-- A field that is left out when it is absent.
theorem optionalField_of_map {d : Dict Json} {key : String} {o : Option α} {toJson : α → Json}
    {read : Json → Checked α} (h : d.get? key = o.map toJson)
    (hread : ∀ a ∈ o, toJson a ≠ .null ∧ read (toJson a) = .valid a) :
    optionalField d key none (readOption read) = .valid o := by
  cases o with
  | none => exact optionalField_of_none h _ _
  | some a =>
    rw [optionalField_of_some h, under_eq_valid_iff, readOption_eq_some_iff]
    exact hread a rfl

theorem textField_of_map {d : Dict Json} {key : String} {o : Option String}
    (h : d.get? key = o.map .str) : textField d key = .valid o :=
  optionalField_of_map h fun _ _ => ⟨Json.noConfusion, rfl⟩

-- A text that is written as null when it is absent.
theorem textField_of_ofString? {d : Dict Json} {key : String} {o : Option String}
    (h : d.get? key = some (ofString? o)) : textField d key = .valid o := by
  rw [textField, optionalField_of_some h]
  cases o <;> rfl

theorem readList_map {read : Json → Checked α} {toJson : α → Json} {l : List α}
    (h : ∀ a ∈ l, read (toJson a) = .valid a) : readList read (.arr (l.map toJson)) = .valid l :=
  readList_eq_valid_iff.2 ⟨_, rfl, List.forall₂_map_left_iff.2 (List.forall₂_same.2 h)⟩

theorem readDict_map_iff {read : Json → Checked α} {toJson : α → Json} {d : Dict α} :
    readDict read (.obj (d.map toJson).entries) = .valid d ↔
      ∀ e ∈ d.entries, read (toJson e.2) = .valid e.2 := by
  simp only [readDict_eq_valid_iff, dict?_obj_entries, Option.some.injEq, exists_eq_left']
  simp only [Dict.map, List.forall₂_map_left_iff, List.forall₂_same, true_and]

theorem readStrings_ofStrings (l : List String) :
    readList readString (ofStrings l) = .valid l :=
  readList_map fun _ _ => rfl

/-! ## Types -/

theorem readType_toJson {t : TypeInfo} (hlacks : t.Apart) : readType t.toJson = .valid t := by
  have hname : t.details.get? "name" = none := hlacks "name" List.mem_cons_self
  refine readType_eq_valid_iff.2 (.inr (readTypeObject_eq_valid_iff.2
    ⟨_, dict?_obj_entries _, requiredField_of_string ?_, ?_⟩))
  · rw [Dict.get?_merge, hname]
    rfl
  · have hentries : ((Dict.ofList [("name", Json.str t.name)]).merge t.details).entries =
        ("name", .str t.name) :: t.details.entries := by
      refine Dict.entries_insertMany t.details.nodup fun k hk hkey => ?_
      rw [List.mem_singleton.1 hkey, ← Dict.keys, ← Dict.get?_isSome_iff, hname] at hk
      cases hk
    rw [TypeInfo.Apart, ← Dict.without_eq_self_iff] at hlacks
    apply Dict.ext
    rw [Dict.entries_without, hentries, List.filter_cons_of_neg (by simp), ← Dict.entries_without,
      hlacks]

theorem typeField_of_map {d : Dict Json} {o : Option TypeInfo} (h : ∀ t ∈ o, t.Apart)
    (hget : d.get? "type" = o.map TypeInfo.toJson) : typeField d = .valid o :=
  optionalField_of_map hget fun t ht => ⟨Json.noConfusion, readType_toJson (h t ht)⟩

/-! ## Tags -/

theorem readTag_toJson (t : Tag) : readTag t.toJson = .valid t := by
  have hget (key : String) : (Dict.ofList (present t.fields)).get? key =
      (t.fields.lookup key).join :=
    (Dict.get?_writeFields t.nodup_fields Dict.empty key).trans (Option.or_none ..)
  rw [Tag.toJson_eq, readTag_eq_valid_iff]
  refine ⟨_, rfl, requiredField_of_string (hget _), ?_, textField_of_map (hget _), ?_,
    textField_of_map (hget _)⟩
  · have htext : textField (Dict.ofList (present t.fields)) "description" =
        .valid (some t.description) := textField_of_map (hget _)
    rw [htext]
    rfl
  · have htype : typeField (Dict.ofList (present t.fields)) =
        .valid (t.type.map fun name => ⟨name, Dict.empty⟩) := by
      have htype : (Dict.ofList (present t.fields)).get? "type" =
          (t.type.map fun name => TypeInfo.mk name Dict.empty).map TypeInfo.toJson := by
        rw [hget, Option.map_map]
        rfl
      refine optionalField_of_map htype fun type htype => ?_
      obtain ⟨name, -, rfl⟩ := Option.map_eq_some_iff.1 htype
      exact ⟨Json.noConfusion, rfl⟩
    rw [htype]
    cases t.type <;> rfl

theorem tagsField_of_toJson {d : Dict Json} {tags : TagGroups}
    (h : d.get? "tags" = some tags.toJson) : tagsField d = .valid tags := by
  rw [tagsField, optionalField_of_some h, under_eq_valid_iff, TagGroups.toJson, readDict_map_iff]
  exact fun e _ => readList_map fun t _ => readTag_toJson t

/-! ## Methods -/

theorem readParam_toJson {p : Param} (h : p.Apart) : readParam p.toJson = .valid p := by
  have hget {key : String} (hkey : key ∈ paramFields) :
      (p.extra.writeFields p.fields).get? key = (p.fields.lookup key).join :=
    Dict.get?_writeFields_of_lacks h.extra p.nodup_fields hkey
  rw [Param.toJson_eq, readParam_eq_valid_iff]
  refine ⟨_, dict?_obj_entries _, requiredField_of_string (hget (by decide)),
    typeField_of_map h.type (hget (by decide)), textField_of_map (hget (by decide)),
    textField_of_map (hget (by decide)), Dict.without_writeFields h.extra ?_⟩
  simp [Param.fields, paramFields]

theorem readReturns_toJson {r : Returns} (h : r.Apart) : readReturns r.toJson = .valid r := by
  have hget {key : String} (hkey : key ∈ returnsFields) :
      (r.extra.writeFields r.fields).get? key = (r.fields.lookup key).join :=
    Dict.get?_writeFields_of_lacks h.extra r.nodup_fields hkey
  rw [Returns.toJson_eq, readReturns_eq_valid_iff]
  refine ⟨_, dict?_obj_entries _, typeField_of_map h.type (hget (by decide)),
    textField_of_map (hget (by decide)), Dict.without_writeFields h.extra ?_⟩
  simp [Returns.fields, returnsFields]

theorem readMethod_toJson {m : Method} (h : m.Apart) : readMethod m.toJson = .valid m := by
  have hget {key : String} (hkey : key ∈ methodFields) :
      (m.extra.writeFields m.fields).get? key = (m.fields.lookup key).join :=
    Dict.get?_writeFields_of_lacks h.extra m.nodup_fields hkey
  rw [Method.toJson_eq, readMethod_eq_valid_iff]
  refine ⟨_, dict?_obj_entries _, requiredField_of_string (hget (by decide)),
    textField_of_ofString? (hget (by decide)), textField_of_map (hget (by decide)), ?_,
    ⟨some m.params, ?_, rfl⟩, ?_, tagsField_of_toJson (hget (by decide)),
    Dict.without_writeFields h.extra ?_⟩
  · rw [optionalField_of_some (hget (by decide)), under_eq_valid_iff]
    exact readStrings_ofStrings m.modifiers
  · rw [optionalField_of_some (hget (by decide)), under_eq_valid_iff, readOption_eq_some_iff]
    exact ⟨Json.noConfusion, readList_map fun p hp => readParam_toJson (h.params p hp)⟩
  · rw [optionalField_of_some (hget (by decide)), under_eq_valid_iff]
    cases hr : m.returns with
    | none => rfl
    | some r =>
      exact readOption_eq_some_iff.2 ⟨Json.noConfusion, readReturns_toJson (h.returns r hr)⟩
  · simp [Method.fields, methodFields]

end Record

/-! ## Properties -/

/-- Whether the default of a property is read back: one without a text is not written, so it must
not be computed, and nothing may stand under its second name. -/
def Property.Restorable (p : Property) : Prop :=
  p.default.text = none → p.default.computed = false ∧ p.extra.get? "default_value" = none

instance (p : Property) : Decidable p.Restorable :=
  inferInstanceAs (Decidable (_ → _))

namespace Record

-- A default with a text is read from where it has been written. Without one, what is read is what
-- stands under the second name.
theorem readDefault_iff {d extra : Dict Json} {v : DefaultValue}
    (hfirst : d.get? "defaultValue" = v.toJson?)
    (hsecond : d.get? "default_value" = extra.get? "default_value")
    (hwithout : d.without (propertyFields "defaultValue") = extra) :
    ((∃ default, optionalField d (spelling d "defaultValue" "default_value") none
          (readOption readDefaultValue) = .valid default ∧ default.getD ⟨none, false⟩ = v) ∧
        d.without (propertyFields (spelling d "defaultValue" "default_value")) = extra) ↔
      (v.text = none → v.computed = false ∧ extra.get? "default_value" = none) := by
  obtain ⟨text, computed⟩ := v
  cases text with
  | some text =>
    change _ = some (Json.obj [("value", .str text), ("computed", .bool computed)]) at hfirst
    have hread : readOption readDefaultValue
        (.obj [("value", .str text), ("computed", .bool computed)]) =
        .valid (some ⟨some text, computed⟩) := rfl
    rw [spelling_of_first (by rw [hfirst]; rfl), optionalField_of_some hfirst, hread]
    simp [under, hwithout]
  | none =>
    change _ = none at hfirst
    cases hextra : extra.get? "default_value" with
    | none =>
      rw [spelling_of_none hfirst (hsecond.trans hextra), optionalField_of_none hfirst]
      simp [hwithout, eq_comm]
    | some j =>
      rw [spelling_of_second hfirst (by rw [hsecond, hextra]; rfl)]
      constructor
      · rintro ⟨-, hleft⟩
        have hget := d.lacks_without (propertyFields "default_value") "default_value" (by decide)
        rw [hleft, hextra] at hget
        cases hget
      · intro h
        cases (h rfl).2

theorem readProperty_toJson_iff {p : Property} (h : p.Apart) :
    readProperty p.toJson = .valid p ↔ p.Restorable := by
  have hget {key : String} (hkey : key ∈ propertyFields "defaultValue") :
      (p.extra.writeFields p.fields).get? key = (p.fields.lookup key).join :=
    Dict.get?_writeFields_of_lacks h.extra p.nodup_fields hkey
  have hdefault : (p.extra.writeFields p.fields).get? "defaultValue" = p.default.toJson? :=
    hget (by decide)
  have hsecond : (p.extra.writeFields p.fields).get? "default_value" =
      p.extra.get? "default_value" := Dict.get?_writeFields p.nodup_fields _ _
  have hwithout : (p.extra.writeFields p.fields).without (propertyFields "defaultValue") =
      p.extra := Dict.without_writeFields h.extra (by simp [Property.fields, propertyFields])
  have hdescription : textField (p.extra.writeFields p.fields) "description" =
      .valid p.description := textField_of_ofString? (hget (by decide))
  have htype' : typeField (p.extra.writeFields p.fields) = .valid p.type :=
    typeField_of_map h.type (hget (by decide))
  have hrequired : optionalField (p.extra.writeFields p.fields) "required" false readBool =
      .valid p.required := by
    rw [optionalField_of_some (hget (by decide)), under_eq_valid_iff]
    rfl
  have htags : tagsField (p.extra.writeFields p.fields) = .valid p.tags :=
    tagsField_of_toJson (hget (by decide))
  rw [Property.toJson_eq, readProperty_eq_valid_iff]
  simp only [dict?_obj_entries, Option.some.injEq, exists_eq_left', hdescription, htype', hrequired,
    htags, true_and]
  exact readDefault_iff hdefault hsecond hwithout

end Record

/-! ## Records -/

/-- Whether a record is read back from what is written: each default of a property is, and nothing
stands under the second name of a visible name that is absent. -/
def Record.Restorable (r : Record) : Prop :=
  (∀ props ∈ r.props, ∀ e ∈ props.entries, e.2.Restorable) ∧
    (r.visibleName = none → r.extra.get? "visible_name" = none)

instance (r : Record) : Decidable r.Restorable :=
  inferInstanceAs (Decidable (_ ∧ _))

namespace Record

theorem readDocletValue_toJson (v : DocletValue) : readDocletValue v.toJson = .valid v := by
  cases v <;> rfl

-- A visible name is read from where it has been written. Without one, what is read is what stands
-- under the second name.
theorem readVisibleName_iff {d extra : Dict Json} {name : Option String}
    (hfirst : d.get? "visibleName" = name.map .str)
    (hsecond : d.get? "visible_name" = extra.get? "visible_name")
    (hwithout : d.without (recordFields "displayName" "visibleName") = extra) :
    (textField d (spelling d "visibleName" "visible_name") = .valid name ∧
        d.without (recordFields "displayName" (spelling d "visibleName" "visible_name")) = extra) ↔
      (name = none → extra.get? "visible_name" = none) := by
  cases name with
  | some name =>
    rw [spelling_of_first (by rw [hfirst]; rfl)]
    simp [textField_of_map hfirst, hwithout]
  | none =>
    cases hextra : extra.get? "visible_name" with
    | none =>
      rw [spelling_of_none hfirst (hsecond.trans hextra)]
      simp [textField_of_map hfirst, hwithout]
    | some j =>
      rw [spelling_of_second hfirst (by rw [hsecond, hextra]; rfl)]
      constructor
      · rintro ⟨-, hleft⟩
        have hget := d.lacks_without (recordFields "displayName" "visible_name") "visible_name"
          (by decide)
        rw [hleft, hextra] at hget
        cases hget
      · intro h
        cases h rfl

theorem readProps_iff {d : Dict Json} {props : Option (Dict Property)}
    (h : ∀ props' ∈ props, ∀ e ∈ props'.entries, e.2.Apart)
    (hget : d.get? "props" = props.map fun props => .obj (props.map Property.toJson).entries) :
    optionalField d "props" none (readOption (readDict readProperty)) = .valid props ↔
      ∀ props' ∈ props, ∀ e ∈ props'.entries, e.2.Restorable := by
  cases props with
  | none => simp [optionalField_of_none hget]
  | some props =>
    rw [optionalField_of_some hget, under_eq_valid_iff, readOption_eq_some_iff, readDict_map_iff]
    have hrestorable : ∀ e ∈ props.entries,
        (readProperty e.2.toJson = .valid e.2 ↔ e.2.Restorable) :=
      fun e he => readProperty_toJson_iff (h props rfl e he)
    simp only [Option.mem_some_iff, forall_eq', ne_eq, reduceCtorEq, not_false_eq_true, true_and]
    exact forall₂_congr hrestorable

theorem readMembers_writeFields_iff_of_apart {r : Record} (h : r.Apart)
    (hexternal : ∃ j, r.external = .value j) :
    readMembers (r.extra.writeFields r.fields) = .valid r ↔ r.Restorable := by
  have hget {key : String} (hkey : key ∈ recordFields "displayName" "visibleName") :
      (r.extra.writeFields r.fields).get? key = (r.fields.lookup key).join :=
    Dict.get?_writeFields_of_lacks h.extra r.nodup_fields hkey
  have hdescription : textField (r.extra.writeFields r.fields) "description" =
      .valid r.description := textField_of_ofString? (hget (by decide))
  have hdisplay : spelling (r.extra.writeFields r.fields) "displayName" "display_name" =
      "displayName" := spelling_of_first (by rw [hget (by decide)]; rfl) _
  have hdisplayName : textField (r.extra.writeFields r.fields) "displayName" =
      .valid r.displayName := textField_of_ofString? (hget (by decide))
  have hmethods' : optionalField (r.extra.writeFields r.fields) "methods" none
      (readOption (readList readMethod)) = .valid (some r.methods) := by
    rw [optionalField_of_some (hget (by decide)), under_eq_valid_iff, readOption_eq_some_iff]
    exact ⟨Json.noConfusion, readList_map fun m hm => readMethod_toJson (h.methods m hm)⟩
  have hprops' := readProps_iff h.props (hget (by decide : "props" ∈ _))
  have hdoclets : optionalField (r.extra.writeFields r.fields) "doclets" Dict.empty
      (readDict readDocletValue) = .valid r.doclets := by
    rw [optionalField_of_some (hget (by decide)), under_eq_valid_iff]
    exact readDict_map_iff.2 fun e _ => readDocletValue_toJson e.2
  have htags : tagsField (r.extra.writeFields r.fields) = .valid r.tags :=
    tagsField_of_toJson (hget (by decide))
  have hexamples : optionalField (r.extra.writeFields r.fields) "examples" []
      (readList readString) = .valid r.examples := by
    rw [optionalField_of_some (hget (by decide)), under_eq_valid_iff]
    exact readStrings_ofStrings r.examples
  have hexternal' : ExternalExample.value
      (((r.extra.writeFields r.fields).get? "example").getD .null) = r.external := by
    obtain ⟨j, hj⟩ := hexternal
    rw [hget (by decide)]
    change ExternalExample.value r.external.toJson = r.external
    rw [hj]
    rfl
  have hvisible := readVisibleName_iff (hget (by decide : "visibleName" ∈ _))
    (Dict.get?_writeFields r.nodup_fields r.extra "visible_name")
    (Dict.without_writeFields h.extra (by simp [Record.fields, recordFields]))
  rw [readMembers_eq_valid_iff, hdisplay, hprops']
  constructor
  · rintro ⟨-, -, -, hrestorable, -, -, -, -, hname, hextra⟩
    exact ⟨hrestorable, hvisible.1 ⟨hname, hextra⟩⟩
  · rintro ⟨hrestorable, hsecond⟩
    obtain ⟨hname, hextra⟩ := hvisible.2 hsecond
    exact ⟨hdescription, hdisplayName, ⟨some r.methods, hmethods', rfl⟩, hrestorable, hdoclets,
      htags, hexamples, hexternal', hname, hextra⟩

theorem readMembers_writeFields_iff {d : Dict Json} {r : Record} (h : readMembers d = .valid r) :
    readMembers (r.extra.writeFields r.fields) = .valid r ↔ r.Restorable := by
  obtain ⟨-, -, -, -, -, -, -, hexternal, -, -⟩ := readMembers_eq_valid_iff.1 h
  exact readMembers_writeFields_iff_of_apart (apart_of_readMembers h) ⟨_, hexternal.symm⟩

/-- A record that has been read is read back from what is written exactly when each default of a
property without a text is neither computed nor given under its second name, and a visible name that
is absent is not given under its second name. -/
theorem ofJson_toJson_iff {j : Json} {r : Record} (h : ofJson j = .ok r) :
    ofJson r.toJson = .ok r ↔ r.Restorable := by
  obtain ⟨d, -, hread⟩ := ofJson_eq_ok_iff.1 h
  rw [ofJson_eq_ok_iff, toJson_eq, ← readMembers_writeFields_iff hread]
  simp

/-- A document with both spellings of a name, the second spelling of a default, and a member that no
field stands for. -/
def restorableDocument : Json :=
  .obj [("visibleName", .str "Button"), ("visible_name", .str "button"), ("custom", .int 1),
    ("props", .obj [("a", .obj [("type", .str "bool"),
      ("default_value", .obj [("value", .bool true), ("computed", .bool true)])])])]

theorem ofJson_toJson_restorableDocument :
    ∃ r, ofJson restorableDocument = .ok r ∧ ofJson r.toJson = .ok r := by
  have hread : ∃ r, ofJson restorableDocument = .ok r ∧ r.Restorable := by
    refine ⟨_, rfl, ?_⟩
    decide
  obtain ⟨r, hr, hrestorable⟩ := hread
  exact ⟨r, hr, (ofJson_toJson_iff hr).2 hrestorable⟩

/-- A property with a default that is computed and has no text. -/
def computedDocument : Json :=
  .obj [("props", .obj [("a", .obj [("defaultValue",
    .obj [("value", .null), ("computed", .bool true)])])])]

/-- It is lost that a default without a text is computed. -/
theorem ofJson_toJson_computedDocument :
    ∃ r r', ofJson computedDocument = .ok r ∧ ofJson r.toJson = .ok r' ∧ r' ≠ r := by
  refine ⟨_, _, rfl, rfl, fun h => ?_⟩
  have hprops := congrArg Record.props h
  cases hprops

end Record

end ComponentDocs
