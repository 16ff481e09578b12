import ComponentDocs.Proofs.Record.Bare

/-!
# Places of a document

What no field stands for is read from its place and written to its place. A document that is read as
a part of a record, or written from it, holds the same beside the fields, and the same details of
the type: `Json.HoldsBeside`, `Json.HoldsDetails`.
-/

namespace ComponentDocs

open Json Checked

namespace Json

/-- What stands one step further down. -/
def step? : Json → Step → Option Json
  | .obj members, .key name => (Dict.ofList members).get? name
  | .arr items, .index n => items[n]?
  | _, _ => none

/-- What stands at a place of a document. -/
def at? (j : Json) (place : List Step) : Option Json := place.foldlM step? j

theorem at?_cons (j : Json) (step : Step) (rest : List Step) :
    j.at? (step :: rest) = (j.step? step).bind (·.at? rest) :=
  List.foldlM_cons

theorem at?_singleton (j : Json) (step : Step) : j.at? [step] = j.step? step := by
  simp [at?]

theorem at?_append (j : Json) (place rest : List Step) :
    j.at? (place ++ rest) = (j.at? place).bind (·.at? rest) :=
  List.foldlM_append

theorem step?_key_of_dict? {j : Json} {d : Dict Json} (h : j.dict? = some d) (name : String) :
    j.step? (.key name) = d.get? name := by
  cases j with
  | obj members =>
    rw [← Option.some.inj h]
    rfl
  | _ => cases h

/-- An object with these members beside the fields that are kept. -/
def HoldsBeside (kept : Kept) (extra : Dict Json) (j : Json) : Prop :=
  ∀ key, key ∉ kept.map Prod.fst → j.at? [.key key] = extra.get? key

/-- An object with a type that has these details, if it has a type. -/
def HoldsDetails (type : Option TypeInfo) (j : Json) : Prop :=
  ∀ key, key ≠ "name" → j.at? [.key "type", .key key] = type.bind (·.details.get? key)

/-- Two objects with the same members beside the fields that are kept. -/
def SameBeside (kept : Kept) (j o : Json) : Prop :=
  ∀ key, key ∉ kept.map Prod.fst → o.at? [.key key] = j.at? [.key key]

/-- Two objects whose types are the same beside the name. -/
def SameDetails (j o : Json) : Prop :=
  ∀ key, key ≠ "name" → o.at? [.key "type", .key key] = j.at? [.key "type", .key key]

theorem HoldsBeside.same {kept : Kept} {extra : Dict Json} {j o : Json}
    (hj : HoldsBeside kept extra j) (ho : HoldsBeside kept extra o) : SameBeside kept j o :=
  fun key hkey => (ho key hkey).trans (hj key hkey).symm

theorem HoldsDetails.same {type : Option TypeInfo} {j o : Json} (hj : HoldsDetails type j)
    (ho : HoldsDetails type o) : SameDetails j o :=
  fun key hkey => (ho key hkey).trans (hj key hkey).symm

end Json

/-! ## Objects -/

-- What is left of an object that has been read stands in it beside the fields.
theorem Json.holdsBeside_of_without {j : Json} {d extra : Dict Json} {names : List String}
    {kept : Kept} (hd : j.dict? = some d) (hextra : d.without names = extra)
    (hnames : ∀ name ∈ names, name ∈ kept.map Prod.fst) : HoldsBeside kept extra j := by
  intro key hkey
  rw [at?_singleton, step?_key_of_dict? hd, ← hextra, Dict.get?_without,
    if_neg (mt (hnames key) hkey)]

theorem Json.holdsBeside_writeFields {extra : Dict Json} {fields : List (String × Option Json)}
    {kept : Kept} (hnodup : (fields.map Prod.fst).Nodup)
    (hnames : ∀ e ∈ fields, e.1 ∈ kept.map Prod.fst) :
    HoldsBeside kept extra (.obj (extra.writeFields fields).entries) := by
  intro key hkey
  have hnone : fields.lookup key = none := by
    refine Dict.lookup_of_notMem fun hmem => hkey ?_
    obtain ⟨e, he, rfl⟩ := List.mem_map.1 hmem
    exact hnames e he
  rw [at?_singleton, step?_key_of_dict? (dict?_obj_entries _), Dict.get?_writeFields hnodup, hnone]
  rfl

/-! ## Types -/

theorem Json.holdsDetails_of_typeField {j : Json} {d : Dict Json} {type : Option TypeInfo}
    (hd : j.dict? = some d) (h : Record.typeField d = .valid type) : HoldsDetails type j := by
  intro key hkey
  rw [at?_cons, step?_key_of_dict? hd]
  cases type with
  | none =>
    cases hget : d.get? "type" with
    | none => rfl
    | some t =>
      rw [Record.typeField, Record.optionalField_of_some hget, under_eq_valid_iff,
        Record.readOption_eq_none_iff] at h
      rw [h]
      rfl
  | some t =>
    obtain ⟨item, hitem, -, hread⟩ := Record.optionalField_eq_some_iff.1 h
    rw [hitem, Option.bind_some, Option.bind_some, at?_singleton]
    rcases Record.readType_eq_valid_iff.1 hread with ⟨name, rfl, rfl⟩ | hobject
    · rfl
    · obtain ⟨d', hd', -, hdetails⟩ := Record.readTypeObject_eq_valid_iff.1 hobject
      rw [step?_key_of_dict? hd', ← hdetails, Dict.get?_without, if_neg (by simpa using hkey)]

theorem TypeInfo.at?_toJson (t : TypeInfo) {key : String} (hkey : key ≠ "name") :
    t.toJson.at? [.key key] = t.details.get? key := by
  have hname : (Dict.ofList [("name", Json.str t.name)]).get? key = none := by
    change [("name", Json.str t.name)].lookup key = none
    exact Dict.lookup_of_notMem (by simpa using hkey)
  rw [at?_singleton, toJson, step?_key_of_dict? (dict?_obj_entries _), Dict.get?_merge, hname,
    Option.or_none]

theorem Json.holdsDetails_writeFields {extra : Dict Json} {fields : List (String × Option Json)}
    {type : Option TypeInfo} (hnodup : (fields.map Prod.fst).Nodup)
    (htype : fields.lookup "type" = some (type.map TypeInfo.toJson))
    (hextra : extra.get? "type" = none) :
    HoldsDetails type (.obj (extra.writeFields fields).entries) := by
  intro key hkey
  rw [at?_cons, step?_key_of_dict? (dict?_obj_entries _), Dict.get?_writeFields hnodup, htype,
    hextra, Option.or_none]
  cases type with
  | none => rfl
  | some t => exact t.at?_toJson hkey

/-! ## Lists and dictionaries -/

theorem exists_getElem?_of_forall₂ {α β : Type} {R : α → β → Prop} {l : List α} {m : List β}
    (h : List.Forall₂ R l m) {n : Nat} {b : β} (hb : m[n]? = some b) :
    ∃ a, l[n]? = some a ∧ R a b := by
  induction h generalizing n with
  | nil => cases hb
  | @cons a c _ _ hac _ ih =>
    cases n with
    | zero => exact ⟨a, rfl, Option.some.inj hb ▸ hac⟩
    | succ n => exact ih hb

-- An element of a list that may be null has been read from its place.
theorem Json.at?_listField {α : Type} {j : Json} {d : Dict Json} {key : String}
    {read : Json → Checked α} {l : List α} (hd : j.dict? = some d)
    (h : ∃ o, Record.optionalField d key none (Record.readOption (Record.readList read)) =
      .valid o ∧ o.getD [] = l) {n : Nat} {a : α} (ha : l[n]? = some a) :
    ∃ item, j.at? [.key key, .index n] = some item ∧ read item = .valid a := by
  obtain ⟨o, ho, rfl⟩ := h
  cases o with
  | none => cases ha
  | some l =>
    obtain ⟨list, hlist, -, hread⟩ := Record.optionalField_eq_some_iff.1 ho
    obtain ⟨items, rfl, hitems⟩ := Record.readList_eq_valid_iff.1 hread
    obtain ⟨item, hitem, hread⟩ := exists_getElem?_of_forall₂ hitems ha
    refine ⟨item, ?_, hread⟩
    rw [at?_cons, step?_key_of_dict? hd, hlist, Option.bind_some, at?_singleton]
    exact hitem

theorem Json.at?_list {α : Type} {d : Dict Json} {key : String} {toJson : α → Json} {l : List α}
    (h : d.get? key = some (.arr (l.map toJson))) {n : Nat} {a : α} (ha : l[n]? = some a) :
    Json.at? (.obj d.entries) [.key key, .index n] = some (toJson a) := by
  rw [at?_cons, step?_key_of_dict? (dict?_obj_entries d), h, Option.bind_some, at?_singleton]
  change (l.map toJson)[n]? = some (toJson a)
  rw [List.getElem?_map, ha]
  rfl

-- A value of a dictionary that may be null has been read from its place.
theorem Json.at?_dictField {α : Type} {j : Json} {d : Dict Json} {key : String}
    {read : Json → Checked α} {found : Dict α} (hd : j.dict? = some d)
    (h : Record.optionalField d key none (Record.readOption (Record.readDict read)) =
      .valid (some found)) {name : String} {a : α} (ha : found.get? name = some a) :
    ∃ item, j.at? [.key key, .key name] = some item ∧ read item = .valid a := by
  obtain ⟨dict, hdict, -, hread⟩ := Record.optionalField_eq_some_iff.1 h
  obtain ⟨members, hmembers, hentries⟩ := Record.readDict_eq_valid_iff.1 hread
  obtain ⟨⟨_, item⟩, hitem, rfl, hread⟩ :=
    exists_of_mem_right hentries (Dict.get?_eq_some_iff.1 ha)
  refine ⟨item, ?_, hread⟩
  rw [at?_cons, step?_key_of_dict? hd, hdict, Option.bind_some, at?_singleton,
    step?_key_of_dict? hmembers]
  exact Dict.get?_eq_some_iff.2 hitem

theorem Json.at?_dict {α : Type} {d : Dict Json} {key : String} {toJson : α → Json}
    {found : Dict α} (h : d.get? key = some (.obj (found.map toJson).entries)) {name : String}
    {a : α} (ha : found.get? name = some a) :
    Json.at? (.obj d.entries) [.key key, .key name] = some (toJson a) := by
  rw [at?_cons, step?_key_of_dict? (dict?_obj_entries d), h, Option.bind_some, at?_singleton,
    step?_key_of_dict? (dict?_obj_entries _), Dict.get?_map, ha]
  rfl

/-! ## Parts of a record -/

theorem Param.holds_of_read {j : Json} {p : Param} (h : Record.readParam j = .valid p) :
    HoldsBeside paramKept p.extra j ∧ HoldsDetails p.type j ∧ p.extra.get? "type" = none := by
  obtain ⟨d, hd, -, htype, -, -, hextra⟩ := Record.readParam_eq_valid_iff.1 h
  refine ⟨holdsBeside_of_without hd hextra (by decide), holdsDetails_of_typeField hd htype, ?_⟩
  rw [← hextra]
  exact Dict.lacks_without d _ "type" (by decide)

theorem Param.holds_toJson {p : Param} (h : p.extra.get? "type" = none) :
    HoldsBeside paramKept p.extra p.toJson ∧ HoldsDetails p.type p.toJson := by
  rw [toJson_eq]
  exact ⟨holdsBeside_writeFields p.nodup_fields (by simp [Param.fields, paramKept]),
    holdsDetails_writeFields p.nodup_fields rfl h⟩

theorem Returns.holds_of_read {j : Json} {r : Returns} (h : Record.readReturns j = .valid r) :
    HoldsBeside returnsKept r.extra j ∧ HoldsDetails r.type j ∧ r.extra.get? "type" = none := by
  obtain ⟨d, hd, htype, -, hextra⟩ := Record.readReturns_eq_valid_iff.1 h
  refine ⟨holdsBeside_of_without hd hextra (by decide), holdsDetails_of_typeField hd htype, ?_⟩
  rw [← hextra]
  exact Dict.lacks_without d _ "type" (by decide)

theorem Returns.holds_toJson {r : Returns} (h : r.extra.get? "type" = none) :
    HoldsBeside returnsKept r.extra r.toJson ∧ HoldsDetails r.type r.toJson := by
  rw [toJson_eq]
  exact ⟨holdsBeside_writeFields r.nodup_fields (by simp [Returns.fields, returnsKept]),
    holdsDetails_writeFields r.nodup_fields rfl h⟩

theorem Property.holds_of_read {j : Json} {p : Property} (h : Record.readProperty j = .valid p) :
    HoldsBeside propertyKept p.extra j ∧ HoldsDetails p.type j ∧ p.extra.get? "type" = none := by
  obtain ⟨d, hd, -, htype, -, -, -, hextra⟩ := Record.readProperty_eq_valid_iff.1 h
  refine ⟨holdsBeside_of_without hd hextra ?_, holdsDetails_of_typeField hd htype, ?_⟩
  · rcases Record.spelling_cases d "defaultValue" "default_value" with hkey | hkey <;>
      rw [hkey] <;> decide
  · rw [← hextra]
    exact Dict.lacks_without d _ "type" (by simp [Record.propertyFields])

theorem Property.holds_toJson {p : Property} (h : p.extra.get? "type" = none) :
    HoldsBeside propertyKept p.extra p.toJson ∧ HoldsDetails p.type p.toJson := by
  rw [toJson_eq]
  exact ⟨holdsBeside_writeFields p.nodup_fields (by simp [Property.fields, propertyKept]),
    holdsDetails_writeFields p.nodup_fields rfl h⟩

theorem Method.holdsBeside_of_read {j : Json} {m : Method} (h : Record.readMethod j = .valid m) :
    HoldsBeside methodKept m.extra j := by
  obtain ⟨d, hd, -, -, -, -, -, -, -, hextra⟩ := Record.readMethod_eq_valid_iff.1 h
  exact holdsBeside_of_without hd hextra (by decide)

theorem Method.holdsBeside_toJson (m : Method) : HoldsBeside methodKept m.extra m.toJson := by
  rw [toJson_eq]
  exact holdsBeside_writeFields m.nodup_fields (by simp [Method.fields, methodKept])

theorem Record.holdsBeside_of_read {j : Json} {d : Dict Json} {r : Record}
    (hd : j.dict? = some d) (h : Record.readMembers d = .valid r) :
    HoldsBeside recordKept r.extra j := by
  obtain ⟨-, -, -, -, -, -, -, -, -, hextra⟩ := Record.readMembers_eq_valid_iff.1 h
  refine holdsBeside_of_without hd hextra ?_
  rcases Record.spelling_cases d "displayName" "display_name" with hdisplay | hdisplay <;>
    rcases Record.spelling_cases d "visibleName" "visible_name" with hvisible | hvisible <;>
    rw [hdisplay, hvisible] <;> decide

theorem Record.holdsBeside_toJson (r : Record) : HoldsBeside recordKept r.extra r.toJson := by
  rw [toJson_eq]
  exact holdsBeside_writeFields r.nodup_fields (by simp [Record.fields, recordKept])

end ComponentDocs
