import ComponentDocs.Proofs.Record.Kept

/-!
# Records without what no field stands for

A document and the record that is read from it can both be bared of what no field stands for.
Reading a bare document gives the bare record or the same issues, and a bare record is written as a
bare document: `Record.ofJson_bareRecord`, `Record.toJson_bare`.
-/

namespace ComponentDocs

open Json Checked

/-! ## Bare documents -/

namespace Json

/-- What is kept of a type. -/
def typeKept : Kept := [("name", id)]

def bareType : Json → Json := keep typeKept

/-- What is kept of a parameter. -/
def paramKept : Kept := [("name", id), ("type", bareType), ("description", id), ("default", id)]

def bareParam : Json → Json := keep paramKept

/-- What is kept of a result. -/
def returnsKept : Kept := [("type", bareType), ("description", id)]

def bareReturns : Json → Json := keep returnsKept

/-- What is kept of a method. -/
def methodKept : Kept :=
  [("name", id), ("docblock", id), ("description", id), ("modifiers", id),
    ("params", mapItems bareParam), ("returns", bareReturns), ("tags", id)]

def bareMethod : Json → Json := keep methodKept

/-- What is kept of a property: its fields, in both spellings. -/
def propertyKept : Kept :=
  [("description", id), ("type", bareType), ("required", id), ("defaultValue", id),
    ("default_value", id), ("tags", id)]

def bareProperty : Json → Json := keep propertyKept

/-- What is kept of a record: its fields, in both spellings. -/
def recordKept : Kept :=
  [("description", id), ("displayName", id), ("display_name", id),
    ("methods", mapItems bareMethod), ("props", mapMembers bareProperty), ("doclets", id),
    ("tags", id), ("examples", id), ("example", id), ("visibleName", id), ("visible_name", id)]

/-- The document of a record without what no field stands for. -/
def bareRecord : Json → Json := keep recordKept

end Json

/-! ## Bare records -/

def TypeInfo.bare (t : TypeInfo) : TypeInfo :=
  { t with details := t.details.keep typeKept }

def Param.bare (p : Param) : Param :=
  { p with
    type := p.type.map TypeInfo.bare
    extra := p.extra.keep paramKept }

def Returns.bare (r : Returns) : Returns :=
  { r with
    type := r.type.map TypeInfo.bare
    extra := r.extra.keep returnsKept }

def Method.bare (m : Method) : Method :=
  { m with
    params := m.params.map Param.bare
    returns := m.returns.map Returns.bare
    extra := m.extra.keep methodKept }

def Property.bare (p : Property) : Property :=
  { p with
    type := p.type.map TypeInfo.bare
    extra := p.extra.keep propertyKept }

/-- The record without what no field stands for. -/
def Record.bare (r : Record) : Record :=
  { r with
    methods := r.methods.map Method.bare
    props := r.props.map fun props => props.map Property.bare
    extra := r.extra.keep recordKept }

/-! ## Writing -/

theorem TypeInfo.toJson_bare (t : TypeInfo) : t.bare.toJson = bareType t.toJson := by
  rw [toJson, toJson, bareType, keep_obj_entries, Dict.merge, Dict.merge, Dict.keep_insertMany]
  rfl

theorem TypeInfo.toJson_comp_bare :
    TypeInfo.toJson ∘ TypeInfo.bare = bareType ∘ TypeInfo.toJson :=
  funext toJson_bare

theorem Param.toJson_bare (p : Param) : p.bare.toJson = bareParam p.toJson := by
  have hfields : Dict.keepFields paramKept p.fields = p.bare.fields := by
    simp [Dict.keepFields_cons, Dict.keepFields_nil, List.lookup_cons, paramKept, fields, bare,
      TypeInfo.toJson_comp_bare]
  rw [toJson_eq, toJson_eq, bareParam, keep_obj_entries, Dict.keep_writeFields, hfields]
  rfl

theorem Returns.toJson_bare (r : Returns) : r.bare.toJson = bareReturns r.toJson := by
  have hfields : Dict.keepFields returnsKept r.fields = r.bare.fields := by
    simp [Dict.keepFields_cons, Dict.keepFields_nil, List.lookup_cons, returnsKept, fields, bare,
      TypeInfo.toJson_comp_bare]
  rw [toJson_eq, toJson_eq, bareReturns, keep_obj_entries, Dict.keep_writeFields, hfields]
  rfl

theorem Method.toJson_bare (m : Method) : m.bare.toJson = bareMethod m.toJson := by
  have hparams : mapItems bareParam (.arr (m.params.map Param.toJson)) =
      .arr ((m.params.map Param.bare).map Param.toJson) := by
    rw [mapItems, List.map_map, List.map_map]
    exact congrArg _ (List.map_congr_left fun p _ => p.toJson_bare.symm)
  have hreturns : bareReturns ((m.returns.map Returns.toJson).getD .null) =
      ((m.returns.map Returns.bare).map Returns.toJson).getD .null := by
    cases m.returns with
    | none => rfl
    | some r => exact r.toJson_bare.symm
  have hfields : Dict.keepFields methodKept m.fields = m.bare.fields := by
    simp only [Dict.keepFields_cons, Dict.keepFields_nil, fields]
    simp [List.lookup_cons, methodKept, bare, hparams, hreturns]
  rw [toJson_eq, toJson_eq, bareMethod, keep_obj_entries, Dict.keep_writeFields, hfields]
  rfl

theorem Property.toJson_bare (p : Property) : p.bare.toJson = bareProperty p.toJson := by
  have hfields : Dict.keepFields propertyKept p.fields = p.bare.fields := by
    simp [Dict.keepFields_cons, Dict.keepFields_nil, List.lookup_cons, propertyKept, fields, bare,
      TypeInfo.toJson_comp_bare]
  rw [toJson_eq, toJson_eq, bareProperty, keep_obj_entries, Dict.keep_writeFields, hfields]
  rfl

/-- A bare record is written as a bare document. -/
theorem Record.toJson_bare (r : Record) : r.bare.toJson = bareRecord r.toJson := by
  have hmethods : mapItems bareMethod (.arr (r.methods.map Method.toJson)) =
      .arr ((r.methods.map Method.bare).map Method.toJson) := by
    rw [mapItems, List.map_map, List.map_map]
    exact congrArg _ (List.map_congr_left fun m _ => m.toJson_bare.symm)
  have hprops : (r.props.map fun props => .obj (props.map Property.toJson).entries).map
        (mapMembers bareProperty) =
      (r.props.map fun props => props.map Property.bare).map
        fun props => .obj (props.map Property.toJson).entries := by
    cases r.props with
    | none => rfl
    | some props =>
      have hcomp : Property.toJson ∘ Property.bare = bareProperty ∘ Property.toJson :=
        funext Property.toJson_bare
      simp only [Option.map_some, mapMembers, Dict.ofList_entries, Dict.map_map, hcomp]
  have hfields : Dict.keepFields recordKept r.fields = r.bare.fields := by
    simp only [Dict.keepFields_cons, Dict.keepFields_nil, fields]
    simp [List.lookup_cons, recordKept, bare, hmethods, ← hprops]
  rw [toJson_eq, toJson_eq, bareRecord, keep_obj_entries, Dict.keep_writeFields, hfields]
  rfl

/-! ## Reading -/

namespace Record

variable {α : Type} {kept : Kept} {d : Dict Json} {key : String}

theorem get?_keep_of_id (h : kept.lookup key = some id) : (d.keep kept).get? key = d.get? key := by
  rw [Dict.get?_keep, h]
  cases d.get? key <;> rfl

theorem requiredField_keep (h : kept.lookup key = some id) (read : Json → Checked α) :
    requiredField (d.keep kept) key read = requiredField d key read := by
  rw [requiredField, get?_keep_of_id h, requiredField]

theorem optionalField_keep (h : kept.lookup key = some id) (absent : α) (read : Json → Checked α) :
    optionalField (d.keep kept) key absent read = optionalField d key absent read := by
  rw [optionalField, get?_keep_of_id h, optionalField]

-- A field of which something is kept is read as the field without the rest.
theorem optionalField_keep_map {f : Json → Json} {g : α → α} {read : Json → Checked α}
    (h : kept.lookup key = some f) (hread : ∀ j, read (f j) = map g (read j)) {absent : α}
    (habsent : g absent = absent) :
    optionalField (d.keep kept) key absent read = map g (optionalField d key absent read) := by
  unfold optionalField
  rw [Dict.get?_keep, h]
  cases d.get? key with
  | none => exact congrArg Checked.valid habsent.symm
  | some j => exact (congrArg _ (hread j)).trans (under_map ..)

theorem readOption_map {f : Json → Json} {g : α → α} {read : Json → Checked α}
    (hnull : ∀ j, f j = .null ↔ j = .null) (hread : ∀ j, read (f j) = map g (read j)) (j : Json) :
    readOption read (f j) = map (Option.map g) (readOption read j) := by
  have hopen {j : Json} (h : j ≠ .null) : readOption read j = map some (read j) := by
    cases j <;> first | rfl | exact absurd rfl h
  by_cases h : j = .null
  · rw [h, (hnull _).2 rfl]
    rfl
  · rw [hopen h, hopen (mt (hnull j).1 h), hread, map_map, map_map]
    rfl

theorem readList_mapItems {f : Json → Json} {g : α → α} {read : Json → Checked α}
    (hread : ∀ j, read (f j) = map g (read j)) (j : Json) :
    readList read (mapItems f j) = map (List.map g) (readList read j) := by
  cases j with
  | arr items =>
    rw [mapItems, readList, readList, ← collect_map, List.zipIdx_map, List.map_map, List.map_map]
    refine congrArg collect (List.map_congr_left fun e _ => ?_)
    exact (congrArg _ (hread e.1)).trans (under_map ..)
  | _ => rfl

theorem readDict_mapMembers {f : Json → Json} {g : α → α} {read : Json → Checked α}
    (hread : ∀ j, read (f j) = map g (read j)) (j : Json) :
    readDict read (mapMembers f j) = map (Dict.map g) (readDict read j) := by
  cases j with
  | obj members =>
    have hentry (e : String × Json) :
        map (e.1, ·) ((read (f e.2)).under (.key e.1)) =
          map (fun e => (e.1, g e.2)) (map (e.1, ·) ((read e.2).under (.key e.1))) := by
      rw [hread, under_map, map_map, map_map]
    have hcollect : collect (((Dict.ofList members).map f).entries.map fun e =>
          map (e.1, ·) ((read e.2).under (.key e.1))) =
        map (List.map fun e => (e.1, g e.2)) (collect ((Dict.ofList members).entries.map
          fun e => map (e.1, ·) ((read e.2).under (.key e.1)))) := by
      rw [← collect_map, Dict.map, List.map_map, List.map_map]
      exact congrArg collect (List.map_congr_left fun e _ => hentry e)
    rw [mapMembers, readDict, Dict.ofList_entries, hcollect, readDict, map_map, map_map]
    simp only [Dict.ofList_map]
  | _ => rfl

theorem readModel_bare {schema : String} {read : Dict Json → Checked α} {g : α → α}
    (hread : ∀ d : Dict Json, read (d.keep kept) = map g (read d)) (j : Json) :
    readModel schema read (Json.keep kept j) = map g (readModel schema read j) := by
  cases j with
  | obj members => exact (congrArg read (Dict.ofList_entries _)).trans (hread _)
  | _ => rfl

theorem readTypeObject_bare (j : Json) :
    readTypeObject (bareType j) = map TypeInfo.bare (readTypeObject j) := by
  refine readModel_bare (fun d => ?_) j
  rw [requiredField_keep rfl, Dict.keep_without, map_map]
  rfl

theorem readType_bare (j : Json) : readType (bareType j) = map TypeInfo.bare (readType j) := by
  cases j with
  | obj members =>
    have hobject := readTypeObject_bare (.obj members)
    rw [bareType, Json.keep] at hobject ⊢
    simp only [readType, hobject]
    cases readTypeObject (.obj members) <;> rfl
  | _ => rfl

theorem typeField_keep (h : kept.lookup "type" = some bareType) :
    typeField (d.keep kept) = map (Option.map TypeInfo.bare) (typeField d) :=
  optionalField_keep_map h (readOption_map keep_eq_null_iff readType_bare) rfl

theorem textField_keep (h : kept.lookup key = some id) :
    textField (d.keep kept) key = textField d key :=
  optionalField_keep h none _

theorem tagsField_keep (h : kept.lookup "tags" = some id) :
    tagsField (d.keep kept) = tagsField d :=
  optionalField_keep h Dict.empty _

theorem readParam_bare (j : Json) : readParam (bareParam j) = map Param.bare (readParam j) := by
  have hname : paramKept.lookup "name" = some id := rfl
  have htype : paramKept.lookup "type" = some bareType := rfl
  have hdescription : paramKept.lookup "description" = some id := rfl
  have hdefault : paramKept.lookup "default" = some id := rfl
  refine readModel_bare (fun d => ?_) j
  simp only [map_eq, seq_eq, requiredField_keep hname, typeField_keep htype,
    textField_keep hdescription, textField_keep hdefault, Dict.keep_without, map_apply, apply_map,
    map_map, apply_valid_right]
  rfl

theorem readReturns_bare (j : Json) :
    readReturns (bareReturns j) = map Returns.bare (readReturns j) := by
  have htype : returnsKept.lookup "type" = some bareType := rfl
  have hdescription : returnsKept.lookup "description" = some id := rfl
  refine readModel_bare (fun d => ?_) j
  simp only [map_eq, seq_eq, typeField_keep htype, textField_keep hdescription, Dict.keep_without,
    map_apply, map_map, apply_valid_right]
  rfl

-- A list that may be left out or null.
theorem listField_keep {f : Json → Json} {g : α → α} {read : Json → Checked α}
    (h : kept.lookup key = some (mapItems f)) (hread : ∀ j, read (f j) = map g (read j)) :
    optionalField (d.keep kept) key none (readOption (readList read)) =
      map (Option.map (List.map g)) (optionalField d key none (readOption (readList read))) :=
  optionalField_keep_map h (readOption_map mapItems_eq_null_iff (readList_mapItems hread)) rfl

theorem readMethod_bare (j : Json) :
    readMethod (bareMethod j) = map Method.bare (readMethod j) := by
  have hname : methodKept.lookup "name" = some id := rfl
  have hdocblock : methodKept.lookup "docblock" = some id := rfl
  have hdescription : methodKept.lookup "description" = some id := rfl
  have hmodifiers : methodKept.lookup "modifiers" = some id := rfl
  have hparams : methodKept.lookup "params" = some (mapItems bareParam) := rfl
  have hreturns : methodKept.lookup "returns" = some bareReturns := rfl
  have htags : methodKept.lookup "tags" = some id := rfl
  have hreturns' (d : Dict Json) :
      optionalField (d.keep methodKept) "returns" none (readOption readReturns) =
        map (Option.map Returns.bare) (optionalField d "returns" none (readOption readReturns)) :=
    optionalField_keep_map hreturns (readOption_map keep_eq_null_iff readReturns_bare) rfl
  have hlist (params : Option (List Param)) :
      (params.map (List.map Param.bare)).getD [] = (params.getD []).map Param.bare := by
    cases params <;> rfl
  refine readModel_bare (fun d => ?_) j
  simp only [map_eq, seq_eq, requiredField_keep hname, textField_keep hdocblock,
    textField_keep hdescription, optionalField_keep hmodifiers,
    listField_keep hparams readParam_bare, hreturns', tagsField_keep htags, Dict.keep_without,
    map_apply, apply_map, map_map, hlist]
  rfl

theorem spelling_keep {first second : String} (hfirst : kept.lookup first = some id)
    (hsecond : kept.lookup second = some id) :
    spelling (d.keep kept) first second = spelling d first second := by
  rw [spelling, Dict.contains, Dict.contains, get?_keep_of_id hfirst, get?_keep_of_id hsecond]
  rfl

theorem lookup_spelling {first second : String} (hfirst : kept.lookup first = some id)
    (hsecond : kept.lookup second = some id) : kept.lookup (spelling d first second) = some id := by
  rcases spelling_cases d first second with hkey | hkey
  · rw [hkey, hfirst]
  · rw [hkey, hsecond]

theorem readProperty_bare (j : Json) :
    readProperty (bareProperty j) = map Property.bare (readProperty j) := by
  have hdescription : propertyKept.lookup "description" = some id := rfl
  have htype : propertyKept.lookup "type" = some bareType := rfl
  have hrequired : propertyKept.lookup "required" = some id := rfl
  have hfirst : propertyKept.lookup "defaultValue" = some id := rfl
  have hsecond : propertyKept.lookup "default_value" = some id := rfl
  have htags : propertyKept.lookup "tags" = some id := rfl
  refine readModel_bare (fun d => ?_) j
  simp only [map_eq, seq_eq, textField_keep hdescription, typeField_keep htype,
    optionalField_keep hrequired, spelling_keep hfirst hsecond,
    optionalField_keep (lookup_spelling hfirst hsecond), tagsField_keep htags, Dict.keep_without,
    map_apply, apply_map, map_map]
  rfl

theorem readMembers_keep (d : Dict Json) :
    readMembers (d.keep recordKept) = map Record.bare (readMembers d) := by
  have hdescription : recordKept.lookup "description" = some id := rfl
  have hdisplay : recordKept.lookup "displayName" = some id := rfl
  have hdisplay' : recordKept.lookup "display_name" = some id := rfl
  have hmethods : recordKept.lookup "methods" = some (mapItems bareMethod) := rfl
  have hprops : recordKept.lookup "props" = some (mapMembers bareProperty) := rfl
  have hdoclets : recordKept.lookup "doclets" = some id := rfl
  have htags : recordKept.lookup "tags" = some id := rfl
  have hexamples : recordKept.lookup "examples" = some id := rfl
  have hexternal : recordKept.lookup "example" = some id := rfl
  have hvisible : recordKept.lookup "visibleName" = some id := rfl
  have hvisible' : recordKept.lookup "visible_name" = some id := rfl
  have hprops' :
      optionalField (d.keep recordKept) "props" none (readOption (readDict readProperty)) =
        map (Option.map (Dict.map Property.bare))
          (optionalField d "props" none (readOption (readDict readProperty))) :=
    optionalField_keep_map hprops
      (readOption_map mapMembers_eq_null_iff (readDict_mapMembers readProperty_bare)) rfl
  have hlist (methods : Option (List Method)) :
      (methods.map (List.map Method.bare)).getD [] = (methods.getD []).map Method.bare := by
    cases methods <;> rfl
  simp only [readMembers, map_eq, seq_eq, textField_keep hdescription,
    spelling_keep hdisplay hdisplay', textField_keep (lookup_spelling hdisplay hdisplay'),
    listField_keep hmethods readMethod_bare, hprops', optionalField_keep hdoclets,
    tagsField_keep htags, optionalField_keep hexamples, get?_keep_of_id hexternal,
    spelling_keep hvisible hvisible', textField_keep (lookup_spelling hvisible hvisible'),
    Dict.keep_without, map_apply, apply_map, map_map, apply_valid_right, hlist]
  rfl

/-- A bare document is read as the bare record, or has the same issues. -/
theorem ofJson_bareRecord (j : Json) : ofJson (bareRecord j) = (ofJson j).map Record.bare := by
  rw [ofJson, bareRecord, readModel_bare readMembers_keep, ofJson]
  cases readModel "RecordSchema" readMembers j <;> rfl

end Record

end ComponentDocs
