import ComponentDocs.Proofs.Dict
import ComponentDocs.Proofs.Log
import ComponentDocs.Proofs.Record.Checked
import ComponentDocs.Record.Reader

/-!
# What a document has to hold

A part of a document is read as a part of a record exactly when each of its fields is read as the
field of the record, and the rest is what no field stands for: `readMembers_eq_valid_iff`.
-/

namespace ComponentDocs

/-- The members of an object. -/
def Json.dict? : Json → Option (Dict Json)
  | .obj members => some (Dict.ofList members)
  | _ => none

@[simp] theorem Json.dict?_obj_entries (d : Dict Json) : Json.dict? (.obj d.entries) = some d :=
  congrArg some d.ofList_entries

namespace Record

open Checked

variable {α : Type}

/-! ## Values -/

theorem readOption_eq_some_iff {read : Json → Checked α} {j : Json} {a : α} :
    readOption read j = .valid (some a) ↔ j ≠ .null ∧ read j = .valid a := by
  cases j <;> simp [readOption, map_eq_valid_iff]

theorem readOption_eq_none_iff {read : Json → Checked α} {j : Json} :
    readOption read j = .valid none ↔ j = .null := by
  cases j <;> simp [readOption, map_eq_valid_iff]

theorem readList_eq_valid_iff {read : Json → Checked α} {j : Json} {values : List α} :
    readList read j = .valid values ↔
      ∃ items, j = .arr items ∧ List.Forall₂ (fun item a => read item = .valid a) items values := by
  cases j with
  | arr items =>
    have hindex (n : Nat) : List.Forall₂ (fun c a => c = Checked.valid a)
          ((items.zipIdx n).map fun e => (read e.1).under (.index e.2)) values ↔
        List.Forall₂ (fun item a => read item = .valid a) items values := by
      induction items generalizing n values with
      | nil => simp
      | cons item rest ih =>
        simp only [List.zipIdx_cons, List.map_cons, List.forall₂_cons_left_iff,
          under_eq_valid_iff, ih]
    rw [readList, collect_eq_valid_iff]
    exact (hindex 0).trans (by simp)
  | _ => simp [readList, issue]

-- Whatever is in a list has been read.
theorem exists_of_readList {read : Json → Checked α} {j : Json} {values : List α}
    (h : readList read j = .valid values) {a : α} (ha : a ∈ values) :
    ∃ item, read item = .valid a := by
  obtain ⟨items, -, hitems⟩ := readList_eq_valid_iff.1 h
  obtain ⟨item, -, hitem⟩ := exists_of_mem_right hitems ha
  exact ⟨item, hitem⟩

theorem readDict_eq_valid_iff {read : Json → Checked α} {j : Json} {d : Dict α} :
    readDict read j = .valid d ↔
      ∃ members, j.dict? = some members ∧
        List.Forall₂ (fun e f => e.1 = f.1 ∧ read e.2 = .valid f.2) members.entries d.entries := by
  have hentry (e : String × Json) (f : String × α) :
      map (e.1, ·) ((read e.2).under (.key e.1)) = .valid f ↔
        e.1 = f.1 ∧ read e.2 = .valid f.2 := by
    obtain ⟨k, a⟩ := f
    simp [map_eq_valid_iff, under_eq_valid_iff, and_comm]
  have hcollect (members : Dict Json) (found : List (String × α)) :
      collect (members.entries.map fun e => map (e.1, ·) ((read e.2).under (.key e.1))) =
          .valid found ↔
        List.Forall₂ (fun e f => e.1 = f.1 ∧ read e.2 = .valid f.2) members.entries found := by
    rw [collect_eq_valid_iff, List.forall₂_map_left_iff]
    simp only [hentry]
  cases j with
  | obj members =>
    rw [readDict, map_eq_valid_iff]
    simp only [Json.dict?, Option.some.injEq, exists_eq_left']
    constructor
    · rintro ⟨found, hread, rfl⟩
      have hfound := (hcollect _ _).1 hread
      have hkeys : (Dict.ofList members).entries.map Prod.fst = found.map Prod.fst := by
        rw [← List.forall₂_eq_eq_eq, List.forall₂_map_left_iff, List.forall₂_map_right_iff]
        exact hfound.imp fun _ _ h => h.1
      have hentries : (Dict.ofList found).entries = found :=
        Dict.entries_insertMany (d := Dict.empty) (hkeys ▸ (Dict.ofList members).nodup)
          fun k _ hk => absurd hk List.not_mem_nil
      rw [hentries]
      exact hfound
    · intro h
      exact ⟨d.entries, (hcollect _ _).2 h, d.ofList_entries⟩
  | _ => simp [readDict, issue, Json.dict?]

theorem readModel_eq_valid_iff {schema : String} {read : Dict Json → Checked α} {j : Json} {a : α} :
    readModel schema read j = .valid a ↔ ∃ d, j.dict? = some d ∧ read d = .valid a := by
  cases j <;> simp [readModel, issue, Json.dict?]

/-! ## Fields -/

theorem requiredField_eq_valid_iff {d : Dict Json} {key : String} {read : Json → Checked α}
    {a : α} :
    requiredField d key read = .valid a ↔ ∃ j, d.get? key = some j ∧ read j = .valid a := by
  unfold requiredField
  cases d.get? key with
  | none => simp [issue, under]
  | some j => simp [under_eq_valid_iff]

theorem optionalField_of_some {d : Dict Json} {key : String} {j : Json} (h : d.get? key = some j)
    (absent : α) (read : Json → Checked α) :
    optionalField d key absent read = (read j).under (.key key) := by
  rw [optionalField, h]

theorem optionalField_of_none {d : Dict Json} {key : String} (h : d.get? key = none)
    (absent : α) (read : Json → Checked α) :
    optionalField d key absent read = .valid absent := by
  rw [optionalField, h]

theorem optionalField_eq_some_iff {d : Dict Json} {key : String} {read : Json → Checked α} {a : α} :
    optionalField d key none (readOption read) = .valid (some a) ↔
      ∃ j, d.get? key = some j ∧ j ≠ .null ∧ read j = .valid a := by
  unfold optionalField
  cases d.get? key with
  | none => simp
  | some j => simp [under_eq_valid_iff, readOption_eq_some_iff]

/-! ## Spellings -/

theorem spelling_cases (d : Dict Json) (first second : String) :
    spelling d first second = first ∨ spelling d first second = second := by
  unfold spelling
  split
  · exact .inl rfl
  · split
    · exact .inr rfl
    · exact .inl rfl

theorem spelling_of_first {d : Dict Json} {first : String} (h : (d.get? first).isSome)
    (second : String) : spelling d first second = first :=
  if_pos h

theorem spelling_of_second {d : Dict Json} {first second : String} (h : d.get? first = none)
    (hsecond : (d.get? second).isSome) : spelling d first second = second := by
  rw [spelling, Dict.contains, h, Dict.contains, hsecond]
  rfl

theorem spelling_of_none {d : Dict Json} {first second : String} (h : d.get? first = none)
    (hsecond : d.get? second = none) : spelling d first second = first := by
  rw [spelling, Dict.contains, h, Dict.contains, hsecond]
  rfl

-- What is left has no field in the first spelling: it has been read, or was not there.
theorem get?_without_spelling {d : Dict Json} {first : String} {names : List String}
    (second : String) (h : spelling d first second ∈ names) :
    (d.without names).get? first = none := by
  rw [Dict.get?_without]
  by_cases hfirst : first ∈ names
  · rw [if_pos hfirst]
  · rw [if_neg hfirst]
    by_contra hsome
    rw [spelling_of_first (Option.isSome_iff_ne_none.2 hsome)] at h
    exact hfirst h

/-! ## Parts of a record -/

theorem readTypeObject_eq_valid_iff {j : Json} {t : TypeInfo} :
    readTypeObject j = .valid t ↔
      ∃ d, j.dict? = some d ∧ requiredField d "name" readString = .valid t.name ∧
        d.without ["name"] = t.details := by
  cases t
  simp [readTypeObject, readModel_eq_valid_iff, map_eq_valid_iff]

theorem readType_eq_valid_iff {j : Json} {t : TypeInfo} :
    readType j = .valid t ↔
      (∃ name, j = .str name ∧ t = ⟨name, Dict.empty⟩) ∨ readTypeObject j = .valid t := by
  have hobject (hstr : ∀ name, j ≠ .str name) : readType j = .valid t ↔
      readTypeObject j = .valid t := by
    unfold readType
    split
    · rename_i name
      exact absurd rfl (hstr name)
    · cases readTypeObject j <;> simp
  cases j with
  | str name => simp [readType, readTypeObject, readModel, issue, eq_comm]
  | _ => simp [hobject]

theorem readTag_eq_valid_iff {j : Json} {t : Tag} :
    readTag j = .valid t ↔
      ∃ d, j.dict? = some d ∧ requiredField d "title" readString = .valid t.title ∧
        map (·.getD "") (textField d "description") = .valid t.description ∧
        textField d "name" = .valid t.name ∧
        map (Option.map TypeInfo.name) (typeField d) = .valid t.type ∧
        textField d "default" = .valid t.default := by
  simp only [readTag, readModel_eq_valid_iff, map_eq, seq_eq, apply_eq_valid_iff,
    map_eq_valid_iff (f := Tag.mk)]
  constructor
  · rintro ⟨d, hd, _, _, ⟨_, _, ⟨_, _, ⟨_, _, ⟨_, htitle, rfl⟩, htext, rfl⟩, hname, rfl⟩, htype,
      rfl⟩, hdefault, rfl⟩
    exact ⟨d, hd, htitle, htext, hname, htype, hdefault⟩
  · rintro ⟨d, hd, htitle, htext, hname, htype, hdefault⟩
    exact ⟨d, hd, _, _, ⟨_, _, ⟨_, _, ⟨_, _, ⟨_, htitle, rfl⟩, htext, rfl⟩, hname, rfl⟩, htype,
      rfl⟩, hdefault, rfl⟩

/-- The names of the fields of a parameter. -/
def paramFields : List String := ["name", "type", "description", "default"]

theorem readParam_eq_valid_iff {j : Json} {p : Param} :
    readParam j = .valid p ↔
      ∃ d, j.dict? = some d ∧ requiredField d "name" readString = .valid p.name ∧
        typeField d = .valid p.type ∧ textField d "description" = .valid p.description ∧
        textField d "default" = .valid p.default ∧ d.without paramFields = p.extra := by
  cases p
  simp [readParam, readModel_eq_valid_iff, map_eq, seq_eq, apply_eq_valid_iff, map_eq_valid_iff,
    paramFields, and_assoc]

/-- The names of the fields of a result. -/
def returnsFields : List String := ["type", "description"]

theorem readReturns_eq_valid_iff {j : Json} {r : Returns} :
    readReturns j = .valid r ↔
      ∃ d, j.dict? = some d ∧ typeField d = .valid r.type ∧
        textField d "description" = .valid r.description ∧ d.without returnsFields = r.extra := by
  cases r
  simp [readReturns, readModel_eq_valid_iff, map_eq, seq_eq, apply_eq_valid_iff, map_eq_valid_iff,
    returnsFields]

theorem readMethod_eq_valid_iff {j : Json} {m : Method} :
    readMethod j = .valid m ↔
      ∃ d, j.dict? = some d ∧ requiredField d "name" readString = .valid m.name ∧
        textField d "docblock" = .valid m.docblock ∧
        textField d "description" = .valid m.description ∧
        optionalField d "modifiers" [] (readList readString) = .valid m.modifiers ∧
        (∃ params, optionalField d "params" none (readOption (readList readParam)) = .valid params ∧
          params.getD [] = m.params) ∧
        optionalField d "returns" none (readOption readReturns) = .valid m.returns ∧
        tagsField d = .valid m.tags ∧ d.without methodFields = m.extra := by
  simp only [readMethod, readModel_eq_valid_iff, map_eq, seq_eq, apply_eq_valid_iff,
    map_eq_valid_iff]
  constructor
  · rintro ⟨d, hd, _, _, ⟨_, _, ⟨_, params, ⟨_, _, ⟨_, _, ⟨_, _, ⟨_, hname, rfl⟩, hdocblock, rfl⟩,
      htext, rfl⟩, hmodifiers, rfl⟩, hparams, rfl⟩, hreturns, rfl⟩, htags, rfl⟩
    exact ⟨d, hd, hname, hdocblock, htext, hmodifiers, ⟨params, hparams, rfl⟩, hreturns, htags, rfl⟩
  · rintro ⟨d, hd, hname, hdocblock, htext, hmodifiers, ⟨params, hparams, hlist⟩, hreturns, htags,
      hextra⟩
    refine ⟨d, hd, _, _, ⟨_, _, ⟨_, params, ⟨_, _, ⟨_, _, ⟨_, _, ⟨_, hname, rfl⟩, hdocblock, rfl⟩,
      htext, rfl⟩, hmodifiers, rfl⟩, hparams, rfl⟩, hreturns, rfl⟩, htags, ?_⟩
    rw [hlist, hextra]

/-- The names of the fields of a property, with the spelling that a document uses. -/
def propertyFields (defaultKey : String) : List String :=
  ["description", "type", "required", defaultKey, "tags"]

theorem readProperty_eq_valid_iff {j : Json} {p : Property} :
    readProperty j = .valid p ↔
      ∃ d, j.dict? = some d ∧ textField d "description" = .valid p.description ∧
        typeField d = .valid p.type ∧
        optionalField d "required" false readBool = .valid p.required ∧
        (∃ default, optionalField d (spelling d "defaultValue" "default_value") none
            (readOption readDefaultValue) = .valid default ∧
          default.getD ⟨none, false⟩ = p.default) ∧
        tagsField d = .valid p.tags ∧
        d.without (propertyFields (spelling d "defaultValue" "default_value")) = p.extra := by
  simp only [readProperty, readModel_eq_valid_iff, map_eq, seq_eq, apply_eq_valid_iff,
    map_eq_valid_iff]
  constructor
  · rintro ⟨d, hd, _, _, ⟨_, default, ⟨_, _, ⟨_, _, ⟨_, htext, rfl⟩, htype, rfl⟩, hrequired, rfl⟩,
      hdefault, rfl⟩, htags, rfl⟩
    exact ⟨d, hd, htext, htype, hrequired, ⟨default, hdefault, rfl⟩, htags, rfl⟩
  · rintro ⟨d, hd, htext, htype, hrequired, ⟨default, hdefault, hvalue⟩, htags, hextra⟩
    refine ⟨d, hd, _, _, ⟨_, default, ⟨_, _, ⟨_, _, ⟨_, htext, rfl⟩, htype, rfl⟩, hrequired, rfl⟩,
      hdefault, rfl⟩, htags, ?_⟩
    rw [hvalue, ← propertyFields, hextra]

theorem readMembers_eq_valid_iff {d : Dict Json} {r : Record} :
    readMembers d = .valid r ↔
      textField d "description" = .valid r.description ∧
        textField d (spelling d "displayName" "display_name") = .valid r.displayName ∧
        (∃ methods, optionalField d "methods" none (readOption (readList readMethod)) =
          .valid methods ∧ methods.getD [] = r.methods) ∧
        optionalField d "props" none (readOption (readDict readProperty)) = .valid r.props ∧
        optionalField d "doclets" Dict.empty (readDict readDocletValue) = .valid r.doclets ∧
        tagsField d = .valid r.tags ∧
        optionalField d "examples" [] (readList readString) = .valid r.examples ∧
        .value ((d.get? "example").getD .null) = r.external ∧
        textField d (spelling d "visibleName" "visible_name") = .valid r.visibleName ∧
        d.without (recordFields (spelling d "displayName" "display_name")
          (spelling d "visibleName" "visible_name")) = r.extra := by
  simp only [readMembers, map_eq, seq_eq, apply_eq_valid_iff, map_eq_valid_iff]
  constructor
  · rintro ⟨_, _, ⟨_, _, ⟨_, _, ⟨_, _, ⟨_, _, ⟨_, _, ⟨_, methods, ⟨_, _, ⟨_, htext, rfl⟩, hdisplay,
      rfl⟩, hmethods, rfl⟩, hprops, rfl⟩, hdoclets, rfl⟩, htags, rfl⟩, hexamples, rfl⟩, hexternal,
      rfl⟩, hvisible, rfl⟩
    exact ⟨htext, hdisplay, ⟨methods, hmethods, rfl⟩, hprops, hdoclets, htags, hexamples,
      by cases hexternal; rfl, hvisible, rfl⟩
  · rintro ⟨htext, hdisplay, ⟨methods, hmethods, hlist⟩, hprops, hdoclets, htags, hexamples,
      hexternal, hvisible, hextra⟩
    refine ⟨_, _, ⟨_, _, ⟨_, _, ⟨_, _, ⟨_, _, ⟨_, _, ⟨_, methods, ⟨_, _, ⟨_, htext, rfl⟩, hdisplay,
      rfl⟩, hmethods, rfl⟩, hprops, rfl⟩, hdoclets, rfl⟩, htags, rfl⟩, hexamples, rfl⟩, rfl, rfl⟩,
      hvisible, ?_⟩
    rw [hlist, hexternal, hextra]

theorem ofJson_eq_ok_iff {j : Json} {r : Record} :
    ofJson j = .ok r ↔ ∃ d, j.dict? = some d ∧ readMembers d = .valid r := by
  rw [ofJson, toExcept_eq_ok_iff, readModel_eq_valid_iff]

end Record

end ComponentDocs
