import ComponentDocs.Proofs.Record.Reader
import ComponentDocs.Record.Writer

/-!
# What a written document holds

Each part of a record is written as its fields over what no field stands for, so under the name of
a field stands the field, and under any other name what stood there: `Dict.get?_writeFields`.
-/

namespace ComponentDocs

open Json

/-! ## Fields over other members -/

/-- The members of the fields that are there. -/
def Json.present (fields : List (String × Option Json)) : List (String × Json) :=
  fields.filterMap fun e => e.2.map (e.1, ·)

theorem Json.keys_present_sublist (fields : List (String × Option Json)) :
    ((present fields).map Prod.fst).Sublist (fields.map Prod.fst) := by
  unfold present
  induction fields with
  | nil => exact List.Sublist.slnil
  | cons e rest ih =>
    obtain ⟨key, value⟩ := e
    cases value with
    | none => exact ih.cons key
    | some j => exact ih.cons_cons key

theorem Json.lookup_present {fields : List (String × Option Json)}
    (h : (fields.map Prod.fst).Nodup) (k : String) :
    (present fields).lookup k = (fields.lookup k).join := by
  induction fields with
  | nil => rfl
  | cons e rest ih =>
    obtain ⟨key, value⟩ := e
    obtain ⟨hkey, hrest⟩ := List.nodup_cons.1 h
    have hcons : present ((key, value) :: rest) =
        (value.map (key, ·)).toList ++ present rest := by
      cases value <;> rfl
    rw [hcons, List.lookup_append, ih hrest, List.lookup_cons]
    by_cases hk : k = key
    · rw [hk, Dict.lookup_of_notMem hkey, beq_self_eq_true]
      cases value <;> simp
    · rw [beq_false_of_ne hk]
      cases value <;> simp [List.lookup_cons, beq_false_of_ne hk]

/-- A dictionary with fields written over it. -/
def Dict.writeFields (d : Dict Json) (fields : List (String × Option Json)) : Dict Json :=
  d.insertMany (present fields)

theorem Dict.get?_writeFields {fields : List (String × Option Json)}
    (h : (fields.map Prod.fst).Nodup) (d : Dict Json) (k : String) :
    (d.writeFields fields).get? k = (fields.lookup k).join.or (d.get? k) := by
  rw [writeFields, get?_insertMany (h.sublist (keys_present_sublist fields)), lookup_present h]

-- What stands under the name of a field, where nothing else does.
theorem Dict.get?_writeFields_of_lacks {d : Dict Json} {names : List String}
    {fields : List (String × Option Json)} (hd : d.Lacks names) (h : (fields.map Prod.fst).Nodup)
    {key : String} (hkey : key ∈ names) :
    (d.writeFields fields).get? key = (fields.lookup key).join := by
  rw [get?_writeFields h, hd key hkey, Option.or_none]

theorem Dict.without_writeFields {d : Dict Json} {names : List String}
    {fields : List (String × Option Json)} (hd : d.Lacks names)
    (h : ∀ e ∈ fields, e.1 ∈ names) : (d.writeFields fields).without names = d := by
  rw [writeFields, without_insertMany, without_eq_self_iff.2 hd]
  intro e he
  obtain ⟨field, hfield, heq⟩ :=
    List.mem_map.1 ((keys_present_sublist fields).subset (List.mem_map_of_mem he))
  exact heq ▸ h field hfield

/-! ## The fields of each part -/

def Tag.fields (t : Tag) : List (String × Option Json) :=
  [("title", some (.str t.title)), ("description", some (.str t.description)),
    ("name", t.name.map .str), ("type", t.type.map fun name => .obj [("name", .str name)]),
    ("default", t.default.map .str)]

def Param.fields (p : Param) : List (String × Option Json) :=
  [("name", some (.str p.name)), ("type", p.type.map TypeInfo.toJson),
    ("description", p.description.map .str), ("default", p.default.map .str)]

def Returns.fields (r : Returns) : List (String × Option Json) :=
  [("type", r.type.map TypeInfo.toJson), ("description", r.description.map .str)]

def Method.fields (m : Method) : List (String × Option Json) :=
  [("name", some (.str m.name)), ("docblock", some (ofString? m.docblock)),
    ("modifiers", some (ofStrings m.modifiers)),
    ("params", some (.arr (m.params.map Param.toJson))),
    ("returns", some ((m.returns.map Returns.toJson).getD .null)), ("tags", some m.tags.toJson),
    ("description", m.description.map .str)]

def DefaultValue.toJson? (v : DefaultValue) : Option Json :=
  v.text.map fun text => .obj [("value", .str text), ("computed", .bool v.computed)]

def Property.fields (p : Property) : List (String × Option Json) :=
  [("description", some (ofString? p.description)), ("required", some (.bool p.required)),
    ("tags", some p.tags.toJson), ("type", p.type.map TypeInfo.toJson),
    ("defaultValue", p.default.toJson?)]

def Record.fields (r : Record) : List (String × Option Json) :=
  [("description", some (ofString? r.description)), ("displayName", some (ofString? r.displayName)),
    ("methods", some (.arr (r.methods.map Method.toJson))), ("doclets", some r.doclets.toJson),
    ("tags", some r.tags.toJson), ("examples", some (ofStrings r.examples)),
    ("example", some r.external.toJson),
    ("props", r.props.map fun props => .obj (props.map Property.toJson).entries),
    ("visibleName", r.visibleName.map .str)]

theorem Tag.nodup_fields (t : Tag) : (t.fields.map Prod.fst).Nodup := by
  simp [Tag.fields]

theorem Param.nodup_fields (p : Param) : (p.fields.map Prod.fst).Nodup := by
  simp [Param.fields]

theorem Returns.nodup_fields (r : Returns) : (r.fields.map Prod.fst).Nodup := by
  simp [Returns.fields]

theorem Method.nodup_fields (m : Method) : (m.fields.map Prod.fst).Nodup := by
  simp [Method.fields]

theorem Property.nodup_fields (p : Property) : (p.fields.map Prod.fst).Nodup := by
  simp [Property.fields]

theorem Record.nodup_fields (r : Record) : (r.fields.map Prod.fst).Nodup := by
  simp [Record.fields]

theorem Tag.toJson_eq (t : Tag) : t.toJson = .obj (present t.fields) := by
  obtain ⟨title, description, name, type, default⟩ := t
  cases name <;> cases type <;> cases default <;> rfl

theorem Param.toJson_eq (p : Param) : p.toJson = .obj (p.extra.writeFields p.fields).entries := by
  obtain ⟨name, type, description, default, extra⟩ := p
  cases type <;> cases description <;> cases default <;> rfl

theorem Returns.toJson_eq (r : Returns) :
    r.toJson = .obj (r.extra.writeFields r.fields).entries := by
  obtain ⟨type, description, extra⟩ := r
  cases type <;> cases description <;> rfl

theorem Method.toJson_eq (m : Method) : m.toJson = .obj (m.extra.writeFields m.fields).entries := by
  obtain ⟨name, docblock, params, returns, modifiers, tags, description, extra⟩ := m
  cases description <;> rfl

theorem Property.toJson_eq (p : Property) :
    p.toJson = .obj (p.extra.writeFields p.fields).entries := by
  obtain ⟨description, type, required, ⟨text, computed⟩, tags, extra⟩ := p
  cases type <;> cases text <;> rfl

theorem Record.toJson_eq (r : Record) : r.toJson = .obj (r.extra.writeFields r.fields).entries := by
  obtain ⟨description, displayName, methods, props, doclets, tags, examples, external, visibleName,
    extra⟩ := r
  cases props <;> cases visibleName <;> rfl

end ComponentDocs
