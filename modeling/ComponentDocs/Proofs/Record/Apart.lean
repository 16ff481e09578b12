import ComponentDocs.Proofs.Record.Writer

/-!
# Data beside the fields

What no field stands for is kept beside the fields of a part, under other names than theirs. That is
so of every part that has been read: `Record.apart_of_read`.
-/

namespace ComponentDocs

open Checked

/-! ## Parts of a record -/

/-- Nothing in the details of a type is called its name. -/
def TypeInfo.Apart (t : TypeInfo) : Prop :=
  t.details.Lacks ["name"]

structure Param.Apart (p : Param) : Prop where
  type : ∀ t ∈ p.type, t.Apart
  extra : p.extra.Lacks Record.paramFields

structure Returns.Apart (r : Returns) : Prop where
  type : ∀ t ∈ r.type, t.Apart
  extra : r.extra.Lacks Record.returnsFields

structure Method.Apart (m : Method) : Prop where
  params : ∀ p ∈ m.params, p.Apart
  returns : ∀ r ∈ m.returns, r.Apart
  extra : m.extra.Lacks Record.methodFields

structure Property.Apart (p : Property) : Prop where
  type : ∀ t ∈ p.type, t.Apart
  extra : p.extra.Lacks (Record.propertyFields "defaultValue")

/-- Nothing beside the fields of a record or of one of its parts has the name of a field, in the
spelling in which it is written. -/
structure Record.Apart (r : Record) : Prop where
  methods : ∀ m ∈ r.methods, m.Apart
  props : ∀ props ∈ r.props, ∀ e ∈ props.entries, e.2.Apart
  extra : r.extra.Lacks (Record.recordFields "displayName" "visibleName")

namespace Record

variable {α : Type}

/-! ## Parts that have been read -/

-- Whatever is in a list that may be null has been read.
theorem exists_of_listField {d : Dict Json} {key : String} {read : Json → Checked α} {l : List α}
    (h : ∃ o, optionalField d key none (readOption (readList read)) = .valid o ∧ o.getD [] = l)
    {a : α} (ha : a ∈ l) : ∃ item, read item = .valid a := by
  obtain ⟨o, ho, rfl⟩ := h
  cases o with
  | none => exact absurd ha List.not_mem_nil
  | some l =>
    obtain ⟨_, -, -, hl⟩ := optionalField_eq_some_iff.1 ho
    exact exists_of_readList hl ha

-- Whatever is in an optional field has been read.
theorem exists_of_optionalField {d : Dict Json} {key : String} {read : Json → Checked α}
    {o : Option α} (h : optionalField d key none (readOption read) = .valid o) {a : α}
    (ha : a ∈ o) : ∃ item, read item = .valid a := by
  rw [Option.mem_def.1 ha] at h
  obtain ⟨item, -, -, hitem⟩ := optionalField_eq_some_iff.1 h
  exact ⟨item, hitem⟩

theorem apart_of_readType {j : Json} {t : TypeInfo} (h : readType j = .valid t) : t.Apart := by
  rcases readType_eq_valid_iff.1 h with ⟨name, -, rfl⟩ | hobject
  · exact fun _ _ => rfl
  · obtain ⟨d, -, -, hdetails⟩ := readTypeObject_eq_valid_iff.1 hobject
    rw [TypeInfo.Apart, ← hdetails]
    exact d.lacks_without _

theorem apart_of_typeField {d : Dict Json} {o : Option TypeInfo} (h : typeField d = .valid o) :
    ∀ t ∈ o, t.Apart := by
  intro t ht
  obtain ⟨_, hitem⟩ := exists_of_optionalField h ht
  exact apart_of_readType hitem

theorem apart_of_readParam {j : Json} {p : Param} (h : readParam j = .valid p) : p.Apart := by
  obtain ⟨d, -, -, htype, -, -, hextra⟩ := readParam_eq_valid_iff.1 h
  exact ⟨apart_of_typeField htype, hextra ▸ d.lacks_without _⟩

theorem apart_of_readReturns {j : Json} {r : Returns} (h : readReturns j = .valid r) :
    r.Apart := by
  obtain ⟨d, -, htype, -, hextra⟩ := readReturns_eq_valid_iff.1 h
  exact ⟨apart_of_typeField htype, hextra ▸ d.lacks_without _⟩

theorem apart_of_readMethod {j : Json} {m : Method} (h : readMethod j = .valid m) : m.Apart := by
  obtain ⟨d, -, -, -, -, -, hparams, hreturns, -, hextra⟩ := readMethod_eq_valid_iff.1 h
  refine ⟨fun p hp => ?_, fun r hr => ?_, hextra ▸ d.lacks_without _⟩
  · obtain ⟨_, hitem⟩ := exists_of_listField hparams hp
    exact apart_of_readParam hitem
  · obtain ⟨_, hitem⟩ := exists_of_optionalField hreturns hr
    exact apart_of_readReturns hitem

theorem apart_of_readProperty {j : Json} {p : Property} (h : readProperty j = .valid p) :
    p.Apart := by
  obtain ⟨d, -, -, htype, -, -, -, hextra⟩ := readProperty_eq_valid_iff.1 h
  refine ⟨apart_of_typeField htype, ?_⟩
  rw [← hextra]
  have hdefault : (d.without (propertyFields (spelling d "defaultValue" "default_value"))).get?
      "defaultValue" = none :=
    get?_without_spelling "default_value" (by simp [propertyFields])
  have hkeys := d.lacks_without (propertyFields (spelling d "defaultValue" "default_value"))
  unfold propertyFields at hdefault hkeys ⊢
  simp only [Dict.Lacks, List.forall_mem_cons] at hkeys ⊢
  exact ⟨hkeys.1, hkeys.2.1, hkeys.2.2.1, hdefault, hkeys.2.2.2.2⟩

theorem lacks_of_readMembers {d : Dict Json} {r : Record} (h : readMembers d = .valid r) :
    r.extra.Lacks (recordFields "displayName" "visibleName") := by
  obtain ⟨-, -, -, -, -, -, -, -, -, hextra⟩ := readMembers_eq_valid_iff.1 h
  rw [← hextra]
  have hdisplay : (d.without (recordFields (spelling d "displayName" "display_name")
      (spelling d "visibleName" "visible_name"))).get? "displayName" = none :=
    get?_without_spelling "display_name" (by simp [recordFields])
  have hvisible : (d.without (recordFields (spelling d "displayName" "display_name")
      (spelling d "visibleName" "visible_name"))).get? "visibleName" = none :=
    get?_without_spelling "visible_name" (by simp [recordFields])
  have hkeys := d.lacks_without (recordFields (spelling d "displayName" "display_name")
    (spelling d "visibleName" "visible_name"))
  unfold recordFields at hdisplay hvisible hkeys ⊢
  simp only [Dict.Lacks, List.forall_mem_cons] at hkeys ⊢
  obtain ⟨hdescription, -, hmethods, hprops, hdoclets, htags, hexamples, hexternal, -, hnil⟩ :=
    hkeys
  exact ⟨hdescription, hdisplay, hmethods, hprops, hdoclets, htags, hexamples, hexternal, hvisible,
    hnil⟩

-- Whatever is in a dictionary that may be null has been read from the member of its name.
theorem exists_of_dictField {d : Dict Json} {key : String} {read : Json → Checked α}
    {found : Dict α}
    (h : optionalField d key none (readOption (readDict read)) = .valid (some found))
    {e : String × α} (he : e ∈ found.entries) : ∃ item, read item = .valid e.2 := by
  obtain ⟨_, -, -, hread⟩ := optionalField_eq_some_iff.1 h
  obtain ⟨_, -, hentries⟩ := readDict_eq_valid_iff.1 hread
  obtain ⟨member, -, -, hitem⟩ := exists_of_mem_right hentries he
  exact ⟨member.2, hitem⟩

theorem apart_of_readMembers {d : Dict Json} {r : Record} (h : readMembers d = .valid r) :
    r.Apart := by
  obtain ⟨-, -, hmethods, hprops, -, -, -, -, -, -⟩ := readMembers_eq_valid_iff.1 h
  refine ⟨fun m hm => ?_, fun props hr e he => ?_, lacks_of_readMembers h⟩
  · obtain ⟨_, hitem⟩ := exists_of_listField hmethods hm
    exact apart_of_readMethod hitem
  · rw [Option.mem_def.1 hr] at hprops
    obtain ⟨_, hitem⟩ := exists_of_dictField hprops he
    exact apart_of_readProperty hitem

/-- What no field stands for is apart from the fields of a record that has been read. -/
theorem apart_of_read {j : Json} {r : Record} (h : ofJson j = .ok r) : r.Apart := by
  obtain ⟨_, -, hread⟩ := ofJson_eq_ok_iff.1 h
  exact apart_of_readMembers hread

end Record

end ComponentDocs
