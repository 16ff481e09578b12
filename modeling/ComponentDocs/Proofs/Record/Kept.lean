import ComponentDocs.Proofs.Record.Writer

/-!
# Members that are kept

A table says which members of an object are kept, and what is kept of each. Keeping passes through
the laws of dictionaries and through the writing of fields: `Dict.get?_keep`,
`Dict.keep_writeFields`.
-/

namespace ComponentDocs

open Json

/-- The names that are kept, each with what is kept of its value. -/
abbrev Kept : Type := List (String × (Json → Json))

/-- The entries with a name that is kept. -/
def Json.keepEntries (kept : Kept) (l : List (String × Json)) : List (String × Json) :=
  l.filterMap fun e => ((kept.lookup e.1).map fun f => f e.2).map (e.1, ·)

namespace Dict

/-- The members with a name that is kept. -/
def keep (kept : Kept) (d : Dict Json) : Dict Json :=
  d.filterMap fun key j => (kept.lookup key).map fun f => f j

theorem get?_keep (kept : Kept) (d : Dict Json) (key : String) :
    (d.keep kept).get? key = (d.get? key).bind fun j => (kept.lookup key).map fun f => f j := by
  apply Option.ext
  intro value
  rw [get?_eq_some_iff, Option.bind_eq_some_iff]
  simp only [keep, filterMap, List.mem_filterMap, Option.map_eq_some_iff, Prod.mk.injEq,
    get?_eq_some_iff]
  constructor
  · rintro ⟨⟨k, j⟩, he, w, ⟨f, hf, rfl⟩, rfl, rfl⟩
    exact ⟨j, he, f, hf, rfl⟩
  · rintro ⟨j, hj, f, hf, rfl⟩
    exact ⟨(key, j), hj, _, ⟨f, hf, rfl⟩, rfl, rfl⟩

theorem keep_without (kept : Kept) (d : Dict Json) (names : List String) :
    (d.keep kept).without names = (d.without names).keep kept := by
  apply ext
  rw [entries_without]
  simp only [keep, filterMap, entries_without, List.filter_filterMap, List.filterMap_filter]
  refine List.filterMap_congr fun e _ => ?_
  cases kept.lookup e.1 with
  | none => simp
  | some f => by_cases he : e.1 ∈ names <;> simp [he]

theorem keepEntries_insertEntry (kept : Kept) (key : String) (j : Json)
    (l : List (String × Json)) :
    keepEntries kept (insertEntry key j l) =
      match kept.lookup key with
      | some f => insertEntry key (f j) (keepEntries kept l)
      | none => keepEntries kept l := by
  unfold keepEntries
  induction l with
  | nil => cases hkey : kept.lookup key <;> simp [insertEntry, hkey]
  | cons e rest ih =>
    obtain ⟨k, v⟩ := e
    by_cases hk : k = key
    · subst hk
      cases hkey : kept.lookup k <;> simp [insertEntry, hkey]
    · rw [insertEntry, if_neg hk, List.filterMap_cons, ih]
      cases hkey : kept.lookup key <;> cases hlookup : kept.lookup k <;>
        simp [insertEntry, hk, hlookup]

theorem keep_insertMany (kept : Kept) (d : Dict Json) (l : List (String × Json)) :
    (d.insertMany l).keep kept = (d.keep kept).insertMany (keepEntries kept l) := by
  induction l generalizing d with
  | nil => rfl
  | cons e rest ih =>
    obtain ⟨key, j⟩ := e
    have hinsert : (d.insert key j).keep kept =
        match kept.lookup key with
        | some f => (d.keep kept).insert key (f j)
        | none => d.keep kept := by
      apply ext
      refine (keepEntries_insertEntry kept key j d.entries).trans ?_
      cases kept.lookup key <;> rfl
    rw [insertMany, List.foldl_cons, ← insertMany, ih, hinsert]
    unfold keepEntries
    rw [List.filterMap_cons]
    cases kept.lookup key <;> rfl

/-- The fields with a name that is kept. -/
def keepFields (kept : Kept) (fields : List (String × Option Json)) :
    List (String × Option Json) :=
  fields.filterMap fun e => (kept.lookup e.1).map fun f => (e.1, e.2.map f)

theorem keepFields_nil (kept : Kept) : keepFields kept [] = [] := rfl

theorem keepFields_cons (kept : Kept) (key : String) (j : Option Json)
    (rest : List (String × Option Json)) :
    keepFields kept ((key, j) :: rest) =
      ((kept.lookup key).map fun f => (key, j.map f)).toList ++ keepFields kept rest := by
  unfold keepFields
  rw [List.filterMap_cons]
  cases kept.lookup key <;> rfl

theorem keepEntries_present (kept : Kept) (fields : List (String × Option Json)) :
    keepEntries kept (present fields) = present (keepFields kept fields) := by
  unfold keepEntries present keepFields
  rw [List.filterMap_filterMap, List.filterMap_filterMap]
  refine List.filterMap_congr fun e _ => ?_
  cases he : e.2 <;> cases hlookup : kept.lookup e.1 <;> simp [hlookup]

theorem keep_writeFields (kept : Kept) (d : Dict Json) (fields : List (String × Option Json)) :
    (d.writeFields fields).keep kept = (d.keep kept).writeFields (keepFields kept fields) := by
  rw [writeFields, keep_insertMany, keepEntries_present]
  rfl

end Dict

/-! ## Documents -/

namespace Json

/-- An object with the members that are kept. -/
def keep (kept : Kept) : Json → Json
  | .obj members => .obj ((Dict.ofList members).keep kept).entries
  | j => j

def mapItems (f : Json → Json) : Json → Json
  | .arr items => .arr (items.map f)
  | j => j

def mapMembers (f : Json → Json) : Json → Json
  | .obj members => .obj ((Dict.ofList members).map f).entries
  | j => j

theorem keep_obj_entries (kept : Kept) (d : Dict Json) :
    keep kept (.obj d.entries) = .obj (d.keep kept).entries := by
  rw [keep, Dict.ofList_entries]

theorem keep_eq_null_iff {kept : Kept} (j : Json) : keep kept j = .null ↔ j = .null := by
  cases j <;> simp [keep]

theorem mapItems_eq_null_iff {f : Json → Json} (j : Json) : mapItems f j = .null ↔ j = .null := by
  cases j <;> simp [mapItems]

theorem mapMembers_eq_null_iff {f : Json → Json} (j : Json) :
    mapMembers f j = .null ↔ j = .null := by
  cases j <;> simp [mapMembers]

end Json

end ComponentDocs
