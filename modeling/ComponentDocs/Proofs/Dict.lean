import ComponentDocs.Dict
import Mathlib.Data.List.Nodup

/-!
# Looking up keys

What is found under a key after each operation on a dictionary, and which keys it has then.
-/

namespace ComponentDocs.Dict

variable {α : Type}

theorem get?_eq_some_iff {d : Dict α} {key : String} {value : α} :
    d.get? key = some value ↔ (key, value) ∈ d.entries := by
  obtain ⟨entries, hnodup⟩ := d
  unfold get?
  induction entries with
  | nil => simp
  | cons e rest ih =>
    obtain ⟨k, v⟩ := e
    obtain ⟨hk, hrest⟩ := List.nodup_cons.1 hnodup
    rw [List.lookup_cons, List.mem_cons, Prod.mk.injEq]
    by_cases heq : key = k
    · subst heq
      have hmem : (key, value) ∉ rest := fun hmem =>
        hk (List.mem_map.2 ⟨(key, value), hmem, rfl⟩)
      simp [hmem, eq_comm]
    · rw [beq_false_of_ne heq]
      simpa [heq] using ih hrest

theorem get?_isSome_iff {d : Dict α} {key : String} : (d.get? key).isSome ↔ key ∈ d.keys := by
  rw [Option.isSome_iff_exists, keys, List.mem_map]
  constructor
  · rintro ⟨value, h⟩
    exact ⟨(key, value), get?_eq_some_iff.1 h, rfl⟩
  · rintro ⟨⟨k, v⟩, h, rfl⟩
    exact ⟨v, get?_eq_some_iff.2 h⟩

theorem lookup_insertEntry (key k : String) (value : α) (l : List (String × α)) :
    (insertEntry key value l).lookup k = if k = key then some value else l.lookup k := by
  induction l with
  | nil =>
    by_cases hk : k = key <;> simp [insertEntry, hk]
  | cons e rest ih =>
    obtain ⟨k', v⟩ := e
    unfold insertEntry
    by_cases hkey : k' = key
    · rw [if_pos hkey, List.lookup_cons, List.lookup_cons, hkey]
      by_cases hk : k = key
      · simp [hk]
      · simp [hk, beq_false_of_ne hk]
    · rw [if_neg hkey, List.lookup_cons, List.lookup_cons, ih]
      by_cases hk : k = k'
      · simp [hk, hkey]
      · simp [beq_false_of_ne hk]

theorem get?_insert (d : Dict α) (key k : String) (value : α) :
    (d.insert key value).get? k = if k = key then some value else d.get? k :=
  lookup_insertEntry key k value d.entries

theorem map_fst_insertEntry (key : String) (value : α) (l : List (String × α)) :
    (insertEntry key value l).map Prod.fst =
      if key ∈ l.map Prod.fst then l.map Prod.fst else l.map Prod.fst ++ [key] := by
  induction l with
  | nil => rfl
  | cons e rest ih =>
    obtain ⟨k, v⟩ := e
    unfold insertEntry
    by_cases hk : k = key
    · simp [hk]
    · rw [if_neg hk, List.map_cons, ih, List.map_cons]
      by_cases hmem : key ∈ rest.map Prod.fst
      · simp [hmem]
      · simp [hmem, Ne.symm hk]

theorem keys_insert (d : Dict α) (key : String) (value : α) :
    (d.insert key value).keys = if key ∈ d.keys then d.keys else d.keys ++ [key] :=
  map_fst_insertEntry key value d.entries

-- The entries are the keys with what is found under them.
theorem entries_eq_map {d : Dict α} {f : String → α}
    (h : ∀ key ∈ d.keys, d.get? key = some (f key)) :
    d.entries = d.keys.map fun key => (key, f key) := by
  rw [keys, List.map_map]
  conv_lhs => rw [← List.map_id d.entries]
  refine List.map_congr_left fun e he => ?_
  have hfound := h e.1 (List.mem_map_of_mem he)
  rw [get?_eq_some_iff.2 he] at hfound
  exact Prod.ext rfl (Option.some.inj hfound)

-- Every entry of a dictionary that is written key by key is one of those written.
theorem get?_insertMany_cases {k : String} {value : α} {l : List (String × α)} {d : Dict α}
    (h : (d.insertMany l).get? k = some value) : (k, value) ∈ l ∨ d.get? k = some value := by
  induction l generalizing d with
  | nil => exact .inr h
  | cons e rest ih =>
    rw [insertMany, List.foldl_cons, ← insertMany] at h
    rcases ih h with hmem | hget
    · exact .inl (List.mem_cons_of_mem e hmem)
    · rw [get?_insert] at hget
      by_cases hk : k = e.1
      · rw [if_pos hk] at hget
        left
        rw [hk, ← Option.some.inj hget]
        exact List.mem_cons_self
      · rw [if_neg hk] at hget
        exact .inr hget

theorem get?_insertMany_isSome {k : String} {l : List (String × α)} {d : Dict α} :
    ((d.insertMany l).get? k).isSome ↔ k ∈ l.map Prod.fst ∨ (d.get? k).isSome := by
  induction l generalizing d with
  | nil => simp [insertMany]
  | cons e rest ih =>
    rw [insertMany, List.foldl_cons, ← insertMany, ih, get?_insert, List.map_cons, List.mem_cons]
    by_cases hk : k = e.1 <;> simp [hk]

theorem lookup_of_notMem {l : List (String × α)} {k : String} (h : k ∉ l.map Prod.fst) :
    l.lookup k = none := by
  rw [List.lookup_eq_none_iff]
  intro e he
  rw [bne_iff_ne]
  rintro rfl
  exact h (List.mem_map_of_mem he)

-- The keys are distinct, so nothing that is written after an entry touches its key.
theorem get?_insertMany {l : List (String × α)} (hl : (l.map Prod.fst).Nodup) (d : Dict α)
    (k : String) : (d.insertMany l).get? k = (l.lookup k).or (d.get? k) := by
  induction l generalizing d with
  | nil => rfl
  | cons e rest ih =>
    obtain ⟨key, value⟩ := e
    obtain ⟨hkey, hrest⟩ := List.nodup_cons.1 hl
    rw [insertMany, List.foldl_cons, ← insertMany, ih hrest, get?_insert, List.lookup_cons]
    by_cases hk : k = key
    · rw [if_pos hk, hk, lookup_of_notMem hkey, beq_self_eq_true]
      rfl
    · rw [if_neg hk, beq_false_of_ne hk]

-- The entries that the second dictionary has take the place of those of the first.
theorem get?_merge (d e : Dict α) (k : String) :
    (d.merge e).get? k = (e.get? k).or (d.get? k) :=
  get?_insertMany e.nodup d k

theorem get?_without (d : Dict α) (names : List String) (k : String) :
    (d.without names).get? k = if k ∈ names then none else d.get? k := by
  apply Option.ext
  intro value
  rw [get?_eq_some_iff, entries_without, List.mem_filter]
  by_cases hk : k ∈ names
  · simp [hk]
  · simp [hk, get?_eq_some_iff]

/-- None of the names is a key. -/
def Lacks (d : Dict α) (names : List String) : Prop :=
  ∀ name ∈ names, d.get? name = none

theorem lacks_without (d : Dict α) (names : List String) : (d.without names).Lacks names :=
  fun name hname => by rw [get?_without, if_pos hname]

theorem without_eq_self_iff {d : Dict α} {names : List String} :
    d.without names = d ↔ d.Lacks names := by
  constructor
  · intro h
    rw [← h]
    exact d.lacks_without names
  · intro h
    apply ext
    rw [entries_without, List.filter_eq_self]
    rintro ⟨key, value⟩ he
    rw [Bool.not_eq_true', List.contains_eq_mem, decide_eq_false_iff_not]
    intro hkey
    have hget := get?_eq_some_iff.2 he
    rw [h key hkey] at hget
    cases hget

theorem filter_insertEntry {p : String → Bool} {key : String} (h : p key = false) (value : α)
    (l : List (String × α)) :
    (insertEntry key value l).filter (fun e => p e.1) = l.filter fun e => p e.1 := by
  induction l with
  | nil => simp [insertEntry, h]
  | cons e rest ih =>
    obtain ⟨k, v⟩ := e
    unfold insertEntry
    split
    · rename_i hk
      simp [hk, h]
    · rw [List.filter_cons, List.filter_cons, ih]

theorem filter_insertEntry_of_pos {p : String → Bool} {key : String} (h : p key = true) (value : α)
    (l : List (String × α)) :
    (insertEntry key value l).filter (fun e => p e.1) =
      insertEntry key value (l.filter fun e => p e.1) := by
  induction l with
  | nil => simp [insertEntry, h]
  | cons e rest ih =>
    obtain ⟨k, v⟩ := e
    by_cases hk : k = key
    · simp [insertEntry, hk, h]
    · rw [insertEntry, if_neg hk, List.filter_cons, List.filter_cons, ih]
      by_cases hp : p k
      · rw [if_pos hp, if_pos hp, insertEntry, if_neg hk]
      · rw [if_neg hp, if_neg hp]

theorem without_insert (d : Dict α) (key : String) (value : α) (names : List String) :
    (d.insert key value).without names =
      if key ∈ names then d.without names else (d.without names).insert key value := by
  by_cases hkey : key ∈ names
  · rw [if_pos hkey]
    have hp : (!names.contains key) = false := by simpa using hkey
    exact ext (filter_insertEntry (p := fun key => !names.contains key) hp value d.entries)
  · rw [if_neg hkey]
    have hp : (!names.contains key) = true := by simpa using hkey
    exact ext (filter_insertEntry_of_pos (p := fun key => !names.contains key) hp value d.entries)

-- What is written under names that are left out makes no difference.
theorem without_insertMany {l : List (String × α)} {names : List String}
    (h : ∀ e ∈ l, e.1 ∈ names) (d : Dict α) : (d.insertMany l).without names = d.without names := by
  induction l generalizing d with
  | nil => rfl
  | cons e rest ih =>
    obtain ⟨key, value⟩ := e
    rw [List.forall_mem_cons] at h
    rw [insertMany, List.foldl_cons, ← insertMany, ih h.2, without_insert, if_pos h.1]

theorem without_without (d : Dict α) (names : List String) :
    (d.without names).without names = d.without names := by
  apply ext
  rw [entries_without, entries_without, List.filter_filter]
  simp only [Bool.and_self]

theorem get?_map {β : Type} (f : α → β) (d : Dict α) (k : String) :
    (d.map f).get? k = (d.get? k).map f := by
  apply Option.ext
  intro value
  rw [get?_eq_some_iff, Option.map_eq_some_iff]
  simp only [map, List.mem_map, get?_eq_some_iff]
  constructor
  · rintro ⟨e, he, heq⟩
    obtain ⟨rfl, rfl⟩ := Prod.mk.inj heq
    exact ⟨e.2, he, rfl⟩
  · rintro ⟨v, hv, rfl⟩
    exact ⟨(k, v), hv, rfl⟩

theorem map_map {β γ : Type} (f : α → β) (g : β → γ) (d : Dict α) :
    (d.map f).map g = d.map (g ∘ f) :=
  ext (List.map_map ..)

theorem map_insertEntry {β : Type} (f : α → β) (key : String) (value : α) (l : List (String × α)) :
    (insertEntry key value l).map (fun e => (e.1, f e.2)) =
      insertEntry key (f value) (l.map fun e => (e.1, f e.2)) := by
  induction l with
  | nil => rfl
  | cons e rest ih =>
    obtain ⟨k, v⟩ := e
    by_cases hk : k = key <;> simp [insertEntry, hk, ih]

-- Values may be changed before or after they are written.
theorem map_insertMany {β : Type} (f : α → β) (d : Dict α) (l : List (String × α)) :
    (d.insertMany l).map f = (d.map f).insertMany (l.map fun e => (e.1, f e.2)) := by
  induction l generalizing d with
  | nil => rfl
  | cons e rest ih =>
    have hinsert : (d.insert e.1 e.2).map f = (d.map f).insert e.1 (f e.2) :=
      ext (map_insertEntry f e.1 e.2 d.entries)
    rw [insertMany, List.foldl_cons, ← insertMany, ih, hinsert]
    rfl

theorem ofList_map {β : Type} (f : α → β) (l : List (String × α)) :
    ofList (l.map fun e => (e.1, f e.2)) = (ofList l).map f :=
  (map_insertMany f empty l).symm

theorem get?_ofList_isSome_iff {k : String} {l : List (String × α)} :
    ((ofList l).get? k).isSome ↔ k ∈ l.map Prod.fst := by
  rw [ofList, get?_insertMany_isSome]
  simp [empty, get?]

-- Of many writes to one key the last one stays.
theorem get?_insertMany_map {γ : Type} (f : γ → String × α) (l : List γ) (d : Dict α)
    (k : String) :
    (d.insertMany (l.map f)).get? k =
      ((l.reverse.find? fun c => (f c).1 = k).map fun c => (f c).2).or (d.get? k) := by
  induction l generalizing d with
  | nil => rfl
  | cons c rest ih =>
    rw [List.map_cons, insertMany, List.foldl_cons, ← insertMany, ih, get?_insert,
      List.reverse_cons, List.find?_append]
    cases rest.reverse.find? fun c => (f c).1 = k with
    | some found => rfl
    | none => by_cases hk : k = (f c).1 <;> simp [hk, eq_comm]

theorem get?_ofList_map {γ : Type} (f : γ → String × α) (l : List γ) (k : String) :
    (ofList (l.map f)).get? k =
      (l.reverse.find? fun c => (f c).1 = k).map fun c => (f c).2 := by
  rw [ofList, get?_insertMany_map]
  exact Option.or_none

theorem ofList_eq_empty_iff {l : List (String × α)} : ofList l = empty ↔ l = [] := by
  constructor
  · intro h
    cases l with
    | nil => rfl
    | cons e rest =>
      have hkey : e.1 ∈ (e :: rest).map Prod.fst := List.mem_cons_self
      have hsome := get?_ofList_isSome_iff.2 hkey
      rw [h] at hsome
      cases hsome
  · rintro rfl
    rfl

theorem mem_of_get?_ofList {k : String} {value : α} {l : List (String × α)}
    (h : (ofList l).get? k = some value) : (k, value) ∈ l := by
  rcases get?_insertMany_cases h with hmem | hget
  · exact hmem
  · cases hget

end ComponentDocs.Dict
