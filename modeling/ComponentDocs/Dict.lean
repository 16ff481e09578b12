/-!
# Dictionaries that keep the order of insertion

A dictionary is a list of entries whose keys are distinct. Writing a key that is already there
replaces its value in place; a new key goes to the end.
-/

namespace ComponentDocs

variable {α β : Type}

/-- Entries in the order in which their keys were first written. -/
structure Dict (α : Type) where
  entries : List (String × α)
  nodup : (entries.map Prod.fst).Nodup

namespace Dict

def empty : Dict α := ⟨[], List.nodup_nil⟩

instance : Inhabited (Dict α) := ⟨empty⟩

instance : EmptyCollection (Dict α) := ⟨empty⟩

instance [BEq α] : BEq (Dict α) := ⟨fun d e => d.entries == e.entries⟩

@[ext] theorem ext {d e : Dict α} (h : d.entries = e.entries) : d = e := by
  cases d
  cases e
  cases h
  rfl

instance [DecidableEq α] : DecidableEq (Dict α) := fun d e =>
  decidable_of_iff (d.entries = e.entries) ⟨ext, fun h => h ▸ rfl⟩

def keys (d : Dict α) : List String := d.entries.map Prod.fst

/-- The values in the order of their keys. -/
def values (d : Dict α) : List α := d.entries.map Prod.snd

def size (d : Dict α) : Nat := d.entries.length

def get? (d : Dict α) (key : String) : Option α := d.entries.lookup key

def contains (d : Dict α) (key : String) : Bool := (d.get? key).isSome

/-- Write one entry into a list of entries: in place of the key's entry, or at the end. -/
def insertEntry (key : String) (value : α) : List (String × α) → List (String × α)
  | [] => [(key, value)]
  | (k, v) :: rest =>
    if k = key then (key, value) :: rest else (k, v) :: insertEntry key value rest

theorem mem_map_fst_insertEntry {key k : String} {value : α} {l : List (String × α)} :
    k ∈ (insertEntry key value l).map Prod.fst ↔ k = key ∨ k ∈ l.map Prod.fst := by
  induction l with
  | nil => simp [insertEntry]
  | cons e rest ih =>
    obtain ⟨k', v⟩ := e
    unfold insertEntry
    split
    · rename_i h
      simp [h]
    · simp only [List.map_cons, List.mem_cons, ih]
      constructor
      · rintro (h | h | h) <;> simp [h]
      · rintro (h | h | h) <;> simp [h]

theorem nodup_insertEntry {key : String} {value : α} {l : List (String × α)}
    (h : (l.map Prod.fst).Nodup) : ((insertEntry key value l).map Prod.fst).Nodup := by
  induction l with
  | nil => simp [insertEntry]
  | cons e rest ih =>
    obtain ⟨k, v⟩ := e
    obtain ⟨hk, hrest⟩ := List.nodup_cons.1 h
    unfold insertEntry
    split
    · rename_i heq
      exact heq ▸ h
    · rename_i hne
      refine List.nodup_cons.2 ⟨fun hmem => ?_, ih hrest⟩
      rcases mem_map_fst_insertEntry.1 hmem with heq | hmem
      · exact hne heq
      · exact hk hmem

/-- Write a value: in place when the key is there, else at the end. -/
def insert (d : Dict α) (key : String) (value : α) : Dict α :=
  ⟨insertEntry key value d.entries, nodup_insertEntry d.nodup⟩

def insertMany (d : Dict α) (entries : List (String × α)) : Dict α :=
  entries.foldl (fun d e => d.insert e.1 e.2) d

/-- The dictionary of a list of entries: a repeated key keeps its first place and its last
value. -/
def ofList (entries : List (String × α)) : Dict α :=
  insertMany empty entries

/-- The entries of both; where both have a key, the second one's value. -/
def merge (d e : Dict α) : Dict α :=
  d.insertMany e.entries

def map (f : α → β) (d : Dict α) : Dict β :=
  ⟨d.entries.map fun e => (e.1, f e.2), by simpa [Function.comp_def] using d.nodup⟩

def filterMap (f : String → α → Option β) (d : Dict α) : Dict β :=
  ⟨d.entries.filterMap fun e => (f e.1 e.2).map (e.1, ·), by
    refine List.Nodup.sublist ?_ d.nodup
    generalize d.entries = l
    induction l with
    | nil => exact List.Sublist.slnil
    | cons e rest ih =>
      cases h : f e.1 e.2 with
      | none => simpa [h] using ih.cons e.1
      | some b => simpa [h] using ih.cons_cons e.1⟩

def filterKeys (p : String → Bool) (d : Dict α) : Dict α :=
  ⟨d.entries.filter fun e => p e.1,
    d.nodup.sublist (List.filter_sublist.map Prod.fst)⟩

def without (d : Dict α) (names : List String) : Dict α :=
  d.filterKeys fun key => !names.contains key

@[simp] theorem entries_without (d : Dict α) (names : List String) :
    (d.without names).entries = d.entries.filter fun e => !names.contains e.1 := rfl

theorem insertEntry_of_notMem {key : String} {value : α} {l : List (String × α)}
    (h : key ∉ l.map Prod.fst) : insertEntry key value l = l ++ [(key, value)] := by
  induction l with
  | nil => rfl
  | cons e rest ih =>
    obtain ⟨k, v⟩ := e
    simp only [List.map_cons, List.mem_cons, not_or] at h
    simp [insertEntry, Ne.symm h.1, ih h.2]

theorem entries_insertMany {d : Dict α} {l : List (String × α)}
    (hl : (l.map Prod.fst).Nodup) (hd : ∀ k ∈ l.map Prod.fst, k ∉ d.keys) :
    (d.insertMany l).entries = d.entries ++ l := by
  induction l generalizing d with
  | nil => simp [insertMany]
  | cons e rest ih =>
    obtain ⟨k, v⟩ := e
    obtain ⟨hk, hrest⟩ := List.nodup_cons.1 hl
    have hins : (d.insert k v).entries = d.entries ++ [(k, v)] :=
      insertEntry_of_notMem (hd k (by simp))
    have := ih (d := d.insert k v) hrest (by
      intro x hx hmem
      rcases mem_map_fst_insertEntry.1 hmem with heq | hmem
      · exact hk (heq ▸ hx)
      · exact hd x (by simp [List.mem_map.1 hx]) hmem)
    rw [insertMany, List.foldl_cons]
    simpa [insertMany, hins] using this

/-- A dictionary is rebuilt from its own entries. -/
@[simp] theorem ofList_entries (d : Dict α) : ofList d.entries = d :=
  ext (entries_insertMany (d := empty) d.nodup (by simp [keys, empty]))

end Dict

end ComponentDocs
