import ComponentDocs.Example.Header
import ComponentDocs.Proofs.Dict
import ComponentDocs.Proofs.Text.Marker
import ComponentDocs.Proofs.Text.Words

/-!
# Headers of words

A language with words after it is read as the language and the settings that the words turn on:
`Header.readChars_wordHeader`.
-/

namespace ComponentDocs

open Text

/-! ## Settings that words turn on -/

/-- Settings that words turn on, each under the name of its word. -/
def Dict.AreWords (settings : Dict Json) : Prop :=
  ∀ e ∈ settings.entries, e.2 = .bool true ∧ e.1 ≠ "" ∧ ∀ c ∈ e.1.toList, isWord c

instance (j : Json) : Decidable (j = .bool true) :=
  match j with
  | .bool true => isTrue rfl
  | .bool false | .null | .int _ | .float _ | .str _ | .arr _ | .obj _ => isFalse nofun

instance (settings : Dict Json) : Decidable settings.AreWords :=
  decidable_of_iff
    (∀ e ∈ settings.entries, e.2 = .bool true ∧ e.1 ≠ "" ∧ e.1.toList.all isWord = true)
    (by simp only [Dict.AreWords, List.all_eq_true])

namespace ExampleSettings

theorem get?_of_areWords {settings : Dict Json} (h : settings.AreWords) (key : String) :
    settings.get? key = if settings.contains key then some (.bool true) else none := by
  unfold Dict.contains
  cases hget : settings.get? key with
  | none => rfl
  | some j =>
    obtain ⟨hon, -⟩ := h (key, j) (Dict.get?_eq_some_iff.1 hget)
    exact congrArg some hon

theorem flag_of_areWords {settings : Dict Json} (h : settings.AreWords) (name : String) :
    flag settings name = .ok (settings.contains name) := by
  rw [flag, get?_of_areWords h]
  cases settings.contains name <;> rfl

/-- The settings that words turn on. -/
def ofWords (settings : Dict Json) : ExampleSettings :=
  ⟨settings.contains "render", settings.contains "static", settings.contains "showcode",
    settings.contains "noeditor", settings.without flagNames⟩

theorem ofMembers_of_areWords {settings : Dict Json} (h : settings.AreWords) :
    ofMembers settings = .ok (ofWords settings) := by
  unfold ofMembers
  simp only [flag_of_areWords h]
  rfl

-- The flags that are on are written, and no others.
theorem lookup_filter_flags {flags : List (String × Bool)} (h : (flags.map Prod.fst).Nodup)
    (key : String) :
    ((flags.filter Prod.snd).map fun e => (e.1, Json.bool e.2)).lookup key =
      if flags.lookup key = some true then some (.bool true) else none := by
  induction flags with
  | nil => rfl
  | cons e rest ih =>
    obtain ⟨name, on⟩ := e
    obtain ⟨hname, hrest⟩ := List.nodup_cons.1 h
    rw [List.lookup_cons]
    by_cases hkey : key = name
    · rw [hkey, Dict.lookup_of_notMem hname] at ih
      rw [hkey, beq_self_eq_true]
      cases on with
      | true => simp
      | false => simpa using ih hrest
    · rw [beq_false_of_ne hkey]
      cases on with
      | true => simpa [List.lookup_cons, beq_false_of_ne hkey] using ih hrest
      | false => simpa using ih hrest

theorem get?_ofList_flags {flags : List (String × Bool)} (h : (flags.map Prod.fst).Nodup)
    (key : String) :
    (Dict.ofList ((flags.filter Prod.snd).map fun e => (e.1, Json.bool e.2))).get? key =
      if flags.lookup key = some true then some (.bool true) else none := by
  have hnodup : (((flags.filter Prod.snd).map fun e => (e.1, Json.bool e.2)).map
      Prod.fst).Nodup := by
    rw [List.map_map]
    exact h.sublist (List.filter_sublist.map Prod.fst)
  rw [Dict.ofList, Dict.get?_insertMany hnodup, lookup_filter_flags h]
  exact Option.or_none ..

theorem lookup_flags_ofWords (settings : Dict Json) (key : String) :
    (ofWords settings).flags.lookup key =
      if key ∈ flagNames then some (settings.contains key) else none := by
  by_cases hkey : key ∈ flagNames
  · rw [if_pos hkey]
    simp only [flagNames, List.mem_cons, List.not_mem_nil, or_false] at hkey
    rcases hkey with rfl | rfl | rfl | rfl <;> rfl
  · rw [if_neg hkey]
    exact Dict.lookup_of_notMem hkey

/-- What differs from the defaults is what the words have turned on. -/
theorem get?_changes_ofWords {settings : Dict Json} (h : settings.AreWords) (key : String) :
    (ofWords settings).changes.get? key = settings.get? key := by
  rw [changes, Dict.get?_merge, get?_ofList_flags (by simp [flags]), lookup_flags_ofWords]
  change ((settings.without flagNames).get? key).or _ = _
  rw [Dict.get?_without, get?_of_areWords h]
  by_cases hkey : key ∈ flagNames <;> simp [hkey]

end ExampleSettings

/-! ## Words -/

/-- The words that turn settings on. -/
def Dict.wordList (settings : Dict Json) : List (List Char) :=
  settings.keys.map String.toList

theorem isRun_of_areWords {settings : Dict Json} (h : settings.AreWords) :
    ∀ w ∈ settings.wordList, IsRun w := by
  intro w hw
  obtain ⟨key, hkey, rfl⟩ := List.mem_map.1 hw
  obtain ⟨e, he, rfl⟩ := List.mem_map.1 hkey
  obtain ⟨-, hne, hword⟩ := h e he
  refine ⟨by simpa using hne, fun c hc hblank => ?_⟩
  have hnot := not_isWord_of_isBlank hblank
  rw [hword c hc] at hnot
  cases hnot

theorem wordMembers_unwords {settings : Dict Json} (h : settings.AreWords) :
    wordMembers (unwords settings.wordList) = settings := by
  have hentries : settings.wordList.map (fun word => (String.ofList word, Json.bool true)) =
      settings.entries := by
    unfold Dict.wordList Dict.keys
    rw [List.map_map, List.map_map]
    conv_rhs => rw [← List.map_id settings.entries]
    refine List.map_congr_left fun e he => ?_
    obtain ⟨hon, -⟩ := h e he
    exact Prod.ext String.ofList_toList hon.symm
  rw [wordMembers, words_unwords (isRun_of_areWords h), hentries, settings.ofList_entries]

theorem readModifiers_unwords (room : Nat) {settings : Dict Json} (h : settings.AreWords) :
    readModifiers room (unwords settings.wordList) = .ok (ExampleSettings.ofWords settings) := by
  have hwords : areWords (unwords settings.wordList) := by
    refine List.all_eq_true.2 fun c hc => ?_
    rcases mem_unwords hc with rfl | ⟨w, hw, hmem⟩
    · rfl
    · obtain ⟨key, hkey, rfl⟩ := List.mem_map.1 hw
      obtain ⟨e, he, rfl⟩ := List.mem_map.1 hkey
      obtain ⟨-, -, hword⟩ := h e he
      rw [hword c hmem, Bool.or_true]
  rw [readModifiers, if_pos hwords, wordMembers_unwords h, readSettings,
    ExampleSettings.ofMembers_of_areWords h]

/-! ## Headers -/

/-- A language and words after it, with single spaces between them. -/
def wordHeader (lang : String) (settings : Dict Json) : List Char :=
  unwords (lang.toList :: settings.wordList)

theorem wordHeader_empty (lang : String) : wordHeader lang Dict.empty = lang.toList := rfl

theorem wordHeader_of_ne {settings : Dict Json} (h : settings.wordList ≠ []) (lang : String) :
    wordHeader lang settings = lang.toList ++ ' ' :: unwords settings.wordList :=
  unwords_cons h

theorem eq_empty_of_wordList {settings : Dict Json} (h : settings.wordList = []) :
    settings = Dict.empty := by
  have hentries : settings.entries = [] := by simpa [Dict.wordList, Dict.keys] using h
  exact Dict.ext hentries

theorem ne_space_of_not_blank {lang : List Char} (h : ∀ c ∈ lang, ¬ isBlank c) :
    ∀ c ∈ lang, (c != ' ') = true := by
  intro c hc
  rw [bne_iff_ne]
  rintro rfl
  exact h ' ' hc rfl

theorem takeWhile_wordHeader {lang : String} (h : ∀ c ∈ lang.toList, ¬ isBlank c)
    (settings : Dict Json) : (wordHeader lang settings).takeWhile (· != ' ') = lang.toList := by
  by_cases hwords : settings.wordList = []
  · rw [eq_empty_of_wordList hwords, wordHeader_empty, List.takeWhile_eq_self_iff]
    exact ne_space_of_not_blank h
  · rw [wordHeader_of_ne hwords, List.takeWhile_append_of_pos (ne_space_of_not_blank h)]
    simp

theorem drop_wordHeader {lang : String} (h : ∀ c ∈ lang.toList, ¬ isBlank c)
    (settings : Dict Json) :
    ((wordHeader lang settings).dropWhile (· != ' ')).drop 1 = unwords settings.wordList := by
  by_cases hwords : settings.wordList = []
  · rw [eq_empty_of_wordList hwords, wordHeader_empty,
      List.dropWhile_eq_nil_iff.2 (ne_space_of_not_blank h)]
    rfl
  · rw [wordHeader_of_ne hwords, List.dropWhile_append_of_pos (ne_space_of_not_blank h)]
    simp

theorem trim_wordHeader {lang : String} (hlang : ∀ c ∈ lang.toList, ¬ isBlank c)
    {settings : Dict Json} (h : settings.AreWords) (hempty : lang = "" → settings = Dict.empty) :
    trim (wordHeader lang settings) = wordHeader lang settings := by
  by_cases hne : lang = ""
  · rw [hempty hne, wordHeader_empty, hne]
    rfl
  · have hrun : IsRun lang.toList := ⟨by simpa using hne, hlang⟩
    exact trim_unwords (List.forall_mem_cons.2 ⟨hrun, isRun_of_areWords h⟩)

-- Without words nothing is turned on.
theorem ofWords_of_unwords {settings : Dict Json} (h : settings.AreWords)
    (hnil : unwords settings.wordList = []) : ExampleSettings.ofWords settings = .default := by
  have hwords : settings.wordList = [] := by
    rw [← words_unwords (isRun_of_areWords h), hnil]
    rfl
  rw [eq_empty_of_wordList hwords]
  rfl

/-- A header of words has the settings that they turn on, and no fault. -/
theorem Header.readChars_wordHeader (room : Nat) {lang : String}
    (hlang : ∀ c ∈ lang.toList, ¬ isBlank c) {settings : Dict Json} (h : settings.AreWords)
    (hempty : lang = "" → settings = Dict.empty) :
    (readChars room (wordHeader lang settings)).settings = ExampleSettings.ofWords settings ∧
      (readChars room (wordHeader lang settings)).fault = none := by
  have hdrop := drop_wordHeader hlang settings
  unfold readChars
  rw [trim_wordHeader hlang h hempty]
  split
  · rename_i hnil
    rw [hnil] at hdrop
    exact ⟨(ofWords_of_unwords h hdrop.symm).symm, rfl⟩
  · rw [hdrop, trim_unwords (isRun_of_areWords h)]
    split
    · rename_i hnil
      exact ⟨(ofWords_of_unwords h hnil).symm, rfl⟩
    · rw [readModifiers_unwords room h]
      exact ⟨rfl, rfl⟩

end ComponentDocs
