import ComponentDocs.Proofs.Example.Header
import ComponentDocs.Proofs.Json.Refusal
import ComponentDocs.Proofs.Log

/-!
# What the modifiers of a header decide

Modifiers give members: each word one, or those that an object spells. They are refused when they
give none, or when the member of a flag means neither yes nor no: `readModifiers_eq_ok_iff` and
`ExampleSettings.exists_ofMembers_iff`. What that makes of a header is `Header.readChars_judged`.
-/

namespace ComponentDocs

open Text

/-! ## Settings of members -/

namespace ExampleSettings

/-- The members of the flags mean yes or no where they are there. -/
def LaxFlags (given : Dict Json) : Prop :=
  ∀ name ∈ flagNames, ∀ j, given.get? name = some j → ∃ b, j.toBool = .ok b

theorem exists_flag_iff {given : Dict Json} {name : String} :
    (∃ b, flag given name = .ok b) ↔ ∀ j, given.get? name = some j → ∃ b, j.toBool = .ok b := by
  unfold flag
  cases given.get? name with
  | none => simp
  | some j => simp

theorem ofMembers_eq_ok_iff {given : Dict Json} {s : ExampleSettings} :
    ofMembers given = .ok s ↔
      (∀ e ∈ s.flags, flag given e.1 = .ok e.2) ∧ s.extra = given.without flagNames := by
  obtain ⟨render, static, showcode, noeditor, extra⟩ := s
  unfold ofMembers
  simp only [bind_eq_ok_iff, flags, List.forall_mem_cons, List.not_mem_nil, IsEmpty.forall_iff,
    implies_true, and_true]
  constructor
  · rintro ⟨_, hrender, _, hstatic, _, hshowcode, _, hnoeditor, h⟩
    cases h
    exact ⟨⟨hrender, hstatic, hshowcode, hnoeditor⟩, rfl⟩
  · rintro ⟨⟨hrender, hstatic, hshowcode, hnoeditor⟩, rfl⟩
    exact ⟨_, hrender, _, hstatic, _, hshowcode, _, hnoeditor, rfl⟩

theorem exists_ofMembers_iff {given : Dict Json} :
    (∃ s, ofMembers given = .ok s) ↔ LaxFlags given := by
  constructor
  · rintro ⟨s, h⟩ name hname
    obtain ⟨e, he, rfl⟩ : ∃ e ∈ s.flags, e.1 = name := List.mem_map.1 hname
    exact exists_flag_iff.1 ⟨e.2, (ofMembers_eq_ok_iff.1 h).1 e he⟩
  · intro h
    have hflags : ∀ name ∈ flagNames, ∃ b, flag given name = .ok b :=
      fun name hname => exists_flag_iff.2 (h name hname)
    simp only [flagNames, List.forall_mem_cons] at hflags
    obtain ⟨⟨render, hrender⟩, ⟨static, hstatic⟩, ⟨showcode, hshowcode⟩,
      ⟨noeditor, hnoeditor⟩, -⟩ := hflags
    exact ⟨⟨render, static, showcode, noeditor, given.without flagNames⟩,
      ofMembers_eq_ok_iff.2 ⟨by simp [flags, *], rfl⟩⟩

theorem get?_members (s : ExampleSettings) (key : String) :
    s.members.get? key = (s.extra.get? key).or ((s.flags.lookup key).map .bool) := by
  have hnodup : (s.flags.map Prod.fst).Nodup := by simp [flags]
  rw [members, Dict.get?_merge, Dict.ofList_map, Dict.get?_map, Dict.ofList,
    Dict.get?_insertMany hnodup]
  congr 2
  exact Option.or_none

theorem exists_lookup_flags (s : ExampleSettings) {name : String} (h : name ∈ flagNames) :
    ∃ b, (name, b) ∈ s.flags ∧ s.flags.lookup name = some b := by
  simp only [flagNames, List.mem_cons, List.not_mem_nil, or_false] at h
  rcases h with rfl | rfl | rfl | rfl <;> exact ⟨_, by simp [flags], rfl⟩

/-- The member of a flag is kept as what it means, and every other one as it is. -/
theorem get?_members_of_ofMembers {given : Dict Json} {s : ExampleSettings}
    (h : ofMembers given = .ok s) {key : String} {j : Json} (hkey : given.get? key = some j) :
    (key ∉ flagNames → s.members.get? key = some j) ∧
      (key ∈ flagNames → ∃ b, j.toBool = .ok b ∧ s.members.get? key = some (.bool b)) := by
  obtain ⟨hflags, hextra⟩ := ofMembers_eq_ok_iff.1 h
  rw [get?_members, hextra, Dict.get?_without]
  constructor
  · intro hname
    rw [if_neg hname, hkey]
    rfl
  · intro hname
    obtain ⟨b, hmem, hlookup⟩ := s.exists_lookup_flags hname
    have hflag := hflags _ hmem
    simp only [flag, hkey] at hflag
    exact ⟨b, hflag, by rw [if_pos hname, hlookup]; rfl⟩

theorem render_iff_of_ofMembers {given : Dict Json} {s : ExampleSettings}
    (h : ofMembers given = .ok s) :
    s.render = true ↔ ∃ j, given.get? "render" = some j ∧ j.toBool = .ok true := by
  have hflag : flag given "render" = .ok s.render :=
    (ofMembers_eq_ok_iff.1 h).1 ("render", s.render) List.mem_cons_self
  unfold flag at hflag
  cases hget : given.get? "render" with
  | none =>
    rw [hget] at hflag
    simp [← Except.ok.inj hflag]
  | some j =>
    rw [hget] at hflag
    simp [hflag]

end ExampleSettings

/-! ## Members of modifiers -/

variable {room : Nat}

/-- Nothing but spaces and the characters of words. -/
def OnlyWords (modifiers : List Char) : Prop :=
  ∀ c ∈ modifiers, c = ' ' ∨ isWord c

theorem areWords_iff {modifiers : List Char} : areWords modifiers ↔ OnlyWords modifiers := by
  simp [areWords, OnlyWords]

/-- The members that modifiers give. -/
inductive Gives (room : Nat) (modifiers : List Char) : Dict Json → Prop
  /-- Every word gives one member. -/
  | words (h : OnlyWords modifiers) : Gives room modifiers (wordMembers modifiers)
  /-- An object gives its own. -/
  | object {members : List (String × Json)} (h : ¬ OnlyWords modifiers)
      (spelled : Json.readChars room modifiers = .ok (.obj members)) :
      Gives room modifiers (Dict.ofList members)

theorem get?_wordMembers (modifiers : List Char) (word : String) :
    (wordMembers modifiers).get? word =
      if word.toList ∈ words modifiers then some (.bool true) else none := by
  rw [wordMembers, Dict.get?_ofList_map]
  cases hfind : (words modifiers).reverse.find? fun found => String.ofList found = word with
  | none =>
    have hword : word.toList ∉ words modifiers := fun hmem => by
      simpa using List.find?_eq_none.1 hfind word.toList (List.mem_reverse.2 hmem)
    rw [if_neg hword]
    rfl
  | some found =>
    have hmem := List.mem_reverse.1 (List.mem_of_find?_eq_some hfind)
    obtain rfl : String.ofList found = word := by simpa using List.find?_some hfind
    rw [String.toList_ofList, if_pos hmem]
    rfl

-- What words give means yes, so words are never refused.
theorem laxFlags_wordMembers (modifiers : List Char) :
    ExampleSettings.LaxFlags (wordMembers modifiers) := by
  intro name _ j hj
  rw [get?_wordMembers] at hj
  split at hj
  · obtain rfl := Option.some.inj hj
    exact ⟨true, rfl⟩
  · cases hj

theorem render_iff_of_words {modifiers : List Char} {s : ExampleSettings}
    (h : ExampleSettings.ofMembers (wordMembers modifiers) = .ok s) :
    s.render = true ↔ "render".toList ∈ words modifiers := by
  rw [ExampleSettings.render_iff_of_ofMembers h, get?_wordMembers]
  split
  · rename_i hword
    exact ⟨fun _ => hword, fun _ => ⟨.bool true, rfl, rfl⟩⟩
  · rename_i hword
    exact ⟨fun ⟨_, hget, _⟩ => (nomatch hget), fun h => absurd h hword⟩

theorem get?_members_of_word {modifiers word : List Char} {s : ExampleSettings}
    (h : ExampleSettings.ofMembers (wordMembers modifiers) = .ok s)
    (hword : word ∈ words modifiers) :
    s.members.get? (String.ofList word) = some (.bool true) := by
  have hget : (wordMembers modifiers).get? (String.ofList word) = some (.bool true) := by
    rw [get?_wordMembers, String.toList_ofList, if_pos hword]
  obtain ⟨hother, hflag⟩ := ExampleSettings.get?_members_of_ofMembers h hget
  by_cases hname : String.ofList word ∈ ExampleSettings.flagNames
  · obtain ⟨b, hb, hkept⟩ := hflag hname
    rw [hkept, ← Except.ok.inj hb]
  · exact hother hname

theorem readSettings_eq_ok_iff {given : Dict Json} {s : ExampleSettings} :
    readSettings given = .ok s ↔ ExampleSettings.ofMembers given = .ok s := by
  unfold readSettings
  cases ExampleSettings.ofMembers given with
  | ok found => simp
  | error fault => simp

theorem readModifiers_eq_ok_iff {modifiers : List Char} {s : ExampleSettings} :
    readModifiers room modifiers = .ok s ↔
      ∃ given, Gives room modifiers given ∧ ExampleSettings.ofMembers given = .ok s := by
  unfold readModifiers
  constructor
  · intro h
    split at h
    · rename_i hwords
      exact ⟨_, .words (areWords_iff.1 hwords), readSettings_eq_ok_iff.1 h⟩
    · rename_i hwords
      split at h
      · rename_i hread
        exact ⟨_, .object (mt areWords_iff.2 hwords) hread, readSettings_eq_ok_iff.1 h⟩
      all_goals cases h
  · rintro ⟨given, hgives, h⟩
    cases hgives with
    | words hwords => rw [if_pos (areWords_iff.2 hwords), readSettings_eq_ok_iff.2 h]
    | object hwords hread =>
      rw [if_neg (mt areWords_iff.1 hwords), hread]
      exact readSettings_eq_ok_iff.2 h

theorem exists_readModifiers_iff {modifiers : List Char} :
    (∃ s, readModifiers room modifiers = .ok s) ↔
      OnlyWords modifiers ∨ ∃ members, Json.readChars room modifiers = .ok (.obj members) ∧
        ExampleSettings.LaxFlags (Dict.ofList members) := by
  have hgiven : (∃ s, readModifiers room modifiers = .ok s) ↔
      ∃ given, Gives room modifiers given ∧ ExampleSettings.LaxFlags given := by
    simp only [readModifiers_eq_ok_iff, ← ExampleSettings.exists_ofMembers_iff]
    exact ⟨fun ⟨s, given, hgives, h⟩ => ⟨given, hgives, s, h⟩,
      fun ⟨given, hgives, s, h⟩ => ⟨s, given, hgives, h⟩⟩
  rw [hgiven]
  constructor
  · rintro ⟨given, hgives, hlax⟩
    cases hgives with
    | words hwords => exact .inl hwords
    | object _ hread => exact .inr ⟨_, hread, hlax⟩
  · intro h
    by_cases hwords : OnlyWords modifiers
    · exact ⟨_, .words hwords, laxFlags_wordMembers modifiers⟩
    · obtain ⟨members, hread, hlax⟩ := h.resolve_left hwords
      exact ⟨_, .object hwords hread, hlax⟩

theorem readModifiers_eq_refused_iff {modifiers : List Char} {refusal : Json.Refusal} :
    readModifiers room modifiers = .error (.refused refusal) ↔
      ¬ OnlyWords modifiers ∧ Json.readChars room modifiers = .error (.refused refusal) := by
  have hsettings (given : Dict Json) : readSettings given ≠ .error (.refused refusal) := by
    unfold readSettings
    split <;> exact nofun
  unfold readModifiers
  rw [← areWords_iff]
  split
  · rename_i hwords
    exact ⟨fun h => absurd h (hsettings _), fun h => absurd hwords h.1⟩
  · rename_i hwords
    split <;> rename_i hread
    · simp [hread, hsettings]
    all_goals simp [hread, hwords]

theorem grounds_of_readModifiers {modifiers : List Char} {refusal : Json.Refusal}
    (h : readModifiers room modifiers = .error (.refused refusal)) :
    refusal.Grounds room modifiers :=
  Json.grounds_of_readChars (readModifiers_eq_refused_iff.1 h).2

/-! ## Headers -/

namespace Header

/-- A text is cut at its first space: the language before it, and the trimmed modifiers after it. -/
def CutAtSpace (text lang modifiers : List Char) : Prop :=
  ' ' ∉ lang ∧ (text = lang ∧ modifiers = [] ∨
    ∃ after, text = lang ++ ' ' :: after ∧ modifiers = trim after)

theorem cutAtSpace (text : List Char) :
    CutAtSpace text (text.takeWhile (· != ' ')) (trim ((text.dropWhile (· != ' ')).drop 1)) := by
  refine ⟨fun hmem => by simpa using List.mem_takeWhile_imp hmem, ?_⟩
  have hsplit := List.takeWhile_append_dropWhile (p := (· != ' ')) (l := text)
  cases hafter : text.dropWhile (· != ' ') with
  | nil =>
    rw [hafter, List.append_nil] at hsplit
    exact .inl ⟨hsplit.symm, rfl⟩
  | cons c after =>
    have hspace : c = ' ' := by
      have hhead := List.head?_dropWhile_not (· != ' ') text
      rw [hafter] at hhead
      simpa using hhead
    rw [hafter, hspace] at hsplit
    exact .inr ⟨after, hsplit.symm, rfl⟩

theorem CutAtSpace.infix_modifiers {text lang modifiers : List Char}
    (h : CutAtSpace text lang modifiers) : modifiers <:+: text := by
  obtain ⟨-, ⟨-, rfl⟩ | ⟨after, rfl, rfl⟩⟩ := h
  · exact List.nil_infix
  · have hafter : after <:+: lang ++ ' ' :: after := ⟨lang ++ [' '], [], by simp⟩
    exact (infix_trim after).trans hafter

-- A text that is trimmed starts with no space.
theorem takeWhile_trim_eq_nil_iff {header : List Char} :
    (trim header).takeWhile (· != ' ') = [] ↔ trim header = [] := by
  cases htrim : trim header with
  | nil => simp
  | cons c rest =>
    have hc : ¬ isBlank c := by
      have hleft := trimLeft_eq_self_iff.1 (trimLeft_trim header)
      rw [htrim] at hleft
      exact hleft c rfl
    have hspace : (c != ' ') = true := by
      rw [bne_iff_ne]
      rintro rfl
      exact hc rfl
    simp [hspace]

/-- A header has what comes of reading its modifiers. -/
inductive Follows (room : Nat) (h : Header) (modifiers : List Char) : Prop
  | ok {settings : ExampleSettings} (hread : readModifiers room modifiers = .ok settings)
    (hsettings : h.settings = settings) (hfault : h.fault = none)
  | error {fault : ModifierFault} (hread : readModifiers room modifiers = .error fault)
    (hsettings : h.settings = .default) (hfault : h.fault = some fault)

-- No modifiers are read as no words.
theorem exists_cut (room : Nat) (header : List Char) :
    ∃ lang modifiers, CutAtSpace (trim header) lang modifiers ∧
      (readChars room header).lang = (if lang = [] then none else some (String.ofList lang)) ∧
      (readChars room header).Follows room modifiers := by
  refine ⟨_, _, cutAtSpace (trim header), ?_⟩
  simp only [takeWhile_trim_eq_nil_iff]
  unfold readChars
  split
  · rename_i hnil
    rw [if_pos hnil, hnil]
    exact ⟨rfl, .ok rfl rfl rfl⟩
  · rename_i hne
    rw [if_neg hne]
    dsimp only
    split
    · rename_i hnil
      rw [hnil]
      exact ⟨rfl, .ok rfl rfl rfl⟩
    · cases hread : readModifiers room (trim (((trim header).dropWhile (· != ' ')).drop 1)) with
      | ok settings => exact ⟨rfl, .ok hread rfl rfl⟩
      | error fault => exact ⟨rfl, .error hread rfl rfl⟩

variable {lang modifiers : List Char} {h : Header}

theorem Follows.refusal?_eq_some_iff (hfollows : h.Follows room modifiers)
    {refusal : Json.Refusal} :
    h.refusal? = some refusal ↔ readModifiers room modifiers = .error (.refused refusal) := by
  unfold refusal?
  cases hfollows with
  | ok hread _ hfault => simp [hread, hfault]
  | @error fault hread _ hfault => cases fault <;> simp [hread, hfault]

/-- What a header comes to with a language and modifiers. -/
structure Judged (room : Nat) (lang modifiers : List Char) (h : Header) : Prop where
  lang : h.lang = if lang = [] then none else some (String.ofList lang)
  /-- Refused are modifiers that are neither words nor an object whose flags mean yes or no. -/
  error_iff : h.error?.isSome ↔ modifiers ≠ [] ∧ ¬ OnlyWords modifiers ∧
    ¬ ∃ members, Json.readChars room modifiers = .ok (.obj members) ∧
      ExampleSettings.LaxFlags (Dict.ofList members)
  refused : h.error?.isSome → h.settings = .default ∧ h.renders = false
  renders_iff : h.error? = none → (h.renders = true ↔
    OnlyWords modifiers ∧ "render".toList ∈ words modifiers ∨
      ¬ OnlyWords modifiers ∧ ∃ members j, Json.readChars room modifiers = .ok (.obj members) ∧
        (Dict.ofList members).get? "render" = some j ∧ j.toBool = .ok true)
  /-- Every word is kept as a setting that is on. -/
  words : h.error? = none → OnlyWords modifiers →
    ∀ word ∈ words modifiers, h.settings.members.get? (String.ofList word) = some (.bool true)
  /-- Every member of an object is kept: that of a flag as what it means, any other as it is. -/
  members : h.error? = none → ¬ OnlyWords modifiers →
    ∀ members, Json.readChars room modifiers = .ok (.obj members) →
      ∀ key j, (Dict.ofList members).get? key = some j →
        (key ∉ ExampleSettings.flagNames → h.settings.members.get? key = some j) ∧
          (key ∈ ExampleSettings.flagNames →
            ∃ b, j.toBool = .ok b ∧ h.settings.members.get? key = some (.bool b))

theorem judged_of_ok {settings : ExampleSettings}
    (hlang : h.lang = if lang = [] then none else some (String.ofList lang))
    (hread : readModifiers room modifiers = .ok settings) (hsettings : h.settings = settings)
    (hfault : h.fault = none) : Judged room lang modifiers h := by
  obtain ⟨given, hgives, hmembers⟩ := readModifiers_eq_ok_iff.1 hread
  have herror : h.error? = none := by rw [error?, hfault]; rfl
  have hrenders : h.renders = settings.render := by rw [renders, hfault, hsettings]; rfl
  constructor
  case lang => exact hlang
  case error_iff =>
    have haccepted := exists_readModifiers_iff.1 ⟨settings, hread⟩
    rw [herror]
    exact ⟨nofun, fun ⟨_, hwords, hobject⟩ => absurd haccepted (not_or.2 ⟨hwords, hobject⟩)⟩
  case refused =>
    rw [herror]
    exact nofun
  case renders_iff =>
    intro _
    rw [hrenders]
    cases hgives with
    | words hwords => simp [hwords, render_iff_of_words hmembers]
    | object hwords hread => simp [hwords, hread, ExampleSettings.render_iff_of_ofMembers hmembers]
  case words =>
    intro _ hwords word hword
    rw [hsettings]
    cases hgives with
    | words _ => exact get?_members_of_word hmembers hword
    | object hnot _ => exact absurd hwords hnot
  case members =>
    intro _ hnot members hmembers' key j hkey
    cases hgives with
    | words hwords => exact absurd hwords hnot
    | object _ hread' =>
      cases hmembers'.symm.trans hread'
      rw [hsettings]
      exact ExampleSettings.get?_members_of_ofMembers hmembers hkey

theorem judged_of_error {fault : ModifierFault}
    (hlang : h.lang = if lang = [] then none else some (String.ofList lang))
    (hread : readModifiers room modifiers = .error fault) (hsettings : h.settings = .default)
    (hfault : h.fault = some fault) : Judged room lang modifiers h := by
  have herror : h.error?.isSome := by rw [error?, hfault]; rfl
  have hrefused : ¬ ∃ s, readModifiers room modifiers = .ok s := by simp [hread]
  rw [exists_readModifiers_iff, not_or] at hrefused
  have hnone : h.error? ≠ none := Option.isSome_iff_ne_none.1 herror
  constructor
  case lang => exact hlang
  case error_iff =>
    refine ⟨fun _ => ⟨?_, hrefused⟩, fun _ => herror⟩
    rintro rfl
    exact hrefused.1 nofun
  case refused => exact fun _ => ⟨hsettings, by rw [renders, hfault]; rfl⟩
  case renders_iff => exact fun h => absurd h hnone
  case words => exact fun h => absurd h hnone
  case members => exact fun h => absurd h hnone

/-- A header is refused when its modifiers are, for an integer that is too long or for brackets that
are too deep. Any other header is read, and what it comes to is decided by its modifiers. -/
theorem readChars_judged (room : Nat) (header : List Char) :
    ∃ lang modifiers, CutAtSpace (trim header) lang modifiers ∧
      (∀ refusal, (readChars room header).refusal? = some refusal ↔
        ¬ OnlyWords modifiers ∧ Json.readChars room modifiers = .error (.refused refusal)) ∧
      (∀ refusal, (readChars room header).refusal? = some refusal →
        refusal.Grounds room modifiers) ∧
      ((readChars room header).refusal? = none →
        Judged room lang modifiers (readChars room header)) := by
  obtain ⟨lang, modifiers, hcut, hlang, hfollows⟩ := exists_cut room header
  refine ⟨lang, modifiers, hcut, fun refusal =>
    hfollows.refusal?_eq_some_iff.trans readModifiers_eq_refused_iff, fun refusal hrefusal =>
    grounds_of_readModifiers (hfollows.refusal?_eq_some_iff.1 hrefusal), fun _ => ?_⟩
  cases hfollows with
  | ok hread hsettings hfault => exact judged_of_ok hlang hread hsettings hfault
  | error hread hsettings hfault => exact judged_of_error hlang hread hsettings hfault

end Header

end ComponentDocs
