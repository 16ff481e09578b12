import ComponentDocs.Proofs.Tag.Comment
import ComponentDocs.Proofs.Tag.Parts

/-!
# Writing comments

A comment is written as its description and its tags, each tag from a line of its own. Reading
undoes writing for canonical comments, those whose parts can be told apart: `Comment.read_render`.
-/

namespace ComponentDocs

open Text

/-! ## Tags -/

namespace Tag

/-- The type of a tag in braces, if it has one. -/
def typePart (tag : Tag) : List Char :=
  match tag.type with
  | none => []
  | some type => ' ' :: '\x7b' :: type.toList ++ ['\x7d']

/-- The name of a tag, between brackets if it has a default. -/
def namePart (tag : Tag) : List Char :=
  match tag.name, tag.default with
  | none, _ => []
  | some name, none => ' ' :: name.toList
  | some name, some default => ' ' :: '[' :: (name.toList ++ '=' :: default.toList) ++ [']']

/-- The description of a tag after a dash, unless it is empty. -/
def textPart (tag : Tag) : List Char :=
  if tag.description = "" then [] else ' ' :: '-' :: ' ' :: tag.description.toList

/-- What stands after the title. -/
def restPart (tag : Tag) : List Char :=
  match TagForm.ofTitle tag.title with
  | .verbatim => if tag.description = "" then [] else '\n' :: tag.description.toList
  | .parameter => tag.typePart ++ (tag.namePart ++ tag.textPart)
  | .result => tag.typePart ++ tag.textPart
  | .plain => ' ' :: tag.description.toList

/-- A tag as text. -/
def render (tag : Tag) : List Char :=
  '@' :: tag.title.toList ++ tag.restPart

end Tag

/-- A comment as text: the description, and each tag on a new line. -/
def Comment.render (c : Comment) : String :=
  String.ofList (unlines (c.description.toList :: c.tags.map Tag.render))

/-- Lines that can be read on their own: their fence marks come in pairs, and none of them outside
code is a tag line. -/
structure ClosedLines (ls : List (List Char)) : Prop where
  marks : ls.countP hasFenceMark % 2 = 0
  tagFree : TagFree false ls

/-- A type that stands between braces on one line. -/
structure CanonicalType (type : List Char) : Prop where
  line : '\n' ∉ type
  trimmed : trim type = type
  balanced : Balanced type

/-- A default that stands between brackets on one line. -/
structure CanonicalDefault (default : List Char) : Prop where
  line : '\n' ∉ default
  trimmed : trim default = default
  nonempty : default ≠ []
  bracket : ']' ∉ default

/-- A tag whose parts can be told apart when it is written. Only tags that document a parameter have
a name, and all of them do; only those and the ones that document a result have a type. -/
structure Tag.Canonical (tag : Tag) : Prop where
  title : tag.title.toList ≠ [] ∧ ∀ c ∈ tag.title.toList, isWord c
  type : ∀ type ∈ tag.type, CanonicalType type.toList
  typed : tag.type.isSome →
    TagForm.ofTitle tag.title = .parameter ∨ TagForm.ofTitle tag.title = .result
  name : ∀ name ∈ tag.name, isName name.toList
  named : tag.name.isSome ↔ TagForm.ofTitle tag.title = .parameter
  default : ∀ default ∈ tag.default, CanonicalDefault default.toList
  defaulted : tag.default.isSome → ∃ name ∈ tag.name, '[' ∉ name.toList
  text :
    if TagForm.ofTitle tag.title = .verbatim then
      trimRight tag.description.toList = tag.description.toList ∧
        ClosedLines (lines tag.description.toList)
    else
      trim tag.description.toList = tag.description.toList ∧
        ClosedLines (lines tag.description.toList).tail

/-- A comment whose parts can be told apart when it is written. -/
structure Comment.Canonical (c : Comment) : Prop where
  trimmed : trim c.description.toList = c.description.toList
  closed : ClosedLines (lines c.description.toList)
  tags : ∀ tag ∈ c.tags, tag.Canonical

instance (ls : List (List Char)) : Decidable (ClosedLines ls) :=
  decidable_of_iff (ls.countP hasFenceMark % 2 = 0 ∧ TagFree false ls)
    ⟨fun h => ⟨h.1, h.2⟩, fun h => ⟨h.1, h.2⟩⟩

instance (type : List Char) : Decidable (CanonicalType type) :=
  decidable_of_iff ('\n' ∉ type ∧ trim type = type ∧ Balanced type)
    ⟨fun h => ⟨h.1, h.2.1, h.2.2⟩, fun h => ⟨h.1, h.2, h.3⟩⟩

instance (default : List Char) : Decidable (CanonicalDefault default) :=
  decidable_of_iff ('\n' ∉ default ∧ trim default = default ∧ default ≠ [] ∧ ']' ∉ default)
    ⟨fun h => ⟨h.1, h.2.1, h.2.2.1, h.2.2.2⟩, fun h => ⟨h.1, h.2, h.3, h.4⟩⟩

instance (tag : Tag) : Decidable tag.Canonical :=
  decidable_of_iff
    ((tag.title.toList ≠ [] ∧ tag.title.toList.all isWord) ∧
      (∀ type ∈ tag.type, CanonicalType type.toList) ∧
      (tag.type.isSome →
        TagForm.ofTitle tag.title = .parameter ∨ TagForm.ofTitle tag.title = .result) ∧
      (∀ name ∈ tag.name, isName name.toList) ∧
      (tag.name.isSome ↔ TagForm.ofTitle tag.title = .parameter) ∧
      (∀ default ∈ tag.default, CanonicalDefault default.toList) ∧
      (tag.default.isSome → ∃ name ∈ tag.name, '[' ∉ name.toList) ∧
      if TagForm.ofTitle tag.title = .verbatim then
        trimRight tag.description.toList = tag.description.toList ∧
          ClosedLines (lines tag.description.toList)
      else
        trim tag.description.toList = tag.description.toList ∧
          ClosedLines (lines tag.description.toList).tail)
    ⟨fun ⟨⟨hne, hword⟩, h₂, h₃, h₄, h₅, h₆, h₇, h₈⟩ =>
        ⟨⟨hne, List.all_eq_true.1 hword⟩, h₂, h₃, h₄, h₅, h₆, h₇, h₈⟩,
      fun ⟨⟨hne, hword⟩, h₂, h₃, h₄, h₅, h₆, h₇, h₈⟩ =>
        ⟨⟨hne, List.all_eq_true.2 hword⟩, h₂, h₃, h₄, h₅, h₆, h₇, h₈⟩⟩

instance (c : Comment) : Decidable c.Canonical :=
  decidable_of_iff (trim c.description.toList = c.description.toList ∧
    ClosedLines (lines c.description.toList) ∧ ∀ tag ∈ c.tags, tag.Canonical)
    ⟨fun h => ⟨h.1, h.2.1, h.2.2⟩, fun h => ⟨h.1, h.2, h.3⟩⟩

/-! ## Reading one tag -/

theorem Tag.takeType_typePart {tag : Tag} (h : ∀ type ∈ tag.type, CanonicalType type.toList)
    {after : List Char} (hafter : ∀ c ∈ (trimLeft after).head?, c ≠ '\x7b') :
    ∃ rest, takeType (tag.typePart ++ after) = .ok (tag.type.map String.toList, rest) ∧
      trimLeft rest = trimLeft after := by
  unfold typePart
  cases htype : tag.type with
  | none => exact ⟨trimLeft after, takeType_of_head? hafter, trimLeft_trimLeft after⟩
  | some type =>
    obtain ⟨-, htrim, hbalanced⟩ := h type htype
    refine ⟨after, takeType_of_balanced hbalanced htrim ?_, rfl⟩
    change trimLeft (' ' :: '\x7b' :: (type.toList ++ ['\x7d'] ++ after)) = _
    rw [trimLeft_cons_of_blank (by decide), trimLeft_cons_of_not_blank (by decide),
      List.append_assoc]
    rfl

theorem Tag.trimLeft_textPart {tag : Tag} (hne : tag.description ≠ "") :
    trimLeft tag.textPart = '-' :: ' ' :: tag.description.toList := by
  rw [textPart, if_neg hne, trimLeft_cons_of_blank (by decide),
    trimLeft_cons_of_not_blank (by decide)]

theorem Tag.cleanText_textPart {tag : Tag} (htrim : trim tag.description.toList =
    tag.description.toList) {rest : List Char} (hrest : trimLeft rest = trimLeft tag.textPart) :
    cleanText rest = tag.description.toList := by
  by_cases hempty : tag.description = ""
  · rw [textPart, if_pos hempty] at hrest
    have hnil : trim rest = [] := by
      rw [trim, hrest]
      rfl
    rw [cleanText, hnil, hempty]
    rfl
  · rw [trimLeft_textPart hempty] at hrest
    have hne : tag.description.toList ≠ [] := by simpa using hempty
    exact cleanText_of_dash hne htrim hrest

theorem Tag.head?_textPart (tag : Tag) : ∀ c ∈ tag.textPart.head?, c = ' ' := by
  unfold textPart
  by_cases hempty : tag.description = ""
  · rw [if_pos hempty]
    exact fun c hc => by cases hc
  · rw [if_neg hempty]
    exact fun c hc => (Option.some.inj hc).symm

theorem Tag.trimLeft_namePart {tag : Tag} {name : String} (hname : tag.name = some name)
    (hisName : isName name.toList) (after : List Char) :
    trimLeft (tag.namePart ++ after) =
      match tag.default with
      | none => name.toList ++ after
      | some default => '[' :: (name.toList ++ '=' :: default.toList) ++ ']' :: after := by
  unfold namePart
  rw [hname]
  cases tag.default with
  | none =>
    obtain ⟨c, r, hcons, hc⟩ := exists_cons_of_isName hisName
    have hblank : ¬ isBlank c := not_isBlank_of_isNameChar (by rw [hc, Bool.true_or])
    change trimLeft (' ' :: (name.toList ++ after)) = name.toList ++ after
    rw [trimLeft_cons_of_blank (by decide), hcons, List.cons_append,
      trimLeft_cons_of_not_blank hblank]
  | some default =>
    change trimLeft (' ' :: '[' :: ((name.toList ++ '=' :: default.toList) ++ [']'] ++ after)) = _
    rw [trimLeft_cons_of_blank (by decide), trimLeft_cons_of_not_blank (by decide),
      List.append_assoc]
    rfl

-- The name of a tag is read, with its default in sloppy mode.
theorem Tag.readName_namePart {tag : Tag} (h : tag.Canonical) {name : String}
    (hname : tag.name = some name) {sloppy : Bool} (hsloppy : sloppy ∨ tag.default = none)
    {rest : List Char} (hrest : trimLeft rest = trimLeft (tag.namePart ++ tag.textPart)) :
    readName tag.title sloppy rest =
      .ok ⟨name.toList, tag.default.map String.toList, tag.textPart⟩ := by
  have hisName := h.name name hname
  rw [trimLeft_namePart hname hisName] at hrest
  cases hdefault : tag.default with
  | none =>
    rw [hdefault] at hrest
    have hends : ∀ c ∈ tag.textPart.head?, EndsName c := by
      intro c hc
      rw [head?_textPart tag c hc]
      exact ⟨by decide, by decide, by decide⟩
    exact readName_of_isName tag.title sloppy hisName hends hrest
  | some default =>
    rw [hdefault] at hrest
    obtain ⟨-, htrim, hne, hbracket⟩ := h.default default hdefault
    obtain ⟨name', hname', hopen⟩ := h.defaulted (by rw [hdefault]; rfl)
    rw [hname] at hname'
    obtain rfl := Option.some.inj hname'
    obtain rfl : sloppy = true := by
      rcases hsloppy with hsloppy | hnone
      · exact hsloppy
      · rw [hdefault] at hnone
        cases hnone
    exact readName_of_default tag.title hisName hopen hne htrim hbracket hrest

theorem Tag.head?_namePart {tag : Tag} {name : String} (hname : tag.name = some name)
    (hisName : isName name.toList) (after : List Char) :
    ∀ c ∈ (trimLeft (tag.namePart ++ after)).head?, c ≠ '\x7b' := by
  rw [trimLeft_namePart hname hisName]
  cases tag.default with
  | none =>
    obtain ⟨c, r, hcons, hc⟩ := exists_cons_of_isName hisName
    intro d hd
    rw [hcons] at hd
    obtain rfl := Option.some.inj hd
    rintro rfl
    exact absurd hc (by decide)
  | some default =>
    intro d hd
    obtain rfl := Option.some.inj hd
    decide

theorem map_ofList_map_toList (s : Option String) :
    (s.map String.toList).map String.ofList = s := by
  cases s with
  | none => rfl
  | some t => simp only [Option.map_some, String.ofList_toList]

theorem Tag.Canonical.name_eq_none {tag : Tag} (h : tag.Canonical)
    (hform : TagForm.ofTitle tag.title ≠ .parameter) : tag.name = none ∧ tag.default = none := by
  have hname : tag.name = none := by
    cases hname : tag.name with
    | none => rfl
    | some name => exact absurd (h.named.1 (by rw [hname]; rfl)) hform
  refine ⟨hname, ?_⟩
  cases hdefault : tag.default with
  | none => rfl
  | some default =>
    obtain ⟨name, hmem, -⟩ := h.defaulted (by rw [hdefault]; rfl)
    rw [hname] at hmem
    cases hmem

theorem Tag.Canonical.type_eq_none {tag : Tag} (h : tag.Canonical)
    (hparameter : TagForm.ofTitle tag.title ≠ .parameter)
    (hresult : TagForm.ofTitle tag.title ≠ .result) : tag.type = none := by
  cases htype : tag.type with
  | none => rfl
  | some type =>
    rcases h.typed (by rw [htype]; rfl) with hform | hform
    · exact absurd hform hparameter
    · exact absurd hform hresult

theorem Tag.Canonical.trim_description {tag : Tag} (h : tag.Canonical)
    (hform : TagForm.ofTitle tag.title ≠ .verbatim) :
    trim tag.description.toList = tag.description.toList := by
  have htext := h.text
  rw [if_neg hform] at htext
  exact htext.1

theorem Tag.mk_eq {tag : Tag} {name type default : Option String} (hname : tag.name = name)
    (htype : tag.type = type) (hdefault : tag.default = default) :
    (⟨tag.title, tag.description, name, type, default⟩ : Tag) = tag := by
  rw [← hname, ← htype, ← hdefault]

theorem Tag.tagOfLines_of_verbatim {tag : Tag} (h : tag.Canonical)
    (hform : TagForm.ofTitle tag.title = .verbatim) (sloppy : Bool) {first : List Char}
    {after : List (List Char)} (hlines : lines tag.restPart = first :: after) :
    tagOfLines sloppy tag.title first after = .ok tag := by
  obtain ⟨hname, hdefault⟩ := h.name_eq_none (by rw [hform]; decide)
  have htype := h.type_eq_none (by rw [hform]; decide) (by rw [hform]; decide)
  have htrim : trimRight tag.description.toList = tag.description.toList := by
    have htext := h.text
    rw [if_pos hform] at htext
    exact htext.1
  have hread : verbatimText first after = tag.description.toList := by
    unfold restPart at hlines
    simp only [hform] at hlines
    by_cases hempty : tag.description = ""
    · rw [if_pos hempty] at hlines
      obtain ⟨rfl, rfl⟩ := List.cons.inj hlines
      rw [hempty]
      rfl
    · rw [if_neg hempty, lines_cons_newline] at hlines
      obtain ⟨rfl, rfl⟩ := List.cons.inj hlines
      change trimRight (unlines (lines tag.description.toList)) = _
      rw [unlines_lines, htrim]
  unfold tagOfLines
  simp only [hform]
  rw [hread, String.ofList_toList, mk_eq hname htype hdefault]

theorem Tag.tagOfLines_of_plain {tag : Tag} (h : tag.Canonical)
    (hform : TagForm.ofTitle tag.title = .plain) (sloppy : Bool) {first : List Char}
    {after : List (List Char)} (hlines : unlines (first :: after) = tag.restPart) :
    tagOfLines sloppy tag.title first after = .ok tag := by
  obtain ⟨hname, hdefault⟩ := h.name_eq_none (by rw [hform]; decide)
  have htype := h.type_eq_none (by rw [hform]; decide) (by rw [hform]; decide)
  have htrim := h.trim_description (by rw [hform]; decide)
  unfold restPart at hlines
  unfold tagOfLines
  simp only [hform] at hlines ⊢
  rw [hlines, trim_cons_of_blank (by decide), htrim, String.ofList_toList,
    mk_eq hname htype hdefault]

theorem Tag.tagOfLines_of_result {tag : Tag} (h : tag.Canonical)
    (hform : TagForm.ofTitle tag.title = .result) (sloppy : Bool) {first : List Char}
    {after : List (List Char)} (hlines : unlines (first :: after) = tag.restPart) :
    tagOfLines sloppy tag.title first after = .ok tag := by
  obtain ⟨hname, hdefault⟩ := h.name_eq_none (by rw [hform]; decide)
  have htrim := h.trim_description (by rw [hform]; decide)
  unfold restPart at hlines
  unfold tagOfLines
  simp only [hform] at hlines ⊢
  have hbrace : ∀ c ∈ (trimLeft tag.textPart).head?, c ≠ '\x7b' := by
    by_cases hempty : tag.description = ""
    · rw [textPart, if_pos hempty]
      exact fun c hc => by cases hc
    · rw [trimLeft_textPart hempty]
      exact fun c hc => by
        obtain rfl := Option.some.inj hc
        decide
  obtain ⟨rest, htake, hrest⟩ := takeType_typePart h.type hbrace
  rw [hlines, bind_eq_ok_iff]
  refine ⟨_, htake, ?_⟩
  rw [cleanText_textPart htrim hrest]
  simp only [map_ofList_map_toList, String.ofList_toList]
  rw [mk_eq hname rfl hdefault]
  rfl

theorem Tag.tagOfLines_of_parameter {tag : Tag} (h : tag.Canonical)
    (hform : TagForm.ofTitle tag.title = .parameter) {sloppy : Bool}
    (hsloppy : sloppy ∨ tag.default = none) {first : List Char} {after : List (List Char)}
    (hlines : unlines (first :: after) = tag.restPart) :
    tagOfLines sloppy tag.title first after = .ok tag := by
  obtain ⟨name, hname⟩ := Option.isSome_iff_exists.1 (h.named.2 hform)
  have htrim := h.trim_description (by rw [hform]; decide)
  unfold restPart at hlines
  unfold tagOfLines
  simp only [hform] at hlines ⊢
  obtain ⟨rest, htake, hrest⟩ :=
    takeType_typePart h.type (head?_namePart hname (h.name name hname) tag.textPart)
  rw [hlines, bind_eq_ok_iff]
  refine ⟨_, htake, ?_⟩
  rw [bind_eq_ok_iff]
  refine ⟨_, readName_namePart h hname hsloppy hrest, ?_⟩
  rw [cleanText_textPart htrim rfl]
  simp only [map_ofList_map_toList, String.ofList_toList]
  rw [mk_eq hname rfl rfl]
  rfl

-- A tag is read from the lines of what stands after its title.
theorem Tag.tagOfLines_restPart {tag : Tag} (h : tag.Canonical) {sloppy : Bool}
    (hsloppy : sloppy ∨ tag.default = none) {first : List Char} {after : List (List Char)}
    (hlines : lines tag.restPart = first :: after) :
    tagOfLines sloppy tag.title first after = .ok tag := by
  have hunlines : unlines (first :: after) = tag.restPart := by rw [← hlines, unlines_lines]
  cases hform : TagForm.ofTitle tag.title with
  | verbatim => exact tagOfLines_of_verbatim h hform sloppy hlines
  | parameter => exact tagOfLines_of_parameter h hform hsloppy hunlines
  | result => exact tagOfLines_of_result h hform sloppy hunlines
  | plain => exact tagOfLines_of_plain h hform sloppy hunlines

/-! ## The lines of one tag -/

theorem fenceAfter_of_closed {ls : List (List Char)} (h : ClosedLines ls) :
    fenceAfter false ls = false := by
  rw [fenceAfter_eq, h.marks]
  rfl

theorem Tag.exists_textPart_eq (tag : Tag) :
    ∃ dash, '\n' ∉ dash ∧ tag.textPart = dash ++ tag.description.toList := by
  unfold textPart
  by_cases hempty : tag.description = ""
  · rw [if_pos hempty, hempty]
    exact ⟨[], List.not_mem_nil, rfl⟩
  · rw [if_neg hempty]
    exact ⟨[' ', '-', ' '], by decide, rfl⟩

theorem Tag.newline_not_mem_typePart {tag : Tag} (h : tag.Canonical) : '\n' ∉ tag.typePart := by
  unfold typePart
  cases htype : tag.type with
  | none => exact List.not_mem_nil
  | some type => simpa using (h.type type htype).line

theorem Tag.newline_not_mem_namePart {tag : Tag} (h : tag.Canonical) : '\n' ∉ tag.namePart := by
  unfold namePart
  cases hname : tag.name with
  | none => exact List.not_mem_nil
  | some name =>
    have hline := newline_not_mem_of_isName (h.name name hname)
    cases hdefault : tag.default with
    | none => simpa using hline
    | some default => simpa using ⟨hline, (h.default default hdefault).line⟩

-- Before the description of a tag no line ends, unless it is kept as it is.
theorem Tag.exists_restPart_eq {tag : Tag} (h : tag.Canonical)
    (hform : TagForm.ofTitle tag.title ≠ .verbatim) :
    ∃ front, '\n' ∉ front ∧ tag.restPart = front ++ tag.description.toList := by
  have htype := newline_not_mem_typePart h
  have hname := newline_not_mem_namePart h
  obtain ⟨dash, hdash, htext⟩ := tag.exists_textPart_eq
  unfold restPart
  rw [htext]
  cases hcase : TagForm.ofTitle tag.title with
  | verbatim => exact absurd hcase hform
  | parameter =>
    refine ⟨tag.typePart ++ (tag.namePart ++ dash), ?_, ?_⟩
    · simp [htype, hname, hdash]
    · simp
  | result =>
    refine ⟨tag.typePart ++ dash, ?_, ?_⟩
    · simp [htype, hdash]
    · simp
  | plain => exact ⟨[' '], by decide, rfl⟩

theorem Tag.closedLines_restPart {tag : Tag} (h : tag.Canonical) {first : List Char}
    {after : List (List Char)} (hlines : lines tag.restPart = first :: after) :
    ClosedLines after := by
  have htext := h.text
  by_cases hform : TagForm.ofTitle tag.title = .verbatim
  · rw [if_pos hform] at htext
    unfold restPart at hlines
    simp only [hform] at hlines
    by_cases hempty : tag.description = ""
    · rw [if_pos hempty] at hlines
      obtain ⟨-, rfl⟩ := List.cons.inj hlines
      exact ⟨rfl, trivial⟩
    · rw [if_neg hempty, lines_cons_newline] at hlines
      obtain ⟨-, rfl⟩ := List.cons.inj hlines
      exact htext.2
  · rw [if_neg hform] at htext
    obtain ⟨front, hfront, hrest⟩ := exists_restPart_eq h hform
    obtain ⟨line, others, hdescription⟩ := exists_lines_eq_cons tag.description.toList
    rw [hrest, lines_append_of_newline_not_mem hfront hdescription] at hlines
    obtain ⟨-, rfl⟩ := List.cons.inj hlines
    rw [hdescription] at htext
    exact htext.2

theorem Tag.head?_restPart (tag : Tag) : ∀ c ∈ tag.restPart.head?, isWord c = false := by
  have hspace : isWord ' ' = false := by decide
  have hnewline : isWord '\n' = false := by decide
  have htext : ∀ c ∈ tag.textPart.head?, isWord c = false := by
    intro c hc
    rw [head?_textPart tag c hc, hspace]
  have hname : ∀ c ∈ (tag.namePart ++ tag.textPart).head?, isWord c = false := by
    unfold namePart
    cases tag.name with
    | none => exact htext
    | some name => cases tag.default <;> simpa using hspace
  unfold restPart
  cases TagForm.ofTitle tag.title with
  | verbatim => by_cases hempty : tag.description = "" <;> simp [hempty, hnewline]
  | parameter =>
    unfold typePart
    cases tag.type with
    | none => exact hname
    | some type => simpa using hspace
  | result =>
    unfold typePart
    cases tag.type with
    | none => exact htext
    | some type => simpa using hspace
  | plain => simpa using hspace

-- A tag is written as a tag line and lines that can be read on their own.
theorem Tag.exists_lines_render {tag : Tag} (h : tag.Canonical) {sloppy : Bool}
    (hsloppy : sloppy ∨ tag.default = none) :
    ∃ line first after, lines tag.render = line :: after ∧ hasFenceMark line = false ∧
      titled? line = some (tag.title.toList, first) ∧ ClosedLines after ∧
      tagOfLines sloppy tag.title first after = .ok tag := by
  obtain ⟨first, after, hlines⟩ := exists_lines_eq_cons tag.restPart
  obtain ⟨hne, hword⟩ := h.title
  have hnewline : '\n' ∉ '@' :: tag.title.toList := by
    intro hmem
    rcases List.mem_cons.1 hmem with hmem | hmem
    · exact absurd hmem (by decide)
    · exact absurd (hword _ hmem) (by decide)
  have hat : ¬ isBlank '@' := by decide
  refine ⟨'@' :: tag.title.toList ++ first, first, after,
    lines_append_of_newline_not_mem hnewline hlines, ?_, ?_, closedLines_restPart h hlines,
    tagOfLines_restPart h hsloppy hlines⟩
  · rw [hasFenceMark, List.cons_append, trimLeft_cons_of_not_blank hat]
    rfl
  · rw [titled?, List.cons_append, trimLeft_cons_of_not_blank hat, marker?_eq_some_iff]
    exact ⟨rfl, hne, hword, fun c hc => tag.head?_restPart c (head?_of_lines hlines c hc)⟩

/-! ## Reading a comment -/

-- Tags one after another are the sections of their lines.
theorem sections_render {tags : List Tag} {sloppy : Bool} (h : ∀ tag ∈ tags, tag.Canonical)
    (hsloppy : ∀ tag ∈ tags, sloppy ∨ tag.default = none) (number : Nat) :
    ∃ found, sections CommentLine.tagLine?
        (commentLinesFrom number false (tags.flatMap fun tag => lines tag.render)) = ([], found) ∧
      List.Forall₂ (fun s tag => s.1.read sloppy s.2 = .ok tag) found tags := by
  induction tags generalizing number with
  | nil => exact ⟨[], rfl, .nil⟩
  | cons tag rest ih =>
    -- the lines of a tag are closed, so the next tag starts outside code again
    rw [List.forall_mem_cons] at h hsloppy
    obtain ⟨line, first, after, hlines, hmark, htitle, hclosed, hread⟩ :=
      Tag.exists_lines_render h.1 hsloppy.1
    obtain ⟨found, hfound, hall⟩ := ih h.2 hsloppy.2 (number + (line :: after).length)
    have hstate : fenceAfter false (line :: after) = false := by
      rw [fenceAfter_cons, hmark]
      exact fenceAfter_of_closed hclosed
    have hline : CommentLine.tagLine? ⟨number, false, line⟩ =
        some ⟨number, tag.title.toList, first⟩ := by
      rw [CommentLine.tagLine?, htitle]
      rfl
    refine ⟨(⟨number, tag.title.toList, first⟩, commentLinesFrom (number + 1) false after) :: found,
      ?_, .cons ?_ hall⟩
    · rw [List.flatMap_cons, hlines, commentLinesFrom_append, hstate, commentLinesFrom, hmark,
        bne_self_eq_false, sections_section_append hline (tagFree_iff.1 hclosed.tagFree), hfound,
        List.append_nil]
    · rw [TagLine.read_eq_ok_iff, map_text_commentLinesFrom, String.ofList_toList]
      exact hread

/-- A canonical comment is read back from its text. Defaults are read in sloppy mode only. -/
theorem Comment.read_render {c : Comment} (h : c.Canonical) {sloppy : Bool}
    (hsloppy : ∀ tag ∈ c.tags, sloppy ∨ tag.default = none) :
    Comment.read sloppy c.render = .ok c := by
  have hlines : lines c.render.toList =
      lines c.description.toList ++ c.tags.flatMap fun tag => lines tag.render := by
    rw [render, String.toList_ofList, lines_unlines_eq_flatMap (List.cons_ne_nil _ _),
      List.flatMap_cons, List.flatMap_map]
  obtain ⟨found, hfound, hall⟩ :=
    sections_render h.tags hsloppy (1 + (lines c.description.toList).length)
  have hsections : commentSections c.render.toList =
      (commentLinesFrom 1 false (lines c.description.toList), found) := by
    rw [commentSections, commentLines_eq, hlines, commentLinesFrom_append,
      fenceAfter_of_closed h.closed, sections_append_of_none (tagFree_iff.1 h.closed.tagFree),
      hfound, List.append_nil]
  rw [Comment.read_eq_ok_iff, hsections]
  refine ⟨mapM_eq_ok_iff.2 hall, ?_⟩
  rw [map_text_commentLinesFrom, unlines_lines, h.trimmed, String.ofList_toList]

/-- A comment with tags of every form. -/
def documentedComment : Comment :=
  ⟨"Focus the input.", [
    ⟨"param", "Where to\nstart", some "range[].start", some "\x7bfrom: \x7b\x7d\x7d", none⟩,
    ⟨"param", "", some "select", some "boolean", some "false"⟩,
    ⟨"returns", "- or not", none, none, none⟩,
    ⟨"example", "\x60\x60\x60\n@focus\n\x60\x60\x60", none, none, none⟩,
    ⟨"see", "Input", none, none, none⟩]⟩

example : documentedComment.render =
    "Focus the input.\n" ++
    "@param \x7b\x7bfrom: \x7b\x7d\x7d\x7d range[].start - Where to\nstart\n" ++
    "@param \x7bboolean\x7d [select=false]\n" ++
    "@returns - - or not\n" ++
    "@example\n\x60\x60\x60\n@focus\n\x60\x60\x60\n" ++
    "@see Input" := by
  decide +kernel

theorem Comment.read_render_documentedComment :
    documentedComment.Canonical ∧ (∀ tag ∈ documentedComment.tags, true ∨ tag.default = none) ∧
      Comment.read true documentedComment.render = .ok documentedComment := by
  have hcanonical : documentedComment.Canonical := by decide +kernel
  have hsloppy : ∀ tag ∈ documentedComment.tags, true ∨ tag.default = none :=
    fun _ _ => .inl rfl
  exact ⟨hcanonical, hsloppy, Comment.read_render hcanonical hsloppy⟩

end ComponentDocs
