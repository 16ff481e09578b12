import ComponentDocs.Json.Printer
import ComponentDocs.Json.Reader.Quote
import ComponentDocs.Json.Reader.Scalar
import ComponentDocs.Proofs.Decimal.Number

/-!
# The texts of documents

What is written for a value is one document and nothing else, whatever the value and its
indentation: `isDocument_render`. The grammar is that of the reader, which takes three more words
than JSON has.
-/

namespace ComponentDocs.Json

/-! ## The grammar -/

/-- White space between the parts of a document. -/
def IsGap (s : List Char) : Prop :=
  ∀ c ∈ s, isSpace c

/-- What may stand between the quotes of a string. -/
inductive IsStringBody : List Char → Prop
  | nil : IsStringBody []
  | plain {c : Char} {s : List Char} (hcontrol : 32 ≤ c.toNat) (hquote : c ≠ '"')
    (hslash : c ≠ '\\') (hs : IsStringBody s) : IsStringBody (c :: s)
  | short {c : Char} {s : List Char} (hescape : (shortEscape? c).isSome) (hs : IsStringBody s) :
    IsStringBody ('\\' :: c :: s)
  | unit {digits s : List Char} (hlength : digits.length = 4)
    (hdigits : ∀ c ∈ digits, (hexValue? c).isSome) (hs : IsStringBody s) :
    IsStringBody ('\\' :: 'u' :: digits ++ s)

def IsString (s : List Char) : Prop :=
  ∃ body, s = '"' :: body ++ ['"'] ∧ IsStringBody body

/-- The name of a member, with white space before it. -/
def IsName (s : List Char) : Prop :=
  ∃ gap name, s = gap ++ name ∧ IsGap gap ∧ IsString name

/-- The text of one document. -/
inductive IsDocument : List Char → Prop
  | word {s : List Char} (h : s ∈ words.map Prod.fst) : IsDocument s
  | number {s : List Char} (h : Decimal.IsNumber s) : IsDocument s
  | string {s : List Char} (h : IsString s) : IsDocument s
  | array {items : List (List Char)} {gap : List Char} (hitems : ∀ item ∈ items, IsDocument item)
    (hgap : IsGap gap) : IsDocument ('[' :: [','].intercalate items ++ gap ++ [']'])
  | object {members : List (List Char × List Char)} {gap : List Char}
    (hnames : ∀ m ∈ members, IsName m.1) (hvalues : ∀ m ∈ members, IsDocument m.2)
    (hgap : IsGap gap) :
    IsDocument ('\x7b' :: [','].intercalate (members.map fun m => m.1 ++ ':' :: m.2) ++ gap ++
      ['\x7d'])
  | spaced {gap s : List Char} (hgap : IsGap gap) (hs : IsDocument s) : IsDocument (gap ++ s)

/-! ## Strings -/

theorem hexValue?_hexDigit (n : Nat) : (hexValue? (Text.hexDigit (n % 16))).isSome := by
  have hall : ∀ m < 16, (hexValue? (Text.hexDigit m)).isSome := by decide
  exact hall (n % 16) (Nat.mod_lt n (by decide))

theorem IsStringBody.unitEscape_append {s : List Char} (hs : IsStringBody s) (n : Nat) :
    IsStringBody (unitEscape n ++ s) := by
  have hhex : ∀ c ∈ Text.hex 4 n, (hexValue? c).isSome := by
    simp only [Text.hex, List.nil_append, List.cons_append, List.forall_mem_cons]
    exact ⟨hexValue?_hexDigit _, hexValue?_hexDigit _, hexValue?_hexDigit _, hexValue?_hexDigit _,
      fun c hc => absurd hc List.not_mem_nil⟩
  exact .unit rfl hhex hs

theorem IsStringBody.escapedChar_append {s : List Char} (hs : IsStringBody s) (c : Char) :
    IsStringBody (escapedChar c ++ s) := by
  unfold escapedChar
  split
  · exact .short rfl hs
  split
  · exact .short rfl hs
  split
  · exact .short rfl hs
  split
  · exact .short rfl hs
  split
  · exact .short rfl hs
  split
  · exact .short rfl hs
  split
  · exact .short rfl hs
  split
  · rename_i hquote hslash _ _ _ _ _ hplain
    rw [Bool.and_eq_true, decide_eq_true_eq, decide_eq_true_eq] at hplain
    exact .plain hplain.1 hquote hslash hs
  split
  · exact hs.unitEscape_append _
  · dsimp only
    rw [List.append_assoc]
    exact (hs.unitEscape_append _).unitEscape_append _

theorem isString_escaped (s : String) : IsString (escaped s).toList := by
  refine ⟨_, String.toList_ofList, ?_⟩
  induction s.toList with
  | nil => exact .nil
  | cons c rest ih =>
    rw [List.flatMap_cons]
    exact ih.escapedChar_append c

/-! ## Blocks -/

theorem isGap_newline (width : Nat) : IsGap (newline width).toList := by
  rw [newline, String.toList_ofList]
  intro c hc
  rcases List.mem_cons.1 hc with rfl | hc
  · rfl
  · rw [List.eq_of_mem_replicate hc]
    rfl

-- What stands before every line is part of the line.
theorem append_intercalate (front sep : List Char) {ls : List (List Char)} (h : ls ≠ []) :
    front ++ (sep ++ front).intercalate ls = sep.intercalate (ls.map (front ++ ·)) := by
  induction ls with
  | nil => exact absurd rfl h
  | cons l rest ih =>
    cases rest with
    | nil => simp [List.intercalate]
    | cons next others =>
      have hrest := ih (List.cons_ne_nil next others)
      rw [List.intercalate_cons_cons, List.map_cons, List.map_cons, List.intercalate_cons_cons,
        ← List.map_cons, ← hrest]
      simp only [List.append_assoc]

theorem toList_block_nil (opening closing : String) (inner outer : Nat) :
    (block opening closing inner outer []).toList = opening.toList ++ closing.toList :=
  String.toList_append

theorem toList_block (opening closing : String) (inner outer : Nat) {ls : List String}
    (h : ls ≠ []) :
    (block opening closing inner outer ls).toList =
      opening.toList ++ [','].intercalate (ls.map fun l => (newline inner).toList ++ l.toList) ++
        (newline outer).toList ++ closing.toList := by
  have hmap : ls.map String.toList ≠ [] := by simpa using h
  have hlines := append_intercalate (newline inner).toList [','] hmap
  rw [List.map_map] at hlines
  unfold block
  split
  · exact absurd rfl h
  · have hcomma : ",".toList = [','] := rfl
    simp only [String.toList_append, String.toList_intercalate, hcomma]
    rw [Function.comp_def] at hlines
    rw [← hlines]
    simp only [List.append_assoc]

theorem isDocument_block_items {items : List String} (h : ∀ item ∈ items, IsDocument item.toList)
    (inner outer : Nat) : IsDocument (block "[" "]" inner outer items).toList := by
  by_cases hnil : items = []
  · rw [hnil, toList_block_nil]
    exact .array (fun item hitem => absurd hitem List.not_mem_nil)
      (fun c hc => absurd hc List.not_mem_nil)
  · rw [toList_block "[" "]" inner outer hnil]
    exact .array
      (List.forall_mem_map.2 fun item hitem => .spaced (isGap_newline inner) (h item hitem))
      (isGap_newline outer)

/-- The text of a member: a name, a colon and a document after a space. -/
def IsMember (s : String) : Prop :=
  ∃ name value : String, s = name ++ ": " ++ value ∧ IsString name.toList ∧ IsDocument value.toList

theorem isDocument_block_members {members : List String} (h : ∀ m ∈ members, IsMember m)
    (inner outer : Nat) : IsDocument (block "\x7b" "\x7d" inner outer members).toList := by
  by_cases hnil : members = []
  · rw [hnil, toList_block_nil]
    exact .object (fun m hm => absurd hm List.not_mem_nil)
      (fun m hm => absurd hm List.not_mem_nil) (fun c hc => absurd hc List.not_mem_nil)
  · -- the indentation belongs to the name, and the space after the colon to the value
    have hparts : ∃ parts : List (List Char × List Char),
        members.map (fun m => (newline inner).toList ++ m.toList) =
            parts.map (fun m => m.1 ++ ':' :: m.2) ∧
          (∀ m ∈ parts, IsName m.1) ∧ ∀ m ∈ parts, IsDocument m.2 := by
      clear hnil
      induction members with
      | nil => exact ⟨[], rfl, by simp, by simp⟩
      | cons m rest ih =>
        rw [List.forall_mem_cons] at h
        obtain ⟨name, value, rfl, hname, hvalue⟩ := h.1
        obtain ⟨parts, hmap, hnames, hvalues⟩ := ih h.2
        have hspace : IsGap [' '] := by simp [IsGap, isSpace]
        refine ⟨((newline inner).toList ++ name.toList, ' ' :: value.toList) :: parts, ?_, ?_, ?_⟩
        · have hcolon : ": ".toList = [':', ' '] := rfl
          rw [List.map_cons, List.map_cons, hmap, String.toList_append, String.toList_append,
            hcolon]
          simp only [List.append_assoc, List.cons_append, List.nil_append]
        · exact List.forall_mem_cons.2 ⟨⟨_, _, rfl, isGap_newline inner, hname⟩, hnames⟩
        · exact List.forall_mem_cons.2 ⟨.spaced hspace hvalue, hvalues⟩
    obtain ⟨parts, hmap, hnames, hvalues⟩ := hparts
    rw [toList_block "\x7b" "\x7d" inner outer hnil, hmap]
    exact .object hnames hvalues (isGap_newline outer)

/-! ## Documents -/

theorem isDocument_number (x : Float) : IsDocument (Decimal.text .json x).toList := by
  rcases Decimal.text_json x with h | h | h | h
  · exact .number h
  · rw [h]
    exact .word (by decide)
  · rw [h]
    exact .word (by decide)
  · rw [h]
    exact .word (by decide)

mutual

theorem isDocument_renderAt (indent outer : Nat) (j : Json) :
    IsDocument (renderAt indent outer j).toList := by
  match j with
  | .null =>
    rw [renderAt]
    exact .word (by decide)
  | .bool true =>
    rw [renderAt]
    exact .word (by decide)
  | .bool false =>
    rw [renderAt]
    exact .word (by decide)
  | .int n =>
    rw [renderAt]
    exact .number (Decimal.isNumber_toString n)
  | .float x =>
    rw [renderAt]
    exact isDocument_number x
  | .str s =>
    rw [renderAt]
    exact .string (isString_escaped s)
  | .arr items =>
    rw [renderAt]
    exact isDocument_block_items (isDocument_of_mem_renderItems indent _ items) _ _
  | .obj members =>
    rw [renderAt]
    exact isDocument_block_members (isMember_of_mem_renderMembers indent _ members) _ _

theorem isDocument_of_mem_renderItems (indent outer : Nat) (items : List Json) :
    ∀ item ∈ renderItems indent outer items, IsDocument item.toList := by
  match items with
  | [] => exact fun item hitem => absurd hitem List.not_mem_nil
  | item :: rest =>
    rw [renderItems, List.forall_mem_cons]
    exact ⟨isDocument_renderAt indent outer item, isDocument_of_mem_renderItems indent outer rest⟩

theorem isMember_of_mem_renderMembers (indent outer : Nat) (members : List (String × Json)) :
    ∀ m ∈ renderMembers indent outer members, IsMember m := by
  match members with
  | [] => exact fun m hm => absurd hm List.not_mem_nil
  | (key, item) :: rest =>
    rw [renderMembers, List.forall_mem_cons]
    exact ⟨⟨_, _, rfl, isString_escaped key, isDocument_renderAt indent outer item⟩,
      isMember_of_mem_renderMembers indent outer rest⟩

end

/-- Whatever is written for a value is one document. -/
theorem isDocument_render (indent : Nat) (j : Json) : IsDocument (j.render indent).toList :=
  isDocument_renderAt indent 0 j

end ComponentDocs.Json
