import ComponentDocs.Json.Reader
import Mathlib.Data.List.Infix
import Mathlib.Data.List.TakeWhile

/-!
# Texts that are refused

What a reader hands on is the end of the text that it has read from, and what it refuses a text for
stands in the text: an integer that is too long as a run of its digits, and an array or an object
that is too deep as one of more opening brackets than there is room for,
`Json.grounds_of_readChars`. More room lets more texts be read and changes nothing else:
`Json.readChars_of_le`.
-/

namespace ComponentDocs

/-- A run of more digits than are read as an integer. -/
def HasLongRun (s : List Char) : Prop :=
  ∃ digits, digits <:+: s ∧ Json.maxDigits < digits.length ∧ ∀ c ∈ digits, c.isDigit

theorem HasLongRun.mono {s t : List Char} (h : HasLongRun s) (hst : s <:+: t) : HasLongRun t := by
  obtain ⟨digits, hinfix, hlong⟩ := h
  exact ⟨digits, hinfix.trans hst, hlong⟩

namespace Json

variable {α β : Type} {room : Nat}

/-! ## What a text is refused for -/

def isOpening (c : Char) : Bool := c == '[' || c == '\x7b'

/-- How many brackets of a text open an array or an object. -/
def openings (s : List Char) : Nat := s.countP isOpening

theorem openings_mono {s t : List Char} (h : s <:+: t) : openings s ≤ openings t :=
  h.sublist.countP_le

/-- What a text has that is refused by a reader with room for `room` arrays and objects inside one
another. -/
def Refusal.Grounds (room : Nat) (s : List Char) : Refusal → Prop
  | .longInteger _ => HasLongRun s
  | .tooDeep _ => room < openings s

theorem Refusal.Grounds.mono {s t : List Char} {refusal : Refusal} (h : refusal.Grounds room s)
    (hst : s <:+: t) : refusal.Grounds room t := by
  cases refusal with
  | longInteger n => exact HasLongRun.mono h hst
  | tooDeep container => exact Nat.lt_of_lt_of_le h (openings_mono hst)

-- A bracket takes one place, and is one opening more.
theorem Refusal.Grounds.cons {s : List Char} {c : Char} (hc : isOpening c) {refusal : Refusal}
    (h : refusal.Grounds room s) : refusal.Grounds (room + 1) (c :: s) := by
  cases refusal with
  | longInteger n => exact HasLongRun.mono h (List.suffix_cons c s).isInfix
  | tooDeep container =>
    change room + 1 < openings (c :: s)
    rw [openings, List.countP_cons_of_pos hc]
    exact Nat.succ_lt_succ h

/-! ## What a reader hands on -/

/-- A reading of a text hands on the end of the text, or it stops; what the text is refused for
stands in it. -/
structure Ends (room : Nat) (s : List Char) {t : List Char} (x : Except Stop (Reading α t)) :
    Prop where
  suffix : ∀ p, x = .ok p → p.1.2 <:+ s
  grounds : ∀ refusal, x = .error (.refused refusal) → refusal.Grounds room s

theorem Ends.mono {s s' t : List Char} {x : Except Stop (Reading α t)} (h : Ends room s x)
    (hs : s <:+ s') : Ends room s' x :=
  ⟨fun p hp => (h.suffix p hp).trans hs, fun why hwhy => (h.grounds why hwhy).mono hs.isInfix⟩

theorem Ends.ok {s t : List Char} {p : Reading α t} (h : p.1.2 <:+ s) : Ends room s (.ok p) :=
  ⟨fun _ hp => Except.ok.inj hp ▸ h, nofun⟩

theorem Ends.fault (s : List Char) {t : List Char} (cause : Cause) (left : Nat) :
    Ends room s (.error (.fault cause left) : Except Stop (Reading α t)) :=
  ⟨nofun, nofun⟩

theorem Ends.bind {s t u : List Char} {x : Except Stop (Reading α t)}
    {f : Reading α t → Except Stop (Reading β u)} (hx : Ends room s x)
    (hf : ∀ p, p.1.2 <:+ s → Ends room s (f p)) : Ends room s (x >>= f) := by
  cases x with
  | ok p => exact hf p (hx.suffix p rfl)
  | error stop =>
    exact ⟨nofun, fun why hwhy => hx.grounds why (congrArg _ (Except.error.inj hwhy))⟩

-- What stands in brackets is read with room for one less.
theorem Ends.bracket {s t : List Char} {c : Char} (hc : isOpening c)
    {x : Except Stop (Reading α t)} (h : Ends room s x) : Ends (room + 1) (c :: s) x :=
  ⟨fun p hp => (h.suffix p hp).trans (List.suffix_cons c s),
    fun why hwhy => (h.grounds why hwhy).cons hc⟩

theorem Ends.tooDeep {s t : List Char} {c : Char} (hc : isOpening c) {container : Container} :
    Ends 0 (c :: s) (.error (.refused (.tooDeep container)) : Except Stop (Reading α t)) := by
  refine ⟨nofun, fun why hwhy => ?_⟩
  obtain rfl := Stop.refused.inj (Except.error.inj hwhy)
  change 0 < openings (c :: s)
  rw [openings, List.countP_cons_of_pos hc]
  exact Nat.succ_pos _

theorem skip_suffix (s : List Char) : skip s <:+ s :=
  List.dropWhile_suffix _

theorem suffix_of_skip {s r : List Char} {c : Char} (h : skip s = c :: r) : r <:+ s :=
  (List.suffix_cons c r).trans (h ▸ skip_suffix s)

/-! ## Numbers and words -/

theorem eq_of_digitRun (s : List Char) : s = (digitRun s).1 ++ (digitRun s).2 :=
  List.takeWhile_append_dropWhile.symm

theorem eq_of_wholeDigits? {s whole r : List Char} (h : wholeDigits? s = some (whole, r)) :
    s = whole ++ r ∧ ∀ c ∈ whole, c.isDigit := by
  unfold wholeDigits? at h
  split at h
  · cases h
  · cases h
    exact ⟨rfl, List.forall_mem_singleton.2 (by decide)⟩
  · rename_i c rest _
    split at h
    · obtain ⟨rfl, rfl⟩ := Prod.mk.inj (Option.some.inj h)
      exact ⟨eq_of_digitRun (c :: rest), fun d hd => List.mem_takeWhile_imp hd⟩
    · cases h

theorem fractionDigits_suffix (s : List Char) : (fractionDigits s).2 <:+ s := by
  unfold fractionDigits
  split
  · rename_i rest
    split
    · exact List.suffix_refl _
    · exact (List.dropWhile_suffix _).trans (List.suffix_cons '.' rest)
  · exact List.suffix_refl _

theorem suffix_of_exponent? {s r : List Char} {e : Int} (h : exponent? s = some (e, r)) :
    r <:+ s := by
  unfold exponent? at h
  split at h
  · cases h
  · rename_i letter rest
    split at h
    · split at h
      rename_i negative digits hdigits
      have hsigned : digits <:+ rest := by
        split at hdigits
        · rw [← (Prod.mk.inj hdigits).2]
          exact List.suffix_cons _ _
        · rw [← (Prod.mk.inj hdigits).2]
          exact List.suffix_cons _ _
        · rw [← (Prod.mk.inj hdigits).2]
      split at h
      · cases h
      · rename_i heq
        have hrun : (digitRun digits).2 <:+ digits := List.dropWhile_suffix _
        rw [heq, (Prod.mk.inj (Option.some.inj h)).2] at hrun
        exact (hrun.trans hsigned).trans (List.suffix_cons letter rest)
    · cases h

theorem ends_of_unsigned? {negative : Bool} {s r : List Char} {found : Except Nat Json}
    (h : unsigned? negative s = some (found, r)) :
    r <:+ s ∧ ∀ n, found = .error n → HasLongRun s := by
  unfold unsigned? at h
  split at h
  · cases h
  · rename_i whole r₁ hwhole
    obtain ⟨hs, hdigits⟩ := eq_of_wholeDigits? hwhole
    have hwholeSuffix : r₁ <:+ s := ⟨whole, hs.symm⟩
    split at h
    rename_i fraction r₂ hfraction
    have hfractionSuffix : r₂ <:+ s := by
      have hsuffix := fractionDigits_suffix r₁
      rw [hfraction] at hsuffix
      exact hsuffix.trans hwholeSuffix
    split at h
    · split at h
      · rename_i hlong
        obtain ⟨-, rfl⟩ := Prod.mk.inj (Option.some.inj h)
        exact ⟨hfractionSuffix, fun _ _ => ⟨whole, ⟨[], r₁, hs.symm⟩, hlong, hdigits⟩⟩
      · obtain ⟨rfl, rfl⟩ := Prod.mk.inj (Option.some.inj h)
        exact ⟨hfractionSuffix, nofun⟩
    · obtain ⟨rfl, rfl⟩ := Prod.mk.inj (Option.some.inj h)
      exact ⟨hfractionSuffix, nofun⟩
    · rename_i hexponent
      obtain ⟨rfl, rfl⟩ := Prod.mk.inj (Option.some.inj h)
      exact ⟨(suffix_of_exponent? hexponent).trans hfractionSuffix, nofun⟩

theorem eq_of_afterWord? {word s r : List Char} (h : afterWord? word s = some r) :
    s = word ++ r := by
  fun_induction afterWord? word s with
  | case1 s => exact Option.some.inj h
  | case2 => cases h
  | case3 word w rest ih => rw [List.cons_append, ← ih h]
  | case4 => cases h

theorem suffix_of_word? {s r : List Char} {j : Json} (h : word? s = some (j, r)) : r <:+ s := by
  obtain ⟨⟨word, j'⟩, -, h⟩ := List.exists_of_findSome?_eq_some h
  obtain ⟨r', hr, heq⟩ := Option.map_eq_some_iff.1 h
  obtain ⟨-, rfl⟩ := Prod.mk.inj heq
  exact ⟨word, (eq_of_afterWord? hr).symm⟩

theorem ends_of_scalar? {s r : List Char} {found : Except Nat Json}
    (h : scalar? s = some (found, r)) : r <:+ s ∧ ∀ n, found = .error n → HasLongRun s := by
  unfold scalar? at h
  split at h
  · rename_i hword
    obtain ⟨rfl, rfl⟩ := Prod.mk.inj (Option.some.inj h)
    exact ⟨suffix_of_word? hword, nofun⟩
  · split at h
    · rename_i rest _
      obtain ⟨hsuffix, hlong⟩ := ends_of_unsigned? h
      exact ⟨hsuffix.trans (List.suffix_cons '-' rest),
        fun n hn => (hlong n hn).mono (List.suffix_cons '-' rest).isInfix⟩
    · exact ends_of_unsigned? h

theorem ends_scalar (s : List Char) : Ends room s (scalar s) := by
  unfold scalar
  split
  · exact .fault s _ _
  · rename_i hscalar
    refine ⟨nofun, fun why hwhy => ?_⟩
    obtain rfl := Stop.refused.inj (Except.error.inj hwhy)
    exact (ends_of_scalar? hscalar).2 _ rfl
  · rename_i hscalar
    exact .ok (ends_of_scalar? hscalar).1

/-! ## Strings -/

theorem suffix_of_hexUnit? {s r : List Char} {n : Nat} (h : hexUnit? s = some (n, r)) :
    r <:+ s := by
  unfold hexUnit? at h
  split at h
  · rename_i a b c d e rest
    simp only [Option.pure_def, Option.bind_eq_bind, Option.bind_eq_some_iff, Option.some.injEq,
      Prod.mk.injEq] at h
    obtain ⟨_, _, _, _, _, _, _, _, _, rfl⟩ := h
    exact ⟨[a, b, c, d], rfl⟩
  · cases h

theorem ends_unicodeEscape (s : List Char) : Ends room s (unicodeEscape s) := by
  unfold unicodeEscape
  split
  · exact .fault s _ _
  · rename_i high r hhigh
    have hr : r <:+ s := suffix_of_hexUnit? hhigh
    dsimp only
    split
    · rename_i r' _ _
      split
      · split
        · exact .fault s _ _
        · rename_i low r'' hlow
          have hlowSuffix : r'' <:+ s := by
            have h1 : r'' <:+ r' := suffix_of_hexUnit? hlow
            have h2 : r' <:+ '\\' :: 'u' :: r' := ⟨['\\', 'u'], rfl⟩
            exact (h1.trans h2).trans hr
          split
          · exact .ok hlowSuffix
          · exact .ok hr
      · exact .ok hr
    · exact .ok hr

theorem ends_stringBody (opening : Nat) (s : List Char) : Ends room s (stringBody opening s) := by
  unfold stringBody
  split
  · exact .fault _ _ _
  · exact .fault _ _ _
  · exact .ok (List.suffix_cons _ _)
  · rename_i c rest
    have hrest : rest <:+ '\\' :: c :: rest := ⟨['\\', c], rfl⟩
    split
    · refine .bind ((ends_unicodeEscape rest).mono hrest) fun p hr => ?_
      obtain ⟨⟨u, r⟩, h⟩ := p
      have hlength : r.length < rest.length := h
      exact .bind ((ends_stringBody opening r).mono hr) fun _ hbody => .ok hbody
    · split
      · exact .bind ((ends_stringBody opening rest).mono hrest) fun _ hbody => .ok hbody
      · exact .fault _ _ _
  · rename_i c rest _ _ _
    have hrest : rest <:+ c :: rest := List.suffix_cons c rest
    split
    · exact .fault _ _ _
    · exact .bind ((ends_stringBody opening rest).mono hrest) fun _ hbody => .ok hbody
termination_by s.length
decreasing_by
  all_goals
    subst_vars
    simp only [List.length_cons]
    omega

theorem ends_string (s : List Char) : Ends room s (string s) :=
  .bind (ends_stringBody _ s) fun _ hbody => .ok hbody

/-! ## Documents -/

theorem ends_separator (closing : Char) (s : List Char) : Ends room s (separator closing s) := by
  unfold separator
  split
  · exact .fault _ _ _
  · rename_i c rest hskip
    have hrest : rest <:+ s := suffix_of_skip hskip
    split
    · exact .ok hrest
    · split
      · exact .ok ((skip_suffix rest).trans hrest)
      · exact .fault _ _ _

theorem ends_colon (s : List Char) : Ends room s (colon s) := by
  unfold colon
  split
  · rename_i rest hskip
    exact .ok ((skip_suffix rest).trans (suffix_of_skip hskip))
  · exact .fault _ _ _

mutual

theorem ends_value (room : Nat) (s : List Char) : Ends room s (value room s) := by
  unfold value
  split
  · exact .bind ((ends_string _).mono (List.suffix_cons _ _)) fun _ h => .ok h
  · exact .tooDeep rfl
  · rename_i room rest
    have hlength : (skip rest).length < ('[' :: rest).length :=
      Nat.lt_succ_of_le (length_skip_le rest)
    split
    · rename_i r hr
      exact .ok ((suffix_of_skip hr).trans (List.suffix_cons _ _))
    · exact .bind (.bracket rfl ((ends_items room _).mono (skip_suffix rest))) fun _ h => .ok h
  · exact .tooDeep rfl
  · rename_i room rest
    have hlength : (skip rest).length < ('\x7b' :: rest).length :=
      Nat.lt_succ_of_le (length_skip_le rest)
    split
    · rename_i r hr
      exact .ok ((suffix_of_skip hr).trans (List.suffix_cons _ _))
    · exact .bind (.bracket rfl ((ends_members room _).mono (skip_suffix rest))) fun _ h => .ok h
  · exact ends_scalar _
termination_by (s.length, 0)
decreasing_by
  all_goals
    apply Prod.Lex.left
    subst_vars
    assumption

theorem ends_items (room : Nat) (s : List Char) : Ends room s (items room s) := by
  unfold items
  refine .bind (ends_value room s) fun p hr => ?_
  obtain ⟨⟨item, r⟩, h⟩ := p
  have hlength : r.length < s.length := h
  refine .bind ((ends_separator ']' r).mono hr) fun p hr' => ?_
  obtain ⟨⟨more, r'⟩, h'⟩ := p
  have hlength' : r'.length < r.length := h'
  cases more with
  | true => exact .bind ((ends_items room r').mono hr') fun _ hrest => .ok hrest
  | false => exact .ok hr'
termination_by (s.length, 1)
decreasing_by
  · exact Prod.Lex.right _ (by omega)
  · exact Prod.Lex.left _ _ (by omega)

theorem ends_members (room : Nat) (s : List Char) : Ends room s (members room s) := by
  unfold members
  split
  · rename_i rest
    refine .bind ((ends_string rest).mono (List.suffix_cons _ _)) fun p hr => ?_
    obtain ⟨⟨key, r⟩, h⟩ := p
    have hlength : r.length < rest.length := h
    refine .bind ((ends_colon r).mono hr) fun p hr₁ => ?_
    obtain ⟨⟨_, r₁⟩, h₁⟩ := p
    have hlength₁ : r₁.length < r.length := h₁
    refine .bind ((ends_value room r₁).mono hr₁) fun p hr₂ => ?_
    obtain ⟨⟨item, r₂⟩, h₂⟩ := p
    have hlength₂ : r₂.length < r₁.length := h₂
    refine .bind ((ends_separator '\x7d' r₂).mono hr₂) fun p hr₃ => ?_
    obtain ⟨⟨more, r₃⟩, h₃⟩ := p
    have hlength₃ : r₃.length < r₂.length := h₃
    cases more with
    | true => exact .bind ((ends_members room r₃).mono hr₃) fun _ hothers => .ok hothers
    | false => exact .ok hr₃
  · exact .fault _ _ _
termination_by (s.length, 1)
decreasing_by
  all_goals
    apply Prod.Lex.left
    subst_vars
    simp only [List.length_cons]
    omega

end

/-- What a text is refused for stands in it. -/
theorem grounds_of_readChars {text : List Char} {refusal : Refusal}
    (h : readChars room text = .error (.refused refusal)) : refusal.Grounds room text := by
  unfold readChars at h
  split at h
  · cases h
  · split at h
    · rename_i stop hvalue
      cases stop with
      | fault cause left => cases h
      | refused why =>
        obtain rfl := ReadError.refused.inj (Except.error.inj h)
        exact ((ends_value room (skip text)).grounds _ hvalue).mono (skip_suffix text).isInfix
    · split at h
      · cases h
      · cases h

/-! ## More room -/

/-- A reading comes to what another one comes to, unless it stops for want of room. -/
def Within (x y : Except Stop α) : Prop :=
  (∃ container, x = .error (.refused (.tooDeep container))) ∨ y = x

theorem Within.refl (x : Except Stop α) : Within x x := .inr rfl

theorem Within.bind {x y : Except Stop α} {f g : α → Except Stop β} (hxy : Within x y)
    (hfg : ∀ a, Within (f a) (g a)) : Within (x >>= f) (y >>= g) := by
  obtain ⟨container, rfl⟩ | rfl := hxy
  · exact .inl ⟨container, rfl⟩
  · cases y with
    | ok a => exact hfg a
    | error stop => exact .refl _

mutual

theorem within_value {room room' : Nat} (h : room ≤ room') (s : List Char) :
    Within (value room s) (value room' s) := by
  conv => enter [1]; unfold value
  split
  · rw [value]
    exact .refl _
  · exact .inl ⟨.array, rfl⟩
  · rename_i room rest
    obtain ⟨room', rfl⟩ := Nat.exists_eq_add_one.2 (Nat.zero_lt_of_lt h)
    have hlength : (skip rest).length < ('[' :: rest).length :=
      Nat.lt_succ_of_le (length_skip_le rest)
    rw [value]
    split
    · exact .refl _
    · exact .bind (within_items (Nat.le_of_succ_le_succ h) _) fun _ => .refl _
  · exact .inl ⟨.object, rfl⟩
  · rename_i room rest
    obtain ⟨room', rfl⟩ := Nat.exists_eq_add_one.2 (Nat.zero_lt_of_lt h)
    have hlength : (skip rest).length < ('\x7b' :: rest).length :=
      Nat.lt_succ_of_le (length_skip_le rest)
    rw [value]
    split
    · exact .refl _
    · exact .bind (within_members (Nat.le_of_succ_le_succ h) _) fun _ => .refl _
  · rename_i hquote hzero hsucc hzero' hsucc'
    have harray (rest : List Char) : s ≠ '[' :: rest := by
      cases room with
      | zero => exact hzero rest rfl
      | succ room => exact hsucc room rest rfl
    have hobject (rest : List Char) : s ≠ '\x7b' :: rest := by
      cases room with
      | zero => exact hzero' rest rfl
      | succ room => exact hsucc' room rest rfl
    rw [value]
    · exact .refl _
    · exact hquote
    · exact fun rest _ => harray rest
    · exact fun _ rest _ => harray rest
    · exact fun rest _ => hobject rest
    · exact fun _ rest _ => hobject rest
termination_by (s.length, 0)
decreasing_by
  all_goals
    apply Prod.Lex.left
    subst_vars
    assumption

theorem within_items {room room' : Nat} (h : room ≤ room') (s : List Char) :
    Within (items room s) (items room' s) := by
  unfold items
  refine .bind (within_value h s) fun p => ?_
  obtain ⟨⟨item, r⟩, hr⟩ := p
  have hlength : r.length < s.length := hr
  refine .bind (.refl _) fun p => ?_
  obtain ⟨⟨more, r'⟩, hr'⟩ := p
  have hlength' : r'.length < r.length := hr'
  cases more with
  | true => exact .bind (within_items h r') fun _ => .refl _
  | false => exact .refl _
termination_by (s.length, 1)
decreasing_by
  · exact Prod.Lex.right _ (by omega)
  · exact Prod.Lex.left _ _ (by omega)

theorem within_members {room room' : Nat} (h : room ≤ room') (s : List Char) :
    Within (members room s) (members room' s) := by
  unfold members
  split
  · rename_i rest
    refine .bind (.refl _) fun p => ?_
    obtain ⟨⟨key, r⟩, hr⟩ := p
    have hlength : r.length < rest.length := hr
    refine .bind (.refl _) fun p => ?_
    obtain ⟨⟨_, r₁⟩, hr₁⟩ := p
    have hlength₁ : r₁.length < r.length := hr₁
    refine .bind (within_value h r₁) fun p => ?_
    obtain ⟨⟨item, r₂⟩, hr₂⟩ := p
    have hlength₂ : r₂.length < r₁.length := hr₂
    refine .bind (.refl _) fun p => ?_
    obtain ⟨⟨more, r₃⟩, hr₃⟩ := p
    have hlength₃ : r₃.length < r₂.length := hr₃
    cases more with
    | true => exact .bind (within_members h r₃) fun _ => .refl _
    | false => exact .refl _
  · exact .refl _
termination_by (s.length, 1)
decreasing_by
  all_goals
    apply Prod.Lex.left
    subst_vars
    simp only [List.length_cons]
    omega

end

/-- More room changes nothing else than that there is room. -/
theorem readChars_of_le {room room' : Nat} (h : room ≤ room') (text : List Char) :
    (∃ container, readChars room text = .error (.refused (.tooDeep container))) ∨
      readChars room' text = readChars room text := by
  unfold readChars
  split
  · exact .inr rfl
  · obtain ⟨container, hvalue⟩ | hvalue := within_value h (skip text)
    · rw [hvalue]
      exact .inl ⟨container, rfl⟩
    · rw [hvalue]
      exact .inr rfl

/-- Where brackets are few, all room is the same. -/
theorem readChars_of_openings_le {room room' : Nat} {text : List Char} (h : openings text ≤ room)
    (hroom : room ≤ room') : readChars room' text = readChars room text := by
  refine (readChars_of_le hroom text).resolve_left ?_
  rintro ⟨container, hread⟩
  have hdeep : room < openings text := grounds_of_readChars hread
  omega

theorem value_brackets (room : Nat) (rest : List Char) :
    value room (List.replicate (room + 1) '[' ++ rest) =
      .error (.refused (.tooDeep .array)) := by
  induction room with
  | zero => exact value.eq_2 rest
  | succ room ih =>
    -- no white space is skipped before a bracket
    have hitems : items room (skip (List.replicate (room + 1) '[' ++ rest)) =
        .error (.refused (.tooDeep .array)) := by
      change items room (List.replicate (room + 1) '[' ++ rest) = _
      rw [items, ih]
      rfl
    rw [List.replicate_succ, List.cons_append, value]
    split
    · rename_i heq
      cases heq
    · rw [hitems]
      rfl

/-- One bracket more than there is room for is too many, whatever stands behind it. -/
theorem readChars_brackets (room : Nat) (rest : List Char) :
    readChars room (List.replicate (room + 1) '[' ++ rest) =
      .error (.refused (.tooDeep .array)) := by
  have hvalue : value room (skip (List.replicate (room + 1) '[' ++ rest)) =
      .error (.refused (.tooDeep .array)) := value_brackets room rest
  unfold readChars
  split
  · rename_i heq
    cases heq
  · rw [hvalue]
    rfl

end Json

end ComponentDocs
