import ComponentDocs.Decimal.Number
import ComponentDocs.Json.Reader.Basic

/-!
# Numbers and words of a document

An integer stays an integer of any size up to a number of digits; a fraction or an exponent makes a
number a floating-point one. Besides the three words of JSON, three words are numbers.
-/

namespace ComponentDocs.Json

def ofDigits (digits : List Char) : Nat :=
  digits.foldl (fun n c => n * 10 + (c.toNat - 48)) 0

/-- The longest run of digits at the front, and the text after it. -/
def digitRun (s : List Char) : List Char × List Char :=
  (s.takeWhile Char.isDigit, s.dropWhile Char.isDigit)

/-- The whole part of a number: a zero, or digits of which the first is not zero. -/
def wholeDigits? : List Char → Option (List Char × List Char)
  | [] => none
  | '0' :: rest => some (['0'], rest)
  | c :: rest => if c.isDigit then some (digitRun (c :: rest)) else none

/-- The fraction of a number, if there is one: a point with digits after it. -/
def fractionDigits : List Char → List Char × List Char
  | '.' :: rest =>
    match digitRun rest with
    | ([], _) => ([], '.' :: rest)
    | found => found
  | s => ([], s)

/-- The exponent of a number, if there is one: a letter, perhaps a sign, and digits. -/
def exponent? : List Char → Option (Int × List Char)
  | [] => none
  | e :: rest =>
    if e = 'e' ∨ e = 'E' then
      let (negative, digits) :=
        match rest with
        | '-' :: r => (true, r)
        | '+' :: r => (false, r)
        | r => (false, r)
      match digitRun digits with
      | ([], _) => none
      | (found, r) =>
        let n : Int := ofDigits found
        some (if negative then -n else n, r)
    else none

/-- A number without its sign, or nothing. A fraction or an exponent makes it a floating-point
number. -/
def unsigned? (negative : Bool) (s : List Char) : Option (Except Nat Json × List Char) :=
  match wholeDigits? s with
  | none => none
  | some (whole, r) =>
    let (fraction, r') := fractionDigits r
    match exponent? r', fraction with
    | none, [] =>
      let n : Int := ofDigits whole
      if maxDigits < whole.length then some (.error whole.length, r')
      else some (.ok (.int (if negative then -n else n)), r')
    | none, _ => some (.ok (.float (decimal whole fraction 0)), r')
    | some (e, r''), _ => some (.ok (.float (decimal whole fraction e)), r'')
where
  /-- The floating-point number of the digits before and after the point and of the exponent. -/
  decimal (whole fraction : List Char) (e : Int) : Float :=
    let x := Decimal.nearest (ofDigits (whole ++ fraction)) (e - fraction.length)
    if negative then -x else x

/-- The words that are values, with their values. -/
def words : List (List Char × Json) :=
  [("null".toList, .null), ("true".toList, .bool true), ("false".toList, .bool false),
    ("NaN".toList, .float (0 / 0)), ("Infinity".toList, .float (1 / 0)),
    ("-Infinity".toList, .float (-1 / 0))]

/-- A word that is a value, at the front. -/
def word? (s : List Char) : Option (Json × List Char) :=
  words.findSome? fun (word, j) => (afterWord? word s).map (j, ·)

/-- A word or a number at the front; the error is the number of digits of an integer that is too
long. -/
def scalar? (s : List Char) : Option (Except Nat Json × List Char) :=
  match word? s with
  | some (j, r) => some (.ok j, r)
  | none =>
    match s with
    | '-' :: rest => unsigned? true rest
    | _ => unsigned? false s

theorem length_digitRun_le (s : List Char) : (digitRun s).2.length ≤ s.length :=
  (List.dropWhile_sublist _).length_le

theorem length_of_wholeDigits? {s whole r : List Char} (h : wholeDigits? s = some (whole, r)) :
    r.length < s.length := by
  unfold wholeDigits? at h
  split at h
  · simp at h
  · simp only [Option.some.injEq, Prod.mk.injEq] at h
    simp [← h.2]
  · rename_i c rest _
    split at h
    · rename_i hc
      simp only [digitRun, Option.some.injEq, Prod.mk.injEq, List.dropWhile_cons, hc,
        if_true] at h
      have := length_digitRun_le rest
      simp only [digitRun, h.2] at this
      simp only [List.length_cons]
      omega
    · simp at h

theorem length_fractionDigits_le (s : List Char) : (fractionDigits s).2.length ≤ s.length := by
  unfold fractionDigits
  split
  · rename_i rest
    have := length_digitRun_le rest
    split
    · simp
    · simp only [List.length_cons]
      omega
  · simp

theorem length_of_exponent? {s r : List Char} {e : Int} (h : exponent? s = some (e, r)) :
    r.length ≤ s.length := by
  unfold exponent? at h
  split at h
  · simp at h
  · rename_i c rest
    split at h
    · split at h
      rename_i negative digits hdigits
      have hrun := length_digitRun_le digits
      have hd : digits.length ≤ rest.length := by
        split at hdigits <;> (simp only [Prod.mk.injEq] at hdigits; simp [← hdigits.2])
      split at h
      · simp at h
      · rename_i found r' _ heq
        simp only [Option.some.injEq, Prod.mk.injEq] at h
        rw [heq, h.2] at hrun
        simp only [List.length_cons] at *
        omega
    · simp at h

theorem length_of_unsigned? {negative : Bool} {s r : List Char} {found : Except Nat Json}
    (h : unsigned? negative s = some (found, r)) : r.length < s.length := by
  unfold unsigned? at h
  split at h
  · simp at h
  · rename_i whole r1 hwhole
    have h1 := length_of_wholeDigits? hwhole
    have h2 := length_fractionDigits_le r1
    split at h
    rename_i fraction r2 hfraction
    rw [hfraction] at h2
    simp only at h2
    split at h
    · split at h <;> (simp only [Option.some.injEq, Prod.mk.injEq] at h; rw [← h.2]; omega)
    · simp only [Option.some.injEq, Prod.mk.injEq] at h
      rw [← h.2]
      omega
    · rename_i e r3 _ he
      have h3 := length_of_exponent? he
      simp only [Option.some.injEq, Prod.mk.injEq] at h
      rw [← h.2]
      omega

theorem length_of_word? {s r : List Char} {j : Json} (h : word? s = some (j, r)) :
    r.length < s.length := by
  obtain ⟨⟨word, j'⟩, hmem, h⟩ := List.exists_of_findSome?_eq_some h
  simp only [Option.map_eq_some_iff, Prod.mk.injEq] at h
  obtain ⟨r', hr, _, rfl⟩ := h
  have hlen := length_of_afterWord? hr
  have : word ≠ [] := by
    rintro rfl
    simp [words] at hmem
  have := List.length_pos_iff.2 this
  omega

theorem length_of_scalar? {s r : List Char} {found : Except Nat Json}
    (h : scalar? s = some (found, r)) : r.length < s.length := by
  unfold scalar? at h
  split at h
  · rename_i hword
    simp only [Option.some.injEq, Prod.mk.injEq] at h
    exact h.2 ▸ length_of_word? hword
  · split at h
    · have := length_of_unsigned? h
      simp only [List.length_cons]
      omega
    · exact length_of_unsigned? h

/-- A word or a number at the front. -/
def scalar (s : List Char) : Except Stop (Reading Json s) :=
  match h : scalar? s with
  | none => .error (.fault .value s.length)
  | some (.error digits, _) => .error (.refused (.longInteger digits))
  | some (.ok j, r) => .ok ⟨(j, r), length_of_scalar? h⟩

end ComponentDocs.Json
