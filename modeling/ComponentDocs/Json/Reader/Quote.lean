import ComponentDocs.Json.Reader.Basic

/-!
# Strings of a document

A string stands between double quotes. Control characters have to be escaped; characters beyond the
first plane are escaped as surrogate pairs.
-/

namespace ComponentDocs.Json

def hexValue? (c : Char) : Option Nat :=
  let n := c.toNat
  if 48 ≤ n ∧ n ≤ 57 then some (n - 48)
  else if 97 ≤ n ∧ n ≤ 102 then some (n - 87)
  else if 65 ≤ n ∧ n ≤ 70 then some (n - 55)
  else none

/-- Four hexadecimal digits at the front; at least one more character has to follow them. -/
def hexUnit? : List Char → Option (Nat × List Char)
  | a :: b :: c :: d :: e :: rest => do
    let a ← hexValue? a
    let b ← hexValue? b
    let c ← hexValue? c
    let d ← hexValue? d
    return (((a * 16 + b) * 16 + c) * 16 + d, e :: rest)
  | _ => none

theorem length_of_hexUnit? {s r : List Char} {n : Nat} (h : hexUnit? s = some (n, r)) :
    r.length < s.length := by
  unfold hexUnit? at h
  split at h
  · simp only [Option.pure_def, Option.bind_eq_bind, Option.bind_eq_some_iff, Option.some.injEq,
      Prod.mk.injEq] at h
    obtain ⟨_, _, _, _, _, _, _, _, _, rfl⟩ := h
    simp only [List.length_cons]
    omega
  · simp at h

def isHighSurrogate (n : Nat) : Bool := 0xD800 ≤ n && n < 0xDC00

def isLowSurrogate (n : Nat) : Bool := 0xDC00 ≤ n && n < 0xE000

/-- The character of a unit. A lone surrogate is no character: a text that escapes one stands for no
text here, and is read with the replacement character in its place. -/
def unitChar (n : Nat) : Char :=
  if 0xD800 ≤ n ∧ n < 0xE000 then Char.ofNat 0xFFFD else Char.ofNat n

/-- The character of a unit escape, after its `u`. An escape that opens a surrogate pair takes the
escape after it too when that closes the pair. -/
def unicodeEscape (s : List Char) : Except Stop (Reading Char s) :=
  match h : hexUnit? s with
  | none => .error (.fault .unicodeEscape (s.length + 1))
  | some (high, r) =>
    have hr := length_of_hexUnit? h
    match r, hr with
    | '\\' :: 'u' :: r', hr =>
      if isHighSurrogate high && 5 ≤ r'.length then
        match h' : hexUnit? r' with
        | none => .error (.fault .unicodeEscape (r'.length + 1))
        | some (low, r'') =>
          if isLowSurrogate low then
            let n := 0x10000 + (high - 0xD800) * 0x400 + (low - 0xDC00)
            .ok ⟨(Char.ofNat n, r''), by
              have := length_of_hexUnit? h'
              simp only [List.length_cons] at hr
              simp only
              omega⟩
          else .ok ⟨(unitChar high, '\\' :: 'u' :: r'), hr⟩
      else .ok ⟨(unitChar high, '\\' :: 'u' :: r'), hr⟩
    | r, hr => .ok ⟨(unitChar high, r), hr⟩

/-- The character that a letter stands for after a backslash. -/
def shortEscape? : Char → Option Char
  | '"' => some '"'
  | '\\' => some '\\'
  | '/' => some '/'
  | 'b' => some '\x08'
  | 'f' => some '\x0c'
  | 'n' => some '\n'
  | 'r' => some '\r'
  | 't' => some '\t'
  | _ => none

/-- The rest of a string whose opening quote has `opening` characters from itself to the end of the
text. -/
def stringBody (opening : Nat) (s : List Char) : Except Stop (Reading (List Char) s) :=
  match s with
  | [] => .error (.fault .openString opening)
  | ['\\'] => .error (.fault .openString opening)
  | '"' :: rest => .ok ⟨([], rest), by simp⟩
  | '\\' :: c :: rest =>
    if c = 'u' then do
      let ⟨(u, r), h⟩ ← unicodeEscape rest
      let ⟨(body, r'), h'⟩ ← stringBody opening r
      return ⟨(u :: body, r'), by
        simp only [List.length_cons] at *
        omega⟩
    else
      match shortEscape? c with
      | some u => do
        let ⟨(body, r'), h'⟩ ← stringBody opening rest
        return ⟨(u :: body, r'), by
          simp only [List.length_cons] at *
          omega⟩
      | none => .error (.fault .escape (rest.length + 2))
  | c :: rest =>
    if c.toNat < 32 then .error (.fault .controlCharacter (rest.length + 1))
    else do
      let ⟨(body, r'), h'⟩ ← stringBody opening rest
      return ⟨(c :: body, r'), by
        simp only [List.length_cons] at *
        omega⟩
termination_by s.length
decreasing_by all_goals (simp only [List.length_cons] at *; omega)

def string (s : List Char) : Except Stop (Reading String s) := do
  let ⟨(body, r), h⟩ ← stringBody (s.length + 1) s
  return ⟨(String.ofList body, r), h⟩

end ComponentDocs.Json
