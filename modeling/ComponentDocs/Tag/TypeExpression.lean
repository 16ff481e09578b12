import ComponentDocs.Tag.Basic
import ComponentDocs.Text.Blank

/-!
# Type expressions

A type stands between braces, which nest. `splitClosing` finds the brace that closes the expression:
the first one at which no brace opened before it is still open.
-/

namespace ComponentDocs

/-- The text up to the brace that closes the expression, and the text after that brace, when `depth`
further braces are open. -/
def splitClosing (depth : Nat) : List Char → Option (List Char × List Char)
  | [] => none
  | c :: rest =>
    if c = '\x7d' then
      match depth with
      | 0 => some ([], rest)
      | depth + 1 => (splitClosing depth rest).map fun (raw, after) => (c :: raw, after)
    else if c = '\x7b' then
      (splitClosing (depth + 1) rest).map fun (raw, after) => (c :: raw, after)
    else
      (splitClosing depth rest).map fun (raw, after) => (c :: raw, after)

/-- A type expression at the front, trimmed, and the text after it. Without an opening brace there
is no type. -/
def takeType (text : List Char) : Except TagFlaw (Option (List Char) × List Char) :=
  match Text.trimLeft text with
  | '\x7b' :: rest =>
    match splitClosing 0 rest with
    | some (raw, after) => .ok (some (Text.trim raw), after)
    | none => .error ⟨.unbalancedBraces, '\x7b' :: rest⟩
  | trimmed => .ok (none, trimmed)

/-- The expression, its closing brace and the text after it spell the text. -/
theorem eq_of_splitClosing {depth : Nat} {text raw after : List Char}
    (h : splitClosing depth text = some (raw, after)) : text = raw ++ '\x7d' :: after := by
  induction text generalizing depth raw with
  | nil => simp [splitClosing] at h
  | cons c rest ih =>
    unfold splitClosing at h
    split at h
    · rename_i hc
      cases depth with
      | zero => simp_all
      | succ depth =>
        simp only [Option.map_eq_some_iff, Prod.exists, Prod.mk.injEq] at h
        obtain ⟨raw', after', h, rfl, rfl⟩ := h
        simp [ih h]
    · split at h <;>
      · simp only [Option.map_eq_some_iff, Prod.exists, Prod.mk.injEq] at h
        obtain ⟨raw', after', h, rfl, rfl⟩ := h
        simp [ih h]

end ComponentDocs
