/-!
# Loader specifiers

A specifier names the loader of an examples file and the file: two exclamation marks, the loader,
another exclamation mark, and the path.
-/

namespace ComponentDocs

/-- A loader and the path that it is given. -/
structure Specifier where
  loader : String
  path : String
  deriving DecidableEq, Repr

namespace Specifier

def text (s : Specifier) : String :=
  "!!" ++ s.loader ++ "!" ++ s.path

/-- The specifier that a text spells: neither part is empty, and the loader ends at the first
exclamation mark. -/
def ofString? (text : String) : Option Specifier :=
  match text.toList with
  | '!' :: '!' :: rest =>
    match rest.takeWhile (· != '!'), rest.dropWhile (· != '!') with
    | c :: loader, _ :: d :: path =>
      some ⟨String.ofList (c :: loader), String.ofList (d :: path)⟩
    | _, _ => none
  | _ => none

/-- The wording for a text that is no specifier. -/
def refusal (text : String) : String :=
  "Not a loader specifier: " ++ text

-- The mark behind the loader is the first one, and all behind it is the path.
theorem ofString?_of_marks {text : String} {front back : List Char}
    (htext : text.toList = '!' :: '!' :: (front ++ '!' :: back)) (hfront : '!' ∉ front) :
    ofString? text =
      if front = [] ∨ back = [] then none else some ⟨String.ofList front, String.ofList back⟩ := by
  have hall : ∀ c ∈ front, (c != '!') = true := by
    intro c hc
    have : c ≠ '!' := by
      rintro rfl
      exact hfront hc
    simpa using this
  have htake : (front ++ '!' :: back).takeWhile (· != '!') = front := by
    simp [List.takeWhile_append_of_pos hall]
  have hdrop : (front ++ '!' :: back).dropWhile (· != '!') = '!' :: back := by
    simp [List.dropWhile_append_of_pos hall]
  unfold ofString?
  rw [htext]
  simp only [htake, hdrop]
  cases front with
  | nil => rfl
  | cons c front => cases back <;> rfl

/-- The text of a specifier is read back when neither part is empty and the loader has no
exclamation mark. -/
theorem ofString?_text {s : Specifier} (hloader : s.loader ≠ "") (hpath : s.path ≠ "")
    (hmark : '!' ∉ s.loader.toList) : ofString? s.text = some s := by
  have htext : s.text.toList = '!' :: '!' :: (s.loader.toList ++ '!' :: s.path.toList) := by
    simp [text]
  rw [ofString?_of_marks htext hmark, if_neg (by simp [hloader, hpath])]
  simp

/-- A loader that has an exclamation mark is cut there, and what stands behind it goes to the
path. -/
theorem ofString?_text_of_mark {s : Specifier} {front back : List Char}
    (hloader : s.loader.toList = front ++ '!' :: back) (hfront : '!' ∉ front) :
    ofString? s.text =
      if front = [] then none
      else some ⟨String.ofList front, String.ofList (back ++ '!' :: s.path.toList)⟩ := by
  have htext : s.text.toList =
      '!' :: '!' :: (front ++ '!' :: (back ++ '!' :: s.path.toList)) := by
    simp [text, hloader]
  rw [ofString?_of_marks htext hfront]
  simp

theorem ofString?_text_eq_some_iff {s : Specifier} (hloader : s.loader ≠ "") (hpath : s.path ≠ "") :
    ofString? s.text = some s ↔ '!' ∉ s.loader.toList := by
  refine ⟨fun h hmark => ?_, ofString?_text hloader hpath⟩
  obtain ⟨front, back, hcut, hfront⟩ := List.eq_append_cons_of_mem hmark
  rw [ofString?_text_of_mark hcut hfront] at h
  split at h
  · cases h
  · -- the loader that is read ends before the mark
    have hread : String.ofList front = s.loader := congrArg loader (Option.some.inj h)
    rw [← hread, String.toList_ofList] at hmark
    exact hfront hmark

end Specifier

end ComponentDocs
