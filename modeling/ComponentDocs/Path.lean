/-!
# Paths

A path is a root and names. The text of a path is normal: no empty name, no name that is a single
dot, and no slash at the end; a name that is two dots is kept. Two slashes at the front are a root
of their own, any other number of them is one slash.
-/

namespace ComponentDocs

inductive PathRoot where
  /-- At the working directory. -/
  | relative
  /-- At the root directory. -/
  | slash
  /-- At the root directory, written with two slashes. -/
  | twoSlashes
  deriving DecidableEq, Repr

def PathRoot.text : PathRoot → String
  | .relative => ""
  | .slash => "/"
  | .twoSlashes => "//"

structure Path where
  root : PathRoot
  names : List String
  deriving DecidableEq, Repr

namespace Path

def splitSlashes : List Char → List (List Char)
  | [] => [[]]
  | c :: rest =>
    if c = '/' then
      [] :: splitSlashes rest
    else
      match splitSlashes rest with
      | [] => [[c]]
      | name :: others => (c :: name) :: others

def rootOf (text : List Char) : PathRoot :=
  match (text.takeWhile (· == '/')).length with
  | 0 => .relative
  | 2 => .twoSlashes
  | _ => .slash

def ofString (text : String) : Path :=
  let chars := text.toList
  ⟨rootOf chars,
    ((splitSlashes chars).map String.ofList).filter fun name => name != "" && name != "."⟩

/-- The normal text of a path; a single dot for the working directory. -/
def text (p : Path) : String :=
  match p.root, p.names with
  | .relative, [] => "."
  | root, names => root.text ++ "/".intercalate names

/-- The path `q`, seen from the directory `p`. -/
def join (p q : Path) : Path :=
  match q.root with
  | .relative => ⟨p.root, p.names ++ q.names⟩
  | _ => q

/-- The directory of a path; a path without names is its own. -/
def parent (p : Path) : Path := ⟨p.root, p.names.dropLast⟩

/-- The last name; empty when there is none. -/
def name (p : Path) : String := p.names.getLast?.getD ""

/-- The part of a name before its last dot, unless that dot is the first or the last character. -/
def stemOf (name : List Char) : List Char :=
  let reversed := name.reverse
  let ending := reversed.takeWhile (· != '.')
  match ending, reversed.dropWhile (· != '.') with
  | _ :: _, _ :: c :: rest => (c :: rest).reverse
  | _, _ => name

-- The last dot ends the stem, when there is a name before it and an ending behind it.
theorem stemOf_append {stem ending : List Char} (hstem : stem ≠ []) (hending : ending ≠ [])
    (hdot : '.' ∉ ending) : stemOf (stem ++ '.' :: ending) = stem := by
  have hreversed : (stem ++ '.' :: ending).reverse = ending.reverse ++ '.' :: stem.reverse := by
    rw [List.reverse_append, List.reverse_cons, List.append_assoc, List.singleton_append]
  have hplain : ∀ c ∈ ending.reverse, (c != '.') = true := by
    intro c hc
    rw [bne_iff_ne]
    rintro rfl
    exact hdot (List.mem_reverse.1 hc)
  obtain ⟨last, others, hlast⟩ := List.exists_cons_of_ne_nil (mt List.reverse_eq_nil_iff.1 hending)
  obtain ⟨c, rest, hcut⟩ := List.exists_cons_of_ne_nil (mt List.reverse_eq_nil_iff.1 hstem)
  have htake : (stem ++ '.' :: ending).reverse.takeWhile (· != '.') = last :: others := by
    rw [hreversed, List.takeWhile_append_of_pos hplain, List.takeWhile_cons_of_neg (by decide),
      List.append_nil, hlast]
  have hdrop : (stem ++ '.' :: ending).reverse.dropWhile (· != '.') = '.' :: c :: rest := by
    rw [hreversed, List.dropWhile_append_of_pos hplain, List.dropWhile_cons_of_neg (by decide), hcut]
  simp only [stemOf, htake, hdrop]
  rw [← hcut, List.reverse_reverse]

def stem (p : Path) : String := String.ofList (stemOf p.name.toList)

theorem stem_concat {root : PathRoot} {above : List String} {stem ending : List Char}
    (hstem : stem ≠ []) (hending : ending ≠ []) (hdot : '.' ∉ ending) :
    Path.stem ⟨root, above ++ [String.ofList (stem ++ '.' :: ending)]⟩ = String.ofList stem := by
  have hname : Path.name ⟨root, above ++ [String.ofList (stem ++ '.' :: ending)]⟩ =
      String.ofList (stem ++ '.' :: ending) := by
    rw [Path.name, List.getLast?_concat, Option.getD_some]
  rw [Path.stem, hname, String.toList_ofList, stemOf_append hstem hending hdot]

/-- Follow names from a directory, two dots leading up. -/
def follow (directory : List String) (names : List String) : List String :=
  names.foldl (fun at_ name => if name = ".." then at_.dropLast else at_ ++ [name]) directory

/-- The absolute path without two-dot names, from a working directory. -/
def resolve (workingDir : List String) (p : Path) : Path :=
  match p.root with
  | .relative => ⟨.slash, follow workingDir p.names⟩
  | _ => ⟨.slash, follow [] p.names⟩

end Path

end ComponentDocs
