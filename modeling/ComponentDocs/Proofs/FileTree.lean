import ComponentDocs.Proofs.Files
import Mathlib.Data.List.Induction

/-!
# Files that form a tree

A path is read back from its text when its names are such as files can have: `Path.ofString_text`.
In a file system that is a tree, the absolute path to what was found leads to it again:
`FileSystem.IsTree.read_resolve`.
-/

namespace ComponentDocs

namespace Path

theorem splitSlashes_append_slash {name : List Char} (h : '/' ∉ name) (rest : List Char) :
    splitSlashes (name ++ '/' :: rest) = name :: splitSlashes rest := by
  induction name with
  | nil => rw [List.nil_append, splitSlashes, if_pos rfl]
  | cons c name ih =>
    rw [List.mem_cons, not_or] at h
    exact splitSlashes_cons_of_ne (Ne.symm h.1) (ih h.2)

theorem splitSlashes_of_not_mem {name : List Char} (h : '/' ∉ name) :
    splitSlashes name = [name] := by
  induction name with
  | nil => rfl
  | cons c name ih =>
    rw [List.mem_cons, not_or] at h
    exact splitSlashes_cons_of_ne (Ne.symm h.1) (ih h.2)

theorem splitSlashes_intercalate {names : List (List Char)} (hne : names ≠ [])
    (h : ∀ name ∈ names, '/' ∉ name) : splitSlashes (['/'].intercalate names) = names := by
  induction names with
  | nil => exact absurd rfl hne
  | cons name rest ih =>
    rw [List.forall_mem_cons] at h
    cases rest with
    | nil => rw [List.intercalate_singleton, splitSlashes_of_not_mem h.1]
    | cons next others =>
      rw [List.intercalate_cons_cons, List.append_assoc, List.singleton_append,
        splitSlashes_append_slash h.1, ih (List.cons_ne_nil next others) h.2]

/-- The names of a path as its text has them, a slash between each two. -/
def joined (names : List String) : List Char :=
  ['/'].intercalate (names.map String.toList)

theorem toList_text {p : Path} (h : p.root = .relative → p.names ≠ []) :
    p.text.toList = p.root.text.toList ++ joined p.names := by
  unfold text
  split
  · rename_i hroot hnames
    exact absurd hnames (h hroot)
  · rw [String.toList_append, String.toList_intercalate]
    rfl

theorem toList_text_of_slash {p : Path} (h : p.root = .slash) :
    p.text.toList = '/' :: joined p.names := by
  rw [toList_text (fun hrelative => by rw [h] at hrelative; cases hrelative), h]
  rfl

theorem root_resolve (workingDir : List String) (p : Path) :
    (p.resolve workingDir).root = .slash := by
  unfold resolve
  split <;> rfl

theorem text_resolve_ne_empty (workingDir : List String) (p : Path) :
    (p.resolve workingDir).text ≠ "" := by
  intro hempty
  have htext := toList_text_of_slash (root_resolve workingDir p)
  rw [hempty] at htext
  cases htext

/-- Whether a name stands in the text of a path as it is, not left out and not cut. -/
def IsWritten (name : String) : Prop := name ≠ "" ∧ name ≠ "." ∧ '/' ∉ name.toList

instance (name : String) : Decidable (IsWritten name) :=
  inferInstanceAs (Decidable (_ ∧ _ ∧ _))

theorem names_of_joined {names : List String} (h : ∀ name ∈ names, IsWritten name) :
    ((splitSlashes (joined names)).map String.ofList).filter
      (fun name => name != "" && name != ".") = names := by
  have hkept : names.filter (fun name => name != "" && name != ".") = names :=
    List.filter_eq_self.2 fun name hname => by simp [(h name hname).1, (h name hname).2.1]
  by_cases hnil : names = []
  · subst hnil
    rfl
  · have hsplit : splitSlashes (joined names) = names.map String.toList :=
      splitSlashes_intercalate (by simpa using hnil) fun _ hmem => by
        obtain ⟨name, hname, rfl⟩ := List.mem_map.1 hmem
        exact (h name hname).2.2
    rw [hsplit, List.map_map]
    simpa [Function.comp_def] using hkept

theorem takeWhile_joined {names : List String} (h : ∀ name ∈ names, IsWritten name) :
    (joined names).takeWhile (· == '/') = [] := by
  cases names with
  | nil => rfl
  | cons name rest =>
    obtain ⟨hne, -, hslash⟩ := h name List.mem_cons_self
    obtain ⟨c, others, hname⟩ :=
      List.exists_cons_of_ne_nil (show name.toList ≠ [] by simpa using hne)
    have hc : c ≠ '/' := by
      rintro rfl
      exact hslash (hname ▸ List.mem_cons_self)
    have hjoined : ∃ back, joined (name :: rest) = c :: back := by
      unfold joined
      cases rest with
      | nil => exact ⟨others, by simp [hname]⟩
      | cons next rest =>
        rw [List.map_cons, List.map_cons, List.intercalate_cons_cons, hname]
        exact ⟨_, rfl⟩
    obtain ⟨back, hback⟩ := hjoined
    rw [hback, List.takeWhile_cons_of_neg (by simpa using hc)]

theorem mem_joined {names : List String} {c : Char} (h : c ∈ joined names) :
    c = '/' ∨ ∃ name ∈ names, c ∈ name.toList := by
  induction names with
  | nil => cases h
  | cons name rest ih =>
    unfold joined at h
    cases rest with
    | nil =>
      rw [List.map_singleton, List.intercalate_singleton] at h
      exact .inr ⟨name, List.mem_cons_self, h⟩
    | cons next others =>
      rw [List.map_cons, List.map_cons, List.intercalate_cons_cons, List.append_assoc,
        List.mem_append, List.singleton_append, List.mem_cons] at h
      rcases h with hname | hslash | hrest
      · exact .inr ⟨name, List.mem_cons_self, hname⟩
      · exact .inl hslash
      · exact (ih hrest).imp_right fun ⟨other, hmem, hc⟩ =>
          ⟨other, List.mem_cons_of_mem name hmem, hc⟩

/-- A path is read back from its text. -/
theorem ofString_text {p : Path} (h : ∀ name ∈ p.names, IsWritten name) : ofString p.text = p := by
  obtain ⟨root, names⟩ := p
  have hnames := names_of_joined h
  have htake := takeWhile_joined h
  by_cases hdot : root = .relative ∧ names = []
  · obtain ⟨rfl, rfl⟩ := hdot
    rfl
  · have htext := @toList_text ⟨root, names⟩ fun hroot hnil => hdot ⟨hroot, hnil⟩
    unfold ofString
    rw [htext]
    dsimp only at h hnames htake ⊢
    -- the slashes of the root are the first ones, and leave empty names behind
    cases root with
    | relative =>
      rw [show PathRoot.relative.text.toList = [] from rfl, List.nil_append, hnames, rootOf, htake]
      rfl
    | slash =>
      rw [show PathRoot.slash.text.toList = ['/'] from rfl, List.singleton_append, splitSlashes,
        if_pos rfl, rootOf, List.takeWhile_cons_of_pos rfl, htake]
      exact congrArg (Path.mk .slash) hnames
    | twoSlashes =>
      rw [show PathRoot.twoSlashes.text.toList = ['/', '/'] from rfl, List.cons_append,
        List.singleton_append, splitSlashes, if_pos rfl, splitSlashes, if_pos rfl, rootOf,
        List.takeWhile_cons_of_pos rfl, List.takeWhile_cons_of_pos rfl, htake]
      exact congrArg (Path.mk .twoSlashes) hnames

end Path

/-- What can be the name of a file or of a directory. -/
structure IsFileName (name : String) : Prop where
  written : Path.IsWritten name
  ne_up : name ≠ ".."
  noNull : Char.ofNat 0 ∉ name.toList
  short : name.utf8ByteSize ≤ maxNameBytes

namespace FileSystem

variable {fs : FileSystem}

/-- Files form a tree: whatever is there has a name that it can have, and stands in a directory. -/
def IsTree (fs : FileSystem) : Prop :=
  ∀ directory name node, fs.node? (directory ++ [name]) = some node →
    fs.node? directory = some .directory ∧ IsFileName name

theorem IsTree.isFileName (htree : fs.IsTree) {place : List String} {node : Node}
    (h : fs.node? place = some node) : ∀ name ∈ place, IsFileName name := by
  induction place using List.reverseRecOn generalizing node with
  | nil => exact fun name hname => absurd hname List.not_mem_nil
  | append_singleton directory name ih =>
    obtain ⟨hdirectory, hname⟩ := htree directory name node h
    exact List.forall_mem_append.2 ⟨ih hdirectory, List.forall_mem_singleton.2 hname⟩

theorem IsTree.directory_above (htree : fs.IsTree) {directory below : List String} {node : Node}
    (h : fs.node? (directory ++ below) = some node) (hbelow : below ≠ []) :
    fs.node? directory = some .directory := by
  induction below using List.reverseRecOn generalizing node with
  | nil => exact absurd rfl hbelow
  | append_singleton between name ih =>
    rw [← List.append_assoc] at h
    have hparent := (htree _ name node h).1
    by_cases hnil : between = []
    · rw [← hparent, hnil, List.append_nil]
    · exact ih hparent hnil

-- A walk along the names of what is there reaches it.
theorem IsTree.walk_of_node? (htree : fs.IsTree) {directory names : List String} {node : Node}
    (h : fs.node? (directory ++ names) = some node) : fs.walk directory names = .ok node := by
  induction names generalizing directory with
  | nil =>
    rw [List.append_nil] at h
    rw [walk, h]
  | cons name rest ih =>
    have hdirectory := htree.directory_above h (List.cons_ne_nil name rest)
    have hname := htree.isFileName h name (List.mem_append_right directory List.mem_cons_self)
    rw [walk, hdirectory]
    dsimp only
    rw [if_neg hname.ne_up, if_neg (Nat.not_lt.2 hname.short)]
    exact ih (by rw [List.append_assoc]; exact h)

theorem hasNull_of_isFileName {p : Path} (hroot : p.root = .slash)
    (h : ∀ name ∈ p.names, IsFileName name) : hasNull p = false := by
  rw [hasNull, Path.toList_text_of_slash hroot, ← Bool.not_eq_true, List.contains_iff_mem,
    List.mem_cons]
  rintro (hslash | hjoined)
  · exact absurd hslash (by decide)
  · rcases Path.mem_joined hjoined with hslash | ⟨name, hname, hnull⟩
    · exact absurd hslash (by decide)
    · exact (h name hname).noNull hnull

/-- The absolute path to a file is read back from its text and leads to the file, if it is not too
long to be looked up. -/
theorem IsTree.read_resolve (htree : fs.IsTree) {path : Path} {content : List UInt8}
    (h : fs.find path = .ok (.file content)) :
    Path.ofString (path.resolve fs.workingDir).text = path.resolve fs.workingDir ∧
      hasNull (path.resolve fs.workingDir) = false ∧
      fs.read (path.resolve fs.workingDir) =
        if maxPathBytes ≤ (path.resolve fs.workingDir).text.utf8ByteSize then .error .nameTooLong
        else .ok content := by
  have hnode := node?_resolve_of_find h
  have hroot := Path.root_resolve fs.workingDir path
  generalize path.resolve fs.workingDir = p at hnode hroot
  have hnames := htree.isFileName hnode
  refine ⟨Path.ofString_text fun name hname => (hnames name hname).written,
    hasNull_of_isFileName hroot hnames, ?_⟩
  have hwalk : fs.walk [] p.names = .ok (.file content) := htree.walk_of_node? hnode
  unfold read find
  rw [hroot]
  by_cases hlong : maxPathBytes ≤ p.text.utf8ByteSize
  · rw [if_pos hlong, if_pos hlong]
  · rw [if_neg hlong, if_neg hlong]
    dsimp only
    rw [hwalk]

end FileSystem

end ComponentDocs
