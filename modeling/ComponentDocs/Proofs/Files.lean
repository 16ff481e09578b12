import ComponentDocs.FileSystem
import Mathlib.Data.List.Infix
import Mathlib.Data.String.Basic

/-!
# Names of files

A file has no name of too many bytes on its path: `FileSystem.utf8ByteSize_le_of_isFile`. It stands
at the absolute path to it: `FileSystem.node?_resolve_of_find`. What has no slash stands in a path
as a part of one name.
-/

namespace ComponentDocs

theorem FileSystem.utf8ByteSize_le_of_walk {fs : FileSystem} {directory names : List String}
    {node : Node} (h : fs.walk directory names = .ok node) :
    ∀ name ∈ names, name.utf8ByteSize ≤ maxNameBytes := by
  induction names generalizing directory with
  | nil => exact fun name hname => absurd hname List.not_mem_nil
  | cons name rest ih =>
    unfold walk at h
    split at h
    · cases h
    · cases h
    · rw [List.forall_mem_cons]
      split at h
      · rename_i hup
        exact ⟨by rw [hup]; decide, ih h⟩
      · split at h
        · cases h
        · rename_i hshort
          exact ⟨Nat.le_of_not_lt hshort, ih h⟩

theorem FileSystem.exists_find_of_isFile {fs : FileSystem} {path : Path}
    (h : fs.isFile path = true) :
    hasNull path = false ∧ ∃ content, fs.find path = .ok (.file content) := by
  obtain ⟨hnull, hfile⟩ := Bool.and_eq_true_iff.1 h
  refine ⟨by simpa using hnull, ?_⟩
  split at hfile
  · rename_i content hfind
    exact ⟨content, hfind⟩
  · cases hfile

theorem FileSystem.read_eq_ok_iff {fs : FileSystem} {path : Path} {content : List UInt8} :
    fs.read path = .ok content ↔ fs.find path = .ok (.file content) := by
  unfold read
  split <;> simp_all

theorem FileSystem.utf8ByteSize_le_of_isFile {fs : FileSystem} {path : Path}
    (h : fs.isFile path = true) : ∀ name ∈ path.names, name.utf8ByteSize ≤ maxNameBytes := by
  obtain ⟨-, content, hfind⟩ := exists_find_of_isFile h
  unfold find at hfind
  split at hfind
  · cases hfind
  · split at hfind
    · exact utf8ByteSize_le_of_walk hfind
    · exact utf8ByteSize_le_of_walk hfind

-- What a walk ends at stands where its names lead, whatever it has passed on the way.
theorem FileSystem.node?_follow_of_walk {fs : FileSystem} {directory names : List String}
    {node : Node} (h : fs.walk directory names = .ok node) :
    fs.node? (Path.follow directory names) = some node := by
  induction names generalizing directory with
  | nil =>
    unfold walk at h
    split at h
    · rename_i hnode
      rw [Path.follow, List.foldl_nil, hnode, Except.ok.inj h]
    · cases h
  | cons name rest ih =>
    rw [Path.follow, List.foldl_cons, ← Path.follow]
    unfold walk at h
    split at h
    · cases h
    · cases h
    · split at h
      · rename_i hup
        rw [if_pos hup]
        exact ih h
      · rename_i hup
        rw [if_neg hup]
        split at h
        · cases h
        · exact ih h

/-- What is found at a path stands at the absolute path to it. -/
theorem FileSystem.node?_resolve_of_find {fs : FileSystem} {path : Path} {node : Node}
    (h : fs.find path = .ok node) : fs.node? (path.resolve fs.workingDir).names = some node := by
  unfold find at h
  split at h
  · cases h
  · unfold Path.resolve
    cases hroot : path.root <;> rw [hroot] at h <;> exact node?_follow_of_walk h

namespace Path

theorem exists_splitSlashes_eq_cons (text : List Char) :
    ∃ name others, splitSlashes text = name :: others := by
  cases text with
  | nil => exact ⟨[], [], rfl⟩
  | cons c rest =>
    unfold splitSlashes
    split
    · exact ⟨[], splitSlashes rest, rfl⟩
    · split
      · exact ⟨[c], [], rfl⟩
      · exact ⟨_, _, rfl⟩

theorem splitSlashes_cons_of_ne {c : Char} (hc : c ≠ '/') {rest name : List Char}
    {others : List (List Char)} (h : splitSlashes rest = name :: others) :
    splitSlashes (c :: rest) = (c :: name) :: others := by
  rw [splitSlashes, if_neg hc, h]

-- What stands at the front and has no slash begins the first name.
theorem exists_name_of_prefix {run text : List Char} (hrun : '/' ∉ run) (h : run <+: text) :
    ∃ name others, splitSlashes text = name :: others ∧ run <+: name := by
  induction run generalizing text with
  | nil =>
    obtain ⟨name, others, hsplit⟩ := exists_splitSlashes_eq_cons text
    exact ⟨name, others, hsplit, List.nil_prefix⟩
  | cons c run ih =>
    obtain ⟨back, rfl⟩ := h
    have hc : c ≠ '/' := fun hc => hrun (hc ▸ List.mem_cons_self)
    obtain ⟨name, others, hsplit, hname⟩ :=
      ih (fun hmem => hrun (List.mem_cons_of_mem c hmem)) (List.prefix_append run back)
    exact ⟨c :: name, others, splitSlashes_cons_of_ne hc hsplit,
      List.cons_prefix_cons.2 ⟨rfl, hname⟩⟩

-- A run without a slash stands in one name.
theorem exists_name_of_infix {run text : List Char} (hrun : '/' ∉ run) (h : run <:+: text) :
    ∃ name ∈ splitSlashes text, run <:+: name := by
  induction text with
  | nil => exact ⟨[], List.mem_cons_self, h⟩
  | cons c rest ih =>
    rcases List.infix_cons_iff.1 h with hprefix | hinfix
    · obtain ⟨name, others, hsplit, hname⟩ := exists_name_of_prefix hrun hprefix
      exact ⟨name, hsplit ▸ List.mem_cons_self, hname.isInfix⟩
    · obtain ⟨name, hmem, hname⟩ := ih hinfix
      by_cases hc : c = '/'
      · rw [splitSlashes, if_pos hc]
        exact ⟨name, List.mem_cons_of_mem [] hmem, hname⟩
      · obtain ⟨first, others, hsplit⟩ := exists_splitSlashes_eq_cons rest
        rw [splitSlashes_cons_of_ne hc hsplit]
        rcases List.mem_cons.1 (hsplit ▸ hmem) with rfl | hothers
        · exact ⟨c :: name, List.mem_cons_self, List.infix_cons hname⟩
        · exact ⟨name, List.mem_cons_of_mem _ hothers, hname⟩

theorem names_subset_join (p q : Path) : q.names ⊆ (p.join q).names := by
  unfold join
  split
  · exact List.subset_append_right p.names q.names
  · exact List.Subset.refl q.names

end Path

theorem length_le_utf8Len (s : List Char) : s.length ≤ String.utf8Len s := by
  induction s with
  | nil => rfl
  | cons c rest ih =>
    have hc : 0 < c.utf8Size := c.utf8Size_pos
    rw [String.utf8Len_cons, List.length_cons]
    omega

end ComponentDocs
