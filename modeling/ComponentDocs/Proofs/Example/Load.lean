import ComponentDocs.Example.Load
import ComponentDocs.Proofs.Example.Cut

/-!
# Loading what a reference names

A reference gives chunks exactly when its specifier is split and its file is UTF-8 text without a
header that cannot be read. What it fails with tells which of these is missing, and only two of the
failures are its own: `ModuleRef.load_ends`.
-/

namespace ComponentDocs

open Text

/-! ## From the file to its chunks -/

/-- What loading makes of the content of a file. -/
def chunksOfFile (room : Nat) (langs : List String) (path : String) (content : List UInt8) :
    Except LoadFault (List Chunk × List Event) :=
  match Utf8.decode content with
  | .error fault => .error (.encoding fault)
  | .ok text =>
    match chunkify room langs (String.ofList (normalizeNewlines text)) with
    | .error refusal => .error (.refused refusal)
    | .ok chunks => .ok (chunks, [.chunksLoaded chunks.length path])

theorem ModuleRef.load_eq {room : Nat} {fs : FileSystem} {m : ModuleRef} {s : Specifier}
    (hparts : Specifier.ofString? m.specifier = some s)
    (hnull : FileSystem.hasNull (Path.ofString s.path) = false) :
    m.load room fs =
      match fs.read (Path.ofString s.path) with
      | .error fault => .error (.unreadable s.path fault)
      | .ok content => chunksOfFile room m.langs s.path content := by
  unfold load parts
  rw [hparts]
  dsimp only [bind, Except.bind]
  unfold text FileSystem.readText
  rw [if_neg (Bool.eq_false_iff.1 hnull)]
  cases fs.read (Path.ofString s.path) with
  | error fault => rfl
  | ok content =>
    dsimp only
    unfold chunksOfFile
    cases Utf8.decode content with
    | error fault => rfl
    | ok text =>
      dsimp only
      cases chunkify room m.langs (String.ofList (normalizeNewlines text)) <;> rfl

/-! ## Files that are text -/

theorem FileSystem.readText_eq_ok_iff {fs : FileSystem} {path : Path} {text : List Char} :
    fs.readText path = .ok text ↔
      hasNull path = false ∧ ∃ content decoded, fs.read path = .ok content ∧
        Utf8.decode content = .ok decoded ∧ text = normalizeNewlines decoded := by
  unfold readText
  cases hasNull path with
  | true => simp
  | false =>
    cases fs.read path with
    | error fault => simp
    | ok content => cases hdecode : Utf8.decode content <;> simp [hdecode, eq_comm]

/-! ## Failures -/

/-- Whether a failure is one of loading itself, and not one that loading lets through. -/
def LoadFault.isLoadError : LoadFault → Bool
  | .notSpecifier _ | .unreadable .. => true
  | .nullCharacter | .encoding _ | .refused _ => false

namespace ModuleRef

/-- What loading a reference fails with. -/
inductive Fails (room : Nat) (fs : FileSystem) (m : ModuleRef) : LoadFault → Prop
  /-- The text of the reference is no specifier. -/
  | specifier (hparts : Specifier.ofString? m.specifier = none) :
    Fails room fs m (.notSpecifier m.specifier)
  /-- No file can be read at the path. -/
  | file {s : Specifier} {fault : FileFault} (hparts : Specifier.ofString? m.specifier = some s)
    (hnull : FileSystem.hasNull (Path.ofString s.path) = false)
    (hread : fs.read (Path.ofString s.path) = .error fault) :
    Fails room fs m (.unreadable s.path fault)
  /-- The path has a null character. -/
  | path {s : Specifier} (hparts : Specifier.ofString? m.specifier = some s)
    (hnull : FileSystem.hasNull (Path.ofString s.path) = true) : Fails room fs m .nullCharacter
  /-- The file is no UTF-8 text. -/
  | encoding {s : Specifier} {content : List UInt8} {fault : Utf8.Fault}
    (hparts : Specifier.ofString? m.specifier = some s)
    (hnull : FileSystem.hasNull (Path.ofString s.path) = false)
    (hread : fs.read (Path.ofString s.path) = .ok content)
    (hdecode : Utf8.decode content = .error fault) : Fails room fs m (.encoding fault)
  /-- The header of a block of the file is refused, for an integer that is too long or for brackets
  that are too deep. -/
  | header {s : Specifier} {text : List Char} {refusal : Json.Refusal}
    (hparts : Specifier.ofString? m.specifier = some s)
    (htext : fs.readText (Path.ofString s.path) = .ok text)
    (hrefusal : (fences (String.ofList text)).findSome? (Fence.refusal? room) = some refusal) :
    Fails room fs m (.refused refusal)

variable {room : Nat} {fs : FileSystem} {m : ModuleRef} {s : Specifier}

theorem load_of_not_specifier (hparts : Specifier.ofString? m.specifier = none) :
    m.load room fs = .error (.notSpecifier m.specifier) := by
  rw [load, parts, hparts]
  rfl

theorem load_of_null (hparts : Specifier.ofString? m.specifier = some s)
    (hnull : FileSystem.hasNull (Path.ofString s.path) = true) :
    m.load room fs = .error .nullCharacter := by
  unfold load parts
  rw [hparts]
  dsimp only [bind, Except.bind]
  unfold text FileSystem.readText
  rw [if_pos hnull]

/-- A reference that is split, with a file that is text whose headers can all be read. -/
def Reads (room : Nat) (fs : FileSystem) (m : ModuleRef) (s : Specifier) (text : List Char) :
    Prop :=
  Specifier.ofString? m.specifier = some s ∧ fs.readText (Path.ofString s.path) = .ok text ∧
    (fences (String.ofList text)).findSome? (Fence.refusal? room) = none

-- From the text on, only a header that is refused is in the way.
theorem load_of_text {found : List Char} (hparts : Specifier.ofString? m.specifier = some s)
    (htext : fs.readText (Path.ofString s.path) = .ok found) :
    m.load room fs =
      match chunkify room m.langs (String.ofList found) with
      | .error refusal => .error (.refused refusal)
      | .ok chunks => .ok (chunks, [.chunksLoaded chunks.length s.path]) := by
  obtain ⟨hnull, content, decoded, hread, hdecode, rfl⟩ := FileSystem.readText_eq_ok_iff.1 htext
  rw [load_eq hparts hnull, hread]
  dsimp only
  rw [chunksOfFile, hdecode]

theorem load_of_reads {found : List Char} (h : m.Reads room fs s found) :
    m.load room fs = .ok (chunksOf room m.langs found,
      [.chunksLoaded (chunksOf room m.langs found).length s.path]) := by
  obtain ⟨hparts, htext, hnone⟩ := h
  rw [← refusal?_eq_findSome?, String.toList_ofList] at hnone
  rw [load_of_text hparts htext, chunkify, String.toList_ofList, hnone]

theorem load_of_fails {fault : LoadFault} (h : m.Fails room fs fault) :
    m.load room fs = .error fault := by
  cases h with
  | specifier hparts => exact load_of_not_specifier hparts
  | file hparts hnull hread => rw [load_eq hparts hnull, hread]
  | path hparts hnull => exact load_of_null hparts hnull
  | encoding hparts hnull hread hdecode =>
    rw [load_eq hparts hnull, hread]
    dsimp only
    rw [chunksOfFile, hdecode]
  | header hparts htext hrefusal => rw [load_of_text hparts htext, chunkify_eq_error_iff.2 hrefusal]

/-- Either loading has something to fail with, or the text is read. -/
theorem fails_or_reads (room : Nat) (fs : FileSystem) (m : ModuleRef) :
    (∃ fault, m.Fails room fs fault) ∨ ∃ s text, m.Reads room fs s text := by
  cases hparts : Specifier.ofString? m.specifier with
  | none => exact .inl ⟨_, .specifier hparts⟩
  | some s =>
    cases hnull : FileSystem.hasNull (Path.ofString s.path) with
    | true => exact .inl ⟨_, .path hparts hnull⟩
    | false =>
      cases hread : fs.read (Path.ofString s.path) with
      | error fault => exact .inl ⟨_, .file hparts hnull hread⟩
      | ok content =>
        cases hdecode : Utf8.decode content with
        | error fault => exact .inl ⟨_, .encoding hparts hnull hread hdecode⟩
        | ok decoded =>
          have htext : fs.readText (Path.ofString s.path) = .ok (normalizeNewlines decoded) :=
            FileSystem.readText_eq_ok_iff.2 ⟨hnull, content, decoded, hread, hdecode, rfl⟩
          cases hrefusal : (fences (String.ofList (normalizeNewlines decoded))).findSome?
              (Fence.refusal? room) with
          | some refusal => exact .inl ⟨_, .header hparts htext hrefusal⟩
          | none => exact .inr ⟨s, _, hparts, htext, hrefusal⟩

theorem load_eq_error_iff {fault : LoadFault} :
    m.load room fs = .error fault ↔ m.Fails room fs fault := by
  refine ⟨fun h => ?_, load_of_fails⟩
  rcases fails_or_reads room fs m with ⟨found, hfails⟩ | ⟨s, text, hreads⟩
  · rw [load_of_fails hfails] at h
    exact Except.error.inj h ▸ hfails
  · rw [load_of_reads hreads] at h
    cases h

theorem load_eq_ok_iff {chunks : List Chunk} {log : List Event} :
    m.load room fs = .ok (chunks, log) ↔
      ∃ s text, m.Reads room fs s text ∧ chunks = chunksOf room m.langs text ∧
        log = [.chunksLoaded chunks.length s.path] := by
  constructor
  · intro h
    rcases fails_or_reads room fs m with ⟨fault, hfails⟩ | ⟨s, text, hreads⟩
    · rw [load_of_fails hfails] at h
      cases h
    · rw [load_of_reads hreads] at h
      obtain ⟨rfl, rfl⟩ := Prod.mk.inj (Except.ok.inj h)
      exact ⟨s, text, hreads, rfl, rfl⟩
  · rintro ⟨s, text, hreads, rfl, rfl⟩
    exact load_of_reads hreads

/-- What loading reports as its own failure: a text that is no specifier, or a path without a file
that can be read. -/
theorem Fails.isLoadError_iff {fault : LoadFault} (h : m.Fails room fs fault) :
    fault.isLoadError ↔
      Specifier.ofString? m.specifier = none ∨
        ∃ s found, Specifier.ofString? m.specifier = some s ∧
          FileSystem.hasNull (Path.ofString s.path) = false ∧
          fs.read (Path.ofString s.path) = .error found := by
  cases h with
  | specifier hparts => simp [LoadFault.isLoadError, hparts]
  | file hparts hnull hread => simp [LoadFault.isLoadError, hparts, hnull, hread]
  | path hparts hnull => simp [LoadFault.isLoadError, hparts, hnull]
  | encoding hparts hnull hread hdecode => simp [LoadFault.isLoadError, hparts, hread]
  | header hparts htext hrefusal =>
    obtain ⟨-, content, decoded, hread, -⟩ := FileSystem.readText_eq_ok_iff.1 htext
    simp [LoadFault.isLoadError, hparts, hread]

/-- Loading gives the chunks of the file iff its reference reads a text without a header that
cannot be read. It fails with what is in the way of that, and the failure is one of loading itself
iff the specifier cannot be split or no file can be read at its path: a path with a null character,
a file that is no UTF-8 text and a header that is refused are let through. What a header is refused
for stands in a header of the file: an integer that is too long, or brackets that are too deep. -/
theorem load_ends (room : Nat) (fs : FileSystem) (m : ModuleRef) :
    (∀ chunks log, m.load room fs = .ok (chunks, log) ↔
        ∃ s text, Specifier.ofString? m.specifier = some s ∧
          fs.readText (Path.ofString s.path) = .ok text ∧
          (fences (String.ofList text)).findSome? (Fence.refusal? room) = none ∧
          chunks = chunksOf room m.langs text ∧ log = [.chunksLoaded chunks.length s.path]) ∧
      (∀ fault, m.load room fs = .error fault ↔ m.Fails room fs fault) ∧
      (∀ refusal, m.load room fs = .error (.refused refusal) →
        ∃ s text, Specifier.ofString? m.specifier = some s ∧
          fs.readText (Path.ofString s.path) = .ok text ∧
          ∃ f ∈ fences (String.ofList text), refusal.Grounds room f.header.toList) ∧
      ∀ fault, m.load room fs = .error fault →
        (fault.isLoadError ↔
          Specifier.ofString? m.specifier = none ∨
            ∃ s found, Specifier.ofString? m.specifier = some s ∧
              FileSystem.hasNull (Path.ofString s.path) = false ∧
              fs.read (Path.ofString s.path) = .error found) := by
  refine ⟨fun chunks log => ?_, fun _ => load_eq_error_iff, fun refusal h => ?_,
    fun _ h => (load_eq_error_iff.1 h).isLoadError_iff⟩
  · rw [load_eq_ok_iff]
    simp only [Reads, and_assoc]
  · cases load_eq_error_iff.1 h with
    | @header s text _ hparts htext hrefusal =>
      exact ⟨s, text, hparts, htext, exists_grounds_of_findSome? hrefusal⟩

/-- A directory with one file, which has a single byte that is no text. -/
def byteFiles : FileSystem where
  workingDir := []
  node? place :=
    if place = [] then some .directory
    else if place = ["demo.md"] then some (.file [0xff])
    else none

/-- A file that is no text is let through as a failure of decoding: there are no chunks, and no
failure of loading itself. -/
theorem load_byteFiles :
    (ModuleRef.mk "!!demo-loader!demo.md" Settings.defaultLangs).load 990 byteFiles =
        .error (.encoding ⟨0xff, 0, 1, .startByte⟩) ∧
      ¬ ((∃ found, (ModuleRef.mk "!!demo-loader!demo.md" Settings.defaultLangs).load 990 byteFiles =
          .ok found) ∨
        ∃ fault, (ModuleRef.mk "!!demo-loader!demo.md" Settings.defaultLangs).load 990 byteFiles =
          .error fault ∧ fault.isLoadError) := by
  have hload : (ModuleRef.mk "!!demo-loader!demo.md" Settings.defaultLangs).load 990 byteFiles =
      .error (.encoding ⟨0xff, 0, 1, .startByte⟩) := by
    have hparts : Specifier.ofString? "!!demo-loader!demo.md" =
        some ⟨"demo-loader", "demo.md"⟩ := by
      decide
    have hread : byteFiles.read (Path.ofString "demo.md") = .ok [0xff] := by decide
    exact load_of_fails (.encoding hparts (by decide) hread (by decide))
  refine ⟨hload, ?_⟩
  rw [hload]
  rintro (⟨found, h⟩ | ⟨fault, h, hfault⟩)
  · cases h
  · cases h
    cases hfault

end ModuleRef

end ComponentDocs
