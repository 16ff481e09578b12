import ComponentDocs.Example.Chunk
import ComponentDocs.Proofs.Example.Header
import ComponentDocs.Proofs.Fence.Blocks
import ComponentDocs.Proofs.Sections
import ComponentDocs.Proofs.Text.Lines

/-!
# Chunks as text

Chunks that are written as text, with an empty line between them, are cut out of it again:
`chunkify_chunkText`. The lines of each chunk are cut on their own, so the text is first taken apart
into pieces, `textPieces_chunkText`, and then the pieces into chunks.
-/

namespace ComponentDocs

open Text

/-! ## Writing chunks -/

def Chunk.text : Chunk → List Char
  | .markdown content => content.toList
  | .code lang content settings =>
    unlines [fenceMark ++ wordHeader lang settings, content.toList, fenceMark]

/-- Chunks with an empty line between each two of them. -/
def chunkText : List Chunk → List Char
  | [] => []
  | [chunk] => chunk.text
  | chunk :: rest => chunk.text ++ '\n' :: '\n' :: chunkText rest

/-- Markdown that stands as it is: it is not empty, has no white space around it, and no line of it
begins with a fence mark. -/
structure PlainMarkdown (content : String) : Prop where
  ne_empty : content ≠ ""
  trimmed : trim content.toList = content.toList
  unmarked : ∀ line ∈ lines content.toList, ∀ rest, ¬ MarkedWith line rest

/-- Code that is live with settings that words turn on, and that no line of its own closes. -/
structure LiveCode (langs : List String) (lang content : String) (settings : Dict Json) : Prop where
  lang_mem : lang ∈ langs
  lang_chars : ∀ c ∈ lang.toList, ¬ isBlank c ∧ c ≠ '\x60'
  words : settings.AreWords
  not_static : settings.contains "static" = false
  last : ∀ c ∈ content.toList.getLast?, c ≠ '\n'
  unclosed : ∀ line ∈ lines content.toList, ∀ rest, MarkedWith line rest → ¬ ∀ c ∈ rest, isIndent c

/-- Chunks that can be told from the text around them. -/
def Chunk.WellFormed (langs : List String) : Chunk → Prop
  | .markdown content => PlainMarkdown content
  | .code lang content settings => LiveCode langs lang content settings

/-- A chunk whose language can be told from the words after it. Without a language, the first word
would be read as one. -/
def Chunk.Named : Chunk → Prop
  | .markdown _ => True
  | .code lang _ settings => lang = "" → settings.entries = []

def Chunk.isMarkdown : Chunk → Bool
  | .markdown _ => true
  | .code .. => false

/-- Two chunks of which at most one is markdown. -/
def Chunk.Separate (before after : Chunk) : Prop :=
  ¬ (before.isMarkdown ∧ after.isMarkdown)

/-- The same chunk, with its settings in any order. -/
def Chunk.Same : Chunk → Chunk → Prop
  | .markdown content, .markdown content' => content' = content
  | .code lang content settings, .code lang' content' settings' =>
    lang' = lang ∧ content' = content ∧ ∀ key, settings'.get? key = settings.get? key
  | _, _ => False

instance (content : String) : Decidable (PlainMarkdown content) :=
  decidable_of_iff (content ≠ "" ∧ trim content.toList = content.toList ∧
    ∀ line ∈ lines content.toList, afterFenceMark? line = none)
    ⟨fun ⟨hne, htrim, hlines⟩ => ⟨hne, htrim, fun line hline =>
        not_markedWith_iff.2 (hlines line hline)⟩,
      fun h => ⟨h.ne_empty, h.trimmed, fun line hline =>
        not_markedWith_iff.1 (h.unmarked line hline)⟩⟩

instance (langs : List String) (lang content : String) (settings : Dict Json) :
    Decidable (LiveCode langs lang content settings) :=
  decidable_of_iff (lang ∈ langs ∧
    lang.toList.all (fun c => !isBlank c && c != '\x60') ∧
    settings.AreWords ∧ settings.contains "static" = false ∧
    content.toList.getLast? ≠ some '\n' ∧ ∀ line ∈ lines content.toList, ¬ closesFence line)
    ⟨fun ⟨hlang, hchars, hwords, hstatic, hlast, hlines⟩ => ⟨hlang, by simpa using hchars, hwords,
        hstatic, fun c hc hnewline => hlast (hnewline ▸ hc),
        fun line hline => not_closesFence_iff.2 (hlines line hline)⟩,
      fun h => ⟨h.lang_mem, by simpa using h.lang_chars, h.words, h.not_static,
        fun hnewline => h.last '\n' hnewline rfl,
        fun line hline => not_closesFence_iff.1 (h.unclosed line hline)⟩⟩

instance (langs : List String) (chunk : Chunk) : Decidable (chunk.WellFormed langs) :=
  match chunk with
  | .markdown content => inferInstanceAs (Decidable (PlainMarkdown content))
  | .code lang content settings =>
    inferInstanceAs (Decidable (LiveCode langs lang content settings))

instance (chunk : Chunk) : Decidable chunk.Named :=
  match chunk with
  | .markdown _ => inferInstanceAs (Decidable True)
  | .code lang _ settings => inferInstanceAs (Decidable (lang = "" → settings.entries = []))

instance : DecidableRel Chunk.Separate :=
  fun before after => inferInstanceAs (Decidable (¬ (before.isMarkdown ∧ after.isMarkdown)))

/-! ## Pieces -/

def codeBlock (lang content : String) (settings : Dict Json) : FenceLines :=
  ⟨fenceMark ++ wordHeader lang settings, wordHeader lang settings, lines content.toList, fenceMark⟩

def Chunk.pieces : Chunk → List Piece
  | .markdown content => (lines content.toList).map Piece.line
  | .code lang content settings => [.fence (codeBlock lang content settings)]

/-- The pieces of chunks with an empty line between each two of them. -/
def chunkPieces : List Chunk → List Piece
  | [] => [.line []]
  | [chunk] => chunk.pieces
  | chunk :: rest => chunk.pieces ++ .line [] :: chunkPieces rest

theorem not_mem_wordHeader {lang : String} {settings : Dict Json} (h : settings.AreWords) {c : Char}
    (hspace : c ≠ ' ') (hlang : c ∉ lang.toList) (hword : isWord c = false) :
    c ∉ wordHeader lang settings := by
  intro hc
  rcases mem_unwords hc with rfl | ⟨w, hw, hmem⟩
  · exact hspace rfl
  · rcases List.mem_cons.1 hw with rfl | hw
    · exact hlang hmem
    · obtain ⟨key, hkey, rfl⟩ := List.mem_map.1 hw
      obtain ⟨e, he, rfl⟩ := List.mem_map.1 hkey
      obtain ⟨-, -, hchars⟩ := h e he
      rw [hchars c hmem] at hword
      cases hword

-- A chunk is cut on its own, whatever lines come after it.
theorem pieces_lines_append {langs : List String} {chunk : Chunk} (h : chunk.WellFormed langs)
    (rest : List (List Char)) :
    pieces (lines chunk.text ++ rest) = chunk.pieces ++ pieces rest := by
  cases chunk with
  | markdown content =>
    have hplain : PlainMarkdown content := h
    exact pieces_append_of_not_opening
      (fun line hline => openingHeader?_of_unmarked (hplain.unmarked line hline)) rest
  | code lang content settings =>
    have hlive : LiveCode langs lang content settings := h
    have hbacktick : '\x60' ∉ wordHeader lang settings :=
      not_mem_wordHeader hlive.words (by decide) (fun hc => (hlive.lang_chars _ hc).2 rfl)
        (by decide)
    have hnewline : '\n' ∉ fenceMark ++ wordHeader lang settings := by
      rw [List.mem_append, not_or]
      exact ⟨by decide, not_mem_wordHeader hlive.words (by decide)
        (fun hc => (hlive.lang_chars _ hc).1 (by decide)) (by decide)⟩
    have hlines : lines (Chunk.code lang content settings).text =
        (fenceMark ++ wordHeader lang settings) :: lines content.toList ++ [fenceMark] := by
      rw [Chunk.text, lines_unlines_eq_flatMap (List.cons_ne_nil _ _)]
      simp only [List.flatMap_cons, List.flatMap_nil, List.append_nil]
      rw [lines_of_newline_not_mem hnewline]
      rfl
    have hbody : ∀ line ∈ lines content.toList, ¬ closesFence line :=
      fun line hline => not_closesFence_iff.1 (hlive.unclosed line hline)
    rw [hlines, List.append_assoc]
    exact pieces_block (openingHeader?_of_header hbacktick) hbody (by decide) rest

-- An empty line is a piece of its own.
theorem pieces_cons_nil (rest : List (List Char)) :
    pieces ([] :: rest) = .line [] :: pieces rest := by
  have hopening : openingHeader? [] = none := rfl
  exact pieces_cons_of_not_opening hopening rest

/-- The pieces of the text of chunks are those of the chunks. -/
theorem textPieces_chunkText {langs : List String} {chunks : List Chunk}
    (h : ∀ chunk ∈ chunks, chunk.WellFormed langs) :
    textPieces (chunkText chunks) = chunkPieces chunks := by
  induction chunks with
  | nil =>
    change pieces [[]] = [.line []]
    rw [pieces_cons_nil, pieces_nil]
  | cons chunk rest ih =>
    obtain ⟨hchunk, hrest⟩ := List.forall_mem_cons.1 h
    cases rest with
    | nil =>
      have hpieces := pieces_lines_append hchunk []
      rwa [List.append_nil, pieces_nil, List.append_nil] at hpieces
    | cons other others =>
      have htext : lines (chunkText (chunk :: other :: others)) =
          lines chunk.text ++ [] :: lines (chunkText (other :: others)) := by
        rw [← lines_cons_newline, ← lines_append_newline]
        rfl
      rw [textPieces, htext, pieces_lines_append hchunk, pieces_cons_nil]
      exact congrArg (chunk.pieces ++ .line [] :: ·) (ih hrest)

/-! ## Chunks of pieces -/

variable {room : Nat}

/-- The chunks of some pieces. -/
def chunksOfPieces (room : Nat) (langs : List String) (found : List Piece) : List Chunk :=
  markdownChunk (sections (Piece.live? room langs) found).1 ++
    (sections (Piece.live? room langs) found).2.flatMap fun (f, run) =>
      f.chunk room :: markdownChunk run

-- A live block is a chunk, and the text after it goes on without it.
theorem chunksOfPieces_cons_live {langs : List String} {p : Piece} {f : FenceLines}
    (h : p.live? room langs = some f) (rest : List Piece) :
    chunksOfPieces room langs (p :: rest) = f.chunk room :: chunksOfPieces room langs rest := by
  rw [chunksOfPieces, sections_cons_some h]
  rfl

-- Pieces that are not live are one chunk with the others before the first live block.
theorem chunksOfPieces_append {langs : List String} {run rest : List Piece}
    (hrun : ∀ p ∈ run, p.live? room langs = none)
    (hrest : (sections (Piece.live? room langs) rest).1 = []) :
    chunksOfPieces room langs (run ++ rest) =
      markdownChunk run ++ chunksOfPieces room langs rest := by
  rw [chunksOfPieces, sections_append_of_none hrun, chunksOfPieces, hrest, List.append_nil]
  rfl

theorem live?_line (langs : List String) (text : List Char) :
    (Piece.line text).live? room langs = none := rfl

-- An empty line makes no difference to the markdown below it.
theorem chunksOfPieces_cons_nil (langs : List String) (rest : List Piece) :
    chunksOfPieces room langs (.line [] :: rest) = chunksOfPieces room langs rest := by
  have hmarkdown (run : List Piece) : markdownChunk (.line [] :: run) = markdownChunk run := by
    unfold markdownChunk
    cases run with
    | nil => rfl
    | cons p others =>
      have htrim : trim (unlines ((Piece.line [] :: p :: others).map Piece.text)) =
          trim (unlines ((p :: others).map Piece.text)) :=
        trim_cons_of_blank (by decide) _
      rw [htrim]
  rw [chunksOfPieces, sections_cons_none (live?_line langs []), hmarkdown]
  rfl

theorem markdownChunk_of_trim {run : List Piece} {content : String}
    (h : trim (unlines (run.map Piece.text)) = content.toList) (hne : content ≠ "") :
    markdownChunk run = [.markdown content] := by
  unfold markdownChunk
  rw [h]
  split
  · rename_i hnil
    exact absurd (String.toList_eq_nil_iff.1 hnil) hne
  · rw [String.ofList_toList]

theorem map_text_lines (ls : List (List Char)) : (ls.map Piece.line).map Piece.text = ls := by
  rw [List.map_map]
  exact List.map_id ls

/-! ## Live blocks -/

section

variable {langs : List String} {lang content : String} {settings : Dict Json}

/-- Live code whose language can be told from the words after it. -/
structure NamedCode (langs : List String) (lang content : String) (settings : Dict Json) : Prop
    extends LiveCode langs lang content settings where
  nameless : lang = "" → settings.entries = []

theorem NamedCode.eq_empty (h : NamedCode langs lang content settings) (hlang : lang = "") :
    settings = Dict.empty :=
  Dict.ext (h.nameless hlang)

theorem NamedCode.not_blank (h : NamedCode langs lang content settings) :
    ∀ c ∈ lang.toList, ¬ isBlank c :=
  fun c hc => (h.lang_chars c hc).1

theorem NamedCode.info (h : NamedCode langs lang content settings) :
    (codeBlock lang content settings).info = wordHeader lang settings :=
  trim_wordHeader h.not_blank h.words h.eq_empty

theorem NamedCode.lang_codeBlock (h : NamedCode langs lang content settings) :
    String.ofList (codeBlock lang content settings).lang = lang := by
  rw [FenceLines.lang, h.info, takeWhile_wordHeader h.not_blank, String.ofList_toList]

theorem NamedCode.reading (h : NamedCode langs lang content settings) :
    ((codeBlock lang content settings).reading room).settings = ExampleSettings.ofWords settings ∧
      ((codeBlock lang content settings).reading room).fault = none := by
  rw [FenceLines.reading, h.info]
  exact Header.readChars_wordHeader room h.not_blank h.words h.eq_empty

theorem NamedCode.refusal? (h : NamedCode langs lang content settings) :
    ((codeBlock lang content settings).reading room).refusal? = none := by
  rw [Header.refusal?, h.reading.2]

theorem NamedCode.live? (h : NamedCode langs lang content settings) :
    (Piece.fence (codeBlock lang content settings)).live? room langs =
      some (codeBlock lang content settings) := by
  have hstatic : ((codeBlock lang content settings).reading room).settings.static = false := by
    rw [h.reading.1]
    exact h.not_static
  have hlang : langs.contains (String.ofList (codeBlock lang content settings).lang) = true := by
    rw [h.lang_codeBlock, List.contains_iff_mem]
    exact h.lang_mem
  exact if_pos (by rw [hlang, hstatic]; rfl)

theorem NamedCode.code (h : NamedCode langs lang content settings) :
    String.ofList (codeBlock lang content settings).code = content := by
  have hlast : dropEndWhile (· == '\n') content.toList = content.toList := by
    refine List.rdropWhile_eq_self_iff.2 fun hne hnewline => ?_
    exact h.last _ (List.getLast?_eq_getLast_of_ne_nil hne) (beq_iff_eq.1 hnewline)
  have hcode : (codeBlock lang content settings).code =
      dropEndWhile (· == '\n') (unlines (lines content.toList)) := rfl
  rw [hcode, unlines_lines, hlast, String.ofList_toList]

theorem NamedCode.same (h : NamedCode langs lang content settings) :
    (Chunk.code lang content settings).Same ((codeBlock lang content settings).chunk room) := by
  refine ⟨h.lang_codeBlock, h.code, fun key => ?_⟩
  rw [h.reading.1]
  exact ExampleSettings.get?_changes_ofWords h.words key

-- Plain markdown is a chunk of its own, with or without an empty line after it.
theorem PlainMarkdown.chunksOfPieces_append {content : String} (h : PlainMarkdown content)
    {back : List (List Char)} (hback : back = [] ∨ back = [[]]) {rest : List Piece}
    (hrest : (sections (Piece.live? room langs) rest).1 = []) :
    chunksOfPieces room langs ((lines content.toList ++ back).map Piece.line ++ rest) =
      .markdown content :: chunksOfPieces room langs rest := by
  have hrun : ∀ p ∈ (lines content.toList ++ back).map Piece.line, p.live? room langs = none := by
    intro p hp
    obtain ⟨line, -, rfl⟩ := List.mem_map.1 hp
    exact live?_line langs line
  have htrim : trim (unlines (lines content.toList ++ back)) = content.toList := by
    rcases hback with rfl | rfl
    · rw [List.append_nil, unlines_lines, h.trimmed]
    · have hnewline : ∀ c ∈ '\n' :: unlines [[]], isBlank c := by
        intro c hc
        rw [List.mem_singleton.1 hc]
        rfl
      rw [unlines_append (lines_ne_nil _) (List.cons_ne_nil _ _), unlines_lines,
        trim_append_of_blank hnewline, h.trimmed]
  have hmarkdown : markdownChunk ((lines content.toList ++ back).map Piece.line) =
      [.markdown content] :=
    markdownChunk_of_trim (by rw [map_text_lines, htrim]) h.ne_empty
  rw [ComponentDocs.chunksOfPieces_append hrun hrest, hmarkdown]
  rfl

end

/-! ## Reading chunks back -/

/-- Chunks that are read as they have been written. -/
def Chunk.Readable (langs : List String) (chunk : Chunk) : Prop :=
  chunk.WellFormed langs ∧ chunk.Named

-- A live block comes first in the pieces of chunks of which it is the first one.
theorem sections_chunkPieces_code {langs : List String} {lang content : String}
    {settings : Dict Json} (h : NamedCode langs lang content settings) (rest : List Chunk) :
    (sections (Piece.live? room langs) (chunkPieces (.code lang content settings :: rest))).1 =
      [] := by
  obtain ⟨others, hpieces⟩ : ∃ others, chunkPieces (.code lang content settings :: rest) =
      .fence (codeBlock lang content settings) :: others := by
    cases rest with
    | nil => exact ⟨[], rfl⟩
    | cons chunk others => exact ⟨_, rfl⟩
  rw [hpieces, sections_cons_some h.live?]

-- The first chunk, and then the chunks of the pieces below the empty line.
theorem chunksOfPieces_cons {langs : List String} {chunk other : Chunk}
    (hchunk : chunk.Readable langs) (hother : other.Readable langs)
    (hseparate : chunk.Separate other) (others : List Chunk) :
    ∃ found, chunk.Same found ∧ chunksOfPieces room langs (chunkPieces (chunk :: other :: others)) =
      found :: chunksOfPieces room langs (chunkPieces (other :: others)) := by
  cases chunk with
  | code lang content settings =>
    have hlive : NamedCode langs lang content settings := ⟨hchunk.1, hchunk.2⟩
    refine ⟨((codeBlock lang content settings).chunk room), hlive.same, ?_⟩
    rw [← chunksOfPieces_cons_nil langs (chunkPieces (other :: others))]
    exact chunksOfPieces_cons_live hlive.live? _
  | markdown content =>
    have hplain : PlainMarkdown content := hchunk.1
    refine ⟨.markdown content, rfl, ?_⟩
    cases other with
    | markdown _ => exact absurd ⟨rfl, rfl⟩ hseparate
    | code lang code settings =>
      have hpieces : chunkPieces (.markdown content :: .code lang code settings :: others) =
          (lines content.toList ++ [[]]).map Piece.line ++
            chunkPieces (.code lang code settings :: others) := by
        rw [List.map_append, List.append_assoc]
        rfl
      have hlive : NamedCode langs lang code settings := ⟨hother.1, hother.2⟩
      rw [hpieces]
      exact hplain.chunksOfPieces_append (.inr rfl) (sections_chunkPieces_code hlive others)

theorem chunksOfPieces_singleton {langs : List String} {chunk : Chunk}
    (h : chunk.Readable langs) :
    ∃ found, chunk.Same found ∧ chunksOfPieces room langs (chunkPieces [chunk]) = [found] := by
  cases chunk with
  | code lang content settings =>
    have hlive : NamedCode langs lang content settings := ⟨h.1, h.2⟩
    exact ⟨_, hlive.same, chunksOfPieces_cons_live hlive.live? []⟩
  | markdown content =>
    have hplain : PlainMarkdown content := h.1
    have hnone : (sections (Piece.live? room langs) []).1 = [] := rfl
    have hchunks := hplain.chunksOfPieces_append (.inl rfl) hnone
    rw [List.append_nil, List.append_nil] at hchunks
    exact ⟨.markdown content, rfl, hchunks⟩

theorem forall₂_chunksOfPieces {langs : List String} {chunks : List Chunk}
    (hseparate : chunks.IsChain Chunk.Separate) (h : ∀ chunk ∈ chunks, chunk.Readable langs) :
    List.Forall₂ Chunk.Same chunks (chunksOfPieces room langs (chunkPieces chunks)) := by
  induction chunks with
  | nil =>
    rw [chunkPieces, chunksOfPieces_cons_nil]
    exact List.Forall₂.nil
  | cons chunk rest ih =>
    obtain ⟨hchunk, hrest⟩ := List.forall_mem_cons.1 h
    cases rest with
    | nil =>
      obtain ⟨found, hsame, hfound⟩ := chunksOfPieces_singleton hchunk
      rw [hfound]
      exact List.Forall₂.cons hsame List.Forall₂.nil
    | cons other others =>
      obtain ⟨hfirst, hothers⟩ := List.isChain_cons_cons.1 hseparate
      obtain ⟨found, hsame, hfound⟩ :=
        chunksOfPieces_cons hchunk (hrest other List.mem_cons_self) hfirst others
      rw [hfound]
      exact List.Forall₂.cons hsame (ih hothers hrest)

theorem mem_chunkPieces {chunks : List Chunk} {p : Piece} (h : p ∈ chunkPieces chunks) :
    p = .line [] ∨ ∃ chunk ∈ chunks, p ∈ chunk.pieces := by
  induction chunks with
  | nil => exact .inl (List.mem_singleton.1 h)
  | cons chunk rest ih =>
    cases rest with
    | nil => exact .inr ⟨chunk, List.mem_cons_self, h⟩
    | cons other others =>
      rw [chunkPieces, List.mem_append, List.mem_cons] at h
      · rcases h with hchunk | rfl | hrest
        · exact .inr ⟨chunk, List.mem_cons_self, hchunk⟩
        · exact .inl rfl
        · rcases ih hrest with hline | ⟨chunk', hmem, hp⟩
          · exact .inl hline
          · exact .inr ⟨chunk', List.mem_cons_of_mem chunk hmem, hp⟩
      · simp

-- Every block among the pieces is one of the chunks, so its header can be read.
theorem refusal?_of_mem_chunkPieces {langs : List String} {chunks : List Chunk}
    (h : ∀ chunk ∈ chunks, chunk.Readable langs) {f : FenceLines}
    (hf : Piece.fence f ∈ chunkPieces chunks) : (f.reading room).refusal? = none := by
  rcases mem_chunkPieces hf with hline | ⟨chunk, hmem, hp⟩
  · cases hline
  · cases chunk with
    | markdown content =>
      obtain ⟨line, -, hline⟩ := List.mem_map.1 hp
      cases hline
    | code lang content settings =>
      have hlive : NamedCode langs lang content settings := ⟨(h _ hmem).1, (h _ hmem).2⟩
      obtain rfl : f = codeBlock lang content settings :=
        Piece.fence.inj (List.mem_singleton.1 hp)
      exact hlive.refusal?

theorem refusal?_chunkText {langs : List String} {chunks : List Chunk}
    (h : ∀ chunk ∈ chunks, chunk.Readable langs) : refusal? room (chunkText chunks) = none := by
  unfold refusal?
  rw [textPieces_chunkText fun chunk hmem => (h chunk hmem).1, List.findSome?_eq_none_iff]
  intro f hf
  obtain ⟨p, hp, hfence⟩ := List.mem_filterMap.1 hf
  cases p with
  | line text => cases hfence
  | fence g =>
    obtain rfl := Option.some.inj hfence
    rw [refusal?_of_mem_chunkPieces h hp]

/-- Chunks that are written with an empty line between each two of them are read again, if the code
has a language or no settings. -/
theorem chunkify_chunkText (room : Nat) {langs : List String} {chunks : List Chunk}
    (hseparate : chunks.IsChain Chunk.Separate) (hwell : ∀ chunk ∈ chunks, chunk.WellFormed langs)
    (hnamed : ∀ chunk ∈ chunks, chunk.Named) :
    ∃ found, chunkify room langs (String.ofList (chunkText chunks)) = .ok found ∧
      List.Forall₂ Chunk.Same chunks found := by
  have hreadable : ∀ chunk ∈ chunks, chunk.Readable langs :=
    fun chunk hmem => ⟨hwell chunk hmem, hnamed chunk hmem⟩
  have hchunks : chunksOf room langs (chunkText chunks) =
      chunksOfPieces room langs (chunkPieces chunks) := by
    rw [← textPieces_chunkText hwell]
    rfl
  refine ⟨chunksOfPieces room langs (chunkPieces chunks), ?_,
    forall₂_chunksOfPieces hseparate hreadable⟩
  rw [chunkify, String.toList_ofList, refusal?_chunkText hreadable, hchunks]

/-- Markdown with two blocks of code after it, the second one empty. -/
def introducedChunks : List Chunk :=
  [.markdown "Intro", .code "jsx" "<Button />\n```js" (Dict.ofList [("showcode", .bool true)]),
    .code "jsx" "" Dict.empty]

theorem chunkify_chunkText_introduced :
    introducedChunks.IsChain Chunk.Separate ∧
      (∀ chunk ∈ introducedChunks, chunk.WellFormed ["jsx"]) ∧
      (∀ chunk ∈ introducedChunks, chunk.Named) ∧
      ∃ found, chunkify 990 ["jsx"] (String.ofList (chunkText introducedChunks)) = .ok found ∧
        List.Forall₂ Chunk.Same introducedChunks found := by
  have hseparate : introducedChunks.IsChain Chunk.Separate := by decide
  have hwell : ∀ chunk ∈ introducedChunks, chunk.WellFormed ["jsx"] := by decide +kernel
  have hnamed : ∀ chunk ∈ introducedChunks, chunk.Named := by decide
  exact ⟨hseparate, hwell, hnamed, chunkify_chunkText 990 hseparate hwell hnamed⟩

/-- Code without a language, with a setting. -/
def namelessChunks : List Chunk :=
  [.code "" "x" (Dict.ofList [("render", .bool true)])]

/-- The setting is read as the language, which is none of the playground. -/
theorem chunkify_chunkText_nameless :
    ¬ ∀ room langs chunks, chunks.IsChain Chunk.Separate →
      (∀ chunk ∈ chunks, Chunk.WellFormed langs chunk) →
      ∃ found, chunkify room langs (String.ofList (chunkText chunks)) = .ok found ∧
        List.Forall₂ Chunk.Same chunks found := by
  intro h
  have hwell : ∀ chunk ∈ namelessChunks, chunk.WellFormed [""] := by decide +kernel
  obtain ⟨found, hfound, hsame⟩ := h 990 [""] namelessChunks (by decide) hwell
  have hrun : ((chunkify 990 [""] (String.ofList (chunkText namelessChunks))).toOption.any
      fun found => found.all Chunk.isMarkdown) = true := by
    decide +kernel
  rw [hfound] at hrun
  cases hsame with
  | @cons _ chunk _ _ hfirst _ =>
    -- the same chunk would be code
    have hmarkdown : chunk.isMarkdown = true := List.all_eq_true.1 hrun chunk List.mem_cons_self
    cases chunk with
    | markdown content => exact hfirst
    | code lang content settings => cases hmarkdown

end ComponentDocs
