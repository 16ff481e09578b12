import ComponentDocs.Proofs.Example.Chunk
import ComponentDocs.Proofs.Example.Fault
import ComponentDocs.Proofs.Example.Unreadable
import ComponentDocs.Proofs.Fence.Spans

/-!
# Chunks in their places

An examples file is cut at the spans of its live blocks. The blocks are its code, what stands
between them is its markdown, and together they spell the file: `chunkify_cuts`.
-/

namespace ComponentDocs

open Text

/-! ## Gaps between blocks -/

section

variable {β : Type}

/-- Lists with one element between each two of them. -/
def weave : List (List β) → List β → List β
  | gap :: gaps, b :: rest => gap ++ b :: weave gaps rest
  | gaps, _ => gaps.flatten

end

/-- The text of a block with its fence marks. -/
def Fence.span (s : List Char) (f : Fence) : List Char :=
  (s.drop f.start).take (f.stop - f.start)

/-- What a text has, from a position on, before, between and after the spans of some blocks. -/
def gaps (s : List Char) (position : Nat) : List Fence → List (List Char)
  | [] => [s.drop position]
  | f :: rest => (s.drop position).take (f.start - position) :: gaps s f.stop rest

/-- The gaps and the spans spell the text. -/
theorem flatten_weave_gaps {s : List Char} {position : Nat} {found : List Fence}
    (hfirst : ∀ f ∈ found, position ≤ f.start ∧ f.start ≤ f.stop)
    (hapart : found.Pairwise fun f g => f.stop < g.start) :
    (weave ((gaps s position found).map fun gap => [gap]) (found.map (Fence.span s))).flatten =
      s.drop position := by
  induction found generalizing position with
  | nil => simp [gaps, weave]
  | cons f rest ih =>
    obtain ⟨hf, hrest⟩ := List.pairwise_cons.1 hapart
    obtain ⟨hstart, hstop⟩ := hfirst f List.mem_cons_self
    have hbelow : ∀ g ∈ rest, f.stop ≤ g.start ∧ g.start ≤ g.stop := fun g hg =>
      ⟨(hf g hg).le, (hfirst g (List.mem_cons_of_mem f hg)).2⟩
    have hgap : s.drop position =
        (s.drop position).take (f.start - position) ++ s.drop f.start := by
      have hdrop : s.drop f.start = (s.drop position).drop (f.start - position) := by
        rw [List.drop_drop, Nat.add_sub_cancel' hstart]
      rw [hdrop, List.take_append_drop]
    have hspan : s.drop f.start = f.span s ++ s.drop f.stop := by
      have hdrop : s.drop f.stop = (s.drop f.start).drop (f.stop - f.start) := by
        rw [List.drop_drop, Nat.add_sub_cancel' hstop]
      rw [hdrop, Fence.span, List.take_append_drop]
    rw [gaps, List.map_cons, List.map_cons, weave, List.singleton_append, List.flatten_cons,
      List.flatten_cons, ih hbelow hrest, ← hspan, ← hgap]

/-! ## Live blocks and the text around them -/

/-- Whether a block is live in a playground of the given languages. -/
def Fence.isLive (room : Nat) (langs : List String) (f : Fence) : Bool :=
  langs.contains f.lang && !(Header.read room f.header).settings.static

/-- The code of a block, with the settings of its header. -/
def Fence.chunk (room : Nat) (f : Fence) : Chunk :=
  .code f.lang f.code (Header.read room f.header).settings.changes

/-- Why the header of a block is refused, if it is. -/
def Fence.refusal? (room : Nat) (f : Fence) : Option Json.Refusal :=
  (Header.read room f.header).refusal?

/-- Trimmed text as markdown, unless it is blank. -/
def textChunk (s : List Char) : List Chunk :=
  match trim s with
  | [] => []
  | content => [.markdown (String.ofList content)]

/-- The chunks of a text from a position on, when its live blocks from there on are given. -/
def chunksAround (room : Nat) (s : List Char) (position : Nat) (live : List Fence) : List Chunk :=
  weave ((gaps s position live).map textChunk) (live.map (Fence.chunk room))

variable {room : Nat}

theorem chunksAround_nil (s : List Char) (position : Nat) :
    chunksAround room s position [] = textChunk (s.drop position) := by
  simp [chunksAround, gaps, weave]

theorem chunksAround_cons (s : List Char) (position : Nat) (f : Fence) (rest : List Fence) :
    chunksAround room s position (f :: rest) =
      textChunk ((s.drop position).take (f.start - position)) ++
        f.chunk room :: chunksAround room s f.stop rest :=
  rfl

theorem read_header_located (f : FenceLines) (start stop : Nat) :
    Header.read room (f.located start stop).header = f.reading room := by
  change Header.readChars room (String.ofList f.info).toList = _
  rw [String.toList_ofList]
  rfl

theorem chunk_located (f : FenceLines) (start stop : Nat) :
    (f.located start stop).chunk room = f.chunk room := by
  rw [Fence.chunk, read_header_located]
  rfl

theorem live?_fence (langs : List String) (f : FenceLines) (start stop : Nat) :
    (Piece.fence f).live? room langs =
      if (f.located start stop).isLive room langs then some f else none := by
  rw [Fence.isLive, read_header_located]
  rfl

theorem filter_isLive_cons (langs : List String) (start : Nat) (p : Piece) (rest : List Piece) :
    (fencesFrom start (p :: rest)).filter (Fence.isLive room langs) =
      ((p.live? room langs).map fun f => f.located start (start + p.text.length)).toList ++
        (fencesFrom (start + p.text.length + 1) rest).filter (Fence.isLive room langs) := by
  rw [fencesFrom_cons, List.filter_append]
  cases p with
  | line text => rfl
  | fence f =>
    rw [live?_fence langs f start (start + (Piece.fence f).text.length)]
    by_cases hlive : (f.located start (start + (Piece.fence f).text.length)).isLive room langs
    · simp [Piece.fence?, hlive]
    · simp [Piece.fence?, hlive]

/-! ## The text of pieces -/

theorem endedPieces_eq_endedLines (found : List Piece) :
    endedPieces found = endedLines (found.map Piece.text) := by
  induction found with
  | nil => rfl
  | cons p rest ih => rw [endedPieces_cons, ih, List.map_cons, endedLines_cons]

theorem endedPieces_concat (run : List Piece) (p : Piece) :
    endedPieces (run ++ [p]) = endedPieces run ++ (p.text ++ ['\n']) := by
  rw [endedPieces_eq_endedLines, List.map_append, List.map_singleton, endedLines_append,
    ← endedPieces_eq_endedLines, endedLines_cons]
  rfl

theorem textChunk_of_trim {s t : List Char} (h : trim s = trim t) : textChunk s = textChunk t := by
  rw [textChunk, h, textChunk]

theorem trim_append_newline (s : List Char) : trim (s ++ ['\n']) = trim s :=
  trim_append_of_blank (by simp [isBlank]) s

-- The markdown of pieces does not depend on the newlines around them.
theorem markdownChunk_eq {lead : List Char} (hlead : ∀ c ∈ lead, isBlank c) (run : List Piece) :
    markdownChunk run = textChunk (lead ++ endedPieces run) := by
  have hmarkdown : markdownChunk run = textChunk (unlines (run.map Piece.text)) := rfl
  rw [hmarkdown]
  refine textChunk_of_trim ?_
  rw [trim_blank_append hlead, endedPieces_eq_endedLines]
  by_cases hrun : run.map Piece.text = []
  · rw [hrun]
    rfl
  · rw [endedLines_eq hrun, trim_append_newline]

/-! ## Cutting -/

theorem take_drop_of_append_eq {α : Type} {s a b : List α} {last : α} (h : s ++ [last] = a ++ b)
    (hb : b ≠ []) : s.take a.length = a ∧ s.drop a.length ++ [last] = b := by
  obtain ⟨front, c, rfl⟩ := (List.eq_nil_or_concat' b).resolve_left hb
  rw [← List.append_assoc] at h
  obtain ⟨rfl, hlast⟩ := List.append_inj' h rfl
  exact ⟨List.take_left, by rw [List.drop_left, hlast]⟩

-- A block ends the gap before it, and the next gap begins with the newline after the block.
theorem take_drop_block {s lead block rest : List Char} {position : Nat}
    (h : s.drop position ++ ['\n'] = lead ++ (block ++ '\n' :: rest)) :
    (s.drop position).take (position + lead.length - position) = lead ∧
      s.drop (position + lead.length + block.length) ++ ['\n'] = '\n' :: rest := by
  rw [Nat.add_sub_cancel_left]
  refine ⟨(take_drop_of_append_eq h (by simp)).1, ?_⟩
  rw [← List.append_assoc] at h
  have hbehind := (take_drop_of_append_eq h (List.cons_ne_nil _ _)).2
  rwa [List.drop_drop, List.length_append, ← Nat.add_assoc] at hbehind

/-- Pieces that are not live belong to the gap before the next live block, from the position of the
last one on. -/
theorem chunksAround_fencesFrom {langs : List String} {s lead : List Char} {position : Nat}
    {run rest : List Piece} (hlead : ∀ c ∈ lead, isBlank c)
    (hrun : ∀ p ∈ run, p.live? room langs = none)
    (hs : s.drop position ++ ['\n'] = lead ++ endedPieces run ++ endedPieces rest) :
    chunksAround room s position
        ((fencesFrom (position + (lead ++ endedPieces run).length) rest).filter
          (Fence.isLive room langs)) =
      chunksOfPieces room langs (run ++ rest) := by
  induction rest generalizing lead position run with
  | nil =>
    have htext : textChunk (s.drop position) = textChunk (lead ++ endedPieces run) := by
      refine textChunk_of_trim ?_
      rw [← trim_append_newline, hs]
      exact congrArg trim (List.append_nil _)
    rw [fencesFrom, List.filter_nil, chunksAround_nil, htext, List.append_nil, chunksOfPieces,
      sections_of_none hrun, markdownChunk_eq hlead]
    exact (List.append_nil _).symm
  | cons p others ih =>
    rw [endedPieces_cons] at hs
    rw [filter_isLive_cons]
    cases hp : p.live? room langs with
    | none =>
      -- a piece that is not live joins the gap
      have hrun' : ∀ q ∈ run ++ [p], q.live? room langs = none :=
        List.forall_mem_append.2 ⟨hrun, List.forall_mem_singleton.2 hp⟩
      have hs' : s.drop position ++ ['\n'] =
          lead ++ endedPieces (run ++ [p]) ++ endedPieces others := by
        rw [hs, endedPieces_concat]
        simp only [List.append_assoc, List.cons_append, List.nil_append]
      have hplace : position + (lead ++ endedPieces (run ++ [p])).length =
          position + (lead ++ endedPieces run).length + p.text.length + 1 := by
        rw [endedPieces_concat]
        simp only [List.length_append, List.length_singleton]
        omega
      have hrest := ih hlead hrun' hs'
      rw [hplace, List.append_assoc, List.singleton_append] at hrest
      exact hrest
    | some f =>
      obtain ⟨hgap, hbehind⟩ := take_drop_block hs
      have hnewline : ∀ c ∈ ['\n'], isBlank c := by simp [isBlank]
      have hempty : ∀ q ∈ ([] : List Piece), q.live? room langs = none := by simp
      have hrest := ih hnewline hempty hbehind
      have hnone : (sections (Piece.live? room langs) (p :: others)).1 = [] := by
        rw [sections_cons_some hp]
      rw [chunksOfPieces_append hrun hnone, chunksOfPieces_cons_live hp, markdownChunk_eq hlead]
      change chunksAround room s position (f.located _ _ :: _) = _
      rw [chunksAround_cons, chunk_located]
      change textChunk ((s.drop position).take (position + (lead ++ endedPieces run).length -
        position)) ++ f.chunk room :: chunksAround room s _ _ = _
      rw [hgap]
      exact congrArg (textChunk (lead ++ endedPieces run) ++ f.chunk room :: ·) hrest

/-! ## All chunks -/

theorem textChunk_cases (s : List Char) :
    textChunk s = [] ∨
      ∃ content : String, textChunk s = [.markdown content] ∧ content.toList = trim s ∧
        content ≠ "" := by
  unfold textChunk
  cases hs : trim s with
  | nil => exact .inl rfl
  | cons c rest =>
    refine .inr ⟨String.ofList (c :: rest), rfl, String.toList_ofList, fun hempty => ?_⟩
    have hnil := congrArg String.toList hempty
    rw [String.toList_ofList] at hnil
    cases hnil

theorem filter_code_chunksAround (s : List Char) (position : Nat) (live : List Fence) :
    (chunksAround room s position live).filter (!·.isMarkdown) = live.map (Fence.chunk room) := by
  have hgap : ∀ gap, (textChunk gap).filter (!·.isMarkdown) = [] := by
    intro gap
    obtain hnil | ⟨content, hcontent, -⟩ := textChunk_cases gap
    · rw [hnil]
      rfl
    · rw [hcontent]
      rfl
  induction live generalizing position with
  | nil => rw [chunksAround_nil, hgap, List.map_nil]
  | cons f rest ih =>
    rw [chunksAround_cons, List.filter_append, hgap, List.nil_append,
      List.filter_cons_of_pos (by rfl), ih, List.map_cons]

-- Code is separate from whatever stands beside it.
theorem isChain_cons_code {chunk : Chunk} (h : chunk.isMarkdown = false) {rest : List Chunk}
    (hrest : rest.IsChain Chunk.Separate) : (chunk :: rest).IsChain Chunk.Separate := by
  cases rest with
  | nil => exact .singleton chunk
  | cons other others =>
    refine .cons_cons (fun hmarkdown => ?_) hrest
    rw [h] at hmarkdown
    cases hmarkdown.1

theorem isChain_chunksAround (s : List Char) (position : Nat) (live : List Fence) :
    (chunksAround room s position live).IsChain Chunk.Separate := by
  induction live generalizing position with
  | nil =>
    rw [chunksAround_nil]
    obtain hnil | ⟨content, hcontent, -⟩ := textChunk_cases (s.drop position)
    · rw [hnil]
      exact .nil
    · rw [hcontent]
      exact .singleton _
  | cons f rest ih =>
    have hnot : (f.chunk room).isMarkdown = false := rfl
    have hcode := isChain_cons_code hnot (ih f.stop)
    rw [chunksAround_cons]
    obtain hnil | ⟨content, hcontent, -⟩ :=
      textChunk_cases ((s.drop position).take (f.start - position))
    · rw [hnil]
      exact hcode
    · rw [hcontent]
      exact .cons_cons (fun hmarkdown => by cases hmarkdown.2) hcode

theorem trim_of_mem_chunksAround {s : List Char} {position : Nat} {live : List Fence}
    {content : String} (h : .markdown content ∈ chunksAround room s position live) :
    content ≠ "" ∧ trim content.toList = content.toList := by
  have hgap : ∀ gap, Chunk.markdown content ∈ textChunk gap →
      content ≠ "" ∧ trim content.toList = content.toList := by
    intro gap hmem
    obtain hnil | ⟨found, hfound, htrim, hne⟩ := textChunk_cases gap
    · rw [hnil] at hmem
      cases hmem
    · rw [hfound, List.mem_singleton] at hmem
      obtain rfl := Chunk.markdown.inj hmem
      exact ⟨hne, by rw [htrim, trim_trim]⟩
  induction live generalizing position with
  | nil =>
    rw [chunksAround_nil] at h
    exact hgap _ h
  | cons f rest ih =>
    rw [chunksAround_cons, List.mem_append, List.mem_cons] at h
    rcases h with h | h | h
    · exact hgap _ h
    · cases h
    · exact ih h

/-- The live blocks of a text. -/
def liveFences (room : Nat) (langs : List String) (text : String) : List Fence :=
  (fences text).filter (Fence.isLive room langs)

/-- The chunks of a text that is cut at the spans of its live blocks: their code, and in its place
the text between them, trimmed, where that is not blank. -/
structure CutOf (room : Nat) (langs : List String) (text : String) (chunks : List Chunk) :
    Prop where
  spelled : (weave ((gaps text.toList 0 (liveFences room langs text)).map fun gap => [gap])
    ((liveFences room langs text).map (Fence.span text.toList))).flatten = text.toList
  inPlace : chunks = weave ((gaps text.toList 0 (liveFences room langs text)).map textChunk)
    ((liveFences room langs text).map (Fence.chunk room))
  code : chunks.filter (!·.isMarkdown) = (liveFences room langs text).map (Fence.chunk room)
  separate : chunks.IsChain Chunk.Separate
  notBlank : ∀ content, .markdown content ∈ chunks →
    content ≠ "" ∧ trim content.toList = content.toList

-- What stands between some blocks of a text, and their spans, spell the text.
theorem flatten_weave_of_sublist {text : String} {found : List Fence}
    (h : found.Sublist (fences text)) :
    (weave ((gaps text.toList 0 found).map fun gap => [gap])
      (found.map (Fence.span text.toList))).flatten = text.toList := by
  have hplace : ∀ f ∈ found, 0 ≤ f.start ∧ f.start ≤ f.stop := by
    intro f hf
    obtain ⟨before, g, after, hstands⟩ := stands_of_mem_fences (h.subset hf)
    rw [hstands.start, hstands.stop]
    exact ⟨Nat.zero_le _, Nat.le_add_right _ _⟩
  exact flatten_weave_gaps hplace ((pairwise_fencesFrom 0 _).sublist h)

theorem cutOf_chunksOf (langs : List String) (text : String) :
    CutOf room langs text (chunksOf room langs text.toList) := by
  have hspell : text.toList.drop 0 ++ ['\n'] = [] ++ endedPieces [] ++
      endedPieces (textPieces text.toList) :=
    (endedPieces_textPieces text.toList).symm
  have hlead : ∀ c ∈ ([] : List Char), isBlank c := by simp
  have hrun : ∀ p ∈ ([] : List Piece), p.live? room langs = none := by simp
  have hchunks : chunksOf room langs text.toList =
      chunksAround room text.toList 0 (liveFences room langs text) :=
    (chunksAround_fencesFrom hlead hrun hspell).symm
  rw [hchunks]
  exact ⟨flatten_weave_of_sublist List.filter_sublist, rfl, filter_code_chunksAround _ _ _,
    isChain_chunksAround _ _ _, fun _ h => trim_of_mem_chunksAround h⟩

theorem refusal?_eq_findSome? (text : String) :
    refusal? room text.toList = (fences text).findSome? (Fence.refusal? room) := by
  have hfrom : ∀ start found, (fencesFrom start found).findSome? (Fence.refusal? room) =
      (found.filterMap Piece.fence?).findSome? fun f => (f.reading room).refusal? := by
    intro start found
    induction found generalizing start with
    | nil => rfl
    | cons p rest ih =>
      rw [fencesFrom_cons, List.findSome?_append, ih]
      cases p with
      | line text => rfl
      | fence f =>
        have hlocated : Fence.refusal? room (f.located start
            (start + (Piece.fence f).text.length)) = (f.reading room).refusal? := by
          rw [Fence.refusal?, read_header_located]
        have hfilter : (Piece.fence f :: rest).filterMap Piece.fence? =
            f :: rest.filterMap Piece.fence? := rfl
        rw [hfilter, List.findSome?_cons, ← hlocated]
        simp only [Piece.fence?, Option.map_some, Option.toList_some, List.findSome?_singleton]
        cases Fence.refusal? room (f.located start (start + (Piece.fence f).text.length)) <;> rfl
  exact (hfrom 0 _).symm

theorem chunkify_eq_error_iff {langs : List String} {text : String} {refusal : Json.Refusal} :
    chunkify room langs text = .error refusal ↔
      (fences text).findSome? (Fence.refusal? room) = some refusal := by
  rw [← refusal?_eq_findSome?, chunkify]
  cases refusal? room text.toList <;> simp

-- What a header is refused for stands in it.
theorem exists_grounds_of_findSome? {found : List Fence} {refusal : Json.Refusal}
    (h : found.findSome? (Fence.refusal? room) = some refusal) :
    ∃ f ∈ found, refusal.Grounds room f.header.toList := by
  obtain ⟨f, hf, hrefusal⟩ := List.exists_of_findSome?_eq_some h
  exact ⟨f, hf, Header.grounds_of_refusal? hrefusal⟩

/-- Cutting a text fails at the first header of a block that is refused, for an integer that is too
long or for brackets that are too deep. Without such a header, the text is cut at its live
blocks. -/
theorem chunkify_cuts (room : Nat) (langs : List String) (text : String) :
    (∀ refusal, chunkify room langs text = .error refusal ↔
        (fences text).findSome? (Fence.refusal? room) = some refusal) ∧
      (∀ refusal, chunkify room langs text = .error refusal →
        ∃ f ∈ fences text, refusal.Grounds room f.header.toList) ∧
      ((fences text).findSome? (Fence.refusal? room) = none →
        ∃ chunks, chunkify room langs text = .ok chunks ∧ CutOf room langs text chunks) := by
  refine ⟨fun _ => chunkify_eq_error_iff,
    fun _ h => exists_grounds_of_findSome? (chunkify_eq_error_iff.1 h), fun hnone => ?_⟩
  rw [← refusal?_eq_findSome?] at hnone
  refine ⟨_, ?_, cutOf_chunksOf langs text⟩
  rw [chunkify, hnone]

/-! ## A block that is not cut -/

/-- A block of code that has modifiers. -/
def headedBlock (modifiers : List Char) : List Char :=
  unlines [headedExample modifiers, ['x'], fenceMark]

theorem textPieces_headedBlock {modifiers : List Char} (h : IsRun modifiers)
    (hmark : '\x60' ∉ modifiers) :
    textPieces (headedBlock modifiers) =
      [.fence ⟨headedExample modifiers, ['j', 's', ' '] ++ modifiers, [['x']], fenceMark⟩] := by
  have hnewline : '\n' ∉ headedExample modifiers := by
    rw [headedExample, List.mem_append, not_or]
    exact ⟨by decide, fun hmem => h.2 _ hmem (by decide)⟩
  have hbacktick : '\x60' ∉ ['j', 's', ' '] ++ modifiers := by
    rw [List.mem_append, not_or]
    exact ⟨by decide, hmark⟩
  have hlines : lines (headedBlock modifiers) = [headedExample modifiers, ['x'], fenceMark] := by
    refine lines_unlines (List.cons_ne_nil _ _) ?_
    simp only [List.forall_mem_cons]
    exact ⟨hnewline, by decide, by decide, by simp⟩
  have hbody : ∀ line ∈ [['x']], ¬ closesFence line := by decide
  have hclosing : closesFence fenceMark := by decide
  have hpieces := pieces_block (openingHeader?_of_header hbacktick) hbody hclosing []
  rw [textPieces, hlines]
  rwa [pieces_nil] at hpieces

theorem chunkify_headedBlock {modifiers : List Char} {refusal : Json.Refusal}
    (h : RefusedRun room modifiers refusal) (hmark : '\x60' ∉ modifiers) (langs : List String) :
    chunkify room langs (String.ofList (headedBlock modifiers)) = .error refusal := by
  have hinfo : trim (['j', 's', ' '] ++ modifiers) = ['j', 's', ' '] ++ modifiers :=
    trim_append_run (by decide) ['s', ' '] h.run
  have hheader : (Header.readChars room (trim (['j', 's', ' '] ++ modifiers))).refusal? =
      some refusal := by
    rw [hinfo]
    exact refusal?_headed h
  have hblock : (textPieces (headedBlock modifiers)).filterMap Piece.fence? =
      [⟨headedExample modifiers, ['j', 's', ' '] ++ modifiers, [['x']], fenceMark⟩] := by
    rw [textPieces_headedBlock h.run hmark]
    rfl
  have hrefusal : refusal? room (headedBlock modifiers) = some refusal := by
    rw [refusal?, hblock, List.findSome?_singleton]
    exact hheader
  rw [chunkify, String.toList_ofList, hrefusal]

/-- A header with an integer of too many digits ends the cutting, and so does one with more brackets
inside one another than there is room for: there are no chunks. -/
theorem chunkify_refused :
    chunkify 990 ["js"] (String.ofList (headedBlock ('-' :: List.replicate 4301 '1'))) =
        .error (.longInteger 4301) ∧
      chunkify 990 ["js"] (String.ofList (headedBlock (List.replicate 991 '['))) =
        .error (.tooDeep .array) ∧
      ¬ ∃ chunks, chunkify 990 ["js"]
        (String.ofList (headedBlock ('-' :: List.replicate 4301 '1'))) = .ok chunks := by
  have hdigits : '\x60' ∉ '-' :: List.replicate 4301 '1' := by
    rw [List.mem_cons, not_or]
    exact ⟨by decide, fun hmem => absurd (List.eq_of_mem_replicate hmem) (by decide)⟩
  have hbrackets : '\x60' ∉ List.replicate 991 '[' :=
    fun hmem => absurd (List.eq_of_mem_replicate hmem) (by decide)
  have hrun := chunkify_headedBlock (refusedRun_ones 990) hdigits ["js"]
  refine ⟨hrun, chunkify_headedBlock (refusedRun_brackets 990) hbrackets ["js"], ?_⟩
  rintro ⟨chunks, hchunks⟩
  rw [hrun] at hchunks
  cases hchunks

end ComponentDocs
