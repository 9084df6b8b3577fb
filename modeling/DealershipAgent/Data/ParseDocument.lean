import DealershipAgent.Py.Lines
import DealershipAgent.Py.Regex

/-!
# Policy documents as chunks

`parse_document` of `data/scripts/embed_policies.py`.

* `parseDocument`: the chunks of a document, by a loop over its lines.
* `bodyLines`: the lines of a document that are no headings, each with the H2 heading over it.
* `parse_document_complete`: the chunks have these lines, in order and under these headings.
-/

namespace DealershipAgent

open Py Re

structure Chunk where
  docSlug : Str
  docTitle : Str
  sectionHeading : Option Str
  chunkIndex : Nat
  content : Str
  isSuperseded : Bool
deriving DecidableEq

/-- `^` and the marker, `\s+(.*)$` -/
def headingRe (marker : Str) : Regex :=
  .seq .start (.seq (lit marker) (.seq (plus (.char isSpace))
    (.seq (.group 1 (.star true (.char (· != chr '\n')))) .stop)))

/-- `H1_RE` -/
def h1Re : Regex := headingRe "#"

/-- `H2_RE` -/
def h2Re : Regex := headingRe "##"

/-- `match.group(1).strip()`, if the line matches. -/
def headingOf (re : Regex) (line : Str) : Option Str :=
  (matchAt re line).map fun m => strip ((m.group 1).getD [])

/-- The variables of the loop. -/
structure DocumentState where
  docTitle : Str
  sections : List (Option Str × List Str) := []
  currentHeading : Option Str := none
  currentLines : List Str := []

/-- `if current_lines: sections.append((current_heading, current_lines))` -/
def DocumentState.flushed (st : DocumentState) : List (Option Str × List Str) :=
  if st.currentLines = [] then st.sections
  else st.sections ++ [(st.currentHeading, st.currentLines)]

def DocumentState.line (st : DocumentState) (line : Str) : DocumentState :=
  match headingOf h1Re line with
  | some title => { st with docTitle := title }
  | none =>
    match headingOf h2Re line with
    | some heading =>
      { st with sections := st.flushed, currentHeading := some heading, currentLines := [] }
    | none => { st with currentLines := st.currentLines ++ [line] }

/-- `path.stem`, for the name of the file. -/
def stem (name : Str) : Str :=
  let rest := name.rdropWhile (· ≠ chr '.')
  if rest.length ≤ 1 ∨ name.rtakeWhile (· ≠ chr '.') = [] then name else rest.dropLast

/-- The sections of the document, and its title. -/
def readDocument (docSlug text : Str) : DocumentState :=
  (splitLines text).foldl DocumentState.line { docTitle := docSlug }

/-- The chunk of a section, if its content is not blank. -/
def sectionChunk (docSlug docTitle : Str) (x : (Option Str × List Str) × Nat) : Option Chunk :=
  let content := strip (join "\n" x.1.2)
  if content = [] then none
  else some { docSlug := docSlug, docTitle := docTitle, sectionHeading := x.1.1,
              chunkIndex := x.2, content := content, isSuperseded := isIn "superseded" docSlug }

/-- `parse_document`, for a file of this name and text. -/
def parseDocument (name text : Str) : List Chunk :=
  let doc := readDocument (stem name) text
  doc.flushed.zipIdx.filterMap (sectionChunk (stem name) doc.docTitle)

/-! ## Headings -/

/-- The line matches the pattern of a heading: it begins with the marker and white space. -/
theorem headingOf_isSome {marker line : Str} (h : (headingOf (headingRe marker) line).isSome = true) :
    ∃ c rest, line = marker ++ c :: rest ∧ isSpace c = true := by
  rw [headingOf, Option.isSome_map] at h
  obtain ⟨m, hm⟩ := Option.isSome_iff_exists.mp h
  obtain ⟨p, hp, hrest⟩ := mem_run_seq.mp (matchAt_mem hm)
  obtain ⟨rfl, -⟩ := mem_run_start.mp hp
  obtain ⟨q, hq, hrest⟩ := mem_run_seq.mp hrest
  have hmarker := mem_run_lit.mp hq
  obtain ⟨r, hr, -⟩ := mem_run_seq.mp hrest
  obtain ⟨t, hne, ht, hadv⟩ := mem_run_plus.mp hr
  obtain ⟨c, t, rfl⟩ := List.exists_cons_of_ne_nil hne
  refine ⟨c, t ++ r.after, ?_, ht c List.mem_cons_self⟩
  rw [show line = marker ++ q.after from hmarker.after, hadv.after]
  rfl

/-- No line is a heading of both levels. -/
theorem h1_not_h2 {line : Str} (h : (headingOf h1Re line).isSome = true) : headingOf h2Re line = none := by
  obtain ⟨c, rest, hline, hc⟩ := headingOf_isSome h
  rw [← Option.not_isSome_iff_eq_none]
  intro h2
  obtain ⟨d, rest', hline', -⟩ := headingOf_isSome h2
  rw [hline] at hline'
  have hcd : c :: rest = chr '#' :: d :: rest' := (List.cons.inj hline').2
  rw [(List.cons.inj hcd).1] at hc
  exact absurd hc (by decide)

def isHeading (line : Str) : Bool := (headingOf h1Re line).isSome || (headingOf h2Re line).isSome

/-- The last H2 heading of these lines. -/
def lastHeading (lines : List Str) : Option Str := (lines.filterMap (headingOf h2Re)).getLast?

/-- The lines that are no headings, each with the nearest H2 heading before it. -/
def bodyLines (lines : List Str) : List (Option Str × Str) :=
  lines.zipIdx.filterMap fun x =>
    if isHeading x.1 then none else some (lastHeading (lines.take x.2), x.1)

theorem bodyLines_snoc (lines : List Str) (line : Str) : bodyLines (lines ++ [line]) =
    bodyLines lines ++ if isHeading line then [] else [(lastHeading lines, line)] := by
  unfold bodyLines
  rw [List.zipIdx_append, List.filterMap_append]
  congr 1
  · refine List.filterMap_congr fun x hx => ?_
    have hlt := List.snd_lt_of_mem_zipIdx hx
    rw [List.take_append_of_le_length (by simpa using hlt.le)]
  · by_cases h : isHeading line = true <;> simp [h]

theorem lastHeading_snoc (lines : List Str) (line : Str) : lastHeading (lines ++ [line]) =
    match headingOf h2Re line with
    | some heading => some heading
    | none => lastHeading lines := by
  unfold lastHeading
  rw [List.filterMap_append]
  cases h : headingOf h2Re line <;> simp [h]

/-! ## The loop -/

/-- The lines of some sections, each with the heading of its section. -/
def sectionLines (sections : List (Option Str × List Str)) : List (Option Str × Str) :=
  sections.flatMap fun s => s.2.map (s.1, ·)

theorem sectionLines_append (sections sections' : List (Option Str × List Str)) :
    sectionLines (sections ++ sections') = sectionLines sections ++ sectionLines sections' :=
  List.flatMap_append

theorem sectionLines_flushed (st : DocumentState) : sectionLines st.flushed =
    sectionLines (st.sections ++ [(st.currentHeading, st.currentLines)]) := by
  unfold DocumentState.flushed
  split
  · next h =>
    rw [h, sectionLines_append]
    exact (List.append_nil _).symm
  · rfl

/-- After some lines the current heading is the last one, and the sections have the lines. -/
theorem foldl_line (title : Str) (lines : List Str) :
    (lines.foldl DocumentState.line { docTitle := title }).currentHeading = lastHeading lines ∧
      sectionLines (lines.foldl DocumentState.line { docTitle := title }).flushed =
        bodyLines lines := by
  induction lines using List.reverseRecOn with
  | nil => exact ⟨rfl, rfl⟩
  | append_singleton lines line ih =>
    rw [List.foldl_append, List.foldl_cons, List.foldl_nil, lastHeading_snoc, bodyLines_snoc]
    generalize lines.foldl DocumentState.line { docTitle := title } = st at ih ⊢
    obtain ⟨hheading, hlines⟩ := ih
    unfold DocumentState.line
    cases h1 : headingOf h1Re line with
    | some t =>
      have h2 : headingOf h2Re line = none := h1_not_h2 (by rw [h1]; rfl)
      rw [h2, if_pos (by simp [isHeading, h1]), List.append_nil, sectionLines_flushed]
      rw [sectionLines_flushed] at hlines
      exact ⟨hheading, hlines⟩
    | none =>
      cases h2 : headingOf h2Re line with
      | some heading =>
        rw [if_pos (by simp [isHeading, h2]), List.append_nil]
        refine ⟨rfl, ?_⟩
        rw [sectionLines_flushed, sectionLines_append, hlines]
        exact List.append_nil _
      | none =>
        rw [if_neg (by simp [isHeading, h1, h2])]
        refine ⟨hheading, ?_⟩
        rw [sectionLines_flushed, sectionLines_append] at hlines ⊢
        rw [← hlines, ← hheading]
        simp [sectionLines]

/-! ## The chunks -/

section Chunks

variable {docSlug docTitle : Str} {sections : List (Option Str × List Str)}

/-- The section has text. -/
def HasText (s : Option Str × List Str) : Bool := strip (join "\n" s.2) ≠ []

theorem sectionChunk_eq_some {x : (Option Str × List Str) × Nat} {c : Chunk} :
    sectionChunk docSlug docTitle x = some c ↔ HasText x.1 = true ∧
      c = ⟨docSlug, docTitle, x.1.1, x.2, strip (join "\n" x.1.2), isIn "superseded" docSlug⟩ := by
  unfold sectionChunk HasText
  simp only
  split
  · next h => simp [h]
  · next h => simp [h, eq_comm]

/-- The chunks are the sections that have text. -/
theorem sectionChunks_map (n : Nat) :
    ((sections.zipIdx n).filterMap (sectionChunk docSlug docTitle)).map
        (fun c => (c.sectionHeading, c.content)) =
      (sections.filter HasText).map fun s => (s.1, strip (join "\n" s.2)) := by
  induction sections generalizing n with
  | nil => rfl
  | cons s sections ih =>
    rw [List.zipIdx_cons, List.filterMap_cons, List.filter_cons]
    by_cases h : HasText s = true
    · rw [sectionChunk_eq_some.mpr ⟨h, rfl⟩, if_pos h]
      exact congrArg _ (ih (n + 1))
    · have hnone : sectionChunk docSlug docTitle (s, n) = none := by
        rw [Option.eq_none_iff_forall_ne_some]
        exact fun c hc => h (sectionChunk_eq_some.mp hc).1
      rw [hnone, if_neg h]
      exact ih (n + 1)

/-- Their indices are those of their sections. -/
theorem sectionChunks_index (n : Nat) :
    (∀ c ∈ (sections.zipIdx n).filterMap (sectionChunk docSlug docTitle), n ≤ c.chunkIndex) ∧
      ((sections.zipIdx n).filterMap (sectionChunk docSlug docTitle)).Pairwise
        fun c c' => c.chunkIndex < c'.chunkIndex := by
  induction sections generalizing n with
  | nil => exact ⟨fun c hc => (by cases hc), .nil⟩
  | cons s sections ih =>
    obtain ⟨hle, hpair⟩ := ih (n + 1)
    rw [List.zipIdx_cons, List.filterMap_cons]
    cases h : sectionChunk docSlug docTitle (s, n) with
    | none => exact ⟨fun c hc => (Nat.le_succ n).trans (hle c hc), hpair⟩
    | some c =>
      obtain ⟨-, rfl⟩ := sectionChunk_eq_some.mp h
      refine ⟨fun c hc => ?_, List.pairwise_cons.mpr ⟨hle, hpair⟩⟩
      rcases List.mem_cons.mp hc with rfl | hc
      · exact le_rfl
      · exact (Nat.le_succ n).trans (hle c hc)

/-- The lines of a section that are not blank are those of its text. -/
theorem blockLines_section {s : Option Str × List Str} (h : ∀ l ∈ s.2, Breakless l) :
    blockLines (strip (join "\n" s.2)) = nonBlank s.2 := by
  rw [blockLines_strip, blockLines_join h]

/-- The lines that are not blank, each with its heading and without the white space at its ends. -/
def nonBlankUnder (lines : List (Option Str × Str)) : List (Option Str × Str) :=
  (lines.map fun x => (x.1, strip x.2)).filter fun x => x.2 ≠ []

theorem nonBlankUnder_section (s : Option Str × List Str) :
    nonBlankUnder (s.2.map (s.1, ·)) = (nonBlank s.2).map (s.1, ·) := by
  unfold nonBlankUnder nonBlank
  rw [List.map_map, List.filter_map, List.filter_map, List.map_map]
  rfl

theorem nonBlankUnder_sections : nonBlankUnder (sectionLines sections) =
    sections.flatMap fun s => (nonBlank s.2).map (s.1, ·) := by
  induction sections with
  | nil => rfl
  | cons s sections ih =>
    rw [List.flatMap_cons, ← ih, ← nonBlankUnder_section]
    unfold nonBlankUnder sectionLines
    rw [List.flatMap_cons, List.map_append, List.filter_append]

/-- The sections without text have no lines but blank ones. -/
theorem hasText_lines (h : ∀ s ∈ sections, ∀ l ∈ s.2, Breakless l) :
    ((sections.filter HasText).flatMap fun s =>
      (blockLines (strip (join "\n" s.2))).map (s.1, ·)) =
      sections.flatMap fun s => (nonBlank s.2).map (s.1, ·) := by
  induction sections with
  | nil => rfl
  | cons s sections ih =>
    have hs := blockLines_section (h s List.mem_cons_self)
    rw [List.filter_cons, List.flatMap_cons, ← ih fun t ht => h t (List.mem_cons_of_mem s ht), ← hs]
    by_cases htext : HasText s = true
    · rw [if_pos htext, List.flatMap_cons]
    · have hnone : strip (join "\n" s.2) = [] := by simpa [HasText] using htext
      rw [if_neg htext, hnone]
      rfl

end Chunks

/-- The chunks of a document are its sections that have text, stripped, and the sections have the lines
of the document that are no headings, each under the nearest H2 heading before it. So the lines of the
chunks that are not blank are those of the document, in order and each once. The indices of the chunks
increase, and no chunk is empty. -/
theorem parse_document_complete (name text : Str) :
    (∃ sections : List (Option Str × List Str),
      sectionLines sections = bodyLines (splitLines text) ∧
      (parseDocument name text).map (fun c => (c.sectionHeading, c.content)) =
        (sections.filter HasText).map fun s => (s.1, strip (join "\n" s.2))) ∧
    ((parseDocument name text).flatMap fun c => (blockLines c.content).map (c.sectionHeading, ·)) =
      nonBlankUnder (bodyLines (splitLines text)) ∧
    ((parseDocument name text).Pairwise fun c c' => c.chunkIndex < c'.chunkIndex) ∧
    ∀ c ∈ parseDocument name text, c.content ≠ [] := by
  have hlines : sectionLines (readDocument (stem name) text).flushed = bodyLines (splitLines text) :=
    (foldl_line (stem name) (splitLines text)).2
  have hbreak : ∀ s ∈ (readDocument (stem name) text).flushed, ∀ l ∈ s.2, Breakless l := by
    intro s hs l hl
    have hmem : (s.1, l) ∈ bodyLines (splitLines text) := by
      rw [← hlines]
      exact List.mem_flatMap.mpr ⟨s, hs, List.mem_map_of_mem hl⟩
    obtain ⟨x, hx, hsome⟩ := List.mem_filterMap.mp hmem
    split at hsome
    · cases hsome
    · obtain rfl : x.1 = l := (Prod.mk.inj (Option.some.inj hsome)).2
      exact splitLines_breakless (List.fst_mem_of_mem_zipIdx hx)
  have hmap := @sectionChunks_map (stem name) (readDocument (stem name) text).docTitle
    (readDocument (stem name) text).flushed 0
  refine ⟨⟨_, hlines, hmap⟩, ?_, (sectionChunks_index 0).2, fun c hc => ?_⟩
  · rw [← hlines, nonBlankUnder_sections, ← hasText_lines hbreak]
    have hflat : ∀ (chunks : List Chunk) (xs : List (Option Str × List Str)),
        chunks.map (fun c => (c.sectionHeading, c.content)) =
          xs.map (fun s => (s.1, strip (join "\n" s.2))) →
        (chunks.flatMap fun c => (blockLines c.content).map (c.sectionHeading, ·)) =
          xs.flatMap fun s => (blockLines (strip (join "\n" s.2))).map (s.1, ·) := by
      intro chunks xs h
      have := congrArg (fun ys => ys.flatMap fun y : Option Str × Str =>
        (blockLines y.2).map (y.1, ·)) h
      simpa only [List.flatMap_map] using this
    exact hflat _ _ hmap
  · obtain ⟨x, -, hx⟩ := List.mem_filterMap.mp hc
    obtain ⟨htext, rfl⟩ := sectionChunk_eq_some.mp hx
    simpa [HasText] using htext

end DealershipAgent
