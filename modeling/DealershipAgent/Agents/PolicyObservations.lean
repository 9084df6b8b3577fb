import Mathlib.Data.List.Infix
import DealershipAgent.Agents.Compaction
import DealershipAgent.Py.Json.Text

/-!
# What an observation shows of a list of policy chunks

`agents/compaction.py`: each chunk becomes a line, its content cut at a share of `max_chars`, and the
lines together are cut at `max_chars` once more.

* `prefix_truncate`: what a cut text begins with.
* `compactToolResult_policies`: the lines, and the cut.
* `observation_shows`: when every chunk is shown with its source and the start of its content.
-/

namespace DealershipAgent

open Py Json

/-! ## A text that was cut -/

theorem rstrip_append_rstrip {p s : Str} (h : rstrip s ≠ []) : rstrip (p ++ rstrip s) = p ++ rstrip s := by
  obtain ⟨t, c, ht⟩ := (List.eq_nil_or_concat' (rstrip s)).resolve_left h
  have hc : isSpace c = false := by
    have hlast := List.rdropWhile_last_not isSpace s h
    simp only [show s.rdropWhile isSpace = t ++ [c] from ht, List.getLast_concat] at hlast
    simpa using hlast
  rw [ht, ← List.append_assoc, show p ++ t ++ [c] = (p ++ t) ++ c :: [] from rfl,
    rstrip_append_cons hc]
  rfl

/-- A cut text begins as the text does, up to the cut and the white space before it. -/
theorem prefix_truncate {p s : Str} {maxChars : Int} (hp : p <+: s) (hlen : p.length ≤ maxChars)
    (hend : rstrip p = p) : p <+: truncate s maxChars := by
  unfold truncate
  split
  · next hlong =>
    rw [sliceTo, if_pos (by omega)]
    refine List.prefix_append_of_prefix ?_
    obtain ⟨t, ht⟩ : p <+: s.take maxChars.toNat :=
      List.prefix_of_prefix_length_le hp (List.take_prefix _ _)
        (by rw [List.length_take]; omega)
    rw [← ht]
    rcases List.eq_nil_or_concat' p with rfl | ⟨q, c, rfl⟩
    · exact List.nil_prefix
    · have hc : isSpace c = false := by
        by_contra hspace
        rw [rstrip, List.rdropWhile_concat_pos _ _ _ (by simpa using hspace)] at hend
        have := congrArg List.length hend
        have hle := length_rstrip_le q
        rw [List.length_append, List.length_singleton] at this
        change (rstrip q).length = _ at this
        omega
      rw [List.append_assoc, List.singleton_append, rstrip_append_cons hc]
      exact ⟨rstrip t, by simp⟩
  · exact hp

/-- The first 100 characters of a content are left where it is cut at `n`. -/
def KeepsStart (content : Str) (n : Int) : Prop :=
  n < content.length → 100 ≤ (rstrip (content.take n.toNat)).length

instance (content : Str) (n : Int) : Decidable (KeepsStart content n) :=
  inferInstanceAs (Decidable (_ → _))

theorem KeepsStart.begins {content : Str} {n : Int} (h : KeepsStart content n) (hn : 100 ≤ n) :
    content.take 100 <+: truncate content n := by
  unfold truncate
  split
  · next hlong =>
    rw [sliceTo, if_pos (by omega)]
    exact List.prefix_append_of_prefix (List.prefix_of_prefix_length_le (List.take_prefix _ _)
      ((List.rdropWhile_prefix _ _).trans (List.take_prefix _ _))
      ((List.length_take_le _ _).trans (h hlong)))
  · exact List.take_prefix _ _

section Chunks

variable {F : Type}

/-! ## The lines -/

/-- The bracketed source of a chunk. -/
def PolicyChunkResult.header (chunk : PolicyChunkResult F) : Str :=
  str "[" ++ chunk.docTitle ++ str " - " ++
    (if (chunk.sectionHeading.getD []).isEmpty then str "general"
      else chunk.sectionHeading.getD []) ++
    (if chunk.isSuperseded then str " [SUPERSEDED]" else []) ++ str "]"

def PolicyChunkResult.line (maxChars : Int) (chunk : PolicyChunkResult F) : Str :=
  chunk.header ++ str " " ++ truncate chunk.content maxChars

/-- The source and at most the first 100 characters of the content. -/
def PolicyChunkResult.start (chunk : PolicyChunkResult F) : Str :=
  chunk.header ++ str " " ++ chunk.content.take 100

/-- `per_chunk_budget` -/
def chunkBudget (chunks : List (PolicyChunkResult F)) (maxChars : Int) : Int :=
  max 100 (maxChars / max 1 chunks.length)

/-- Room for the source, 100 characters and the marker of every chunk, and the new lines. -/
def policyRoom (chunks : List (PolicyChunkResult F)) : Nat :=
  (chunks.map fun chunk => (chunk.header ++ str " ").length + 100 + truncationMarker.length).sum +
    (chunks.length - 1)

/-- The length of a line, or one more for each white space that is taken off where the content is cut. -/
def PolicyChunkResult.lineLength (budget : Int) (chunk : PolicyChunkResult F) : Nat :=
  (chunk.header ++ str " ").length +
    if budget < chunk.content.length then budget.toNat + truncationMarker.length
    else chunk.content.length

/-- The lengths of some lines, each with its new line. -/
def linesLength (budget : Int) (chunks : List (PolicyChunkResult F)) : Nat :=
  (chunks.map fun chunk => chunk.lineLength budget + 1).sum

/-- What the other lines and its own source leave of `max_chars` for the content of the last chunk. -/
def lastRoom (budget maxChars : Int) (chunks : List (PolicyChunkResult F)) (h : chunks ≠ []) : Int :=
  maxChars - linesLength budget chunks.dropLast - ((chunks.getLast h).header ++ str " ").length

/-- What comes before a line. -/
def linesBefore (maxChars : Int) (chunks : List (PolicyChunkResult F)) : Str :=
  chunks.flatMap fun chunk => chunk.line maxChars ++ str "\n"

/-- The lines of all chunks. -/
def policyBody (maxChars : Int) (chunks : List (PolicyChunkResult F)) : Str :=
  join "\n" (chunks.map (·.line maxChars))

theorem policyBody_concat (maxChars : Int) (before : List (PolicyChunkResult F))
    (chunk : PolicyChunkResult F) : policyBody maxChars (before ++ [chunk]) =
      linesBefore maxChars before ++ chunk.line maxChars := by
  induction before with
  | nil => simp [policyBody, join, linesBefore, List.intercalate]
  | cons first before ih =>
    have hcons : ∀ l : List (PolicyChunkResult F), l ≠ [] → policyBody maxChars (first :: l) =
        first.line maxChars ++ (str "\n" ++ policyBody maxChars l) := by
      intro l hl
      obtain ⟨second, l, rfl⟩ := List.exists_cons_of_ne_nil hl
      exact join_cons_cons _ _ _ _
    rw [List.cons_append, hcons _ (by simp), ih]
    simp [linesBefore]

theorem length_linesBefore_le {budget : Int} (hbudget : 0 ≤ budget)
    (chunks : List (PolicyChunkResult F)) :
    (linesBefore budget chunks).length ≤ linesLength budget chunks := by
  induction chunks with
  | nil => exact le_refl _
  | cons chunk chunks ih =>
    have hline : (truncate chunk.content budget).length ≤
        if budget < chunk.content.length then budget.toNat + truncationMarker.length
        else chunk.content.length := by
      unfold truncate
      split
      · rw [sliceTo, if_pos hbudget, List.length_append]
        have hle := (length_rstrip_le _).trans (List.length_take_le budget.toNat chunk.content)
        omega
      · exact le_refl _
    rw [linesLength, List.map_cons, List.sum_cons, ← linesLength]
    simp only [linesBefore, List.flatMap_cons, List.length_append, PolicyChunkResult.line] at ih ⊢
    rw [PolicyChunkResult.lineLength, List.length_append, show (str "\n").length = 1 from rfl]
    omega

/-! ## What is shown -/

/-- Its source and the first 100 characters of its content are in the text. -/
def PolicyChunkResult.ShownIn (text : Str) (chunk : PolicyChunkResult F) : Prop :=
  isIn chunk.header text = true ∧ isIn (chunk.content.take 100) text = true

/-- Every chunk is shown, at the place of its line. -/
def ShowsAll (budget : Int) (chunks : List (PolicyChunkResult F)) (text : Str) : Prop :=
  ∀ before chunk after, chunks = before ++ chunk :: after →
    linesBefore budget before ++ chunk.start <+: text

theorem ShowsAll.shownIn {budget : Int} {chunks : List (PolicyChunkResult F)} {text : Str}
    (h : ShowsAll budget chunks text) : ∀ chunk ∈ chunks, chunk.ShownIn text := by
  intro chunk hc
  obtain ⟨before, after, hchunks⟩ := List.append_of_mem hc
  obtain ⟨rest, rfl⟩ := h before chunk after hchunks
  refine ⟨isIn_iff.mpr ⟨linesBefore budget before, str " " ++ chunk.content.take 100 ++ rest, ?_⟩,
    isIn_iff.mpr ⟨linesBefore budget before ++ (chunk.header ++ str " "), rest, ?_⟩⟩
  · simp only [PolicyChunkResult.start, List.append_assoc]
  · simp only [PolicyChunkResult.start, List.append_assoc]

/-- The start of the last chunk is behind those of the others. -/
theorem showsAll_of_last {budget : Int} (hbudget : 100 ≤ budget)
    {chunks : List (PolicyChunkResult F)} {text : Str} (h : chunks ≠ [])
    (hkept : ∀ chunk ∈ chunks, KeepsStart chunk.content budget)
    (hlast : linesBefore budget chunks.dropLast ++ (chunks.getLast h).start <+: text) :
    ShowsAll budget chunks text := by
  intro before chunk after hchunks
  refine List.IsPrefix.trans ?_ hlast
  rcases List.eq_nil_or_concat' after with rfl | ⟨mid, last, rfl⟩
  · subst hchunks
    rw [List.dropLast_concat, List.getLast_concat]
  · have hmid : linesBefore budget chunks.dropLast =
        linesBefore budget before ++ (chunk.line budget ++ (str "\n" ++ linesBefore budget mid)) := by
      rw [show chunks = (before ++ chunk :: mid) ++ [last] by simp [hchunks], List.dropLast_concat]
      simp [linesBefore]
    have hcontent := (hkept chunk (by rw [hchunks]; simp)).begins hbudget
    have hstart : chunk.start <+: chunk.line budget := by
      rwa [PolicyChunkResult.start, PolicyChunkResult.line, List.prefix_append_right_inj]
    rw [hmid, List.append_assoc, List.prefix_append_right_inj, List.append_assoc]
    exact List.prefix_append_of_prefix hstart

/-- Where the text ends in a content that was cut before, and is cut again, the start of the content is
left if it would be left of the content itself. -/
theorem start_prefix_cut {p content : Str} {budget room maxChars : Int} (hbudget : 100 ≤ budget)
    (hkeeps : KeepsStart content budget) (hroom : KeepsStart content room)
    (hlen : p.length + room ≤ maxChars) :
    p ++ content.take 100 <+: truncate (p ++ truncate content budget) maxChars := by
  have hcut : ∀ r : Str, r <+: content → r <+: truncate content budget → 100 ≤ r.length →
      rstrip r = r → p.length + (r.length : Int) ≤ maxChars →
      p ++ content.take 100 <+: truncate (p ++ truncate content budget) maxChars := by
    intro r hr hline hlong hend hle
    have hne : rstrip r ≠ [] := by
      rw [hend]
      exact List.ne_nil_of_length_pos (by omega)
    have hshown : p ++ r <+: truncate (p ++ truncate content budget) maxChars := by
      refine prefix_truncate ((List.prefix_append_right_inj p).mpr hline)
        (by rw [List.length_append]; push_cast; exact hle) ?_
      have := rstrip_append_rstrip (p := p) hne
      rwa [hend] at this
    refine List.IsPrefix.trans ((List.prefix_append_right_inj p).mpr ?_) hshown
    exact List.prefix_of_prefix_length_le (List.take_prefix _ _) hr
      ((List.length_take_le _ _).trans hlong)
  have htake : ∀ n : Nat, rstrip (content.take n) <+: content := fun n =>
    (List.rdropWhile_prefix _ _).trans (List.take_prefix _ _)
  have hidem : ∀ n : Nat, rstrip (rstrip (content.take n)) = rstrip (content.take n) := fun n =>
    List.rdropWhile_idempotent _ _
  have hroomLe : ∀ n : Nat, ((rstrip (content.take n)).length : Int) ≤ n := fun n => by
    exact_mod_cast (length_rstrip_le _).trans (List.length_take_le _ _)
  by_cases hlong : budget < content.length
  · -- the content was cut: by the second cut again, or not
    have hline : truncate content budget = rstrip (content.take budget.toNat) ++ truncationMarker := by
      rw [truncate, if_pos hlong, sliceTo, if_pos (by omega)]
    by_cases hfits : p.length + ((rstrip (content.take budget.toNat)).length : Int) ≤ maxChars
    · exact hcut _ (htake _) (hline ▸ List.prefix_append _ _) (hkeeps hlong) (hidem _) hfits
    · have hle := hroomLe budget.toNat
      refine hcut (rstrip (content.take room.toNat)) (htake _) ?_ (hroom (by omega)) (hidem _) ?_
      · rw [hline]
        refine List.prefix_append_of_prefix (List.prefix_of_prefix_length_le (htake _) (htake _) ?_)
        have := hroomLe room.toNat
        omega
      · have := hroomLe room.toNat
        have := hroom (by omega)
        omega
  · have hline : truncate content budget = content := by rw [truncate, if_neg hlong]
    by_cases hshort : room < content.length
    · have := hroomLe room.toNat
      have := hroom hshort
      exact hcut _ (htake _) (by rw [hline]; exact htake _) (hroom hshort) (hidem _) (by omega)
    · rw [hline, truncate, if_neg (by rw [List.length_append]; push_cast; omega)]
      exact (List.prefix_append_right_inj p).mpr (List.take_prefix _ _)

/-- Every chunk is shown at its place, in the lines that were cut. -/
theorem showsAll_truncate {budget maxChars : Int} (hbudget : 100 ≤ budget)
    {chunks : List (PolicyChunkResult F)} (h : chunks ≠ [])
    (hkept : ∀ chunk ∈ chunks, KeepsStart chunk.content budget)
    (hlast : KeepsStart (chunks.getLast h).content (lastRoom budget maxChars chunks h)) :
    ShowsAll budget chunks (truncate (policyBody budget chunks) maxChars) := by
  refine showsAll_of_last hbudget h hkept ?_
  have hbody : policyBody budget chunks = linesBefore budget chunks.dropLast ++
      ((chunks.getLast h).header ++ str " ") ++ truncate (chunks.getLast h).content budget := by
    conv_lhs => rw [← List.dropLast_append_getLast h]
    rw [policyBody_concat, PolicyChunkResult.line]
    simp only [List.append_assoc]
  rw [hbody, PolicyChunkResult.start, ← List.append_assoc]
  refine start_prefix_cut hbudget (hkept _ (List.getLast_mem h)) hlast ?_
  have hbefore := length_linesBefore_le (by omega : (0 : Int) ≤ budget) chunks.dropLast
  rw [lastRoom, List.length_append]
  push_cast
  omega

/-! ## The observation -/

section Observation

variable [PyFloat F] [Unicode]

theorem compactPolicyChunk_modelDump_eq (chunk : PolicyChunkResult F) (maxChars : Int) :
    compactPolicyChunk chunk.modelDump maxChars = .ok (chunk.line maxChars) := by
  obtain ⟨kvs, hkvs, htitle, hheading, hcontent, hsuperseded⟩ : ∃ kvs,
      chunk.modelDump = .object kvs ∧ dictGet kvs "doc_title" = .string chunk.docTitle ∧
      dictGet kvs "section_heading" = optString chunk.sectionHeading ∧
      dictGetD kvs "content" (.string []) = .string chunk.content ∧
      dictGet kvs "is_superseded" = .bool chunk.isSuperseded := ⟨_, rfl, rfl, rfl, rfl, rfl⟩
  have hgeneral : ((optString chunk.sectionHeading : Json F).orElse (.string "general")).pyStr =
      if (chunk.sectionHeading.getD []).isEmpty then str "general"
        else chunk.sectionHeading.getD [] := by
    rcases chunk.sectionHeading with _ | ⟨_ | ⟨c, heading⟩⟩ <;> rfl
  rw [hkvs, compactPolicyChunk]
  simp only [asDict, bind, Except.bind, hcontent, compactContent, htitle, hheading, hsuperseded,
    hgeneral]
  simp [PolicyChunkResult.line, PolicyChunkResult.header, truthy, pyStr, pure, Except.pure, str]

/-- The observation of a list of chunks: the lines, cut. -/
theorem compactToolResult_policies {chunks : List (PolicyChunkResult F)} (h : chunks ≠ [])
    (maxChars : Int) :
    compactToolResult (.array (chunks.map PolicyChunkResult.modelDump)) maxChars =
      .ok (truncate (policyBody (chunkBudget chunks maxChars) chunks) maxChars) := by
  obtain ⟨chunk, chunks, rfl⟩ := List.exists_cons_of_ne_nil h
  have hlines : ∀ budget : Int, ((chunk :: chunks).map PolicyChunkResult.modelDump).mapM
      (compactPolicyChunk · budget) = .ok ((chunk :: chunks).map (·.line budget)) := by
    intro budget
    rw [mapM_eq_ok, List.forall₂_map_left_iff, List.forall₂_map_right_iff]
    exact List.forall₂_same.mpr fun c _ => compactPolicyChunk_modelDump_eq c budget
  have hstep : compactToolResult (.array ((chunk :: chunks).map PolicyChunkResult.modelDump))
      maxChars = ((join "\n" ·) <$> ((chunk :: chunks).map PolicyChunkResult.modelDump).mapM
        (compactPolicyChunk · (max 100 (maxChars /
          max 1 ((chunk :: chunks).map PolicyChunkResult.modelDump).length)))) >>=
        fun body => .ok (truncate body maxChars) := rfl
  rw [hstep, hlines, List.length_map]
  rfl

/-- Every chunk of a list is shown with its source and the start of its content, if the contents keep their
starts where they are cut at their share of `max_chars`, and the last one keeps its start where it is cut
at what is left of it. -/
theorem observation_shows {chunks : List (PolicyChunkResult F)} (h : chunks ≠ []) {maxChars : Int}
    (hkept : ∀ chunk ∈ chunks, KeepsStart chunk.content (chunkBudget chunks maxChars))
    (hlast : KeepsStart (chunks.getLast h).content
      (lastRoom (chunkBudget chunks maxChars) maxChars chunks h)) :
    ∃ observation,
      compactToolResult (.array (chunks.map PolicyChunkResult.modelDump)) maxChars =
        .ok observation ∧ ∀ chunk ∈ chunks, chunk.ShownIn observation :=
  ⟨_, compactToolResult_policies h maxChars,
    (showsAll_truncate (le_max_left _ _) h hkept hlast).shownIn⟩

end Observation

end Chunks

/-! ## Two chunks -/

/-- A chunk of a document `A`. -/
def chunkOf (content : Str) : PolicyChunkResult FloatText :=
  ⟨"a", "A", none, content, false, none⟩

/-- Two contents of 200 characters. -/
def longChunks : List (PolicyChunkResult FloatText) :=
  [chunkOf (List.replicate 200 (chr 'x')), chunkOf (List.replicate 200 (chr 'y'))]

theorem longChunks_ne_nil : longChunks ≠ [] := List.cons_ne_nil _ _

/-- In 300 characters both are shown. The first one is cut at 150 characters, the second one at 107. -/
theorem long_chunks_shown : ∃ observation,
    @compactToolResult FloatText _ asciiUnicode (.array (longChunks.map PolicyChunkResult.modelDump))
      300 = .ok observation ∧ isIn (List.replicate 100 (chr 'y')) observation = true := by
  have hkept : ∀ chunk ∈ longChunks, KeepsStart chunk.content (chunkBudget longChunks 300) := by
    decide +kernel
  obtain ⟨observation, hok, hshown⟩ := @observation_shows FloatText _ asciiUnicode _
    longChunks_ne_nil 300 hkept (by decide +kernel)
  exact ⟨observation, hok, (hshown (chunkOf (List.replicate 200 (chr 'y')))
    (List.mem_cons_of_mem _ List.mem_cons_self)).2⟩

/-- In 257 characters there is room for both, and the second one is not shown up to its hundredth. -/
theorem long_chunks_crowded : (policyRoom longChunks : Int) ≤ 257 ∧ ∃ observation,
    @compactToolResult FloatText _ asciiUnicode (.array (longChunks.map PolicyChunkResult.modelDump))
      257 = .ok observation ∧ ¬ (chunkOf (List.replicate 200 (chr 'y'))).ShownIn observation := by
  refine ⟨by decide, _, rfl, ?_⟩
  rintro ⟨-, hcontent⟩
  exact absurd hcontent (by decide +kernel)

end DealershipAgent
