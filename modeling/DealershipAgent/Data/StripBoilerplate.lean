import Mathlib.Algebra.GroupWithZero.Nat
import Mathlib.Data.List.Flatten
import DealershipAgent.Py.Rewrite

/-!
# Boilerplate of the descriptions

`strip_boilerplate` of `data/scripts/clean_listings.py`.

* `boilerplateSegments`: the segments that come often in the descriptions.
* `stripText`: they are removed from a text one after the other, then the text is tidied.
* `ReadsAs`: what reads as a segment when segments in it are left out and its tags and white space are
  read as single spaces.
* `boilerplate_stripped`: no segment is left in any text, if what reads as a segment is one as it stands.
-/

namespace DealershipAgent

open Py Re

/-- `<br\s*/?>` -/
def brTag : Regex :=
  .seq (lit "<br") (.seq (.star true (.char isSpace)) (.seq (opt (lit "/")) (lit ">")))

/-- `<br\s*/?>\s*<br\s*/?>|(?<=[.!])\s+` -/
def segmentBreaks : List Pattern :=
  [{ re := .seq brTag (.seq (.star true (.char isSpace)) brTag) },
   { start := fun before _ => before.head?.any fun c => c = chr '.' || c = chr '!'
     re := plus (.char isSpace) }]

/-- `BOILERPLATE_MIN_OCCURRENCES` -/
def boilerplateMinOccurrences : Nat := 50

/-- `BOILERPLATE_MIN_LENGTH` -/
def boilerplateMinLength : Nat := 20

/-- The segments of a text that count. -/
def segmentsOf (text : Str) : List Str :=
  ((split segmentBreaks text).map strip).filter fun segment =>
    boilerplateMinLength ≤ segment.length

/-- `segment_counts`: the keys in the order in which they come first. -/
def segmentCounts (texts : List (Option Str)) : List (Str × Nat) :=
  let segments := texts.flatMap fun text => segmentsOf (text.getD [])
  segments.eraseDups.map fun segment => (segment, segments.count segment)

/-- `_boilerplate_segments` -/
def boilerplateSegments (texts : List (Option Str)) : List Str :=
  ((segmentCounts texts).filter fun x => boilerplateMinOccurrences ≤ x.2).map Prod.fst

/-- `if segment in cleaned: cleaned = cleaned.replace(segment, "")` -/
def removeSegment (segment cleaned : Str) : Str :=
  if isIn segment cleaned then replace segment [] cleaned else cleaned

/-- `re.sub(r"<br\s*/?>", " ", cleaned)` -/
def replaceTags (cleaned : Str) : Str := sub [{ re := brTag }] " " cleaned

/-- `re.sub(r"\s+", " ", cleaned).strip()` -/
def collapseSpaces (cleaned : Str) : Str :=
  strip (sub [{ re := plus (.char isSpace) }] " " cleaned)

/-- The text without the segments, tidied, and how many of them were in it. -/
def stripText (segments : List Str) (text : Str) : Str × Nat :=
  let (cleaned, removals) := segments.foldl (fun (cleaned, removals) segment =>
    (removeSegment segment cleaned, if isIn segment cleaned then removals + 1 else removals)) (text, 0)
  (collapseSpaces (replaceTags cleaned), removals)

/-- `strip_boilerplate` -/
def stripBoilerplate (texts : List (Option Str)) : List (Option Str) × List Str × Nat :=
  let segments := boilerplateSegments texts
  if segments = [] then (texts, [], 0)
  else
    let stripped := texts.map fun text => stripText segments (text.getD [])
    (stripped.map fun x => some x.1, segments, (stripped.map Prod.snd).sum)

theorem stripBoilerplate_segments (texts : List (Option Str)) :
    (stripBoilerplate texts).2.1 = boilerplateSegments texts := by
  unfold stripBoilerplate
  by_cases hnone : boilerplateSegments texts = [] <;> simp [hnone]

theorem stripBoilerplate_texts {texts : List (Option Str)} (h : boilerplateSegments texts ≠ []) :
    (stripBoilerplate texts).1 = texts.map fun text =>
      some (stripText (boilerplateSegments texts) (text.getD [])).1 := by
  unfold stripBoilerplate
  rw [if_neg h]
  exact List.map_map

/-- Without segments the texts stay as they are. -/
theorem stripBoilerplate_nil {texts : List (Option Str)} (h : boilerplateSegments texts = []) :
    (stripBoilerplate texts).1 = texts := by
  unfold stripBoilerplate
  rw [if_pos h]

/-- The text of a row after the segments were removed. -/
def strippedDescription (segments : List Str) (text : Option Str) : Option Str :=
  if segments = [] then text else some (stripText segments (text.getD [])).1

theorem stripBoilerplate_fst (texts : List (Option Str)) :
    (stripBoilerplate texts).1 = texts.map (strippedDescription (boilerplateSegments texts)) := by
  by_cases hnone : boilerplateSegments texts = []
  · rw [stripBoilerplate_nil hnone, hnone]
    calc texts = texts.map id := (List.map_id texts).symm
      _ = texts.map (strippedDescription []) := List.map_congr_left fun _ _ => (if_pos rfl).symm
  · rw [stripBoilerplate_texts hnone]
    simp [strippedDescription, hnone]

/-! ## Segments in pieces -/

def TagRead (g r : Str) : Prop := g ∈ brTag.lang ∧ r = " "

def SpaceRead (g r : Str) : Prop := g ≠ [] ∧ Blank g ∧ r = " "

/-- A part of a text reads as a segment: some segments in it are left out, its tags are read as spaces, and
white space as one space. -/
def ReadsAs (segments : List Str) (part segment : Str) : Prop :=
  ∃ untagged spaced, Rewrites (LeftOut segments) part untagged ∧ Rewrites TagRead untagged spaced ∧
    Rewrites SpaceRead spaced segment

/-- What reads as a segment in the text is that segment as it stands. -/
def Whole (segments : List Str) (text : Str) : Prop :=
  ∀ segment ∈ segments, ∀ part, part <:+: text → ReadsAs segments part segment → part = segment

theorem mem_brTag {g : Str} (h : g ∈ brTag.lang) : chr '<' ∈ g := by
  obtain ⟨u, hu, v, -, rfl⟩ := mem_lang_seq.mp h
  rw [mem_lang_lit.mp hu]
  exact List.mem_append_left v (by decide)

theorem proper_brTag : Pattern.Proper { re := brTag } where
  simple := rfl
  ne_nil _ ht := List.ne_nil_of_mem (mem_brTag ht)

theorem lang_spaces {g : Str} (h : g ∈ (plus (.char isSpace)).lang) : g ≠ [] ∧ Blank g := by
  obtain ⟨u, hu, v, hv, rfl⟩ := mem_lang_seq.mp h
  obtain ⟨a, ha, rfl⟩ := mem_lang_char.mp hu
  refine ⟨List.append_ne_nil_of_left_ne_nil (List.cons_ne_nil a []) v, fun c hc => ?_⟩
  rcases List.mem_append.mp hc with hc | hc
  · rw [List.mem_singleton.mp hc]
    exact ha
  · exact allows_of_mem_lang hv c hc

theorem proper_spaces : Pattern.Proper { re := plus (.char isSpace) } where
  simple := rfl
  ne_nil _ ht := (lang_spaces ht).1

theorem shrinks_tagRead : Shrinks TagRead := by
  rintro g r ⟨hg, rfl⟩
  exact ⟨proper_brTag.ne_nil g hg, le_refl _⟩

theorem shrinks_spaceRead : Shrinks SpaceRead := by
  rintro g r ⟨hg, -, rfl⟩
  exact ⟨hg, le_refl _⟩

theorem rewrites_replaceTags (s : Str) : Rewrites TagRead s (replaceTags s) :=
  rewrites_sub proper_brTag (fun _ hg => ⟨hg, rfl⟩) s

theorem rewrites_spaces (s : Str) : Rewrites SpaceRead s (sub [{ re := plus (.char isSpace) }] " " s) :=
  rewrites_sub proper_spaces (fun _ hg => ⟨(lang_spaces hg).1, (lang_spaces hg).2, rfl⟩) s

/-- What is in a text after the white space was collapsed. -/
theorem collapseSpaces_contained {s t : Str} (h : t <:+: collapseSpaces s) :
    ∃ w, w <:+: s ∧ Rewrites SpaceRead w t := by
  unfold collapseSpaces at h
  obtain ⟨a, b, -, -, hstrip⟩ := strip_eq (sub [{ re := plus (.char isSpace) }] " " s)
  have hin : t <:+: sub [{ re := plus (.char isSpace) }] " " s :=
    h.trans ⟨a, b, hstrip.symm⟩
  exact (rewrites_spaces s).contained shrinks_spaceRead hin

section Segments

variable {segments : List Str} {text cleaned segment : Str}

theorem rewrites_removeSegment (hsegment : segment ∈ segments) (cleaned : Str) :
    Rewrites (LeftOut segments) cleaned (removeSegment segment cleaned) := by
  unfold removeSegment
  split
  · exact rewrites_replace ⟨hsegment, rfl⟩ cleaned
  · exact .refl _ cleaned

/-- What was made of a part by leaving segments out, and reads as a segment, was not changed. -/
theorem Whole.unchanged (hne : ∀ segment ∈ segments, segment ≠ []) (h : Whole segments text)
    (hcleaned : Rewrites (LeftOut segments) text cleaned) (hsegment : segment ∈ segments) {part : Str}
    (hpart : part <:+: cleaned) (hreads : ReadsAs segments part segment) : part = segment := by
  have hwhole : ∀ g ∈ segments, ∀ w, w <:+: text → Rewrites (LeftOut segments) w g → w = g :=
    fun g hg w hw hleft => h g hg w hw ⟨g, g, hleft, .refl _ g, .refl _ g⟩
  obtain ⟨w, hw, hmade⟩ := hcleaned.contained (shrinks_leftOut hne) hpart
  obtain ⟨untagged, spaced, hleft, htags, hspaces⟩ := hreads
  have hall := hmade.trans_leftOut hne (fun g hg w' hw' => hwhole g hg w' (hw'.trans hw)) hleft
  obtain rfl := h segment hsegment w hw ⟨untagged, spaced, hall, htags, hspaces⟩
  -- the segment stood there as it is, and nothing of it was left out
  have hlong := (htags.length_le shrinks_tagRead).trans (hleft.length_le (shrinks_leftOut hne))
  have hshort := hspaces.length_le shrinks_spaceRead
  rcases hmade.leftOut_cases hne with hsame | ⟨g, hg, -, hlen⟩
  · exact hsame
  · have := List.length_pos_iff.mpr (hne g hg)
    omega

/-- One removal: the segment is gone, and no other one has come. -/
theorem removeSegment_contained (hne : ∀ segment ∈ segments, segment ≠ []) (h : Whole segments text)
    (hcleaned : Rewrites (LeftOut segments) text cleaned) {removed : Str} (hremoved : removed ∈ segments)
    (hsegment : segment ∈ segments) (hin : segment <:+: removeSegment removed cleaned) :
    segment <:+: cleaned ∧ segment ≠ removed := by
  obtain ⟨w, hw, hmade⟩ :=
    (rewrites_removeSegment hremoved cleaned).contained (shrinks_leftOut hne) hin
  obtain rfl := h.unchanged hne hcleaned hsegment hw ⟨_, _, hmade, .refl _ _, .refl _ _⟩
  refine ⟨hw, ?_⟩
  rintro rfl
  unfold removeSegment at hin
  rw [if_pos (isIn_iff.mpr hw)] at hin
  obtain ⟨w', hw', hmade', hchanged⟩ := replace_contained hsegment hne hin
  exact hchanged (h.unchanged hne hcleaned hsegment hw' ⟨_, _, hmade', .refl _ _, .refl _ _⟩)

/-- The removals: what is left was made by leaving segments out, and has none of those removed. -/
theorem removeSegments_spec (hne : ∀ segment ∈ segments, segment ≠ []) (h : Whole segments text)
    {removed : List Str} (hremoved : ∀ segment ∈ removed, segment ∈ segments)
    (hcleaned : Rewrites (LeftOut segments) text cleaned) :
    Rewrites (LeftOut segments) text (removed.foldl (fun s segment => removeSegment segment s) cleaned) ∧
      ∀ segment ∈ segments,
        segment <:+: removed.foldl (fun s segment => removeSegment segment s) cleaned →
          segment <:+: cleaned ∧ segment ∉ removed := by
  have hwhole : ∀ g ∈ segments, ∀ w, w <:+: text → Rewrites (LeftOut segments) w g → w = g :=
    fun g hg w hw hleft => h g hg w hw ⟨g, g, hleft, .refl _ g, .refl _ g⟩
  induction removed generalizing cleaned with
  | nil => exact ⟨hcleaned, fun segment _ hin => ⟨hin, List.not_mem_nil⟩⟩
  | cons first removed ih =>
    obtain ⟨hfirst, hrest⟩ := List.forall_mem_cons.mp hremoved
    obtain ⟨hall, hcontained⟩ :=
      ih hrest (hcleaned.trans_leftOut hne hwhole (rewrites_removeSegment hfirst cleaned))
    refine ⟨hall, fun segment hsegment hin => ?_⟩
    obtain ⟨hin', hnot⟩ := hcontained segment hsegment hin
    obtain ⟨hin'', hother⟩ := removeSegment_contained hne h hcleaned hfirst hsegment hin'
    refine ⟨hin'', fun hmem => ?_⟩
    rcases List.mem_cons.mp hmem with heq | hmem
    · exact hother heq
    · exact hnot hmem

theorem stripText_fst (segments : List Str) (text : Str) : (stripText segments text).1 =
    collapseSpaces (replaceTags (segments.foldl (fun s segment => removeSegment segment s) text)) := by
  have hfold : ∀ n, (segments.foldl (fun (x : Str × Nat) segment =>
      (removeSegment segment x.1, if isIn segment x.1 then x.2 + 1 else x.2)) (text, n)).1 =
        segments.foldl (fun s segment => removeSegment segment s) text := by
    induction segments generalizing text with
    | nil => exact fun n => rfl
    | cons segment segments ih => exact fun n => ih (removeSegment segment text) _
  change collapseSpaces (replaceTags (segments.foldl _ (text, 0)).1) = _
  rw [hfold 0]

/-- No segment is left in the text. -/
theorem stripText_whole (hne : ∀ segment ∈ segments, segment ≠ []) (h : Whole segments text) :
    ∀ segment ∈ segments, isIn segment (stripText segments text).1 = false := by
  intro segment hsegment
  rw [Bool.eq_false_iff, Ne, isIn_iff, stripText_fst]
  intro hin
  obtain ⟨hcleaned, hcontained⟩ :=
    removeSegments_spec hne h (fun _ => id) (.refl (LeftOut segments) text)
  obtain ⟨spaced, hspaced, hspaces⟩ := collapseSpaces_contained hin
  obtain ⟨untagged, huntagged, htags⟩ :=
    (rewrites_replaceTags _).contained shrinks_tagRead hspaced
  obtain rfl := h.unchanged hne hcleaned hsegment huntagged
    ⟨untagged, spaced, .refl _ _, htags, hspaces⟩
  exact (hcontained _ hsegment huntagged).2 hsegment

end Segments

theorem mem_boilerplateSegments {texts : List (Option Str)} {segment : Str} :
    segment ∈ boilerplateSegments texts ↔
      boilerplateMinOccurrences ≤ (texts.flatMap fun text => segmentsOf (text.getD [])).count segment := by
  unfold boilerplateSegments segmentCounts
  simp only [List.mem_map, List.mem_filter, List.mem_eraseDups, decide_eq_true_eq]
  constructor
  · rintro ⟨x, ⟨⟨segment, -, rfl⟩, hcount⟩, rfl⟩
    exact hcount
  · intro hcount
    have hmem := List.count_pos_iff.mp (Nat.lt_of_lt_of_le (by decide) hcount)
    exact ⟨_, ⟨⟨segment, hmem, rfl⟩, hcount⟩, rfl⟩

/-- A segment that recurs in some of the texts recurs in all of them. -/
theorem boilerplateSegments_sublist {texts texts' : List (Option Str)} (h : texts.Sublist texts') :
    ∀ segment ∈ boilerplateSegments texts, segment ∈ boilerplateSegments texts' := by
  intro segment hsegment
  rw [mem_boilerplateSegments] at hsegment ⊢
  exact hsegment.trans ((h.flatMap _).count_le segment)

theorem boilerplateSegments_ne_nil {texts : List (Option Str)} :
    ∀ segment ∈ boilerplateSegments texts, segment ≠ [] := by
  intro segment h
  have hmem := List.count_pos_iff.mp (Nat.lt_of_lt_of_le (by decide) (mem_boilerplateSegments.mp h))
  obtain ⟨text, -, hmem⟩ := List.mem_flatMap.mp hmem
  have hlong : boilerplateMinLength ≤ segment.length :=
    of_decide_eq_true (List.mem_filter.mp hmem).2
  exact List.ne_nil_of_length_pos (Nat.lt_of_lt_of_le (by decide) hlong)

/-- No segment that was found is left in any text, if in each of the texts what reads as a segment is that
segment as it stands. -/
theorem boilerplate_stripped (texts : List (Option Str))
    (h : ∀ text ∈ texts, Whole (boilerplateSegments texts) (text.getD [])) :
    ∀ segment ∈ (stripBoilerplate texts).2.1, ∀ text ∈ (stripBoilerplate texts).1, ∀ s,
      text = some s → isIn segment s = false := by
  rw [stripBoilerplate_segments]
  by_cases hnone : boilerplateSegments texts = []
  · simp [hnone]
  · rw [stripBoilerplate_texts hnone]
    intro segment hsegment stripped hstripped s hs
    obtain ⟨text, htext, rfl⟩ := List.mem_map.mp hstripped
    cases hs
    exact stripText_whole boilerplateSegments_ne_nil (h text htext) segment hsegment

/-- There is no tag, and white space only as single spaces. -/
def Plain (text : Str) : Prop :=
  isIn "<" text = false ∧ (text.all fun c => !isSpace c || c == chr ' ') = true ∧
    isIn "  " text = false

theorem Plain.no_tag {text g r : Str} (h : Plain text) (hg : g <:+: text) : ¬ TagRead g r := by
  rintro ⟨htag, -⟩
  obtain ⟨a, b, rfl⟩ := List.append_of_mem (mem_brTag htag)
  have hin : [chr '<'] <:+: text := List.IsInfix.trans ⟨a, b, by simp⟩ hg
  exact absurd (isIn_iff.mpr hin) (Bool.eq_false_iff.mp h.1)

/-- White space is one space there already. -/
theorem Plain.spaceRead {text g r : Str} (h : Plain text) (hg : g <:+: text) (hread : SpaceRead g r) :
    r = g := by
  obtain ⟨hne, hblank, rfl⟩ := hread
  have hspaces : ∀ c ∈ g, c = chr ' ' := by
    intro c hc
    have := List.all_eq_true.mp h.2.1 c (hg.subset hc)
    simpa [hblank c hc] using this
  match g, hne with
  | [c], _ => rw [hspaces c (List.mem_singleton_self c)]; rfl
  | c :: d :: g, _ =>
    have hc : c = chr ' ' := hspaces c List.mem_cons_self
    have hd : d = chr ' ' := hspaces d (List.mem_cons_of_mem _ List.mem_cons_self)
    have hin : ([chr ' ', chr ' '] : Str) <:+: text :=
      List.IsInfix.trans ⟨[], g, by rw [hc, hd]; rfl⟩ hg
    exact absurd (isIn_iff.mpr hin) (Bool.eq_false_iff.mp h.2.2)

/-- A plain text with no room for two segments. -/
theorem whole_of_plain {segments : List Str} {text : Str} (h : Plain text)
    (hshort : ∀ g ∈ segments, ∀ segment ∈ segments, text.length < g.length + segment.length) :
    Whole segments text := by
  rintro segment hsegment part hpart ⟨untagged, spaced, hleft, htags, hspaces⟩
  have hne : ∀ g ∈ segments, g ≠ [] := by
    rintro g hg rfl
    exact absurd (hshort _ hg _ hg) (Nat.not_lt_zero _)
  have hlen := (hspaces.length_le shrinks_spaceRead).trans (htags.length_le shrinks_tagRead)
  have hpartlen := hpart.length_le
  rcases hleft.leftOut_cases hne with rfl | ⟨g, hg, -, hlong⟩
  · obtain rfl := htags.eq_of_same fun g r hg ht => absurd ht (h.no_tag (hg.trans hpart))
    exact (hspaces.eq_of_same fun g r hg => h.spaceRead (hg.trans hpart)).symm
  · have := hshort g hg segment hsegment
    omega

/-- A tidy text in which none of the segments is. -/
structure Untouched (segments : List Str) (text : Str) : Prop where
  plain : Plain text
  stripped : strip text = text
  free : ∀ segment ∈ segments, isIn segment text = false

theorem Untouched.mono {segments segments' : List Str} {text : Str} (h : Untouched segments' text)
    (hs : ∀ segment ∈ segments, segment ∈ segments') : Untouched segments text :=
  { h with free := fun segment hsegment => h.free segment (hs segment hsegment) }

theorem Untouched.removeSegments {segments : List Str} {text : Str} (h : Untouched segments text) :
    segments.foldl (fun s segment => removeSegment segment s) text = text := by
  induction segments with
  | nil => rfl
  | cons segment segments ih =>
    have hsame : removeSegment segment text = text := by
      unfold removeSegment
      rw [if_neg (Bool.eq_false_iff.mp (h.free segment List.mem_cons_self))]
    rw [List.foldl_cons, hsame]
    exact ih (h.mono fun _ => List.mem_cons_of_mem _)

theorem Untouched.stripText {segments : List Str} {text : Str} (h : Untouched segments text) :
    (stripText segments text).1 = text := by
  have htags : replaceTags text = text :=
    (rewrites_replaceTags text).eq_of_same fun g r hg htag => absurd htag (h.plain.no_tag hg)
  have hspaces : sub [{ re := plus (.char isSpace) }] " " text = text :=
    (rewrites_spaces text).eq_of_same fun g r hg => h.plain.spaceRead hg
  rw [stripText_fst, h.removeSegments, htags, collapseSpaces, hspaces, h.stripped]

/-! ## A slogan -/

def slogan : Str := "Call today for price"

/-- Fifty descriptions are the slogan, and there are others. -/
def sloganTexts (others : List Str) : List (Option Str) :=
  List.replicate 50 (some slogan) ++ others.map some

theorem sloganTexts_segments (others : List Str) :
    (sloganTexts others).flatMap (fun text => segmentsOf (text.getD [])) =
      List.replicate 50 slogan ++ others.flatMap segmentsOf := by
  have hslogan : segmentsOf slogan = [slogan] := by decide
  unfold sloganTexts
  rw [List.flatMap_append, List.flatMap_replicate, Option.getD_some, hslogan, List.flatMap_map]
  rfl

def offer : Str := "Call today for price! Nice car."

theorem boilerplateSegments_offer : boilerplateSegments (sloganTexts [offer]) = [slogan] := by
  have hoffer : [offer].flatMap segmentsOf = ["Call today for price!"] := by decide
  unfold boilerplateSegments segmentCounts
  rw [sloganTexts_segments, hoffer]
  decide

theorem offer_stripped : (stripText [slogan] offer).1 = "! Nice car." ∧
    ∀ segment ∈ (stripBoilerplate (sloganTexts [offer])).2.1,
      ∀ text ∈ (stripBoilerplate (sloganTexts [offer])).1, ∀ s,
        text = some s → isIn segment s = false := by
  refine ⟨by decide, boilerplate_stripped _ fun text htext => ?_⟩
  rw [boilerplateSegments_offer]
  have hshort : ∀ s : Str, s.length < 40 →
      ∀ g ∈ [slogan], ∀ segment ∈ [slogan], s.length < g.length + segment.length := by
    intro s hs g hg segment hsegment
    rw [List.mem_singleton.mp hg, List.mem_singleton.mp hsegment]
    exact hs
  rcases List.mem_append.mp htext with htext | htext
  · rw [List.eq_of_mem_replicate htext]
    have hplain : Plain slogan := ⟨by decide, by decide, by decide⟩
    exact whole_of_plain hplain (hshort slogan (by decide))
  · rw [List.mem_singleton.mp htext]
    have hplain : Plain offer := ⟨by decide, by decide, by decide⟩
    exact whole_of_plain hplain (hshort offer (by decide))

/-- The slogan, with another one in its middle. -/
def doubledSlogan : Str := "Call today Call today for pricefor price"

theorem boilerplateSegments_slogan : boilerplateSegments (sloganTexts [doubledSlogan]) = [slogan] := by
  have hdoubled : [doubledSlogan].flatMap segmentsOf = [doubledSlogan] := by decide
  unfold boilerplateSegments segmentCounts
  rw [sloganTexts_segments, hdoubled]
  decide

/-- Its removal from the last text leaves it there. -/
theorem slogan_left :
    ¬ ∀ segment ∈ (stripBoilerplate (sloganTexts [doubledSlogan])).2.1,
      ∀ text ∈ (stripBoilerplate (sloganTexts [doubledSlogan])).1, ∀ s,
        text = some s → isIn segment s = false := by
  have hne : boilerplateSegments (sloganTexts [doubledSlogan]) ≠ [] := by
    simp [boilerplateSegments_slogan]
  have hstrip : (stripText [slogan] doubledSlogan).1 = slogan := by decide
  have hlast : some doubledSlogan ∈ sloganTexts [doubledSlogan] :=
    List.mem_append_right _ (List.mem_singleton_self _)
  rw [stripBoilerplate_segments, stripBoilerplate_texts hne, boilerplateSegments_slogan]
  intro h
  have hleft := h slogan (List.mem_singleton_self _) _ (List.mem_map_of_mem hlast) _ rfl
  rw [Option.getD_some, hstrip] at hleft
  exact absurd hleft (by decide)

end DealershipAgent
