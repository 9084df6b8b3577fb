import DealershipAgent.Py.Json.Dump

/-!
# Lines of a text

* `splitLines`: `str.splitlines`.
* `blockLines`: the lines of a text that are not blank, each without the white space at its ends.
  `blockLines_strip`: stripping a text keeps them. `blockLines_join`: joining lines with line feeds
  keeps them.
-/

namespace Py

/-- Where `str.splitlines` splits. -/
def isLineBreak (c : CodePoint) : Bool :=
  let n := c.val
  (10 ≤ n && n ≤ 13) || (28 ≤ n && n ≤ 30) || n == 0x85 || n == 0x2028 || n == 0x2029

/-- The lines of `s`, when `line` has been read of the first one. `cr` says whether a carriage return
came just before: a line feed belongs to it. -/
def splitLinesFrom (cr : Bool) (line : Str) : Str → List Str
  | [] => if line = [] then [] else [line]
  | c :: s =>
    if cr && c == chr '\n' then splitLinesFrom false line s
    else if isLineBreak c then line :: splitLinesFrom (c == chr '\r') [] s
    else splitLinesFrom false (line ++ [c]) s

/-- `s.splitlines()` -/
def splitLines (s : Str) : List Str := splitLinesFrom false [] s

/-- No line break in the line. -/
def Breakless (line : Str) : Prop := ∀ c ∈ line, isLineBreak c = false

theorem mem_splitLinesFrom {cr : Bool} {line s l : Str} (hline : Breakless line)
    (h : l ∈ splitLinesFrom cr line s) : Breakless l := by
  induction s generalizing cr line with
  | nil =>
    rw [splitLinesFrom] at h
    split at h
    · cases h
    · rwa [List.mem_singleton.mp h]
  | cons c s ih =>
    rw [splitLinesFrom] at h
    split at h
    · exact ih hline h
    · split at h
      · rcases List.mem_cons.mp h with rfl | h
        · exact hline
        · exact ih (fun _ hc => by cases hc) h
      · next hc =>
        refine ih (fun d hd => ?_) h
        rcases List.mem_append.mp hd with hd | hd
        · exact hline d hd
        · rw [List.mem_singleton.mp hd]
          exact Bool.eq_false_iff.mpr hc

/-- The lines of a text have no line breaks. -/
theorem splitLines_breakless {s l : Str} (h : l ∈ splitLines s) : Breakless l :=
  mem_splitLinesFrom (fun _ hc => by cases hc) h

/-! ## White space at the ends of a line -/

theorem lstrip_append_left {w s : Str} (hw : Blank w) : lstrip (w ++ s) = lstrip s := by
  induction w with
  | nil => rfl
  | cons c w ih =>
    rw [List.cons_append, lstrip, List.dropWhile_cons_of_pos (hw c List.mem_cons_self)]
    exact ih fun d hd => hw d (List.mem_cons_of_mem c hd)

theorem rstrip_append_right {w s : Str} (hw : Blank w) : rstrip (s ++ w) = rstrip s := by
  induction w using List.reverseRecOn with
  | nil => rw [List.append_nil]
  | append_singleton w c ih =>
    rw [← List.append_assoc, rstrip, List.rdropWhile_concat_pos _ _ _ (hw c (by simp))]
    exact ih fun d hd => hw d (List.mem_append_left _ hd)

theorem lstrip_append_right {s : Str} (w : Str) (hs : ¬ Blank s) :
    lstrip (s ++ w) = lstrip s ++ w := by
  induction s with
  | nil => exact absurd (fun _ hc => by cases hc) hs
  | cons c s ih =>
    by_cases hc : isSpace c = true
    · rw [List.cons_append, lstrip, lstrip, List.dropWhile_cons_of_pos hc,
        List.dropWhile_cons_of_pos hc]
      refine ih fun hblank => hs fun d hd => ?_
      rcases List.mem_cons.mp hd with rfl | hd
      · exact hc
      · exact hblank d hd
    · rw [List.cons_append, lstrip, lstrip, List.dropWhile_cons_of_neg hc,
        List.dropWhile_cons_of_neg hc]
      rfl

theorem strip_blank {s : Str} (h : Blank s) : strip s = [] := by
  have hs : lstrip s = [] := List.dropWhile_eq_nil_iff.mpr h
  rw [strip, hs]
  rfl

theorem strip_append_left {w s : Str} (hw : Blank w) : strip (w ++ s) = strip s := by
  rw [strip, lstrip_append_left hw, strip]

theorem strip_append_right {w s : Str} (hw : Blank w) : strip (s ++ w) = strip s := by
  by_cases hs : Blank s
  · rw [strip_blank hs, strip_blank (hs.append hw)]
  · rw [strip, lstrip_append_right w hs, rstrip_append_right hw, strip]

theorem blank_singleton {c : CodePoint} (h : isSpace c = true) : Blank [c] := by
  intro d hd
  rwa [List.mem_singleton.mp hd]

/-! ## The lines that are not blank -/

/-- The lines that are not blank, without the white space at their ends. -/
def nonBlank (lines : List Str) : List Str := (lines.map strip).filter fun line => line ≠ []

def blockLines (s : Str) : List Str := nonBlank (splitLines s)

theorem nonBlank_append (ls ls' : List Str) : nonBlank (ls ++ ls') = nonBlank ls ++ nonBlank ls' := by
  rw [nonBlank, List.map_append, List.filter_append]
  rfl

theorem nonBlank_cons (l : Str) (ls : List Str) :
    nonBlank (l :: ls) = nonBlank [l] ++ nonBlank ls := nonBlank_append [l] ls

theorem nonBlank_blank {l : Str} (h : Blank l) : nonBlank [l] = [] := by
  simp [nonBlank, strip_blank h]

theorem nonBlank_congr {l l' : Str} (h : strip l = strip l') : nonBlank [l] = nonBlank [l'] := by
  simp [nonBlank, h]

/-- A line that is not there is a blank one. -/
theorem nonBlank_ite (l : Str) : nonBlank (if l = [] then [] else [l]) = nonBlank [l] := by
  split
  · next h =>
    subst h
    exact (nonBlank_blank fun _ hc => by cases hc).symm
  · rfl

/-- White space before the rest of a line. -/
theorem blockLines_from_left {w : Str} (hw : Blank w) (cr : Bool) (line s : Str) :
    nonBlank (splitLinesFrom cr (w ++ line) s) = nonBlank (splitLinesFrom cr line s) := by
  have hone : ∀ line : Str, nonBlank [w ++ line] = nonBlank [line] := fun line =>
    nonBlank_congr (strip_append_left hw)
  induction s generalizing cr line with
  | nil => rw [splitLinesFrom, splitLinesFrom, nonBlank_ite, nonBlank_ite, hone]
  | cons c s ih =>
    rw [splitLinesFrom, splitLinesFrom]
    split
    · exact ih false line
    · split
      · rw [nonBlank_cons, hone, ← nonBlank_cons]
      · rw [List.append_assoc]
        exact ih false (line ++ [c])

/-- A carriage return before the text changes nothing. -/
theorem blockLines_from_cr (s : Str) :
    nonBlank (splitLinesFrom true [] s) = nonBlank (splitLinesFrom false [] s) := by
  cases s with
  | nil => rfl
  | cons c s =>
    by_cases hc : c = chr '\n'
    · subst hc
      have hbreak : splitLinesFrom false [] (chr '\n' :: s) = [] :: splitLinesFrom false [] s := rfl
      rw [hbreak, nonBlank_cons, nonBlank_blank fun _ hc => by cases hc]
      rfl
    · rw [splitLinesFrom, if_neg (by simp [hc])]
      rfl

theorem blockLines_cons {c : CodePoint} (hc : isSpace c = true) (s : Str) :
    blockLines (c :: s) = blockLines s := by
  unfold blockLines splitLines
  rw [splitLinesFrom, if_neg (by simp)]
  split
  · rw [nonBlank_cons, nonBlank_blank (fun _ hc => by cases hc), List.nil_append]
    cases h : c == chr '\r'
    · rfl
    · exact blockLines_from_cr s
  · have := blockLines_from_left (blank_singleton hc) false [] s
    rwa [List.append_nil] at this

/-- White space after the text. -/
theorem blockLines_from_snoc {c : CodePoint} (hc : isSpace c = true) (cr : Bool) (line s : Str) :
    nonBlank (splitLinesFrom cr line (s ++ [c])) = nonBlank (splitLinesFrom cr line s) := by
  induction s generalizing cr line with
  | nil =>
    rw [List.nil_append, splitLinesFrom, splitLinesFrom]
    split
    · rw [splitLinesFrom]
    · split
      · rw [splitLinesFrom, if_pos rfl, nonBlank_ite]
      · rw [splitLinesFrom, if_neg (by simp), nonBlank_ite]
        exact nonBlank_congr (strip_append_right (blank_singleton hc))
  | cons d s ih =>
    rw [List.cons_append, splitLinesFrom, splitLinesFrom]
    split
    · exact ih _ _
    · split
      · rw [nonBlank_cons, ih, ← nonBlank_cons]
      · exact ih _ _

theorem blockLines_snoc {c : CodePoint} (hc : isSpace c = true) (s : Str) :
    blockLines (s ++ [c]) = blockLines s := blockLines_from_snoc hc false [] s

/-- Stripping a text keeps its lines that are not blank. -/
theorem blockLines_strip (s : Str) : blockLines (strip s) = blockLines s := by
  have hleft : ∀ (w t : Str), Blank w → blockLines (w ++ t) = blockLines t := by
    intro w t hw
    induction w with
    | nil => rfl
    | cons c w ih =>
      rw [List.cons_append, blockLines_cons (hw c List.mem_cons_self)]
      exact ih fun d hd => hw d (List.mem_cons_of_mem c hd)
  have hright : ∀ (w t : Str), Blank w → blockLines (t ++ w) = blockLines t := by
    intro w t hw
    induction w using List.reverseRecOn with
    | nil => rw [List.append_nil]
    | append_singleton w c ih =>
      rw [← List.append_assoc, blockLines_snoc (hw c (by simp))]
      exact ih fun d hd => hw d (List.mem_append_left _ hd)
  obtain ⟨a, b, ha, hb, hs⟩ := strip_eq s
  conv_rhs => rw [hs]
  rw [hright b _ hb, hleft a _ ha]

/-! ## Joined lines -/

theorem splitLinesFrom_breakless {l : Str} (hl : Breakless l) (line : Str) (cr : Bool) (s : Str)
    (hcr : cr = true → l = []) :
    splitLinesFrom cr line (l ++ s) = splitLinesFrom (cr && l.isEmpty) (line ++ l) s := by
  induction l generalizing line cr with
  | nil => simp
  | cons c l ih =>
    have hc : isLineBreak c = false := hl c List.mem_cons_self
    obtain rfl : cr = false := by
      cases cr
      · rfl
      · cases hcr rfl
    rw [List.cons_append, splitLinesFrom, if_neg (by simp), if_neg (by simp [hc]),
      ih (fun d hd => hl d (List.mem_cons_of_mem c hd)) _ _ (by simp)]
    simp

/-- Lines that are joined with line feeds are the lines of the text. -/
theorem blockLines_join {ls : List Str} (h : ∀ l ∈ ls, Breakless l) :
    blockLines (join "\n" ls) = nonBlank ls := by
  induction ls with
  | nil => rfl
  | cons l ls ih =>
    have hl : ∀ s, splitLinesFrom false [] (l ++ s) = splitLinesFrom false l s := fun s => by
      have := splitLinesFrom_breakless (h l List.mem_cons_self) [] false s (by simp)
      simpa using this
    cases ls with
    | nil =>
      have hone : join "\n" [l] = l ++ [] := by simp [join, List.intercalate]
      rw [hone, blockLines, splitLines, hl, splitLinesFrom, nonBlank_ite]
    | cons l' ls =>
      have hjoin : join "\n" (l :: l' :: ls) = l ++ chr '\n' :: join "\n" (l' :: ls) := by
        simp [join, List.intercalate]
        rfl
      have hfeed : splitLinesFrom false l (chr '\n' :: join "\n" (l' :: ls)) =
          l :: splitLinesFrom false [] (join "\n" (l' :: ls)) := rfl
      rw [hjoin, blockLines, splitLines, hl, hfeed, nonBlank_cons, nonBlank_cons l (l' :: ls)]
      exact congrArg _ (ih fun m hm => h m (List.mem_cons_of_mem l hm))

end Py
