import DealershipAgent.Py.Json.Dump
import DealershipAgent.Py.Json.Limits
import DealershipAgent.Llm.Span

/-!
# `normalize_llm_response`

Every completion goes through `normalizeLlmResponse` (`llm/base.py`) before a caller sees it.

* `normalize_presentation_iff`: when an object is read out of any presentation of it: white space, a
  fence, a tag, a one-element array, prose around it.
* `normalize_prose_iff`: when a text without any object is left alone.
-/

namespace DealershipAgent

open Py Json Re

/-- A sequence of patterns. -/
def concat : List Regex → Regex
  | [] => .eps
  | [r] => r
  | r :: rs => .seq r (concat rs)

/-- `.` under `DOTALL`. -/
def anyChar : Regex := .char fun _ => true

def newline : Regex := .char (· == chr '\n')

/-- `_FENCE_RE` -/
def fenceRe : Regex :=
  concat [.start, lit "```", .star true (.char isAsciiLetter), opt newline,
    .group 1 (.star false anyChar), opt newline, lit "```", .stop]

section Normalize

variable [Unicode]

/-- `_XML_WRAPPER_RE` -/
def xmlWrapperRe : Regex :=
  concat [.start, lit "<", .group 1 (plus (.char Unicode.isWord)), lit ">",
    .group 2 (.star true anyChar), lit "</", .backref 1, lit ">", .stop]

/-- `pattern.match(text).group(n).strip()`, or the text itself when nothing matches. -/
def unwrap (pattern : Regex) (n : Nat) (text : Str) : Str :=
  match matchAt pattern text with
  | some m => strip ((m.group n).getD [])
  | none => text

variable (F : Type) [PyFloat F]

/-- Step 4: the only element of an array, if it is an object. -/
def unwrapArray : Json F → Json F
  | .array [.object kvs] => .object kvs
  | parsed => parsed

/-- Step 5: an object without an action is given the one that its shape says. -/
def inferAction (kvs : List (Str × Json F)) : List (Str × Json F) :=
  if dictHas kvs "action" then kvs
  else if dictHas kvs "tool" && dictHas kvs "arguments" then
    ("action", .string "call_tool") :: kvs
  else if dictHas kvs "answer" then ("action", .string "final") :: kvs
  else kvs

/-- Steps 1 to 3: the part of the completion that is read as JSON. -/
def jsonPart (raw : Str) : Str :=
  let text := strip raw
  let text := unwrap fenceRe 1 text
  let text := unwrap xmlWrapperRe 2 text
  (findBalancedJsonSpan text).getD text

/-- Steps 4 and 5, for what `text` is read as. -/
def rewriteParsed (text : Str) : Option (Json F) → Str
  | none => text
  | some parsed =>
    match unwrapArray F parsed with
    | .object kvs => dumps (.object (inferAction F kvs))
    | _ => text

/-- `normalize_llm_response`. It raises where `json.loads` raises anything but a `JSONDecodeError`. -/
def normalizeLlmResponse (raw : Str) : Except Exc Str :=
  (loadsOrNone (jsonPart raw)).map (rewriteParsed F (jsonPart raw))

end Normalize

/-! ## What the two patterns match -/

/-- Nothing, or a line feed. -/
def OptNewline (s : Str) : Prop := s = [] ∨ s = [chr '\n']

variable {text : Str} {m : Pos}

theorem adv_newline {p q : Pos} (h : q ∈ run (opt newline) p) : ∃ t, OptNewline t ∧ Adv p t q := by
  rcases mem_run_opt.mp h with h | rfl
  · obtain ⟨a, ha, hadv⟩ := mem_run_char.mp h
    exact ⟨[a], .inr (by simpa using ha), hadv⟩
  · exact ⟨[], .inl rfl, .refl q⟩

theorem adv_stop {p q : Pos} (h : q ∈ run .stop p) : q = p ∧ OptNewline p.after :=
  mem_run_stop.mp h

/-- The text of a match of `fenceRe`, part by part. -/
theorem fenceRe_match (h : matchAt fenceRe text = some m) : ∃ tag nl body nl' tail,
    text = str "```" ++ (tag ++ (nl ++ (body ++ (nl' ++ (str "```" ++ tail))))) ∧
      (∀ c ∈ tag, isAsciiLetter c = true) ∧ OptNewline nl ∧ OptNewline nl' ∧ OptNewline tail ∧
      m.group 1 = some body := by
  obtain ⟨p₀, h₀, h⟩ := mem_run_seq.mp (matchAt_mem h)
  obtain ⟨p₁, h₁, h⟩ := mem_run_seq.mp h
  obtain ⟨p₂, h₂, h⟩ := mem_run_seq.mp h
  obtain ⟨p₃, h₃, h⟩ := mem_run_seq.mp h
  obtain ⟨p₄, h₄, h⟩ := mem_run_seq.mp h
  obtain ⟨p₅, h₅, h⟩ := mem_run_seq.mp h
  obtain ⟨p₆, h₆, h₇⟩ := mem_run_seq.mp h
  obtain ⟨rfl, -⟩ := mem_run_start.mp h₀
  have a₁ := mem_run_lit.mp h₁
  obtain ⟨tag, htag, a₂⟩ := mem_run_star.mp h₂
  obtain ⟨nl, hnl, a₃⟩ := adv_newline h₃
  obtain ⟨b, hb, rfl⟩ := mem_run_group.mp h₄
  obtain ⟨body, -, a₄⟩ := mem_run_star.mp hb
  obtain ⟨nl', hnl', a₅⟩ := adv_newline h₅
  have a₆ := mem_run_lit.mp h₆
  obtain ⟨rfl, htail⟩ := adv_stop h₇
  refine ⟨tag, nl, body, nl', m.after, ?_, htag, hnl, hnl', htail, ?_⟩
  · rw [← a₆.after, ← a₅.after, ← a₄.after, ← a₃.after, ← a₂.after, ← a₁.after]
  · rw [Pos.group, a₆.groups, a₅.groups, a₄.take]
    rfl

/-- The text of a match of `xmlWrapperRe`, part by part. -/
theorem xmlWrapperRe_match [Unicode] (h : matchAt xmlWrapperRe text = some m) :
    ∃ name body tail,
      text = str "<" ++ (name ++ (str ">" ++ (body ++ (str "</" ++ (name ++ (str ">" ++ tail)))))) ∧
      name ≠ [] ∧ (∀ c ∈ name, Unicode.isWord c = true) ∧ OptNewline tail ∧
      m.group 2 = some body := by
  obtain ⟨p₀, h₀, h⟩ := mem_run_seq.mp (matchAt_mem h)
  obtain ⟨p₁, h₁, h⟩ := mem_run_seq.mp h
  obtain ⟨p₂, h₂, h⟩ := mem_run_seq.mp h
  obtain ⟨p₃, h₃, h⟩ := mem_run_seq.mp h
  obtain ⟨p₄, h₄, h⟩ := mem_run_seq.mp h
  obtain ⟨p₅, h₅, h⟩ := mem_run_seq.mp h
  obtain ⟨p₆, h₆, h⟩ := mem_run_seq.mp h
  obtain ⟨p₇, h₇, h₈⟩ := mem_run_seq.mp h
  obtain ⟨rfl, -⟩ := mem_run_start.mp h₀
  have a₁ := mem_run_lit.mp h₁
  obtain ⟨b₂, hb₂, rfl⟩ := mem_run_group.mp h₂
  obtain ⟨name, hne, hname, a₂⟩ := mem_run_plus.mp hb₂
  have a₃ := mem_run_lit.mp h₃
  obtain ⟨b₄, hb₄, rfl⟩ := mem_run_group.mp h₄
  obtain ⟨body, -, a₄⟩ := mem_run_star.mp hb₄
  have a₅ := mem_run_lit.mp h₅
  obtain ⟨name', hn, a₆⟩ := mem_run_backref.mp h₆
  have a₇ := mem_run_lit.mp h₇
  obtain ⟨rfl, htail⟩ := adv_stop h₈
  have hname' : name' = name := by
    rw [Pos.group, a₅.groups, a₄.groups, a₃.groups, a₂.take] at hn
    exact (Option.some.inj hn).symm
  refine ⟨name, body, m.after, ?_, hne, hname, htail, ?_⟩
  · rw [← a₇.after, ← hname', ← a₆.after, ← a₅.after, ← a₄.after, hname', ← a₃.after, ← a₂.after,
      ← a₁.after]
  · rw [Pos.group, a₇.groups, a₆.groups, a₅.groups, a₄.take]
    rfl

/-! ## An object in any presentation -/

/-- `core` with text around it, none of it before `core` an opening bracket. -/
def Holds (core text : Str) : Prop := ∃ p q, text = p ++ core ++ q ∧ p.any isOpen = false

/-- Text from an opening to a closing bracket. -/
def Bracketed (core : Str) : Prop :=
  ∃ o m c, core = o :: (m ++ [c]) ∧ isOpen o = true ∧ isClose c = true

theorem any_false_of_mem {f : CodePoint → Bool} {s : Str} (h : s.any f = false) {c : CodePoint}
    (hc : c ∈ s) : f c = false := by
  simpa using List.any_eq_false.mp h c hc

theorem any_sublist_false {f : CodePoint → Bool} {s t : Str} (h : t.any f = false)
    (hs : s.Sublist t) : s.any f = false :=
  List.any_eq_false.mpr fun c hc => by simp [any_false_of_mem h (hs.subset hc)]

section Core

variable {core : Str}

theorem isSpace_of_bracket {c : CodePoint} (h : isOpen c = true ∨ isClose c = true) :
    isSpace c = false := by
  simp only [isOpen, isClose, Bool.or_eq_true, beq_iff_eq] at h
  rcases h with (rfl | rfl) | rfl | rfl <;> decide

theorem isWs_of_bracket {c : CodePoint} (h : isOpen c = true ∨ isClose c = true) :
    isWs c = false := by
  simp only [isOpen, isClose, Bool.or_eq_true, beq_iff_eq] at h
  rcases h with (rfl | rfl) | rfl | rfl <;> decide

theorem Holds.strip (hcore : Bracketed core) (h : Holds core text) : Holds core (strip text) := by
  obtain ⟨o, m, c, rfl, ho, hc⟩ := hcore
  obtain ⟨p, q, rfl, hp⟩ := h
  refine ⟨lstrip p, rstrip q, ?_, any_sublist_false hp (lstrip_suffix p).sublist⟩
  exact strip_around (isSpace_of_bracket (.inl ho)) (isSpace_of_bracket (.inr hc)) ⟨_, rfl⟩
    ⟨o :: m, rfl⟩

/-- Two ways to split a text: the first part ends before `x`, which it does not contain. -/
theorem append_cons_split {a b p q : Str} {x : CodePoint} (hx : x ∉ a)
    (h : a ++ b = p ++ x :: q) : ∃ p', p = a ++ p' ∧ b = p' ++ x :: q := by
  rcases List.append_eq_append_iff.mp h with ⟨p', hp, hb⟩ | ⟨a', ha, hb⟩
  · exact ⟨p', hp, hb⟩
  · cases a' with
    | nil => exact ⟨[], by simpa using ha.symm, by simpa using hb.symm⟩
    | cons y a' =>
      injection hb with hy _
      exact absurd (by rw [ha, hy]; simp) hx

/-- What surrounds `core` may be taken off as long as it does not hold the brackets of `core`. -/
theorem Holds.inner (hcore : Bracketed core) (h : Holds core text) {a body b : Str}
    (he : text = a ++ (body ++ b)) (ha : a.any isOpen = false) (hb : b.any isClose = false) :
    Holds core body := by
  obtain ⟨o, m, c, rfl, ho, hc⟩ := hcore
  obtain ⟨p, q, rfl, hp⟩ := h
  have hoa : o ∉ a := fun hmem => by
    rw [any_false_of_mem ha hmem] at ho
    cases ho
  have hcb : c ∉ b := fun hmem => by
    rw [any_false_of_mem hb hmem] at hc
    cases hc
  have hsplit : a ++ (body ++ b) = p ++ o :: (m ++ [c] ++ q) := by rw [← he]; simp
  obtain ⟨p', rfl, he'⟩ := append_cons_split hoa hsplit
  -- From the right, the same with everything reversed.
  have hrev : b.reverse ++ body.reverse = q.reverse ++ c :: (p' ++ o :: m).reverse := by
    have := congrArg List.reverse he'
    simpa using this
  obtain ⟨q', hq', hbody⟩ := append_cons_split (by simpa using hcb) hrev
  refine ⟨p', q'.reverse, ?_, any_sublist_false hp (List.sublist_append_right _ _)⟩
  have := congrArg List.reverse hbody
  simpa using this

theorem OptNewline.noBracket {s : Str} (h : OptNewline s) :
    s.any isOpen = false ∧ s.any isClose = false := by
  rcases h with rfl | rfl <;> decide

/-- No bracket is of a class that two of its members tell apart from every bracket. -/
theorem class_noBracket {f : CodePoint → Bool} (h₁ : f (chr '{') = false) (h₂ : f (chr '[') = false)
    (h₃ : f (chr '}') = false) (h₄ : f (chr ']') = false) {s : Str} (hs : ∀ c ∈ s, f c = true) :
    s.any isOpen = false ∧ s.any isClose = false := by
  have hne : ∀ d, f d = false → ∀ c ∈ s, (c == d) = false := by
    intro d hd c hc
    rw [beq_eq_false_iff_ne]
    rintro rfl
    rw [hs c hc] at hd
    cases hd
  refine ⟨List.any_eq_false.mpr fun c hc => ?_, List.any_eq_false.mpr fun c hc => ?_⟩
  · simp [isOpen, hne _ h₁ c hc, hne _ h₂ c hc]
  · simp [isClose, hne _ h₃ c hc, hne _ h₄ c hc]

theorem word_noBracket [Unicode] {s : Str} (hs : ∀ c ∈ s, Unicode.isWord c = true) :
    s.any isOpen = false ∧ s.any isClose = false := by
  have hw : ∀ c : CodePoint, c.val < 128 → (isAsciiLetter c || isDigit c || c == 95) = false →
      Unicode.isWord c = false := fun c hc hf => (Unicode.isWord_ascii c hc).trans hf
  exact class_noBracket (hw _ (by decide) (by decide)) (hw _ (by decide) (by decide))
    (hw _ (by decide) (by decide)) (hw _ (by decide) (by decide)) hs

theorem Holds.unfence (hcore : Bracketed core) (h : Holds core text) :
    Holds core (unwrap fenceRe 1 text) := by
  rw [unwrap]
  split
  · next m hm =>
    obtain ⟨tag, nl, body, nl', tail, he, htag, hnl, hnl', htail, hg⟩ := fenceRe_match hm
    have htag' := class_noBracket (by decide) (by decide) (by decide) (by decide) htag
    rw [hg]
    refine Holds.strip hcore (h.inner hcore (a := str "```" ++ (tag ++ nl))
      (b := nl' ++ (str "```" ++ tail)) (by rw [he]; simp) ?_ ?_)
    · rw [List.any_append, List.any_append, htag'.1, hnl.noBracket.1]
      decide
    · rw [List.any_append, List.any_append, hnl'.noBracket.2, htail.noBracket.2]
      decide
  · exact h

theorem Holds.untag [Unicode] (hcore : Bracketed core) (h : Holds core text) :
    Holds core (unwrap xmlWrapperRe 2 text) := by
  rw [unwrap]
  split
  · next m hm =>
    obtain ⟨name, body, tail, he, -, hname, htail, hg⟩ := xmlWrapperRe_match hm
    have hname' := word_noBracket hname
    rw [hg]
    refine Holds.strip hcore (h.inner hcore (a := str "<" ++ (name ++ str ">"))
      (b := str "</" ++ (name ++ (str ">" ++ tail))) (by rw [he]; simp) ?_ ?_)
    · rw [List.any_append, List.any_append, hname'.1]
      decide
    · rw [List.any_append, List.any_append, List.any_append, hname'.2, htail.noBracket.2]
      decide
  · exact h

end Core

section Results

variable [Unicode] {F : Type} [PyFloat F]

/-- What the presentation of a value is read as: the text of the value, from its first to its last
bracket. -/
theorem jsonPart_presentation {p s q : Str} {v : Json F} (hs : Denotes s v)
    (hv : (∃ kvs, v = .object kvs) ∨ ∃ xs, v = .array xs)
    (hp : ∀ c ∈ p, c ≠ chr '{' ∧ c ≠ chr '[') :
    jsonPart (p ++ s ++ q) = trimWs s ∧ loads (trimWs s) = some v := by
  obtain ⟨w, core, w', rfl, hw, hval, hw'⟩ := hs
  obtain ⟨o, m, c, hcore, ho, hc, hspan⟩ := Val.span hval hv
  have hbr : Bracketed core := ⟨o, m, c, hcore, ho, hc⟩
  have hraw : Holds core (p ++ (w ++ (core ++ w')) ++ q) := by
    refine ⟨p ++ w, w' ++ q, by simp, ?_⟩
    have hpo : p.any isOpen = false :=
      List.any_eq_false.mpr fun a ha => by simp [isOpen, (hp a ha).1, (hp a ha).2]
    have hwo : w.any isOpen = false :=
      (class_noBracket (by decide) (by decide) (by decide) (by decide) hw).1
    rw [List.any_append, hpo, hwo]
    rfl
  obtain ⟨p', q', htext, hp'⟩ := ((hraw.strip hbr).unfence hbr).untag hbr
  have hfind : findBalancedJsonSpan (unwrap xmlWrapperRe 2 (unwrap fenceRe 1
      (strip (p ++ (w ++ (core ++ w')) ++ q)))) = some core :=
    findBalancedJsonSpan_eq_some.mpr ⟨p', q', htext, fun a ha => any_false_of_mem hp' ha, hspan⟩
  have htrim : trimWs (w ++ (core ++ w')) = core := by
    rw [hcore]
    exact trimWs_around hw hw' (isWs_of_bracket (.inl ho)) (isWs_of_bracket (.inr hc))
  rw [htrim, jsonPart]
  simp only [hfind, Option.getD_some, true_and]
  exact loads_iff.mpr hval.denotes

omit [Unicode] in
/-- There is no white space around an object or an array. -/
theorem trimWs_val {s : Str} {v : Json F} (hval : Val s v)
    (hv : (∃ kvs, v = .object kvs) ∨ ∃ xs, v = .array xs) : trimWs s = s := by
  obtain ⟨o, m, c, he, ho, hc, -⟩ := Val.span hval hv
  have h : trimWs ([] ++ (o :: (m ++ [c]) ++ [])) = o :: (m ++ [c]) :=
    trimWs_around .nil .nil (isWs_of_bracket (.inl ho)) (isWs_of_bracket (.inr hc))
  rw [List.nil_append, List.append_nil] at h
  rw [he, h]

/-- The presentation of an object, or of an array that holds only an object. -/
theorem normalize_object {p s q : Str} {kvs : List (Str × Json F)}
    (hs : Denotes s (.object kvs) ∨ Denotes s (.array [.object kvs]))
    (hp : ∀ c ∈ p, c ≠ chr '{' ∧ c ≠ chr '[') :
    normalizeLlmResponse F (p ++ s ++ q) = match limitError F (trimWs s) with
      | some e => .error e
      | none => .ok (dumps (.object (inferAction F kvs))) := by
  obtain ⟨v, hv, hden, hun⟩ : ∃ v : Json F, ((∃ kvs, v = .object kvs) ∨ ∃ xs, v = .array xs) ∧
      Denotes s v ∧ unwrapArray F v = .object kvs := by
    rcases hs with h | h
    · exact ⟨_, .inl ⟨_, rfl⟩, h, rfl⟩
    · exact ⟨_, .inr ⟨_, rfl⟩, h, rfl⟩
  obtain ⟨hpart, hload⟩ := jsonPart_presentation (q := q) hden hv hp
  rw [normalizeLlmResponse, hpart, loadsOrNone, hload]
  cases limitError F (trimWs s) with
  | some e => rfl
  | none => simp only [Except.map, rewriteParsed, hun]

/-- An object, or an array that holds only an object, is read the same in every presentation (any prefix
without opening brackets, any suffix, fences and tags among them) if and only if its text goes over no
limit of the interpreter. -/
theorem normalize_presentation_iff (p s q : Str) (kvs : List (Str × Json F))
    (hs : Denotes s (.object kvs) ∨ Denotes s (.array [.object kvs]))
    (hp : ∀ c ∈ p, c ≠ chr '{' ∧ c ≠ chr '[') :
    normalizeLlmResponse F (p ++ s ++ q) = .ok (dumps (.object (inferAction F kvs))) ↔
      Readable F (trimWs s) := by
  rw [normalize_object hs hp, Readable]
  cases limitError F (trimWs s) <;> simp

end Results

/-- A fence, a tag pair and prose around a one-element array. -/
theorem normalize_fenced_call :
    @normalizeLlmResponse asciiUnicode FloatText _ (str "Here:\n" ++
        str " [\x7b\"tool\": \"search_listings\", \"arguments\": \x7b\x7d\x7d]\n" ++ str "Done [1]!") =
      .ok (dumps (.object (inferAction FloatText [("tool", .string "search_listings"),
        ("arguments", .object [])]))) :=
  (@normalize_presentation_iff asciiUnicode FloatText _ (str "Here:\n")
    (str " [\x7b\"tool\": \"search_listings\", \"arguments\": \x7b\x7d\x7d]\n") (str "Done [1]!") _
    (.inr (loads_iff.mp (by decide +kernel)))
    (List.forall_mem_iff_forall_getElem.mpr (by decide))).mpr (by decide +kernel)

/-- An object with an integer that `int` does not read. -/
theorem longInteger_unread [Unicode] {F : Type} [PyFloat F] (hdepth : 0 < PyFloat.maxNesting F) :
    normalizeLlmResponse F (longInteger nines) = .error (tooManyDigits 4301) := by
  have hval : Val (longInteger nines) (.object [(str "n", numberVal [] nines [] [])] : Json F) :=
    longInteger_val nines_intPart
  have h := normalize_object (p := []) (q := []) (.inl hval.denotes) (by simp)
  rw [trimWs_val hval (.inl ⟨_, rfl⟩), limitError_nines hdepth, List.nil_append, List.append_nil] at h
  exact h

/-- Not every object is read. -/
theorem normalize_raises :
    @normalizeLlmResponse asciiUnicode FloatText _ (longInteger nines) =
        .error (tooManyDigits 4301) ∧
      ¬ ∀ (p s q : Str) (kvs : List (Str × Json FloatText)),
        Denotes s (.object kvs) ∨ Denotes s (.array [.object kvs]) →
        (∀ c ∈ p, c ≠ chr '\x7b' ∧ c ≠ chr '[') →
        @normalizeLlmResponse asciiUnicode FloatText _ (p ++ s ++ q) =
          .ok (dumps (.object (inferAction FloatText kvs))) := by
  have hraise := @longInteger_unread asciiUnicode FloatText _ (by decide)
  refine ⟨hraise, fun h => ?_⟩
  have hread := h [] (longInteger nines) [] _ (.inl (longInteger_val nines_intPart).denotes) (by simp)
  rw [List.nil_append, List.append_nil, hraise] at hread
  cases hread

/-! ## Prose -/

/-- The text is one code fence. -/
def Fenced (raw : Str) : Prop := ∃ body, strip raw = str "```" ++ body ++ str "```"

/-- Some part of the text denotes an object. -/
def HasObject (F : Type) [PyFloat F] (raw : Str) : Prop :=
  ∃ a t b, raw = a ++ t ++ b ∧ ∃ kvs : List (Str × Json F), Denotes t (.object kvs)

/-- What an array with one object denotes has a part that denotes the object. -/
theorem HasObject.of_array {F : Type} [PyFloat F] {t : Str} {kvs : List (Str × Json F)}
    (h : Denotes t (.array [.object kvs])) : HasObject F t := by
  obtain ⟨w, t', w', rfl, -, hv, -⟩ := h
  cases hv with
  | constant h => cases h
  | number h => obtain ⟨i, he⟩ | ⟨x, he⟩ := h.shape <;> cases he
  | array h =>
    cases h with
    | @one u x u' _ _ hx _ =>
      exact ⟨w ++ (chr '[' :: u), x, u' ++ (chr ']' :: w'), by simp, kvs, hx.denotes⟩
    | more _ _ _ hs => cases hs

/-- A stripped text has no line feed at its end. -/
theorem OptNewline.of_strip {raw a tail : Str} (h : OptNewline tail) (he : strip raw = a ++ tail) :
    tail = [] := by
  rcases h with rfl | rfl
  · rfl
  · exact absurd (strip_concat he) (by decide)

theorem unwrap_fence_of_not {raw : Str} (h : ¬ Fenced raw) :
    unwrap fenceRe 1 (strip raw) = strip raw := by
  rw [unwrap]
  split
  · next m hm =>
    obtain ⟨tag, nl, body, nl', tail, he, -, -, -, htail, -⟩ := fenceRe_match hm
    have h0 := htail.of_strip (a := str "```" ++ (tag ++ (nl ++ (body ++ (nl' ++ str "```")))))
      (by rw [he]; simp)
    refine absurd ⟨tag ++ (nl ++ (body ++ nl')), ?_⟩ h
    rw [he, h0]
    simp
  · rfl

section Results

variable [Unicode] {F : Type} [PyFloat F]

/-- The text is one tag pair. -/
def TagWrapped (raw : Str) : Prop := ∃ name body, name ≠ [] ∧ (∀ c ∈ name, Unicode.isWord c = true) ∧
  strip raw = str "<" ++ name ++ str ">" ++ body ++ str "</" ++ name ++ str ">"

theorem unwrap_tag_of_not {raw : Str} (h : ¬ TagWrapped raw) :
    unwrap xmlWrapperRe 2 (strip raw) = strip raw := by
  rw [unwrap]
  split
  · next m hm =>
    obtain ⟨name, body, tail, he, hne, hname, htail, -⟩ := xmlWrapperRe_match hm
    have h0 := htail.of_strip
      (a := str "<" ++ (name ++ (str ">" ++ (body ++ (str "</" ++ (name ++ str ">"))))))
      (by rw [he]; simp)
    refine absurd ⟨name, body, hne, hname, ?_⟩ h
    rw [he, h0]
    simp
  · rfl

/-- A text without an object in it is left alone where it is read as it is. -/
theorem normalize_part {raw : Str} (h : ¬ HasObject F (jsonPart raw)) :
    normalizeLlmResponse F raw = match limitError F (jsonPart raw) with
      | some e => .error e
      | none => .ok (jsonPart raw) := by
  have hsame : rewriteParsed F (jsonPart raw) (loads (jsonPart raw)) = jsonPart raw := by
    cases hl : loads (F := F) (jsonPart raw) with
    | none => rfl
    | some parsed =>
      have hd := loads_iff.mp hl
      cases hu : unwrapArray F parsed with
      | object kvs =>
        exfalso
        unfold unwrapArray at hu
        split at hu
        · exact h (.of_array hd)
        · rw [hu] at hd
          exact h ⟨[], jsonPart raw, [], by simp, kvs, hd⟩
      | _ => simp only [rewriteParsed, hu]
  rw [normalizeLlmResponse, loadsOrNone]
  cases limitError F (jsonPart raw) with
  | some e => rfl
  | none => exact congrArg Except.ok hsame

/-- A text with no object in it, no fence and no tag pair around it comes back stripped and otherwise
unchanged if and only if no balanced span follows its first opening bracket, or the whole of it is
that span, and it goes over no limit of the interpreter. -/
theorem normalize_prose_iff (raw : Str) (hobj : ¬ HasObject F raw) (hfence : ¬ Fenced raw)
    (htag : ¬ TagWrapped raw) : normalizeLlmResponse F raw = .ok (strip raw) ↔
      (∀ a t b, strip raw = a ++ t ++ b → (∀ c ∈ a, isOpen c = false) → Span t →
        a = [] ∧ b = []) ∧ Readable F (strip raw) := by
  obtain ⟨x, y, -, -, hraw⟩ := strip_eq raw
  have hpart : ∀ a t b, strip raw = a ++ t ++ b → ¬ HasObject F t := by
    intro a t b he ⟨a', t', b', he', hd⟩
    refine hobj ⟨x ++ (a ++ a'), t', b' ++ (b ++ y), ?_, hd⟩
    rw [hraw, he, he']
    simp
  have hread : ∀ t, ¬ HasObject F t → jsonPart raw = t →
      (normalizeLlmResponse F raw = .ok (strip raw) ↔ t = strip raw ∧ Readable F (strip raw)) := by
    rintro t ht rfl
    rw [normalize_part ht, Readable]
    cases hlimit : limitError F (jsonPart raw) with
    | some e =>
      refine iff_of_false (by simp) ?_
      rintro ⟨he, hnone⟩
      rw [← he, hlimit] at hnone
      cases hnone
    | none =>
      rw [Except.ok.injEq]
      refine ⟨fun he => ⟨he, by rw [← he, hlimit]⟩, fun h => h.1⟩
  have hspan : jsonPart raw = (findBalancedJsonSpan (strip raw)).getD (strip raw) := by
    unfold jsonPart
    simp only [unwrap_fence_of_not hfence, unwrap_tag_of_not htag]
  cases hfind : findBalancedJsonSpan (strip raw) with
  | none =>
    have hnone : ∀ a t b, strip raw = a ++ t ++ b → (∀ c ∈ a, isOpen c = false) → ¬ Span t := by
      intro a t b he ha hspan
      have := findBalancedJsonSpan_eq_some.mpr ⟨a, b, he, ha, hspan⟩
      rw [hfind] at this
      cases this
    rw [hfind, Option.getD_none] at hspan
    rw [hread _ (hpart [] (strip raw) [] (by simp)) hspan]
    exact and_congr_left fun _ => ⟨fun _ a t b he ha hspan => absurd hspan (hnone a t b he ha), fun _ => rfl⟩
  | some t =>
    obtain ⟨a, b, he, ha, ht⟩ := findBalancedJsonSpan_eq_some.mp hfind
    rw [hfind, Option.getD_some] at hspan
    rw [hread t (hpart a t b he) hspan]
    refine and_congr_left fun _ => ⟨fun htext a' t' b' he' ha' hspan' => ?_, fun h => ?_⟩
    · -- There is one first span only, and it is the whole text.
      have hfind' := findBalancedJsonSpan_eq_some.mpr ⟨a', b', he', ha', hspan'⟩
      rw [hfind] at hfind'
      cases hfind'
      have hlen := congrArg List.length he'
      rw [← htext] at hlen
      simp only [List.length_append] at hlen
      exact ⟨List.length_eq_zero_iff.mp (by omega), List.length_eq_zero_iff.mp (by omega)⟩
    · obtain ⟨rfl, rfl⟩ := h a t b he ha ht
      rw [he]
      simp

end Results

/-- The text of an object has a brace. -/
theorem HasObject.brace {F : Type} [PyFloat F] {raw : Str} (h : HasObject F raw) :
    chr '\x7b' ∈ raw := by
  obtain ⟨a, t, b, rfl, kvs, w, t', w', rfl, -, hv, -⟩ := h
  have hmem : chr '\x7b' ∈ t' := by
    cases hv with
    | constant h => cases h
    | number h => obtain ⟨i, he⟩ | ⟨x, he⟩ := h.shape <;> cases he
    | emptyObject _ => exact List.mem_cons_self
    | object _ => exact List.mem_cons_self
  simp [hmem]

/-- Prose with a bracketed word. -/
def linkProse : Str := "See [link] for more."

theorem linkProse_plain : ¬ HasObject FloatText linkProse ∧ ¬ Fenced linkProse ∧
    ¬ @TagWrapped asciiUnicode linkProse := by
  have hhead : (strip linkProse).head? = some (chr 'S') := by decide
  refine ⟨fun h => absurd h.brace (by decide), fun ⟨body, h⟩ => ?_,
    fun ⟨name, body, _, _, h⟩ => ?_⟩
  · rw [h] at hhead
    exact absurd (Option.some.inj hhead) (by decide)
  · rw [h] at hhead
    exact absurd (Option.some.inj hhead) (by decide)

theorem normalize_linkProse :
    @normalizeLlmResponse asciiUnicode FloatText _ linkProse = .ok (strip linkProse) ↔
      (∀ a t b, strip linkProse = a ++ t ++ b → (∀ c ∈ a, isOpen c = false) → Span t →
        a = [] ∧ b = []) ∧ Readable FloatText (strip linkProse) :=
  @normalize_prose_iff asciiUnicode FloatText _ linkProse linkProse_plain.1 linkProse_plain.2.1
    linkProse_plain.2.2

/-- Only the bracketed word is left of it. -/
theorem linkProse_mangled :
    @normalizeLlmResponse asciiUnicode FloatText _ linkProse = .ok "[link]" ∧
      ¬ ∀ raw : Str, ¬ HasObject FloatText raw → ¬ Fenced raw → ¬ @TagWrapped asciiUnicode raw →
        @normalizeLlmResponse asciiUnicode FloatText _ raw = .ok (strip raw) := by
  have hlink : @normalizeLlmResponse asciiUnicode FloatText _ linkProse = .ok "[link]" := by
    decide +kernel
  refine ⟨hlink, fun h => ?_⟩
  have hstrip := h linkProse linkProse_plain.1 linkProse_plain.2.1 linkProse_plain.2.2
  rw [hlink] at hstrip
  exact absurd hstrip (by decide)

end DealershipAgent
