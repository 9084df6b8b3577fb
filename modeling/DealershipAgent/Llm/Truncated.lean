import DealershipAgent.Llm.Normalize

/-!
# Completions that are cut off

A provider may stop in the middle of a reply. `normalize_truncated`: what is left of an object or an
array, behind any text without opening brackets, is not read as an object, whatever complete objects
it holds.
-/

namespace DealershipAgent

open Py Json Re

/-- A proper prefix of `core`, behind a text without opening brackets. -/
def CutOff (core text : Str) : Prop :=
  ∃ p t, text = p ++ t ∧ p.any isOpen = false ∧ t <+: core ∧ t ≠ core

variable {core text : Str}

/-- What surrounds a part of the text may be taken off when no opening bracket is before that part. -/
theorem CutOff.inner (hcore : Span core) (h : CutOff core text) {a body b : Str}
    (he : text = a ++ (body ++ b)) (ha : a.any isOpen = false) : CutOff core body := by
  obtain ⟨o, u, rfl, ho, -⟩ := hcore
  obtain ⟨p, t, rfl, hp, ht, hne⟩ := h
  obtain ⟨p', hp', hbody⟩ : ∃ p', p'.any isOpen = false ∧ body ++ b = p' ++ t := by
    rcases List.append_eq_append_iff.mp he.symm with ⟨p', rfl, hbody⟩ | ⟨a', rfl, rfl⟩
    · exact ⟨p', any_sublist_false hp (List.sublist_append_right _ _), hbody⟩
    · cases a' with
      | nil => exact ⟨[], rfl, rfl⟩
      | cons c a' =>
        -- The bracket that `core` begins with is not taken off.
        obtain rfl : c = o := (List.cons_prefix_cons.mp ht).1
        have hc := any_false_of_mem ha (List.mem_append_right p List.mem_cons_self)
        rw [ho] at hc
        cases hc
  rcases List.append_eq_append_iff.mp hbody with ⟨q, rfl, -⟩ | ⟨t', rfl, rfl⟩
  · exact ⟨body, [], by simp, any_sublist_false hp' (List.sublist_append_left _ _),
      List.nil_prefix, by simp⟩
  · refine ⟨p', t', rfl, hp', (List.prefix_append t' b).trans ht, fun heq => hne ?_⟩
    rw [heq] at ht ⊢
    exact ht.eq_of_length_le (by simp)

theorem CutOff.strip (hcore : Span core) (h : CutOff core text) : CutOff core (strip text) := by
  obtain ⟨a, b, ha, -, he⟩ := strip_eq text
  refine h.inner hcore (a := a) (b := b) (by rw [← List.append_assoc]; exact he) ?_
  exact (class_noBracket (by decide) (by decide) (by decide) (by decide) ha).1

theorem CutOff.unfence (hcore : Span core) (h : CutOff core text) :
    CutOff core (unwrap fenceRe 1 text) := by
  rw [unwrap]
  split
  · next m hm =>
    obtain ⟨tag, nl, body, nl', tail, he, htag, hnl, -, -, hg⟩ := fenceRe_match hm
    have htag' := class_noBracket (by decide) (by decide) (by decide) (by decide) htag
    rw [hg]
    refine CutOff.strip hcore (h.inner hcore (a := str "```" ++ (tag ++ nl))
      (b := nl' ++ (str "```" ++ tail)) (by rw [he]; simp) ?_)
    rw [List.any_append, List.any_append, htag'.1, hnl.noBracket.1]
    decide
  · exact h

theorem CutOff.untag [Unicode] (hcore : Span core) (h : CutOff core text) :
    CutOff core (unwrap xmlWrapperRe 2 text) := by
  rw [unwrap]
  split
  · next m hm =>
    obtain ⟨name, body, tail, he, -, hname, -, hg⟩ := xmlWrapperRe_match hm
    rw [hg]
    refine CutOff.strip hcore (h.inner hcore (a := str "<" ++ (name ++ str ">"))
      (b := str "</" ++ (name ++ (str ">" ++ tail))) (by rw [he]; simp) ?_)
    rw [List.any_append, List.any_append, (word_noBracket hname).1]
    decide
  · exact h

/-- The scan from the first bracket never comes back to depth zero. -/
theorem CutOff.no_span (hcore : Span core) (h : CutOff core text) :
    findBalancedJsonSpan text = none := by
  obtain ⟨p, t, rfl, hp, ht, hne⟩ := h
  refine Option.eq_none_iff_forall_ne_some.mpr fun s hs => ?_
  obtain ⟨o, u, rfl, ho, hu⟩ := hcore
  obtain ⟨a, b, he, ha, c, v, rfl, hc, hv⟩ := findBalancedJsonSpan_eq_some.mp hs
  have hcp : c ∉ p := fun hmem => by
    rw [any_false_of_mem hp hmem] at hc
    cases hc
  obtain ⟨a', rfl, rfl⟩ : ∃ a', a = p ++ a' ∧ t = a' ++ c :: (v ++ b) :=
    append_cons_split hcp (he.trans (by simp))
  have ha' : a' = [] := by
    cases a' with
    | nil => rfl
    | cons d a' =>
      obtain rfl : d = o := (List.cons_prefix_cons.mp ht).1
      rw [ha d (by simp)] at ho
      cases ho
  subst ha'
  obtain ⟨rfl, hvu⟩ := List.cons_prefix_cons.mp ht
  have hpos := hu.pos v ((List.prefix_append v b).trans hvu) fun hvu' => hne ?_
  · rw [hv.zero] at hpos
    exact absurd hpos (by decide)
  · rw [hvu'] at hvu ⊢
    rw [List.nil_append, hvu.eq_of_length_le (by simp)]

section Results

variable [Unicode] {F : Type} [PyFloat F]

/-- Of an object or an array that is cut off, no object is read. -/
theorem normalize_truncated {s t p : Str} {v : Json F} (hs : Val s v)
    (hv : (∃ kvs, v = .object kvs) ∨ ∃ xs, v = .array xs) (ht : t <+: s) (hne : t ≠ s)
    (hp : ∀ c ∈ p, c ≠ chr '{' ∧ c ≠ chr '[') (kvs : List (Str × Json F)) {text : Str}
    (hnormal : normalizeLlmResponse F (p ++ t) = .ok text) : loads text ≠ some (.object kvs) := by
  obtain ⟨-, -, -, -, -, -, hspan⟩ := Val.span hs hv
  have hraw : CutOff s (p ++ t) := by
    refine ⟨p, t, rfl, List.any_eq_false.mpr fun a ha => ?_, ht, hne⟩
    simp [isOpen, (hp a ha).1, (hp a ha).2]
  have hcut := ((hraw.strip hspan).unfence hspan).untag hspan
  have hnone := hcut.no_span hspan
  have hpart : jsonPart (p ++ t) = unwrap xmlWrapperRe 2 (unwrap fenceRe 1 (strip (p ++ t))) := by
    unfold jsonPart
    simp only [hnone, Option.getD_none]
  rw [← hpart] at hnone
  have hobject : ∀ w : Json F, loads (jsonPart (p ++ t)) = some w →
      ¬ ((∃ kvs, w = .object kvs) ∨ ∃ xs, w = .array xs) := by
    intro w hw hshape
    obtain ⟨x, core, y, htext, hx, hcore, -⟩ := loads_iff.mp hw
    obtain ⟨-, -, -, -, -, -, hfound⟩ := Val.span hcore hshape
    have hxo := class_noBracket (by decide) (by decide) (by decide) (by decide) hx
    have hspan' := findBalancedJsonSpan_eq_some.mpr
      ⟨x, y, htext.trans (List.append_assoc _ _ _).symm, fun c hc => any_false_of_mem hxo.1 hc, hfound⟩
    rw [hnone] at hspan'
    cases hspan'
  unfold normalizeLlmResponse loadsOrNone at hnormal
  cases hlimit : limitError F (jsonPart (p ++ t)) with
  | some e =>
    rw [hlimit] at hnormal
    cases hnormal
  | none =>
    rw [hlimit] at hnormal
    obtain rfl := Except.ok.inj hnormal
    cases hl : loads (F := F) (jsonPart (p ++ t)) with
    | none => simp [rewriteParsed, hl]
    | some w =>
      have hw := hobject w hl
      cases w with
      | object kvs => exact absurd (.inl ⟨kvs, rfl⟩) hw
      | array xs => exact absurd (.inr ⟨xs, rfl⟩) hw
      | _ => simp [rewriteParsed, unwrapArray, hl]

end Results

/-- Cut off after a complete object that stands in an array. -/
theorem normalize_truncated_array :
    @normalizeLlmResponse asciiUnicode FloatText _ (str "Calls: " ++ str "[\x7b\x7d") =
        .ok (str "Calls: " ++ str "[\x7b\x7d") ∧
      ¬ ∃ kvs : List (Str × Json FloatText),
        loads (str "Calls: " ++ str "[\x7b\x7d") = some (.object kvs) := by
  have hnormal : @normalizeLlmResponse asciiUnicode FloatText _ (str "Calls: " ++ str "[\x7b\x7d") =
      .ok (str "Calls: " ++ str "[\x7b\x7d") := by
    decide +kernel
  refine ⟨hnormal, ?_⟩
  rintro ⟨kvs, hkvs⟩
  have hitems : Items (str "\x7b\x7d") [(.object [] : Json FloatText)] :=
    .one .nil (.emptyObject (w := []) .nil) .nil
  exact @normalize_truncated asciiUnicode FloatText _ (str "[\x7b\x7d]") (str "[\x7b\x7d")
    (str "Calls: ") _ (.array hitems) (.inr ⟨_, rfl⟩) (by decide) (by decide)
    (List.forall_mem_iff_forall_getElem.mpr (by decide)) kvs _ hnormal hkvs

end DealershipAgent
