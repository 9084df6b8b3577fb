import DealershipAgent.Py.Json.Grammar

/-!
# The bracket scanner of `llm/base.py`

* `findBalancedJsonSpan`: `_find_balanced_json_span`. `Scan` holds the three variables of its loop.
* `Span`: what it looks for, stated on whole texts: brackets outside quotes, as many closed as opened
  at the end and never before. `spanFrom_eq_some` is the connection.
* `Val.walk`: a JSON value leaves the scanner as it found it, at any depth, so an object or an array
  is a span (`Val.span`).
-/

namespace DealershipAgent

open Py Json

def isOpen (c : CodePoint) : Bool := c == chr '{' || c == chr '['

def isClose (c : CodePoint) : Bool := c == chr '}' || c == chr ']'

/-- The variables of the loop. -/
structure Scan where
  depth : Int := 0
  inString : Bool := false
  escape : Bool := false

/-- The loop body, as long as it does not return. -/
def Scan.step (s : Scan) (ch : CodePoint) : Scan :=
  if s.inString then
    if s.escape then { s with escape := false }
    else if ch = chr '\\' then { s with escape := true }
    else if ch = chr '"' then { s with inString := false }
    else s
  else if ch = chr '"' then { s with inString := true }
  else if isOpen ch then { s with depth := s.depth + 1 }
  else if isClose ch then { s with depth := s.depth - 1 }
  else s

/-- The loop body returns: a closing bracket brings the depth to zero. -/
def Scan.closes (s : Scan) (ch : CodePoint) : Bool :=
  !s.inString && isClose ch && s.depth - 1 == 0

/-- The loop, from its variables: the text up to where it returns. -/
def spanFrom : Scan → Str → Option Str
  | _, [] => none
  | s, ch :: rest =>
    if s.closes ch then some [ch] else (spanFrom (s.step ch) rest).map (ch :: ·)

/-- `_find_balanced_json_span`. -/
def findBalancedJsonSpan (text : Str) : Option Str :=
  spanFrom {} (text.dropWhile fun c => !isOpen c)

/-! ## Spans -/

/-- The variables of the loop after a text. -/
def Scan.after (s : Scan) (t : Str) : Scan := t.foldl Scan.step s

@[simp] theorem Scan.after_nil (s : Scan) : s.after [] = s := rfl

@[simp] theorem Scan.after_cons (s : Scan) (c : CodePoint) (t : Str) :
    s.after (c :: t) = (s.step c).after t := rfl

theorem Scan.after_append (s : Scan) (t u : Str) : s.after (t ++ u) = (s.after t).after u :=
  List.foldl_append ..

/-- The text closes all brackets that are open in `s`, and not before its end. -/
structure Closes (s : Scan) (t : Str) : Prop where
  ne_nil : t ≠ []
  zero : (s.after t).depth = 0
  pos : ∀ u, u <+: t → u ≠ t → 0 < (s.after u).depth

/-- A balanced span: it begins with an opening bracket, and outside quoted strings every bracket
that is opened is closed at its end and not before. -/
def Span (t : Str) : Prop := ∃ c u, t = c :: u ∧ isOpen c = true ∧ Closes { depth := 1 } u

/-- A step that does not return leaves the depth positive. -/
theorem Scan.step_pos {s : Scan} {c : CodePoint} (hs : 0 < s.depth) (hc : s.closes c = false) :
    0 < (s.step c).depth := by
  unfold Scan.closes at hc
  unfold Scan.step
  split
  · split
    · exact hs
    split
    · exact hs
    split <;> exact hs
  · next hin =>
    split
    · exact hs
    split
    · show 0 < s.depth + 1
      omega
    split
    · next hclose =>
      have hne : s.depth - 1 ≠ 0 := by simpa [hin, hclose] using hc
      show 0 < s.depth - 1
      omega
    · exact hs

theorem Scan.step_closes {s : Scan} {c : CodePoint} (hc : s.closes c = true) :
    (s.step c).depth = 0 ∧ s.depth = 1 := by
  simp only [Scan.closes, Bool.and_eq_true, Bool.not_eq_true', beq_iff_eq] at hc
  obtain ⟨⟨hin, hclose⟩, hd⟩ := hc
  have hq : c ≠ chr '"' ∧ isOpen c = false := by
    simp only [isClose, Bool.or_eq_true, beq_iff_eq] at hclose
    rcases hclose with rfl | rfl <;> decide
  refine ⟨?_, by omega⟩
  unfold Scan.step
  rw [if_neg (by simp [hin]), if_neg hq.1, if_neg (by simp [hq.2]), if_pos hclose]
  exact hd

theorem Closes.single {s : Scan} {c : CodePoint} (hc : s.closes c = true) : Closes s [c] := by
  obtain ⟨hz, h1⟩ := Scan.step_closes hc
  refine ⟨by simp, hz, fun u hu hne => ?_⟩
  rcases List.prefix_cons_iff.mp hu with rfl | ⟨v, rfl, hv⟩
  · rw [Scan.after_nil]; omega
  · rw [List.prefix_nil.mp hv] at hne
    exact absurd rfl hne

theorem Closes.cons {s : Scan} {c : CodePoint} {t : Str} (hs : 0 < s.depth)
    (h : Closes (s.step c) t) : Closes s (c :: t) := by
  refine ⟨by simp, h.zero, fun u hu hne => ?_⟩
  rcases List.prefix_cons_iff.mp hu with rfl | ⟨v, rfl, hv⟩
  · exact hs
  · exact h.pos v hv fun he => hne (by rw [he])

theorem Closes.tail {s : Scan} {c : CodePoint} {t : Str} (h : Closes s (c :: t)) (ht : t ≠ []) :
    Closes (s.step c) t :=
  ⟨ht, h.zero, fun u hu hne =>
    h.pos (c :: u) (List.cons_prefix_cons.mpr ⟨rfl, hu⟩) fun he => hne (by simpa using he)⟩

/-- The loop returns the prefix that closes all open brackets. By induction on the text. -/
theorem spanFrom_eq_some {s : Scan} (hs : 0 < s.depth) {text t : Str} :
    spanFrom s text = some t ↔ t <+: text ∧ Closes s t := by
  induction text generalizing s t with
  | nil =>
    refine ⟨fun h => (by cases h), fun ⟨hp, hc⟩ => ?_⟩
    exact absurd (List.prefix_nil.mp hp) hc.ne_nil
  | cons c text ih =>
    rw [spanFrom]
    by_cases hc : s.closes c = true
    · rw [if_pos hc, Option.some.injEq]
      refine ⟨fun h => ?_, fun ⟨hp, h⟩ => ?_⟩
      · rw [← h]
        exact ⟨List.cons_prefix_cons.mpr ⟨rfl, List.nil_prefix⟩, .single hc⟩
      · -- A longer prefix would have reached depth zero before its end.
        rcases List.prefix_cons_iff.mp hp with rfl | ⟨v, rfl, hv⟩
        · exact absurd rfl h.ne_nil
        · by_contra hne
          have h0 := h.pos [c] (List.cons_prefix_cons.mpr ⟨rfl, List.nil_prefix⟩) hne
          have hz : (s.after [c]).depth = 0 := (Scan.step_closes hc).1
          omega
    · have hc' : s.closes c = false := by simpa using hc
      have hpos := Scan.step_pos hs hc'
      rw [if_neg hc, Option.map_eq_some_iff]
      refine ⟨fun ⟨v, hv, he⟩ => ?_, fun ⟨hp, h⟩ => ?_⟩
      · obtain ⟨hp, hcl⟩ := (ih hpos).mp hv
        rw [← he]
        exact ⟨List.cons_prefix_cons.mpr ⟨rfl, hp⟩, hcl.cons hs⟩
      · rcases List.prefix_cons_iff.mp hp with rfl | ⟨v, rfl, hv⟩
        · exact absurd rfl h.ne_nil
        · have hne : v ≠ [] := by
            rintro rfl
            have hz : (s.step c).depth = 0 := h.zero
            omega
          exact ⟨v, (ih hpos).mpr ⟨hv, h.tail hne⟩, rfl⟩

theorem Scan.step_open {s : Scan} {c : CodePoint} (hin : s.inString = false)
    (hc : isOpen c = true) : s.step c = { s with depth := s.depth + 1 } := by
  have hq : c ≠ chr '"' := by rintro rfl; exact absurd hc (by decide)
  unfold Scan.step
  rw [if_neg (by simp [hin]), if_neg hq, if_pos hc]

/-- A span is found behind any text without opening brackets, whatever follows it. -/
theorem findBalancedJsonSpan_eq_some {text t : Str} : findBalancedJsonSpan text = some t ↔
    ∃ a b, text = a ++ t ++ b ∧ (∀ c ∈ a, isOpen c = false) ∧ Span t := by
  have hkey : ∀ {c : CodePoint} {rest : Str}, isOpen c = true →
      (spanFrom {} (c :: rest) = some t ↔ t <+: c :: rest ∧ Span t) := by
    intro c rest hc
    have hnc : Scan.closes {} c = false := by simp [Scan.closes]
    rw [spanFrom, if_neg (by simp [hnc]), Scan.step_open rfl hc, Option.map_eq_some_iff]
    have hs : ∀ {v : Str}, spanFrom { depth := 1 } rest = some v ↔
        v <+: rest ∧ Closes { depth := 1 } v := spanFrom_eq_some (by decide)
    refine ⟨fun ⟨v, hv, he⟩ => ?_, fun ⟨hp, c', u, he, hc', hcl⟩ => ?_⟩
    · obtain ⟨hp, hcl⟩ := hs.mp hv
      rw [← he]
      exact ⟨List.cons_prefix_cons.mpr ⟨rfl, hp⟩, c, v, rfl, hc, hcl⟩
    · rw [he] at hp ⊢
      obtain ⟨rfl, hp'⟩ := List.cons_prefix_cons.mp hp
      exact ⟨u, hs.mpr ⟨hp', hcl⟩, rfl⟩
  rw [findBalancedJsonSpan]
  have hsplit : text = text.takeWhile (fun c => !isOpen c) ++ text.dropWhile fun c => !isOpen c :=
    List.takeWhile_append_dropWhile.symm
  have htake : ∀ c ∈ text.takeWhile (fun c => !isOpen c), isOpen c = false := by
    intro c hc
    simpa using List.mem_takeWhile_imp hc
  refine ⟨fun h => ?_, fun ⟨a, b, he, ha, hspan⟩ => ?_⟩
  · cases hd : text.dropWhile fun c => !isOpen c with
    | nil => rw [hd] at h; cases h
    | cons c rest =>
      rw [hd] at h
      have hc : isOpen c = true := by
        have := List.head_dropWhile_not (fun c => !isOpen c) (l := text) (by simp [hd])
        simpa [hd] using this
      obtain ⟨⟨b, hb⟩, hspan⟩ := (hkey hc).mp h
      refine ⟨_, b, ?_, htake, hspan⟩
      rw [List.append_assoc, hb, ← hd]
      exact hsplit
  · obtain ⟨c, u, rfl, hc, hcl⟩ := hspan
    have hd : text.dropWhile (fun c => !isOpen c) = c :: u ++ b := by
      rw [he, List.append_assoc, List.dropWhile_append_of_pos (by simpa using ha)]
      simp [hc]
    rw [hd, List.cons_append, hkey hc]
    exact ⟨⟨b, by simp⟩, c, u, rfl, hc, hcl⟩

/-! ## Values of the grammar -/

/-- From `s` over `t` to `s'`, the depth never below `d`. -/
inductive Walk (d : Int) : Scan → Str → Scan → Prop
  | nil {s : Scan} : d ≤ s.depth → Walk d s [] s
  | cons {s s' : Scan} {c : CodePoint} {t : Str} : d ≤ s.depth → Walk d (s.step c) t s' →
      Walk d s (c :: t) s'

namespace Walk

variable {d : Int} {s m s' : Scan} {t u : Str}

theorem append (h : Walk d s t m) (h' : Walk d m u s') : Walk d s (t ++ u) s' := by
  induction h with
  | nil _ => exact h'
  | cons hd _ ih => exact .cons hd (ih h')

theorem after_eq (h : Walk d s t s') : s.after t = s' := by
  induction h with
  | nil _ => rfl
  | cons _ _ ih => exact ih

theorem above (h : Walk d s t s') (hu : u <+: t) : d ≤ (s.after u).depth := by
  induction h generalizing u with
  | nil hd => rw [List.prefix_nil.mp hu]; exact hd
  | cons hd _ ih =>
    rcases List.prefix_cons_iff.mp hu with rfl | ⟨v, rfl, hv⟩
    · exact hd
    · exact ih hv

theorem mono {d' : Int} (h : Walk d s t s') (hd : d' ≤ d) : Walk d' s t s' := by
  induction h with
  | nil h => exact .nil (by omega)
  | cons h _ ih => exact .cons (by omega) ih

end Walk

/-- Outside quotes, at depth `d`. -/
def outside (d : Int) : Scan := { depth := d }

/-- Inside quotes, at depth `d`. -/
def inside (d : Int) : Scan := { depth := d, inString := true }

/-- A character that the scanner does not care about outside quotes. -/
def isPlain (c : CodePoint) : Bool := c != chr '"' && !isOpen c && !isClose c

theorem step_plain {c : CodePoint} (hc : isPlain c = true) (d : Int) :
    (outside d).step c = outside d := by
  simp only [isPlain, Bool.and_eq_true, bne_iff_ne, Bool.not_eq_true'] at hc
  simp [Scan.step, outside, hc]

theorem Walk.plain {t : Str} (ht : t.all isPlain = true) (d : Int) :
    Walk d (outside d) t (outside d) := by
  induction t with
  | nil => exact .nil (Int.le_refl d)
  | cons c t ih =>
    rw [List.all_cons, Bool.and_eq_true] at ht
    refine .cons (Int.le_refl d) ?_
    rw [step_plain ht.1]
    exact ih ht.2

theorem isPlain_of_ws {t : Str} (ht : Ws t) : t.all isPlain = true := by
  refine List.all_eq_true.mpr fun c hc => ?_
  have h := ht c hc
  simp only [isWs, Bool.or_eq_true, beq_iff_eq] at h
  rcases h with ((rfl | rfl) | rfl) | rfl <;> decide

theorem isPlain_of_digits {t : Str} (ht : ∀ c ∈ t, isDigit c = true) : t.all isPlain = true := by
  refine List.all_eq_true.mpr fun c hc => ?_
  have hd := fun {e} => isDigit_ne (d := e) (ht c hc)
  simp [isPlain, isOpen, isClose, bne, hd (show isDigit (chr '"') = false by decide),
    hd (show isDigit (chr '{') = false by decide), hd (show isDigit (chr '[') = false by decide),
    hd (show isDigit (chr '}') = false by decide), hd (show isDigit (chr ']') = false by decide)]

section Values

variable {F : Type} [PyFloat F]

theorem isPlain_of_number {t : Str} {v : Json F} (h : Number t v) : t.all isPlain = true := by
  obtain ⟨sign, int, frac, exp, rfl, hsign, hint, hfrac, hexp, -⟩ := h
  have h₁ : sign.all isPlain = true := by rcases hsign with rfl | rfl <;> decide
  have h₂ : frac.all isPlain = true := by
    rcases hfrac with rfl | ⟨ds, rfl, hds⟩
    · rfl
    · rw [List.all_cons, isPlain_of_digits hds.2]; decide
  have h₃ : exp.all isPlain = true := by
    rcases hexp with rfl | ⟨e, sign, ds, rfl, he, hs, hds⟩
    · rfl
    · have hmark : isPlain e = true := by
        simp only [isExpMark, Bool.or_eq_true, beq_iff_eq] at he
        rcases he with rfl | rfl <;> decide
      have hsgn : sign.all isPlain = true := by rcases hs with rfl | rfl | rfl <;> decide
      rw [List.all_cons, List.all_append, isPlain_of_digits hds.2, hmark, hsgn]
      rfl
  simp [List.all_append, h₁, h₂, h₃, isPlain_of_digits hint.1.2]

theorem isPlain_of_constant {t : Str} {v : Json F} (h : Constant t v) : t.all isPlain = true := by
  cases h <;> decide

theorem step_inside {c : CodePoint} (h₁ : c ≠ chr '"') (h₂ : c ≠ chr '\\') (d : Int) :
    (inside d).step c = inside d := by
  simp [Scan.step, inside, h₁, h₂]

/-- A backslash and the character after it. -/
theorem Walk.escaped {e : CodePoint} {d : Int} {t : Str} {s : Scan}
    (h : Walk d (inside d) t s) : Walk d (inside d) (chr '\\' :: e :: t) s := by
  refine .cons (Int.le_refl d) (.cons (Int.le_refl d) ?_)
  simpa [Scan.step, inside] using h

theorem hexVal_ne {c : CodePoint} {n : Nat} (h : hexVal c = some n) :
    c ≠ chr '"' ∧ c ≠ chr '\\' := by
  refine ⟨?_, ?_⟩
  · rintro rfl; exact absurd (h.symm.trans (by decide : hexVal (chr '"') = none)) (by simp)
  · rintro rfl; exact absurd (h.symm.trans (by decide : hexVal (chr '\\') = none)) (by simp)

/-- The four digits of an escape are neither quotes nor backslashes. -/
theorem hex4_ne {a b c d n : CodePoint} (h : hex4 a b c d = some n) :
    ∀ x ∈ [a, b, c, d], x ≠ chr '"' ∧ x ≠ chr '\\' := by
  obtain ⟨_, ha, h⟩ := Option.bind_eq_some_iff.mp h
  obtain ⟨_, hb, h⟩ := Option.bind_eq_some_iff.mp h
  obtain ⟨_, hc, h⟩ := Option.bind_eq_some_iff.mp h
  obtain ⟨_, hd, -⟩ := Option.bind_eq_some_iff.mp h
  intro x hx
  simp only [List.mem_cons, List.not_mem_nil, or_false] at hx
  rcases hx with rfl | rfl | rfl | rfl
  exacts [hexVal_ne ha, hexVal_ne hb, hexVal_ne hc, hexVal_ne hd]

theorem Walk.insideRun {t : Str} (ht : ∀ c ∈ t, c ≠ chr '"' ∧ c ≠ chr '\\') (d : Int) :
    Walk d (inside d) t (inside d) := by
  induction t with
  | nil => exact .nil (Int.le_refl d)
  | cons c t ih =>
    refine .cons (Int.le_refl d) ?_
    rw [step_inside (ht c (by simp)).1 (ht c (by simp)).2]
    exact ih fun a ha => ht a (by simp [ha])

theorem Units.walk {b : Str} {us : List StrUnit} (h : Units b us) (d : Int) :
    Walk d (inside d) b (inside d) := by
  induction h with
  | nil => exact .nil (Int.le_refl d)
  | plain h₁ h₂ _ _ ih =>
    refine .cons (Int.le_refl d) ?_
    rw [step_inside h₁ h₂]
    exact ih
  | escape _ _ ih => exact ih.escaped
  | unicode hn _ ih => exact .escaped ((Walk.insideRun (hex4_ne hn) d).append ih)

theorem Walk.quoted {b : Str} {us : List StrUnit} (h : Units b us) (d : Int) :
    Walk d (outside d) (quoted b) (outside d) :=
  .cons (Int.le_refl d) ((Units.walk h d).append
    (.cons (Int.le_refl d) (.nil (Int.le_refl d))))

/-- Text in brackets. -/
theorem Walk.brackets {o c : CodePoint} {t : Str} {d : Int} (ho : isOpen o = true)
    (hc : isClose c = true) (h : Walk (d + 1) (outside (d + 1)) t (outside (d + 1))) :
    Walk d (outside d) (o :: (t ++ [c])) (outside d) := by
  refine .cons (Int.le_refl d) ?_
  rw [Scan.step_open rfl ho]
  refine (h.mono (by omega)).append (.cons (by show d ≤ d + 1; omega) ?_)
  have hq : c ≠ chr '"' ∧ isOpen c = false := by
    simp only [isClose, Bool.or_eq_true, beq_iff_eq] at hc
    rcases hc with rfl | rfl <;> decide
  have hstep : (outside (d + 1)).step c = outside d := by
    simp [Scan.step, outside, hq, hc]
  rw [hstep]
  exact .nil (Int.le_refl d)

theorem Walk.ws {w : Str} (hw : Ws w) {d : Int} : Walk d (outside d) w (outside d) :=
  .plain (isPlain_of_ws hw) d

theorem Walk.comma {d : Int} : Walk d (outside d) [chr ','] (outside d) := .plain (by decide) d

theorem Walk.colon {d : Int} : Walk d (outside d) [chr ':'] (outside d) := .plain (by decide) d

mutual
/-- A value leaves the scanner as it found it. By induction on the derivation. -/
theorem Val.walk {t : Str} {v : Json F} : Val t v → ∀ d, Walk d (outside d) t (outside d)
  | .constant h, d => .plain (isPlain_of_constant h) d
  | .number h, d => .plain (isPlain_of_number h) d
  | .string h, d => .quoted h d
  | .emptyArray hw, _ => .brackets (by decide) (by decide) (.ws hw)
  | .array h, d => .brackets (by decide) (by decide) (Items.walk h (d + 1))
  | .emptyObject hw, _ => .brackets (by decide) (by decide) (.ws hw)
  | .object h, d => .brackets (by decide) (by decide) (Members.walk h (d + 1))

theorem Items.walk {t : Str} {xs : List (Json F)} :
    Items t xs → ∀ d, Walk d (outside d) t (outside d)
  | .one hw ht hw', d => (Walk.ws hw).append ((Val.walk ht d).append (.ws hw'))
  | .more hw ht hw' hs, d => (Walk.ws hw).append ((Val.walk ht d).append
      ((Walk.ws hw').append (Walk.comma.append (Items.walk hs d))))

theorem Members.walk {t : Str} {kvs : List (Str × Json F)} :
    Members t kvs → ∀ d, Walk d (outside d) t (outside d)
  | .one hw₁ hb hw₂ hw₃ ht hw₄, d => (Walk.ws hw₁).append ((Walk.quoted hb d).append
      ((Walk.ws hw₂).append (Walk.colon.append ((Walk.ws hw₃).append
        ((Val.walk ht d).append (.ws hw₄))))))
  | .more hw₁ hb hw₂ hw₃ ht hw₄ hs, d => (Walk.ws hw₁).append ((Walk.quoted hb d).append
      ((Walk.ws hw₂).append (Walk.colon.append ((Walk.ws hw₃).append ((Val.walk ht d).append
        ((Walk.ws hw₄).append (Walk.comma.append (Members.walk hs d))))))))
end

/-- Balanced text in brackets is a span. -/
theorem Span.brackets {o c : CodePoint} {t : Str} (ho : isOpen o = true) (hc : isClose c = true)
    (h : Walk 1 (outside 1) t (outside 1)) : Span (o :: (t ++ [c])) := by
  have hcl : (outside 1).closes c = true := by simp [Scan.closes, outside, hc]
  refine ⟨o, t ++ [c], rfl, ho, by simp, ?_, fun u hu hne => ?_⟩
  · have hafter : (outside 1).after t = outside 1 := h.after_eq
    show ((outside 1).after (t ++ [c])).depth = 0
    rw [Scan.after_append, hafter]
    exact (Scan.step_closes hcl).1
  · have hu' : u <+: t := by
      rcases List.prefix_concat_iff.mp hu with he | he
      · exact absurd he hne
      · exact he
    have := h.above hu'
    show 0 < ((outside 1).after u).depth
    omega

/-- An object or an array is a span, from its opening to its closing bracket. -/
theorem Val.span {t : Str} {v : Json F} (h : Val t v)
    (hv : (∃ kvs, v = .object kvs) ∨ ∃ xs, v = .array xs) :
    ∃ o m c, t = o :: (m ++ [c]) ∧ isOpen o = true ∧ isClose c = true ∧ Span t := by
  have hspan : ∀ {o c : CodePoint} {m : Str}, isOpen o = true → isClose c = true →
      Walk 1 (outside 1) m (outside 1) → ∃ o' m' c', o :: (m ++ [c]) = o' :: (m' ++ [c']) ∧
        isOpen o' = true ∧ isClose c' = true ∧ Span (o :: (m ++ [c])) :=
    fun ho hc hw => ⟨_, _, _, rfl, ho, hc, .brackets ho hc hw⟩
  cases h with
  | constant h => cases h <;> simp at hv
  | number h => obtain ⟨i, rfl⟩ | ⟨x, rfl⟩ := h.shape <;> simp at hv
  | string _ => simp at hv
  | emptyArray hw => exact hspan (by decide) (by decide) (.ws hw)
  | array h => exact hspan (by decide) (by decide) (Items.walk h 1)
  | emptyObject hw => exact hspan (by decide) (by decide) (.ws hw)
  | object h => exact hspan (by decide) (by decide) (Members.walk h 1)

end Values

end DealershipAgent
