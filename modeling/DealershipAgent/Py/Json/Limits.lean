import DealershipAgent.Py.Json.Load

/-!
# `json.loads` and the interpreter's limits

`int` refuses a literal with more than `intMaxStrDigits` digits (`ValueError`), and the scanner a value
with more than `PyFloat.maxNesting` arrays and objects inside each other (`RecursionError`). Both are
raised where the scanner comes to them, whatever there is after them. `json.dumps` counts its levels in
the same way, so it writes what was read.

* `limitError`: what `json.loads` raises of the two. `Readable`: it raises none of them.
* `loadsOrRaise`, `loadsOrNone`: `json.loads`, and the same under `except json.JSONDecodeError`.
* `readable_of_length_le`: a text that is not longer than the limits.
* `limitError_longInteger`: a text that goes over a limit.
-/

namespace Py

namespace Json

variable {F : Type} [PyFloat F]

/-! ## Where the scanner stops -/

section Limits

variable (F)

/-- The error of too deep a value; `container` is what opens it. -/
def tooDeep (container : String) : Exc :=
  ⟨.recursionError, str "maximum recursion depth exceeded while decoding a JSON " ++ str container ++
    str " from a unicode string"⟩

/-- The error of a constant or a number. -/
def limitAtom (s : Str) : Option Exc :=
  if (scanConstant (F := F) s).isSome then none
  else
    match scanInt (scanSign s).2 with
    | none => none
    | some (digits, r) =>
      if (scanFrac r).1 = [] ∧ (scanExp (scanFrac r).2).1 = [] ∧ intMaxStrDigits < digits.length then
        some (tooManyDigits digits.length)
      else none

mutual
/-- The error of a value at the front of a text, where `depth` more containers can be opened. -/
def limitValue : Nat → Nat → Str → Option Exc
  | 0, _, _ => none
  | _ + 1, _, [] => none
  | n + 1, depth, c :: cs =>
    if c = chr '"' then none
    else if c = chr '{' then
      if depth = 0 then some (tooDeep "object") else limitMembers n (depth - 1) (skipWs cs)
    else if c = chr '[' then
      if depth = 0 then some (tooDeep "array") else limitItems n (depth - 1) (skipWs cs)
    else limitAtom F (c :: cs)

/-- The error of the values of an array. -/
def limitItems : Nat → Nat → Str → Option Exc
  | 0, _, _ => none
  | n + 1, depth, s =>
    (limitValue n depth s).or <|
      match scanValue (F := F) n s with
      | none => none
      | some (_, r) =>
        match skipWs r with
        | [] => none
        | c :: cs => if c = chr ',' then limitItems n depth (skipWs cs) else none

/-- The error of the members of an object. -/
def limitMembers : Nat → Nat → Str → Option Exc
  | 0, _, _ => none
  | _ + 1, _, [] => none
  | n + 1, depth, q :: s =>
    if q = chr '"' then
      match scanString s with
      | none => none
      | some (_, r) =>
        match skipWs r with
        | [] => none
        | k :: r =>
          if k = chr ':' then
            (limitValue n depth (skipWs r)).or <|
              match scanValue (F := F) n (skipWs r) with
              | none => none
              | some (_, r) =>
                match skipWs r with
                | [] => none
                | c :: cs => if c = chr ',' then limitMembers n depth (skipWs cs) else none
          else none
    else none
end

/-- What `json.loads` raises where the text goes over a limit of the interpreter. -/
def limitError (s : Str) : Option Exc :=
  limitValue F (2 * s.length + 1) (PyFloat.maxNesting F) (skipWs s)

/-- The text goes over no limit. -/
def Readable (s : Str) : Prop := limitError F s = none

instance (s : Str) : Decidable (Readable F s) := inferInstanceAs (Decidable (_ = none))

variable {F}

/-- `json.loads`. The text of a `JSONDecodeError` is read nowhere. -/
def loadsOrRaise (s : Str) : Except Exc (Json F) :=
  match limitError F s with
  | some e => .error e
  | none =>
    match loads s with
    | some v => .ok v
    | none => .error ⟨.jsonDecodeError, []⟩

/-- `json.loads`, where a `JSONDecodeError` is caught. -/
def loadsOrNone (s : Str) : Except Exc (Option (Json F)) :=
  match limitError F s with
  | some e => .error e
  | none => .ok (loads s)

end Limits

/-! ## The rest that is scanned -/

section Rest

theorem length_skipWs_le (s : Str) : (skipWs s).length ≤ s.length := by
  obtain ⟨w, -, he⟩ := skipWs_eq s
  have := congrArg List.length he
  rw [List.length_append] at this
  omega

theorem length_scanValue_le {n : Nat} {s r : Str} {v : Json F} (h : scanValue n s = some (v, r)) :
    r.length ≤ s.length := by
  obtain ⟨t, rfl, -⟩ := (scan_sound n).value h
  simp

theorem length_scanString_le {s r : Str} {us : List StrUnit} (h : scanString s = some (us, r)) :
    r.length ≤ s.length := by
  obtain ⟨b, rfl, -⟩ := scanString_sound h
  simp
  omega

end Rest

/-! ## What is raised -/

section Errors

variable {s : Str} {v : Json F} {e : Exc} {n depth : Nat}

/-- A limit is one of the two errors. -/
def IsLimit (e : Exc) : Prop := e.kind = .valueError ∨ e.kind = .recursionError

theorem limitAtom_isLimit (h : limitAtom F s = some e) : IsLimit e := by
  unfold limitAtom at h
  split at h
  · cases h
  · split at h
    · cases h
    · split at h
      · cases h
        exact .inl rfl
      · cases h

/-- What a value can raise. -/
theorem limitValue_cases (h : limitValue F (n + 1) depth s = some e) :
    (s ≠ [] ∧ depth = 0 ∧ ∃ container, e = tooDeep container) ∨
    (∃ r, r.length < s.length ∧
      (limitMembers F n (depth - 1) r = some e ∨ limitItems F n (depth - 1) r = some e)) ∨
    limitAtom F s = some e := by
  cases s with
  | nil => cases h
  | cons c cs =>
    have hle : (skipWs cs).length < (c :: cs).length := Nat.lt_succ_of_le (length_skipWs_le cs)
    rw [limitValue] at h
    split at h
    · cases h
    split at h
    · split at h
      · next hdepth =>
        cases h
        exact .inl ⟨List.cons_ne_nil _ _, hdepth, _, rfl⟩
      · exact .inr (.inl ⟨_, hle, .inl h⟩)
    split at h
    · split at h
      · next hdepth =>
        cases h
        exact .inl ⟨List.cons_ne_nil _ _, hdepth, _, rfl⟩
      · exact .inr (.inl ⟨_, hle, .inr h⟩)
    · exact .inr (.inr h)

/-- What the values of an array can raise. -/
theorem limitItems_cases (h : limitItems F (n + 1) depth s = some e) :
    ∃ r, r.length ≤ s.length ∧
      (limitValue F n depth r = some e ∨ limitItems F n depth r = some e) := by
  rw [limitItems] at h
  rcases Option.or_eq_some_iff.mp h with h | ⟨-, h⟩
  · exact ⟨s, le_rfl, .inl h⟩
  split at h
  · cases h
  next r hscan =>
  split at h
  · cases h
  next c cs hcs =>
  split at h
  · have hr := length_scanValue_le hscan
    have hskip := hcs ▸ length_skipWs_le r
    have hle := length_skipWs_le cs
    rw [List.length_cons] at hskip
    exact ⟨_, by omega, .inr h⟩
  · cases h

/-- What the members of an object can raise. -/
theorem limitMembers_cases (h : limitMembers F (n + 1) depth s = some e) :
    ∃ r, r.length ≤ s.length ∧
      (limitValue F n depth r = some e ∨ limitMembers F n depth r = some e) := by
  cases s with
  | nil => cases h
  | cons q s =>
    rw [limitMembers] at h
    split at h
    swap
    · cases h
    split at h
    · cases h
    next r₁ hstring =>
    split at h
    · cases h
    next k r₂ hk =>
    split at h
    swap
    · cases h
    have hr₁ := length_scanString_le hstring
    have hskip₁ := hk ▸ length_skipWs_le r₁
    have hskip₂ := length_skipWs_le r₂
    rw [List.length_cons] at hskip₁ ⊢
    rcases Option.or_eq_some_iff.mp h with h | ⟨-, h⟩
    · exact ⟨_, by omega, .inl h⟩
    split at h
    · cases h
    next r₃ hscan =>
    split at h
    · cases h
    next c cs hcs =>
    split at h
    · have hr₃ := length_scanValue_le hscan
      have hskip₃ := hcs ▸ length_skipWs_le r₃
      have hle := length_skipWs_le cs
      rw [List.length_cons] at hskip₃
      exact ⟨_, by omega, .inr h⟩
    · cases h

/-- All three scanners raise nothing else. -/
theorem limit_isLimit (n : Nat) :
    (∀ {depth : Nat} {s : Str} {e : Exc}, limitValue F n depth s = some e → IsLimit e) ∧
    (∀ {depth : Nat} {s : Str} {e : Exc}, limitItems F n depth s = some e → IsLimit e) ∧
    (∀ {depth : Nat} {s : Str} {e : Exc}, limitMembers F n depth s = some e → IsLimit e) := by
  induction n with
  | zero => exact ⟨fun h => (by cases h), fun h => (by cases h), fun h => (by cases h)⟩
  | succ n ih =>
    obtain ⟨hvalue, hitems, hmembers⟩ := ih
    refine ⟨fun h => ?_, fun h => ?_, fun h => ?_⟩
    · rcases limitValue_cases h with ⟨-, -, container, rfl⟩ | ⟨r, -, h | h⟩ | h
      · exact .inr rfl
      · exact hmembers h
      · exact hitems h
      · exact limitAtom_isLimit h
    · obtain ⟨r, -, h | h⟩ := limitItems_cases h
      · exact hvalue h
      · exact hitems h
    · obtain ⟨r, -, h | h⟩ := limitMembers_cases h
      · exact hvalue h
      · exact hmembers h

theorem limitError_isLimit (h : limitError F s = some e) : IsLimit e := (limit_isLimit _).1 h

theorem not_readable : ¬ Readable F s ↔ ∃ e, limitError F s = some e := by
  unfold Readable
  rw [← Option.isSome_iff_exists, Option.isSome_iff_ne_none]

theorem loadsOrRaise_eq_ok : loadsOrRaise s = .ok v ↔ Readable F s ∧ loads s = some v := by
  unfold loadsOrRaise Readable
  cases limitError F s with
  | some e => simp
  | none => cases loads (F := F) s <;> simp

/-- `json.loads` raises: the text goes over a limit, or it is no JSON. -/
theorem loadsOrRaise_eq_error (h : loadsOrRaise (F := F) s = .error e) :
    limitError F s = some e ∨
      Readable F s ∧ e.kind = .jsonDecodeError ∧ loads (F := F) s = none := by
  unfold loadsOrRaise at h
  unfold Readable
  cases hlimit : limitError F s with
  | some e' =>
    rw [hlimit] at h
    cases h
    exact .inl rfl
  | none =>
    rw [hlimit] at h
    cases hl : loads (F := F) s with
    | none =>
      rw [hl] at h
      cases h
      exact .inr ⟨rfl, rfl, rfl⟩
    | some v =>
      rw [hl] at h
      cases h

theorem loadsOrNone_eq_ok {o : Option (Json F)} :
    loadsOrNone s = .ok o ↔ Readable F s ∧ loads s = o := by
  unfold loadsOrNone Readable
  cases limitError F s <;> simp

theorem loadsOrNone_eq_error : loadsOrNone (F := F) s = .error e ↔ limitError F s = some e := by
  unfold loadsOrNone
  cases limitError F s <;> simp

theorem Readable.loadsOrNone (h : Readable F s) : loadsOrNone s = .ok (loads (F := F) s) :=
  loadsOrNone_eq_ok.mpr ⟨h, rfl⟩

end Errors

/-! ## White space around a text -/

/-- The text without the white space around it. -/
def trimWs (s : Str) : Str := (skipWs s).rdropWhile isWs

theorem trimWs_around {w w' m : Str} {o c : CodePoint} (hw : Ws w) (hw' : Ws w')
    (ho : isWs o = false) (hc : isWs c = false) :
    trimWs (w ++ ((o :: (m ++ [c])) ++ w')) = o :: (m ++ [c]) := by
  unfold trimWs
  rw [List.cons_append, skipWs_start hw ho, List.rdropWhile, ← List.cons_append, List.reverse_append,
    List.dropWhile_append_of_pos fun a ha => hw' a (List.mem_reverse.mp ha), ← List.cons_append,
    List.reverse_append, List.reverse_singleton, List.singleton_append,
    List.dropWhile_cons_of_neg (by simp [hc])]
  simp

/-! ## Short texts -/

section Short

theorem limitAtom_short {s : Str} (hs : s.length ≤ intMaxStrDigits) : limitAtom F s = none := by
  unfold limitAtom
  split
  · rfl
  · split
    · rfl
    · next digits r hint =>
      have hlen : digits.length ≤ intMaxStrDigits := by
        have hsign := congrArg List.length (scanSign_eq s).1
        have hdigits := congrArg List.length (scanInt_sound hint).1
        simp only [List.length_append] at hsign hdigits
        omega
      exact if_neg fun h => absurd h.2.2 (Nat.not_lt.mpr hlen)

/-- A text that is no longer than the depth that is left goes over no limit. -/
theorem limit_short (n : Nat) :
    (∀ {depth : Nat} {s : Str} {e : Exc}, s.length ≤ depth → s.length ≤ intMaxStrDigits →
      limitValue F n depth s ≠ some e) ∧
    (∀ {depth : Nat} {s : Str} {e : Exc}, s.length ≤ depth → s.length ≤ intMaxStrDigits →
      limitItems F n depth s ≠ some e) ∧
    (∀ {depth : Nat} {s : Str} {e : Exc}, s.length ≤ depth → s.length ≤ intMaxStrDigits →
      limitMembers F n depth s ≠ some e) := by
  induction n with
  | zero => exact ⟨fun _ _ h => (by cases h), fun _ _ h => (by cases h), fun _ _ h => (by cases h)⟩
  | succ n ih =>
    obtain ⟨hvalue, hitems, hmembers⟩ := ih
    refine ⟨fun hd hs h => ?_, fun hd hs h => ?_, fun hd hs h => ?_⟩
    · rcases limitValue_cases h with ⟨hne, rfl, -⟩ | ⟨r, hr, h | h⟩ | h
      · exact hne (List.length_eq_zero_iff.mp (Nat.le_zero.mp hd))
      · exact hmembers (by omega) (by omega) h
      · exact hitems (by omega) (by omega) h
      · rw [limitAtom_short hs] at h
        cases h
    · obtain ⟨r, hr, h | h⟩ := limitItems_cases h
      · exact hvalue (hr.trans hd) (hr.trans hs) h
      · exact hitems (hr.trans hd) (hr.trans hs) h
    · obtain ⟨r, hr, h | h⟩ := limitMembers_cases h
      · exact hvalue (hr.trans hd) (hr.trans hs) h
      · exact hmembers (hr.trans hd) (hr.trans hs) h

theorem readable_of_length_le {s : Str} (hdepth : s.length ≤ PyFloat.maxNesting F)
    (hdigits : s.length ≤ intMaxStrDigits) : Readable F s := by
  have hle := length_skipWs_le s
  by_contra h
  obtain ⟨e, he⟩ := not_readable.mp h
  exact (limit_short _).1 (hle.trans hdepth) (hle.trans hdigits) he

end Short

/-! ## An integer with too many digits -/

/-- An object whose only member is an integer with these digits. -/
def longInteger (digits : Str) : Str := chr '\x7b' :: chr '"' :: chr 'n' :: chr '"' :: chr ':' ::
  (digits ++ [chr '\x7d'])

section LongInteger

variable {digits : Str}

theorem longInteger_val (hint : IntPart digits) :
    Val (longInteger digits) (.object [(str "n", numberVal [] digits [] [])] : Json F) := by
  have hname : Units [chr 'n'] [⟨false, chr 'n'⟩] :=
    .plain (by decide) (by decide) (by decide) .nil
  have hnumber : Val digits (numberVal [] digits [] [] : Json F) :=
    .number ⟨[], digits, [], [], by simp, .inl rfl, hint, .inl rfl, .inl rfl, rfl⟩
  have hval := Val.object (.one .nil hname .nil .nil hnumber .nil)
  have htext : chr '\x7b' :: ([] ++ (quoted [chr 'n'] ++ ([] ++ chr ':' :: ([] ++ (digits ++ [])))) ++
      [chr '\x7d']) = longInteger digits := by simp [longInteger, quoted]
  rw [htext] at hval
  exact hval

theorem limitAtom_digits (hint : IntPart digits) (hlong : intMaxStrDigits < digits.length) :
    limitAtom F (digits ++ [chr '\x7d']) = some (tooManyDigits digits.length) := by
  have hconstant : scanConstant (F := F) (digits ++ [chr '\x7d']) = none :=
    scanConstant_number (v := numberVal [] digits [] [])
      ⟨[], digits, [], [], by simp, .inl rfl, hint, .inl rfl, .inl rfl, rfl⟩ _
  have hsign : scanSign (digits ++ [chr '\x7d']) = ([], digits ++ [chr '\x7d']) :=
    scanSign_append (.inl rfl) (hint.1.headNot (fun c hc => isDigit_ne hc (by decide)) _)
  have hdigits : scanInt (digits ++ [chr '\x7d']) = some (digits, [chr '\x7d']) :=
    scanInt_append hint (.cons (by decide) [])
  have hfrac : scanFrac [chr '\x7d'] = ([], [chr '\x7d']) := by decide
  have hexp : scanExp [chr '\x7d'] = ([], [chr '\x7d']) := by decide
  unfold limitAtom
  simp only [hconstant, hsign, hdigits, hfrac, hexp, Option.isSome_none, Bool.false_eq_true, if_false,
    true_and, if_pos hlong]

theorem limitError_longInteger (hint : IntPart digits) (hlong : intMaxStrDigits < digits.length)
    (hdepth : 0 < PyFloat.maxNesting F) :
    limitError F (longInteger digits) = some (tooManyDigits digits.length) := by
  obtain ⟨c, cs, rfl, hc⟩ := hint.head
  obtain ⟨m, hm⟩ : ∃ m, 2 * (longInteger (c :: cs)).length + 1 = m + 3 :=
    ⟨2 * (longInteger (c :: cs)).length - 2, by
      simp only [longInteger, List.length_cons, List.length_append]; omega⟩
  have hne : ∀ d, isDigit d = false → c ≠ d := by
    rintro d hd rfl
    rw [hc] at hd
    cases hd
  have hname : scanString (chr 'n' :: chr '"' :: chr ':' :: (c :: cs ++ [chr '\x7d'])) =
      some ([⟨false, chr 'n'⟩], chr ':' :: (c :: cs ++ [chr '\x7d'])) :=
    scanString_complete (b := [chr 'n']) (.plain (by decide) (by decide) (by decide) .nil) _
  have hvalue : limitValue F (m + 1) (PyFloat.maxNesting F - 1) (skipWs (c :: cs ++ [chr '\x7d'])) =
      some (tooManyDigits (c :: cs).length) := by
    have hws : isWs c = false := by
      simp only [isWs, Bool.or_eq_false_iff, beq_eq_false_iff_ne]
      exact ⟨⟨⟨hne _ (by decide), hne _ (by decide)⟩, hne _ (by decide)⟩, hne _ (by decide)⟩
    rw [List.cons_append, skipWs_cons hws, limitValue, if_neg (hne _ (by decide)),
      if_neg (hne _ (by decide)), if_neg (hne _ (by decide)), ← List.cons_append]
    exact limitAtom_digits hint hlong
  have hopen : skipWs (longInteger (c :: cs)) = longInteger (c :: cs) := skipWs_cons (by decide) _
  have hquote : ∀ s, skipWs (chr '"' :: s) = chr '"' :: s := skipWs_cons (by decide)
  have hcolon : ∀ s, skipWs (chr ':' :: s) = chr ':' :: s := skipWs_cons (by decide)
  rw [limitError, hm, hopen, longInteger, limitValue, if_neg (by decide), if_pos rfl,
    if_neg (by omega), hquote, limitMembers, if_pos rfl, hname]
  simp only [hcolon, if_true, hvalue, Option.some_or]

/-- A number with more digits than `int` reads. -/
def nines : Str := List.replicate 4301 (chr '9')

theorem nines_intPart : IntPart nines := by
  refine ⟨⟨List.cons_ne_nil _ _, fun c hc => ?_⟩, fun hhead => ?_⟩
  · rw [(List.mem_replicate.mp hc).2]
    decide
  · rw [nines, List.replicate_succ] at hhead
    exact absurd (Option.some.inj hhead) (by decide)

theorem limitError_nines (hdepth : 0 < PyFloat.maxNesting F) :
    limitError F (longInteger nines) = some (tooManyDigits 4301) := by
  have hlength : nines.length = 4301 := List.length_replicate
  have h := limitError_longInteger nines_intPart (by rw [hlength]; decide) hdepth
  rwa [hlength] at h

end LongInteger

end Json

end Py
