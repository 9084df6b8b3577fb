import Mathlib.Data.List.Forall2
import DealershipAgent.Py.Num

/-!
# Exceptions and `repr`

* `reprStr`: `repr` of a `str`, which several exception texts quote.
* `Exc`: an exception as `except` clauses and `str(exc)` see it.
-/

namespace Py

def hexDigit (n : Nat) : CodePoint := chr (Nat.digitChar (n % 16))

/-- `n` in hexadecimal, with `k` digits. -/
def hexPad (k n : Nat) : Str := (List.range k).reverse.map fun i => hexDigit (n >>> (4 * i))

@[simp] theorem length_hexPad (k n : Nat) : (hexPad k n).length = k := by simp [hexPad]

section Repr

variable [Unicode]

/-- One code point inside `repr(s)`, between quotes `q`. -/
def reprChar (q c : CodePoint) : Str :=
  if c = q || c = chr '\\' then [chr '\\', c]
  else if c = chr '\t' then "\\t"
  else if c = chr '\n' then "\\n"
  else if c = chr '\r' then "\\r"
  else if Unicode.isPrintable c then [c]
  else if c.val < 0x100 then str "\\x" ++ hexPad 2 c.val
  else if c.val < 0x10000 then str "\\u" ++ hexPad 4 c.val
  else str "\\U" ++ hexPad 8 c.val

/-- `repr(s)`. -/
def reprStr (s : Str) : Str :=
  let q := if chr '\'' ∈ s ∧ chr '"' ∉ s then chr '"' else chr '\''
  q :: s.flatMap (reprChar q) ++ [q]

/-- A printable ASCII text without quotes and backslashes is written as it is. -/
theorem reprStr_plain {s : Str} (h : ∀ c ∈ s, 32 ≤ c.val ∧ c.val < 127 ∧ c ≠ chr '\'' ∧ c ≠ chr '\\') :
    reprStr s = chr '\'' :: (s ++ [chr '\'']) := by
  have hq : ¬ (chr '\'' ∈ s ∧ chr '"' ∉ s) := fun hno => (h _ hno.1).2.2.1 rfl
  have hchar : ∀ c ∈ s, reprChar (chr '\'') c = [c] := by
    intro c hc
    obtain ⟨hlo, hhi, hquote, hslash⟩ := h c hc
    have hprint : Unicode.isPrintable c = true := by
      rw [Unicode.isPrintable_ascii c (by omega)]
      simp [hlo, hhi]
    have hne : ∀ d : CodePoint, d.val < 32 → c ≠ d := by
      rintro d hd rfl
      omega
    unfold reprChar
    rw [if_neg (by simp [hquote, hslash]), if_neg (hne (chr '\t') (by decide)),
      if_neg (hne (chr '\n') (by decide)), if_neg (hne (chr '\r') (by decide)), if_pos hprint]
  unfold reprStr
  simp only [if_neg hq]
  rw [List.flatMap_congr hchar]
  simp

theorem reprStr_intRepr (i : Int) : reprStr (intRepr i) = chr '\'' :: (intRepr i ++ [chr '\'']) := by
  refine reprStr_plain fun c hc => ?_
  rcases intRepr_chars i c hc with rfl | hd
  · decide
  · have hd := isDigit_iff.mp hd
    refine ⟨by omega, by omega, ?_, ?_⟩
    · rintro rfl
      exact absurd hd.1 (by decide)
    · rintro rfl
      exact absurd hd.2 (by decide)

end Repr

/-- The exception classes that the code raises or tells apart. -/
inductive ExcKind where
  | jsonDecodeError
  | keyError
  | typeError
  | valueError
  | attributeError
  | indexError
  | overflowError
  | permissionError
  | runtimeError
  | recursionError
  | other (name : Str)
deriving DecidableEq, Repr

/-- An exception: its class and its text (`str(exc)`). -/
structure Exc where
  kind : ExcKind
  text : Str
deriving DecidableEq, Repr

/-- Two steps that raise nothing. -/
theorem bind_eq_ok {α β : Type} {x : Except Exc α} {f : α → Except Exc β} {b : β} :
    x >>= f = .ok b ↔ ∃ a, x = .ok a ∧ f a = .ok b := by
  cases x <;> simp [bind, Except.bind]

/-- What `mapM` gives when it raises nothing. -/
theorem mapM_eq_ok {α β : Type} {f : α → Except Exc β} {xs : List α} {ys : List β} :
    xs.mapM f = .ok ys ↔ List.Forall₂ (fun x y => f x = .ok y) xs ys := by
  induction xs generalizing ys with
  | nil => cases ys <;> simp [pure, Except.pure]
  | cons x xs ih =>
    rw [List.mapM_cons]
    cases hx : f x with
    | error e => cases ys <;> simp [hx, bind, Except.bind]
    | ok y =>
      cases hxs : xs.mapM f with
      | error e =>
        cases ys with
        | nil => simp [bind, Except.bind]
        | cons y' ys => simp [bind, Except.bind, hx, ← ih, hxs]
      | ok ys' =>
        cases ys with
        | nil => simp [bind, Except.bind, pure, Except.pure]
        | cons y' ys => simp [bind, Except.bind, pure, Except.pure, hx, ← ih, hxs]

theorem mapM_ok_mem {α β : Type} {f : α → Except Exc β} {xs : List α} {ys : List β} {x : α}
    (h : xs.mapM f = .ok ys) (hx : x ∈ xs) : ∃ y ∈ ys, f x = .ok y := by
  obtain ⟨i, hi, rfl⟩ := List.getElem_of_mem hx
  have hall := mapM_eq_ok.mp h
  have hi' := hall.length_eq ▸ hi
  exact ⟨ys[i], List.getElem_mem hi', hall.get hi hi'⟩

theorem mem_mapM_ok {α β : Type} {f : α → Except Exc β} {xs : List α} {ys : List β} {y : β}
    (h : xs.mapM f = .ok ys) (hy : y ∈ ys) : ∃ x ∈ xs, f x = .ok y := by
  obtain ⟨i, hi, rfl⟩ := List.getElem_of_mem hy
  have hall := mapM_eq_ok.mp h
  have hi' := hall.length_eq ▸ hi
  exact ⟨xs[i], List.getElem_mem hi', hall.get hi' hi⟩

theorem mapM_eq_map {α β : Type} {f : α → Except Exc β} {g : α → β} {xs : List α} {ys : List β}
    (h : xs.mapM f = .ok ys) (hg : ∀ x y, f x = .ok y → y = g x) : ys = xs.map g := by
  have hall := mapM_eq_ok.mp h
  induction hall with
  | nil => rfl
  | cons hx hxs ih => rw [List.map_cons, hg _ _ hx, ih (mapM_eq_ok.mpr hxs)]

theorem mapM_isOk {α β : Type} {f : α → Except Exc β} {xs : List α}
    (h : ∀ x ∈ xs, ∃ y, f x = .ok y) : ∃ ys, xs.mapM f = .ok ys := by
  induction xs with
  | nil => exact ⟨[], rfl⟩
  | cons x xs ih =>
    obtain ⟨y, hy⟩ := h x (by simp)
    obtain ⟨ys, hys⟩ := ih fun a ha => h a (by simp [ha])
    exact ⟨y :: ys, by rw [List.mapM_cons, hy, hys]; rfl⟩

theorem mapM_isOk_iff {α β : Type} {f : α → Except Exc β} {xs : List α} :
    (∃ ys, xs.mapM f = .ok ys) ↔ ∀ x ∈ xs, ∃ y, f x = .ok y := by
  constructor
  · rintro ⟨ys, h⟩ x hx
    obtain ⟨y, -, hy⟩ := mapM_ok_mem h hx
    exact ⟨y, hy⟩
  · exact mapM_isOk

/-! ## Numbers and texts, with the limit on digits -/

section Digits

/-- What `int(..)` of a text with `n` digits raises where these are too many. -/
def tooManyDigits (n : Nat) : Exc :=
  ⟨.valueError, str "Exceeds the limit (" ++ natRepr intMaxStrDigits ++
    str " digits) for integer string conversion: value has " ++ natRepr n ++
    str " digits; use sys.set_int_max_str_digits() to increase the limit"⟩

variable [Unicode]

/-- The decimal digits of any script in a text. -/
def digitCount (s : Str) : Nat := s.countP fun c => (Unicode.decimal c).isSome

/-- `int(s)` that raises. -/
def intOrRaise (s : Str) : Except Exc Int :=
  match pyInt s with
  | some i => if intMaxStrDigits < digitCount s then .error (tooManyDigits (digitCount s)) else .ok i
  | none => .error ⟨.valueError, str "invalid literal for int() with base 10: " ++ reprStr s⟩

omit [Unicode] in
/-- `str(i)` that raises. -/
def strOfInt (i : Int) : Except Exc Str :=
  if intMaxStrDigits < (natRepr i.natAbs).length then
    .error ⟨.valueError, str "Exceeds the limit (" ++ natRepr intMaxStrDigits ++
      str " digits) for integer string conversion; use sys.set_int_max_str_digits() to increase the limit"⟩
  else .ok (intRepr i)

omit [Unicode] in
theorem strOfInt_eq_ok {i : Int} {s : Str} :
    strOfInt i = .ok s ↔ (natRepr i.natAbs).length ≤ intMaxStrDigits ∧ s = intRepr i := by
  unfold strOfInt
  split
  · simp; omega
  · simp [eq_comm]; omega

theorem digitCount_intRepr (i : Int) : digitCount (intRepr i) = (natRepr i.natAbs).length := by
  have hdigits : digitCount (natRepr i.natAbs) = (natRepr i.natAbs).length := by
    refine List.countP_eq_length.mpr fun c hc => ?_
    have hd := natRepr_digits _ c hc
    rw [Unicode.decimal_ascii c (by have := isDigit_iff.mp hd; omega), if_pos hd]
    rfl
  unfold intRepr
  split
  · have hsign : Unicode.decimal (chr '-') = none := by
      rw [Unicode.decimal_ascii _ (by decide)]
      rfl
    rw [digitCount, List.countP_cons_of_neg (by simp [hsign])]
    exact hdigits
  · exact hdigits

/-- `int(str(i)) == i`, where `str(i)` does not raise. -/
theorem intOrRaise_strOfInt {i : Int} {s : Str} (h : strOfInt i = .ok s) : intOrRaise s = .ok i := by
  obtain ⟨hlen, rfl⟩ := strOfInt_eq_ok.mp h
  rw [intOrRaise, pyInt_intRepr]
  simp only
  rw [if_neg (by rw [digitCount_intRepr]; omega)]

end Digits

end Py
