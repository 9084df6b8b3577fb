import Mathlib.Algebra.Group.Nat.Defs
import DealershipAgent.Py.Str

/-!
# Python numbers as text

* `natRepr`, `intRepr`: `str` of an `int`.
* `pyInt`: `int(s)` of a `str` in base 10, with the white space, the signs, the underscores and the
  decimal digits of any script that it accepts; `pyInt_intRepr` is the round trip.
* `intMaxStrDigits`: the interpreter's limit on the digits of such a conversion. `natRepr` and `pyInt`
  have no limit; `strOfInt` and `intOrRaise` (`Py.Exc`) do.
* `PyFloat`: what the code needs of the interpreter: its floating point numbers, and how deep its
  recursion goes.
-/

namespace Py

/-- `sys.get_int_max_str_digits()` -/
def intMaxStrDigits : Nat := 4300

def natRepr (n : Nat) : Str := (Nat.toDigits 10 n).map chr

/-- `str(i)`. -/
def intRepr (i : Int) : Str :=
  if i < 0 then chr '-' :: natRepr i.natAbs else natRepr i.natAbs

/-- The value of a run of ASCII digits. -/
def digitsVal (s : Str) : Nat := s.foldl (fun acc c => 10 * acc + (c.val - 48)) 0

theorem natRepr_ne_nil (n : Nat) : natRepr n ≠ [] := by
  simp [natRepr, Nat.toDigits_ne_nil]

theorem natRepr_digits (n : Nat) : ∀ c ∈ natRepr n, isDigit c = true := by
  intro c hc
  obtain ⟨d, hd, rfl⟩ := List.mem_map.mp hc
  have := Nat.isDigit_of_mem_toDigits (by decide) (by decide) hd
  rw [Char.isDigit_iff_toNat] at this
  exact isDigit_iff.mpr this

theorem intRepr_chars (i : Int) : ∀ c ∈ intRepr i, c = chr '-' ∨ isDigit c = true := by
  intro c hc
  unfold intRepr at hc
  split at hc
  · exact (List.mem_cons.mp hc).imp_right (natRepr_digits _ c)
  · exact .inr (natRepr_digits _ c hc)

theorem digitsVal_map_chr (l : List Char) :
    digitsVal (l.map chr) = Nat.ofDigitChars 10 l 0 := by
  simp only [digitsVal, Nat.ofDigitChars, List.foldl_map, chr_val]
  rfl

@[simp] theorem digitsVal_natRepr (n : Nat) : digitsVal (natRepr n) = n := by
  rw [natRepr, digitsVal_map_chr, Nat.ofDigitChars_ten_toDigits]

/-! ## `int(s)` -/

/-- White space around a number: ASCII white space as C has it, else `str.isspace`. -/
def isIntSpace (c : CodePoint) : Bool :=
  if c.val < 128 then (9 ≤ c.val && c.val ≤ 13) || c.val == 32 else isSpace c

/-- No white space at either end of a run of digits, with or without a sign. -/
theorem digits_noSpace {s : Str} (h : ∀ c ∈ s, isDigit c = true ∨ c = chr '-') (hne : s ≠ []) :
    (s.dropWhile isIntSpace).rdropWhile isIntSpace = s := by
  have hsp : ∀ c ∈ s, isIntSpace c = false := by
    intro c hc
    rcases h c hc with hd | rfl
    · have := isDigit_iff.mp hd
      rw [isIntSpace, if_pos (by omega)]
      simp; omega
    · decide
  have h1 : s.dropWhile isIntSpace = s := by
    cases s with
    | nil => rfl
    | cons c cs => simp [hsp c (by simp)]
  rw [h1, List.rdropWhile_eq_self_iff]
  intro hl
  simp [hsp _ (List.getLast_mem hl)]

section Int

variable [Unicode]

/-- Digits with single underscores between them. `prev` says whether a digit came just before. -/
def intDigits : Str → Nat → Bool → Option Nat
  | [], acc, prev => if prev then some acc else none
  | c :: cs, acc, prev =>
    if c = chr '_' then
      if prev then intDigits cs acc false else none
    else match Unicode.decimal c with
      | some d => intDigits cs (10 * acc + d) true
      | none => none

/-- `int(s)`; `none` is a `ValueError`. -/
def pyInt (s : Str) : Option Int :=
  match (s.dropWhile isIntSpace).rdropWhile isIntSpace with
  | [] => none
  | c :: cs =>
    if c = chr '-' then (intDigits cs 0 false).map fun n : Nat => -(n : Int)
    else if c = chr '+' then (intDigits cs 0 false).map fun n : Nat => (n : Int)
    else (intDigits (c :: cs) 0 false).map fun n : Nat => (n : Int)

theorem intDigits_digits {s : Str} (h : ∀ c ∈ s, isDigit c = true) (acc : Nat) (prev : Bool)
    (hne : s ≠ [] ∨ prev = true) :
    intDigits s acc prev = some (s.foldl (fun acc c => 10 * acc + (c.val - 48)) acc) := by
  induction s generalizing acc prev with
  | nil =>
    obtain rfl : prev = true := by simpa using hne
    rfl
  | cons c cs ih =>
    have hc : isDigit c = true := h c (by simp)
    have hlt : c.val < 128 := by have := isDigit_iff.mp hc; omega
    have hu : c ≠ chr '_' := by rintro rfl; exact absurd hc (by decide)
    have hdec : Unicode.decimal c = some (c.val - 48) := by
      rw [Unicode.decimal_ascii c hlt, if_pos hc]
    rw [intDigits, if_neg hu, hdec, List.foldl_cons]
    exact ih (fun d hd => h d (by simp [hd])) _ true (.inr rfl)

/-- `int(str(i)) == i`. -/
theorem pyInt_intRepr (i : Int) : pyInt (intRepr i) = some i := by
  have hdig := natRepr_digits i.natAbs
  have hfold : ∀ n, (natRepr n).foldl (fun acc c => 10 * acc + (c.val - 48)) 0 = n :=
    digitsVal_natRepr
  by_cases hi : i < 0
  · have hns := digits_noSpace (s := intRepr i)
      (by rw [intRepr, if_pos hi]; intro c hc
          rcases List.mem_cons.mp hc with rfl | hc
          · exact .inr rfl
          · exact .inl (hdig c hc))
      (by simp [intRepr, hi])
    rw [pyInt, hns, intRepr, if_pos hi]
    simp only [↓reduceIte]
    rw [intDigits_digits hdig 0 false (.inl (natRepr_ne_nil _)), hfold, Option.map_some]
    congr 1
    omega
  · have hns := digits_noSpace (s := intRepr i)
      (by rw [intRepr, if_neg hi]; exact fun c hc => .inl (hdig c hc))
      (by simp [intRepr, hi, natRepr_ne_nil])
    rw [pyInt, hns, intRepr, if_neg hi]
    have hid := intDigits_digits hdig 0 false (.inl (natRepr_ne_nil _))
    rw [hfold] at hid
    cases hr : natRepr i.natAbs with
    | nil => exact absurd hr (natRepr_ne_nil _)
    | cons c cs =>
      have hc : isDigit c = true := hdig c (by simp [hr])
      have h1 : c ≠ chr '-' := by rintro rfl; exact absurd hc (by decide)
      have h2 : c ≠ chr '+' := by rintro rfl; exact absurd hc (by decide)
      simp only [if_neg h1, if_neg h2]
      rw [← hr, hid, Option.map_some]
      congr 1
      omega

end Int

/-! ## Floating point numbers -/

/-- The interpreter's `float`, as far as the code reads and prints it, and its recursion limit. -/
class PyFloat (F : Type) where
  /-- How many arrays and objects inside each other the JSON scanner opens before it raises a
  `RecursionError`. -/
  maxNesting : Nat
  /-- `float(text)` of a number literal. -/
  ofLiteral : Str → F
  nan : F
  inf : F
  negInf : F
  /-- `float(i)`; `none` is an `OverflowError`. -/
  ofInt : Int → Option F
  /-- `x == 0.0`. -/
  isZero : F → Bool
  /-- `repr(x)`. -/
  repr : F → Str
  /-- The text of `x` that `json.dumps` writes. -/
  jsonRepr : F → Str
  /-- `f"{x:.2f}"`. -/
  fixed2 : F → Str
  /-- `f"{x:,.2f}"`. -/
  fixed2Grouped : F → Str

/-- A float known by the literal that denotes it. -/
structure FloatText where
  text : Str
deriving DecidableEq, Repr

/-- Literals printed as they were written: what `float` does on the literals that are already the
`repr` of their value. -/
instance : PyFloat FloatText where
  maxNesting := 990
  ofLiteral s := ⟨s⟩
  nan := ⟨"nan"⟩
  inf := ⟨"inf"⟩
  negInf := ⟨"-inf"⟩
  ofInt i := some ⟨intRepr i ++ ".0"⟩
  isZero x := x.text = "0.0" || x.text = "-0.0"
  repr x := x.text
  jsonRepr x :=
    if x.text = "nan" then "NaN" else if x.text = "inf" then "Infinity"
    else if x.text = "-inf" then "-Infinity" else x.text
  fixed2 x := x.text
  fixed2Grouped x := x.text

end Py
