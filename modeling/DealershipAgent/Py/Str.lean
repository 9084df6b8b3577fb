import Mathlib.Data.List.DropRight
import Mathlib.Data.List.Infix
import Mathlib.Tactic.Common

/-!
# Python strings

A `str` is a list of code points, lone surrogates included, as in the interpreter. A Lean string
literal coerces to it.

* `strip`, `lstrip`, `rstrip`: the white space of `str.isspace` at the ends.
* `Unicode`: the tables whose version depends on the interpreter (`str.lower`, the `\w` class,
  `str.isprintable`, decimal digits), with what every version says about ASCII.
* `sliceTo`: `s[:n]`, for a negative `n` too.
-/

namespace Py

/-- A code point, as `ord` gives it: a surrogate is one too. -/
abbrev CodePoint := Fin 0x110000

/-- A `str`. -/
abbrev Str := List CodePoint

instance instLawfulBEqCodePoint : LawfulBEq CodePoint := inferInstance

instance instLawfulBEqStr : LawfulBEq Str := inferInstance

/-- The code point of a Lean character. -/
def chr (c : Char) : CodePoint :=
  ⟨c.toNat, by
    have h : c.toNat.isValidChar := c.valid
    rcases h with h | h <;> omega⟩

/-- `chr(n)`, for an `n` in range. -/
def codePoint (n : Nat) : CodePoint := ⟨n % 0x110000, Nat.mod_lt n (by decide)⟩

/-- The `str` of a Lean string. -/
def str (s : String) : Str := s.toList.map chr

instance : Coe String Str := ⟨str⟩

/-- A long `str`, in parts. -/
def text (parts : List String) : Str := parts.flatMap str

@[simp] theorem chr_val (c : Char) : (chr c).val = c.toNat := rfl

theorem chr_inj {c d : Char} : chr c = chr d ↔ c = d := by
  rw [Fin.ext_iff, chr_val, chr_val]
  exact Char.toNat_inj

/-- The length of a literal, by its characters: the literal itself is slow to evaluate. -/
theorem length_str_le {s : String} {n : Nat} (l : List Char) (h : s = String.ofList l)
    (hl : l.length ≤ n) : (str s).length ≤ n := by
  rw [h, str, List.length_map, String.toList_ofList]
  exact hl

theorem length_text_le {parts : List String} {n : Nat} (h : ∀ s ∈ parts, (str s).length ≤ n) :
    (text parts).length ≤ n * parts.length := by
  induction parts with
  | nil => exact Nat.zero_le _
  | cons s parts ih =>
    obtain ⟨hs, hparts⟩ := List.forall_mem_cons.mp h
    rw [text, List.flatMap_cons, List.length_append, List.length_cons, Nat.mul_succ, Nat.add_comm]
    exact Nat.add_le_add (ih hparts) hs

/-- `sub in s`. -/
def isIn (sub s : Str) : Bool := s.tails.any fun t => sub.isPrefixOf t

theorem isIn_iff {sub s : Str} : isIn sub s = true ↔ sub <:+: s := by
  unfold isIn
  rw [List.any_eq_true]
  constructor
  · rintro ⟨t, ht, hsub⟩
    exact (List.isPrefixOf_iff_prefix.mp hsub).isInfix.trans ((List.mem_tails _ _).mp ht).isInfix
  · rintro ⟨a, b, rfl⟩
    exact ⟨sub ++ b, (List.mem_tails _ _).mpr ⟨a, by simp⟩,
      List.isPrefixOf_iff_prefix.mpr (List.prefix_append sub b)⟩

/-! ## White space -/

/-- `str.isspace` of one code point. -/
def isSpace (c : CodePoint) : Bool :=
  let n := c.val
  (9 ≤ n && n ≤ 13) || (28 ≤ n && n ≤ 32) || n == 0x85 || n == 0xa0 || n == 0x1680 ||
    (0x2000 ≤ n && n ≤ 0x200a) || n == 0x2028 || n == 0x2029 || n == 0x202f || n == 0x205f ||
    n == 0x3000

def lstrip (s : Str) : Str := s.dropWhile isSpace

def rstrip (s : Str) : Str := s.rdropWhile isSpace

/-- `s.strip()`. -/
def strip (s : Str) : Str := rstrip (lstrip s)

/-- Every code point of `s` is white space. -/
def Blank (s : Str) : Prop := ∀ c ∈ s, isSpace c = true

theorem Blank.append {s t : Str} (hs : Blank s) (ht : Blank t) : Blank (s ++ t) := by
  intro c hc
  rcases List.mem_append.mp hc with h | h
  · exact hs c h
  · exact ht c h

theorem lstrip_eq (s : Str) : ∃ a, Blank a ∧ s = a ++ lstrip s :=
  ⟨s.takeWhile isSpace, fun _ hc => List.mem_takeWhile_imp hc, List.takeWhile_append_dropWhile.symm⟩

theorem rstrip_eq (s : Str) : ∃ b, Blank b ∧ s = rstrip s ++ b :=
  ⟨s.rtakeWhile isSpace, fun _ hc => List.mem_rtakeWhile_imp hc,
    (List.rdropWhile_append_rtakeWhile (p := isSpace)).symm⟩

/-- `strip` takes white space off both ends and nothing else. -/
theorem strip_eq (s : Str) : ∃ a b, Blank a ∧ Blank b ∧ s = a ++ strip s ++ b := by
  obtain ⟨a, ha, he⟩ := lstrip_eq s
  obtain ⟨b, hb, hf⟩ := rstrip_eq (lstrip s)
  refine ⟨a, b, ha, hb, ?_⟩
  rw [List.append_assoc, strip, ← hf]
  exact he

/-- Text after a code point that is no white space stays, up to its own trailing space. -/
theorem rstrip_append_cons {s : Str} {c : CodePoint} (hc : isSpace c = false) (t : Str) :
    rstrip (s ++ c :: t) = s ++ c :: rstrip t := by
  induction t using List.reverseRecOn with
  | nil => simp [rstrip, hc]
  | append_singleton t d ih =>
    have he : s ++ c :: (t ++ [d]) = (s ++ c :: t) ++ [d] := by simp
    rw [he, rstrip, List.rdropWhile_concat, rstrip, List.rdropWhile_concat]
    split
    · exact ih
    · simp

/-- Stripping around a part that starts and ends with no white space. -/
theorem strip_around {p s q : Str} {c d : CodePoint} (hc : isSpace c = false)
    (hd : isSpace d = false) (hs : ∃ m, s = c :: m) (hs' : ∃ m, s = m ++ [d]) :
    strip (p ++ s ++ q) = lstrip p ++ s ++ rstrip q := by
  obtain ⟨m, rfl⟩ := hs
  obtain ⟨m', he⟩ := hs'
  have hl : lstrip (p ++ (c :: m) ++ q) = lstrip p ++ ((c :: m) ++ q) := by
    rw [lstrip, List.append_assoc, List.dropWhile_append]
    split
    · next h => simp [lstrip, List.isEmpty_iff.mp h, hc]
    · rfl
  rw [strip, hl, he]
  calc rstrip (lstrip p ++ (m' ++ [d] ++ q))
      = rstrip ((lstrip p ++ m') ++ d :: q) := by simp
    _ = (lstrip p ++ m') ++ d :: rstrip q := rstrip_append_cons hd _
    _ = lstrip p ++ (m' ++ [d]) ++ rstrip q := by simp

theorem lstrip_suffix (s : Str) : lstrip s <:+ s := List.dropWhile_suffix _

/-- A stripped text does not end in white space. -/
theorem strip_concat {s m : Str} {c : CodePoint} (h : strip s = m ++ [c]) : isSpace c = false := by
  have hne : (lstrip s).rdropWhile isSpace ≠ [] := by
    intro h0
    rw [strip, rstrip, h0] at h
    simp at h
  have hlast := List.rdropWhile_last_not isSpace (lstrip s) hne
  have hc : ((lstrip s).rdropWhile isSpace).getLast hne = c := by
    have h' : (lstrip s).rdropWhile isSpace = m ++ [c] := h
    simp [h']
  rw [hc] at hlast
  simpa using hlast

/-! ## The tables of the interpreter's Unicode version -/

def isDigit (c : CodePoint) : Bool := 48 ≤ c.val && c.val ≤ 57

theorem isDigit_iff {c : CodePoint} : isDigit c = true ↔ 48 ≤ c.val ∧ c.val ≤ 57 := by
  simp [isDigit]

theorem isDigit_ne {c d : CodePoint} (hc : isDigit c = true) (hd : isDigit d = false) :
    (c == d) = false := by
  rw [beq_eq_false_iff_ne]
  rintro rfl
  rw [hc] at hd
  cases hd

def isAsciiLetter (c : CodePoint) : Bool :=
  (65 ≤ c.val && c.val ≤ 90) || (97 ≤ c.val && c.val ≤ 122)

def asciiLower (c : CodePoint) : CodePoint :=
  if h : 65 ≤ c.val ∧ c.val ≤ 90 then ⟨c.val + 32, by omega⟩ else c

/-- What the interpreter's Unicode version decides, and what every version says about ASCII. -/
class Unicode where
  /-- `str.lower`. -/
  lower : Str → Str
  /-- The class `\w` of a `str` pattern. -/
  isWord : CodePoint → Bool
  /-- `str.isprintable` of one code point. -/
  isPrintable : CodePoint → Bool
  /-- `unicodedata.decimal`. -/
  decimal : CodePoint → Option Nat
  lower_ascii : ∀ s, (∀ c ∈ s, c.val < 128) → lower s = s.map asciiLower
  isWord_ascii : ∀ c, c.val < 128 → isWord c = (isAsciiLetter c || isDigit c || c == 95)
  isPrintable_ascii : ∀ c, c.val < 128 → isPrintable c = (32 ≤ c.val && c.val < 127)
  decimal_ascii : ∀ c, c.val < 128 → decimal c = if isDigit c then some (c.val - 48) else none

/-- The tables that know ASCII only. -/
@[reducible] def asciiUnicode : Unicode where
  lower s := s.map asciiLower
  isWord c := isAsciiLetter c || isDigit c || c == 95
  isPrintable c := 32 ≤ c.val && c.val < 127
  decimal c := if isDigit c then some (c.val - 48) else none
  lower_ascii _ _ := rfl
  isWord_ascii _ _ := rfl
  isPrintable_ascii _ _ := rfl
  decimal_ascii _ _ := rfl

/-! ## Slices -/

/-- `s[:n]`: a negative `n` counts from the end. -/
def sliceTo {α : Type} (s : List α) (n : Int) : List α :=
  if 0 ≤ n then s.take n.toNat else s.take (s.length + n).toNat

end Py
