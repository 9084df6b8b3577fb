import Mathlib.Algebra.GroupWithZero.Nat
import Mathlib.Data.List.Sort
import DealershipAgent.Py.Json.Value

/-!
# `json.dumps`

The text that `json.dumps` writes with its defaults (ASCII only, `", "` and `": "`), and with
`sort_keys`.
-/

namespace Py

/-- `sep.join(parts)`. -/
def join (sep : Str) (parts : List Str) : Str := List.intercalate sep parts

theorem join_cons (sep : Str) (ts : List Str) : ∃ s, ∀ t, join sep (t :: ts) = t ++ s := by
  cases ts with
  | nil => exact ⟨[], fun t => by simp [join, List.intercalate]⟩
  | cons t' ts => exact ⟨sep ++ join sep (t' :: ts), fun t => by simp [join, List.intercalate]⟩

theorem length_join_le (sep : Str) (ts : List Str) :
    (join sep ts).length ≤ (ts.map fun t => t.length + sep.length).sum := by
  induction ts with
  | nil => exact Nat.le_refl 0
  | cons t ts ih =>
    cases ts with
    | nil => simp [join, List.intercalate]
    | cons t' ts =>
      have hjoin : join sep (t :: t' :: ts) = t ++ sep ++ join sep (t' :: ts) := by
        simp [join, List.intercalate]
      rw [hjoin, List.length_append, List.length_append, List.map_cons, List.sum_cons]
      exact Nat.add_le_add_left ih _

/-- `s <= t`: by code points. -/
def strLe : Str → Str → Bool
  | [], _ => true
  | _ :: _, [] => false
  | a :: s, b :: t => a < b || (a == b && strLe s t)

/-- `sorted` of the members of a dictionary, whose keys differ. -/
def sortMembers {α : Type} (kvs : List (Str × α)) : List (Str × α) :=
  kvs.insertionSort fun a b => strLe a.1 b.1

namespace Json

/-- A `\u` escape. -/
def unicodeEscape (n : Nat) : Str := str "\\u" ++ hexPad 4 n

/-- One code point inside a string literal. -/
def dumpChar (c : CodePoint) : Str :=
  if c = chr '"' then "\\\""
  else if c = chr '\\' then "\\\\"
  else if c = codePoint 0x08 then "\\b"
  else if c = chr '\t' then "\\t"
  else if c = chr '\n' then "\\n"
  else if c = codePoint 0x0c then "\\f"
  else if c = chr '\r' then "\\r"
  else if 0x20 ≤ c.val ∧ c.val ≤ 0x7e then [c]
  else if c.val < 0x10000 then unicodeEscape c.val
  else unicodeEscape (0xd800 + (c.val - 0x10000) / 0x400) ++
    unicodeEscape (0xdc00 + (c.val - 0x10000) % 0x400)

def dumpString (s : Str) : Str := chr '"' :: (s.flatMap dumpChar ++ [chr '"'])

theorem length_unicodeEscape (n : Nat) : (unicodeEscape n).length = 6 := by
  rw [unicodeEscape, List.length_append, length_hexPad]
  rfl

/-- A code point becomes at most two `\u` escapes. -/
theorem length_dumpChar_le (c : CodePoint) : (dumpChar c).length ≤ 12 := by
  have hpair : ∀ t : String, t ∈ ["\\\"", "\\\\", "\\b", "\\t", "\\n", "\\f", "\\r"] →
      (str t).length ≤ 12 := by decide
  unfold dumpChar
  split_ifs
  · exact hpair _ (by simp)
  · exact hpair _ (by simp)
  · exact hpair _ (by simp)
  · exact hpair _ (by simp)
  · exact hpair _ (by simp)
  · exact hpair _ (by simp)
  · exact hpair _ (by simp)
  · simp
  · rw [length_unicodeEscape]
    omega
  · rw [List.length_append, length_unicodeEscape, length_unicodeEscape]

theorem length_dumpString_le (s : Str) : (dumpString s).length ≤ 12 * s.length + 2 := by
  have hchars : (s.flatMap dumpChar).length ≤ 12 * s.length := by
    induction s with
    | nil => exact Nat.le_refl 0
    | cons c s ih =>
      have hc := length_dumpChar_le c
      rw [List.flatMap_cons, List.length_append, List.length_cons]
      omega
  rw [dumpString, List.length_cons, List.length_append, List.length_singleton]
  omega

section Dump

variable {F : Type} [PyFloat F]

mutual
/-- `json.dumps(v, sort_keys=sort)`. -/
def dumpsWith (sort : Bool) : Json F → Str
  | null => "null"
  | bool true => "true"
  | bool false => "false"
  | int i => intRepr i
  | float x => PyFloat.jsonRepr x
  | string s => dumpString s
  | array xs => str "[" ++ join ", " (dumpItems sort xs) ++ str "]"
  | object kvs =>
    let members := dumpMembers sort kvs
    let members := if sort then sortMembers members else members
    str "\x7b" ++ join ", " (members.map fun kv => dumpString kv.1 ++ str ": " ++ kv.2) ++ str "\x7d"

def dumpItems (sort : Bool) : List (Json F) → List Str
  | [] => []
  | x :: xs => dumpsWith sort x :: dumpItems sort xs

/-- The keys and the texts of the values. -/
def dumpMembers (sort : Bool) : List (Str × Json F) → List (Str × Str)
  | [] => []
  | (k, v) :: kvs => (k, dumpsWith sort v) :: dumpMembers sort kvs
end

/-- `json.dumps(v)`. -/
def dumps (v : Json F) : Str := dumpsWith false v

end Dump

end Json

end Py
