import DealershipAgent.Py.Json.Value

/-!
# JSON texts and what they denote

The grammar of RFC 8259 with the three constants that Python adds (`NaN`, `Infinity`, `-Infinity`),
as relations between a text and a value. Nothing here parses: `Load.lean` proves that `json.loads`
reads exactly these texts.

* `Units`: the inside of a string literal. A surrogate pair of two escapes is one code point
  (`joinPairs`); any other surrogate stays as it is.
* `Number`: an integer literal without fraction and exponent denotes an `int`, any other a `float`.
* `Val`, `Items`, `Members`: values without white space around them, the inside of an array and of
  an object. A repeated key keeps its last value (`dictOf`).
* `Denotes`: a text with any white space around one value.
-/

namespace Py

namespace Json

def isWs (c : CodePoint) : Bool :=
  c == chr ' ' || c == chr '\t' || c == chr '\n' || c == chr '\r'

/-- Insignificant white space. -/
def Ws (s : Str) : Prop := ∀ c ∈ s, isWs c = true

/-! ## Strings -/

def hexVal (c : CodePoint) : Option Nat :=
  let n := c.val
  if 48 ≤ n ∧ n ≤ 57 then some (n - 48)
  else if 65 ≤ n ∧ n ≤ 70 then some (n - 55)
  else if 97 ≤ n ∧ n ≤ 102 then some (n - 87)
  else none

/-- The code unit of four hexadecimal digits. -/
def hex4 (a b c d : CodePoint) : Option CodePoint := do
  let a ← hexVal a
  let b ← hexVal b
  let c ← hexVal c
  let d ← hexVal d
  return codePoint (((a * 16 + b) * 16 + c) * 16 + d)

/-- The code point that a backslash and one more character denote. -/
def simpleEscape (e : CodePoint) : Option CodePoint :=
  if e = chr '"' then some e
  else if e = chr '\\' then some e
  else if e = chr '/' then some e
  else if e = chr 'b' then some (codePoint 0x08)
  else if e = chr 'f' then some (codePoint 0x0c)
  else if e = chr 'n' then some (chr '\n')
  else if e = chr 'r' then some (chr '\r')
  else if e = chr 't' then some (chr '\t')
  else none

/-- A code unit of a string literal, and whether a `\u` escape wrote it. -/
structure StrUnit where
  escaped : Bool
  code : CodePoint
deriving DecidableEq

def isHighSurrogate (c : CodePoint) : Bool := 0xd800 ≤ c.val && c.val ≤ 0xdbff

def isLowSurrogate (c : CodePoint) : Bool := 0xdc00 ≤ c.val && c.val ≤ 0xdfff

def joinSurrogates (h l : CodePoint) : CodePoint :=
  codePoint (0x10000 + (h.val - 0xd800) * 0x400 + (l.val - 0xdc00))

/-- Two escapes that make a surrogate pair are one code point. -/
def joinPairs : List StrUnit → Str
  | [] => []
  | [u] => [u.code]
  | u :: w :: us =>
    if u.escaped && w.escaped && isHighSurrogate u.code && isLowSurrogate w.code then
      joinSurrogates u.code w.code :: joinPairs us
    else u.code :: joinPairs (w :: us)

/-- The text between the quotes of a string literal and its code units. -/
inductive Units : Str → List StrUnit → Prop
  | nil : Units [] []
  | plain {c : CodePoint} {t : Str} {us : List StrUnit} : c ≠ chr '"' → c ≠ chr '\\' →
      32 ≤ c.val → Units t us → Units (c :: t) (⟨false, c⟩ :: us)
  | escape {e d : CodePoint} {t : Str} {us : List StrUnit} : simpleEscape e = some d →
      Units t us → Units (chr '\\' :: e :: t) (⟨false, d⟩ :: us)
  | unicode {a b c d n : CodePoint} {t : Str} {us : List StrUnit} : hex4 a b c d = some n →
      Units t us → Units (chr '\\' :: chr 'u' :: a :: b :: c :: d :: t) (⟨true, n⟩ :: us)

/-! ## Numbers -/

/-- One or more digits. -/
def Digits (s : Str) : Prop := s ≠ [] ∧ ∀ c ∈ s, isDigit c = true

/-- An integer part has no leading zero. -/
def IntPart (s : Str) : Prop := Digits s ∧ (s.head? = some (chr '0') → s = [chr '0'])

def Frac (s : Str) : Prop := s = [] ∨ ∃ ds, s = chr '.' :: ds ∧ Digits ds

def Sign (s : Str) : Prop := s = [] ∨ s = [chr '-']

def ExpSign (s : Str) : Prop := s = [] ∨ s = [chr '+'] ∨ s = [chr '-']

def isExpMark (c : CodePoint) : Bool := c == chr 'e' || c == chr 'E'

def Exp (s : Str) : Prop :=
  s = [] ∨ ∃ e sign ds, s = e :: (sign ++ ds) ∧ isExpMark e = true ∧ ExpSign sign ∧ Digits ds

variable {F : Type} [PyFloat F]

def numberVal (sign int frac exp : Str) : Json F :=
  if frac = [] ∧ exp = [] then
    .int (if sign = [] then digitsVal int else -(digitsVal int : Int))
  else .float (PyFloat.ofLiteral (sign ++ int ++ frac ++ exp))

/-- A number literal and its value. -/
def Number (s : Str) (v : Json F) : Prop :=
  ∃ sign int frac exp, s = sign ++ int ++ frac ++ exp ∧ Sign sign ∧ IntPart int ∧ Frac frac ∧
    Exp exp ∧ v = numberVal sign int frac exp

/-! ## Values -/

/-- The constants. -/
inductive Constant : Str → Json F → Prop
  | null : Constant "null" .null
  | true : Constant "true" (.bool true)
  | false : Constant "false" (.bool false)
  | nan : Constant "NaN" (.float PyFloat.nan)
  | inf : Constant "Infinity" (.float PyFloat.inf)
  | negInf : Constant "-Infinity" (.float PyFloat.negInf)

/-- A string literal with its quotes. -/
def quoted (body : Str) : Str := chr '"' :: (body ++ [chr '"'])

mutual
/-- A value, from its first to its last character. -/
inductive Val : Str → Json F → Prop
  | constant {t : Str} {v : Json F} : Constant t v → Val t v
  | number {t : Str} {v : Json F} : Number t v → Val t v
  | string {b : Str} {us : List StrUnit} : Units b us → Val (quoted b) (.string (joinPairs us))
  | emptyArray {w : Str} : Ws w → Val (chr '[' :: (w ++ [chr ']'])) (.array [])
  | array {s : Str} {xs : List (Json F)} : Items s xs → Val (chr '[' :: (s ++ [chr ']'])) (.array xs)
  | emptyObject {w : Str} : Ws w → Val (chr '{' :: (w ++ [chr '}'])) (.object [])
  | object {s : Str} {kvs : List (Str × Json F)} : Members s kvs →
      Val (chr '{' :: (s ++ [chr '}'])) (.object (dictOf kvs))

/-- One or more values with commas between them. -/
inductive Items : Str → List (Json F) → Prop
  | one {w t w' : Str} {v : Json F} : Ws w → Val t v → Ws w' → Items (w ++ (t ++ w')) [v]
  | more {w t w' s : Str} {v : Json F} {xs : List (Json F)} : Ws w → Val t v → Ws w' → Items s xs →
      Items (w ++ (t ++ (w' ++ chr ',' :: s))) (v :: xs)

/-- One or more members with commas between them. -/
inductive Members : Str → List (Str × Json F) → Prop
  | one {w₁ b w₂ w₃ t w₄ : Str} {us : List StrUnit} {v : Json F} : Ws w₁ → Units b us → Ws w₂ →
      Ws w₃ → Val t v → Ws w₄ →
      Members (w₁ ++ (quoted b ++ (w₂ ++ chr ':' :: (w₃ ++ (t ++ w₄))))) [(joinPairs us, v)]
  | more {w₁ b w₂ w₃ t w₄ s : Str} {us : List StrUnit} {v : Json F} {kvs : List (Str × Json F)} :
      Ws w₁ → Units b us → Ws w₂ → Ws w₃ → Val t v → Ws w₄ → Members s kvs →
      Members (w₁ ++ (quoted b ++ (w₂ ++ chr ':' :: (w₃ ++ (t ++ (w₄ ++ chr ',' :: s))))))
        ((joinPairs us, v) :: kvs)
end

/-- The text denotes the value: one value with white space around it. -/
def Denotes (s : Str) (v : Json F) : Prop :=
  ∃ w t w', s = w ++ (t ++ w') ∧ Ws w ∧ Val t v ∧ Ws w'

/-! ## First and last characters -/

theorem Ws.nil : Ws [] := fun _ hc => by cases hc

theorem Val.denotes {t : Str} {v : Json F} (h : Val t v) : Denotes t v :=
  ⟨[], t, [], by simp, .nil, h, .nil⟩

theorem Ws.append {s t : Str} (hs : Ws s) (ht : Ws t) : Ws (s ++ t) := by
  intro c hc
  rcases List.mem_append.mp hc with h | h
  · exact hs c h
  · exact ht c h

/-- A character that a value can begin with. -/
def isValueStart (c : CodePoint) : Bool :=
  isDigit c || c == chr '-' || c == chr '"' || c == chr '[' || c == chr '{' || c == chr 'n' ||
    c == chr 't' || c == chr 'f' || c == chr 'N' || c == chr 'I'

theorem IntPart.head {s : Str} (h : IntPart s) : ∃ c cs, s = c :: cs ∧ isDigit c = true := by
  obtain ⟨c, cs, rfl⟩ := List.exists_cons_of_ne_nil h.1.1
  exact ⟨c, cs, rfl, h.1.2 c (by simp)⟩

theorem Number.head {s : Str} {v : Json F} (h : Number s v) :
    ∃ c cs, s = c :: cs ∧ (isDigit c = true ∨ c = chr '-') := by
  obtain ⟨sign, int, frac, exp, rfl, rfl | rfl, hint, -⟩ := h
  · obtain ⟨c, cs, rfl, hc⟩ := hint.head
    exact ⟨c, _, rfl, .inl hc⟩
  · exact ⟨chr '-', _, rfl, .inr rfl⟩

/-- A number denotes an integer or a float. -/
theorem Number.shape {t : Str} {v : Json F} (h : Number t v) :
    (∃ i, v = .int i) ∨ ∃ x, v = .float x := by
  obtain ⟨_, _, _, _, -, -, -, -, -, rfl⟩ := h
  unfold numberVal
  split
  · exact .inl ⟨_, rfl⟩
  · exact .inr ⟨_, rfl⟩

theorem Val.head {t : Str} {v : Json F} (h : Val t v) :
    ∃ c cs, t = c :: cs ∧ isValueStart c = true := by
  cases h with
  | constant h => cases h <;> exact ⟨_, _, rfl, by decide⟩
  | number h =>
    obtain ⟨c, cs, rfl, h | rfl⟩ := h.head
    · exact ⟨c, cs, rfl, by simp [isValueStart, h]⟩
    · exact ⟨_, _, rfl, by decide⟩
  | string _ => exact ⟨_, _, rfl, by decide⟩
  | emptyArray _ => exact ⟨_, _, rfl, by decide⟩
  | array _ => exact ⟨_, _, rfl, by decide⟩
  | emptyObject _ => exact ⟨_, _, rfl, by decide⟩
  | object _ => exact ⟨_, _, rfl, by decide⟩

/-- A value starts with no white space and with no closing bracket. -/
theorem isValueStart_ne {c : CodePoint} (h : isValueStart c = true) :
    isWs c = false ∧ c ≠ chr ']' ∧ c ≠ chr '}' := by
  refine ⟨?_, ?_, ?_⟩
  · cases hw : isWs c with
    | false => rfl
    | true =>
      simp only [isWs, Bool.or_eq_true, beq_iff_eq] at hw
      rcases hw with ((rfl | rfl) | rfl) | rfl <;> exact absurd h (by decide)
  · rintro rfl; exact absurd h (by decide)
  · rintro rfl; exact absurd h (by decide)

end Json

end Py
