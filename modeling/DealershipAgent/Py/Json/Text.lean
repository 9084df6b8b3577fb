import DealershipAgent.Py.Json.Dump
import DealershipAgent.Py.Json.Load

/-!
# What `json.dumps` writes

* `dumpsWith_text`: it writes JSON, when it writes floats as JSON (`LawfulFloat`).
* `IsText.cancel`: JSON texts end where they end, whatever follows.
* `dumpsWith_eq_dumpString`: a plain string is written by that string only.
-/

namespace Py

/-- `json.loads` reads a float back from what `json.dumps` writes for it. -/
class LawfulFloat (F : Type) [PyFloat F] : Prop where
  jsonRepr_val : ∀ x : F, Json.Val (PyFloat.jsonRepr x) (.float x)

namespace Json

section Digits

/-- A number is written without leading zeros. -/
theorem natRepr_head {n : Nat} (h : (natRepr n).head? = some (chr '0')) : n = 0 := by
  unfold natRepr at h
  induction n using Nat.strongRecOn with
  | ind n ih =>
    by_cases hn : n < 10
    · have hdigit : ∀ m < 10, chr (Nat.digitChar m) = chr '0' → m = 0 := by decide
      rw [Nat.toDigits_of_lt_base hn] at h
      exact hdigit n hn (by simpa using h)
    · rw [Nat.toDigits_of_base_le (by decide) (by omega)] at h
      obtain ⟨c, cs, hc⟩ := List.exists_cons_of_ne_nil
        (Nat.toDigits_ne_nil : Nat.toDigits 10 (n / 10) ≠ [])
      have hq := ih (n / 10) (by omega) (by rw [hc] at h ⊢; simpa using h)
      omega

theorem natRepr_intPart (n : Nat) : IntPart (natRepr n) := by
  refine ⟨⟨natRepr_ne_nil n, natRepr_digits n⟩, fun h => ?_⟩
  rw [natRepr_head h]
  rfl

end Digits

section Texts

variable {F : Type} [PyFloat F]

/-- The text is that of a value. -/
def IsText (F : Type) [PyFloat F] (t : Str) : Prop := ∃ v : Json F, Val t v

theorem intRepr_number (i : Int) : Number (intRepr i) (.int i : Json F) := by
  unfold intRepr
  by_cases h : i < 0
  · rw [if_pos h]
    refine ⟨[chr '-'], natRepr i.natAbs, [], [], by simp, .inr rfl, natRepr_intPart _, .inl rfl,
      .inl rfl, ?_⟩
    rw [numberVal, if_pos ⟨rfl, rfl⟩, if_neg (by simp), digitsVal_natRepr]
    congr 1
    omega
  · rw [if_neg h]
    refine ⟨[], natRepr i.natAbs, [], [], by simp, .inl rfl, natRepr_intPart _, .inl rfl, .inl rfl,
      ?_⟩
    rw [numberVal, if_pos ⟨rfl, rfl⟩, if_pos rfl, digitsVal_natRepr]
    congr 1
    omega

/-! ## Strings -/

omit [PyFloat F] in
theorem hexVal_hexDigit (n : Nat) : hexVal (hexDigit n) = some (n % 16) := by
  have h : ∀ m < 16, hexVal (chr (Nat.digitChar m)) = some m := by decide
  exact h (n % 16) (Nat.mod_lt n (by decide))

/-- The code units of a code point: those that two escapes write are a surrogate pair. -/
def dumpUnits (c : CodePoint) : List StrUnit :=
  if (dumpChar c).length ≤ 2 then [⟨false, c⟩]
  else if c.val < 0x10000 then [⟨true, c⟩]
  else [⟨true, codePoint (0xd800 + (c.val - 0x10000) / 0x400)⟩,
    ⟨true, codePoint (0xdc00 + (c.val - 0x10000) % 0x400)⟩]

omit [PyFloat F] in
theorem unicodeEscape_units {n : Nat} (hn : n < 0x10000) {t : Str} {us : List StrUnit}
    (h : Units t us) : Units (unicodeEscape n ++ t) (⟨true, codePoint n⟩ :: us) := by
  have hx : hex4 (hexDigit (n >>> 12)) (hexDigit (n >>> 8)) (hexDigit (n >>> 4))
      (hexDigit (n >>> 0)) = some (codePoint n) := by
    simp only [hex4, hexVal_hexDigit, Nat.shiftRight_eq_div_pow]
    refine congrArg (fun m => some (codePoint m)) ?_
    omega
  exact .unicode hx h

omit [PyFloat F] in
/-- One code point as `json.dumps` writes it. -/
theorem dumpChar_units (c : CodePoint) {t : Str} {us : List StrUnit} (h : Units t us) :
    Units (dumpChar c ++ t) (dumpUnits c ++ us) := by
  have hescape : ∀ {e : CodePoint}, simpleEscape e = some c → dumpChar c = [chr '\\', e] →
      Units (dumpChar c ++ t) (dumpUnits c ++ us) := by
    intro e he hc
    rw [dumpUnits, hc, if_pos (by simp)]
    exact .escape he h
  by_cases h₁ : c = chr '"'
  · exact hescape (e := chr '"') (by rw [h₁]; rfl) (by rw [h₁]; rfl)
  by_cases h₂ : c = chr '\\'
  · exact hescape (e := chr '\\') (by rw [h₂]; rfl) (by rw [h₂]; rfl)
  by_cases h₃ : c = codePoint 0x08
  · exact hescape (e := chr 'b') (by rw [h₃]; rfl) (by rw [h₃]; rfl)
  by_cases h₄ : c = chr '\t'
  · exact hescape (e := chr 't') (by rw [h₄]; rfl) (by rw [h₄]; rfl)
  by_cases h₅ : c = chr '\n'
  · exact hescape (e := chr 'n') (by rw [h₅]; rfl) (by rw [h₅]; rfl)
  by_cases h₆ : c = codePoint 0x0c
  · exact hescape (e := chr 'f') (by rw [h₆]; rfl) (by rw [h₆]; rfl)
  by_cases h₇ : c = chr '\r'
  · exact hescape (e := chr 'r') (by rw [h₇]; rfl) (by rw [h₇]; rfl)
  have hrest : dumpChar c = if 0x20 ≤ c.val ∧ c.val ≤ 0x7e then [c]
      else if c.val < 0x10000 then unicodeEscape c.val
      else unicodeEscape (0xd800 + (c.val - 0x10000) / 0x400) ++
        unicodeEscape (0xdc00 + (c.val - 0x10000) % 0x400) := by
    rw [dumpChar, if_neg h₁, if_neg h₂, if_neg h₃, if_neg h₄, if_neg h₅, if_neg h₆, if_neg h₇]
  by_cases h₈ : 0x20 ≤ c.val ∧ c.val ≤ 0x7e
  · rw [if_pos h₈] at hrest
    rw [dumpUnits, hrest, if_pos (by simp)]
    exact .plain h₁ h₂ h₈.1 h
  rw [if_neg h₈] at hrest
  by_cases h₉ : c.val < 0x10000
  · rw [if_pos h₉] at hrest
    rw [dumpUnits, hrest, if_neg (by simp [length_unicodeEscape]), if_pos h₉]
    have hcode : codePoint c.val = c := Fin.ext (Nat.mod_eq_of_lt c.isLt)
    have hunits := unicodeEscape_units h₉ h
    rwa [hcode] at hunits
  · rw [if_neg h₉] at hrest
    rw [dumpUnits, hrest, if_neg (by simp [length_unicodeEscape]), if_neg h₉, List.append_assoc]
    have hc := c.isLt
    exact unicodeEscape_units (by omega) (unicodeEscape_units (by omega) h)

omit [PyFloat F] in
theorem dumpString_units (s : Str) : Units (s.flatMap dumpChar) (s.flatMap dumpUnits) := by
  induction s with
  | nil => exact .nil
  | cons c s ih =>
    rw [List.flatMap_cons, List.flatMap_cons]
    exact dumpChar_units c ih

/-! ## Arrays and objects -/

theorem Items.ws {w s : Str} {xs : List (Json F)} (hw : Ws w) (h : Items s xs) :
    Items (w ++ s) xs := by
  cases h with
  | one h₁ ht h₂ =>
    rw [← List.append_assoc]
    exact .one (hw.append h₁) ht h₂
  | more h₁ ht h₂ hs =>
    rw [← List.append_assoc]
    exact .more (hw.append h₁) ht h₂ hs

theorem Members.ws {w s : Str} {kvs : List (Str × Json F)} (hw : Ws w) (h : Members s kvs) :
    Members (w ++ s) kvs := by
  cases h with
  | one h₁ hb h₂ h₃ ht h₄ =>
    rw [← List.append_assoc]
    exact .one (hw.append h₁) hb h₂ h₃ ht h₄
  | more h₁ hb h₂ h₃ ht h₄ hs =>
    rw [← List.append_assoc]
    exact .more (hw.append h₁) hb h₂ h₃ ht h₄ hs

omit [PyFloat F] in
theorem join_cons_cons (sep t t' : Str) (ts : List Str) :
    join sep (t :: t' :: ts) = t ++ (sep ++ join sep (t' :: ts)) := by
  simp [join, List.intercalate]

theorem ws_space : Ws (str " ") := by
  intro c hc
  rw [List.mem_singleton.mp hc]
  rfl

/-- Values with commas between them. -/
theorem items_join {t : Str} {ts : List Str} {x : Json F} {xs : List (Json F)}
    (h : List.Forall₂ Val (t :: ts) (x :: xs)) : Items (join ", " (t :: ts)) (x :: xs) := by
  induction ts generalizing t x xs with
  | nil =>
    obtain ⟨hx, hxs⟩ := List.forall₂_cons.mp h
    cases hxs
    have hone := Items.one .nil hx .nil
    simpa [join, List.intercalate] using hone
  | cons t' ts ih =>
    obtain ⟨hx, hxs⟩ := List.forall₂_cons.mp h
    cases xs with
    | nil => cases hxs
    | cons x' xs =>
      have hmore := Items.more .nil hx .nil ((ih hxs).ws ws_space)
      rw [join_cons_cons]
      exact hmore

/-- The text of a member, and what it denotes. -/
def MemberVal (m : Str × Str) (kv : Str × Json F) : Prop :=
  kv.1 = joinPairs (m.1.flatMap dumpUnits) ∧ Val m.2 kv.2

/-- A member as `json.dumps` writes it. -/
def dumpMember (kv : Str × Str) : Str := dumpString kv.1 ++ str ": " ++ kv.2

/-- Members with commas between them. -/
theorem members_join {m : Str × Str} {ms : List (Str × Str)} {kv : Str × Json F}
    {kvs : List (Str × Json F)} (h : List.Forall₂ MemberVal (m :: ms) (kv :: kvs)) :
    Members (join ", " ((m :: ms).map dumpMember)) (kv :: kvs) := by
  induction ms generalizing m kv kvs with
  | nil =>
    obtain ⟨⟨hk, hv⟩, hkvs⟩ := List.forall₂_cons.mp h
    cases hkvs
    have hone := Members.one .nil (dumpString_units m.1) .nil ws_space hv .nil
    rw [← hk] at hone
    convert hone using 1
    simp [join, List.intercalate, dumpMember, dumpString, quoted, str]
  | cons m' ms ih =>
    obtain ⟨⟨hk, hv⟩, hkvs⟩ := List.forall₂_cons.mp h
    cases kvs with
    | nil => cases hkvs
    | cons kv' kvs =>
      have hmore := Members.more .nil (dumpString_units m.1) .nil ws_space hv .nil
        ((ih hkvs).ws ws_space)
      rw [← hk] at hmore
      convert hmore using 1
      rw [List.map_cons, List.map_cons, join_cons_cons]
      simp [dumpMember, dumpString, quoted, str]

omit [PyFloat F] in
theorem exists_forall₂ {α β : Type} {R : α → β → Prop} {as : List α} (h : ∀ a ∈ as, ∃ b, R a b) :
    ∃ bs, List.Forall₂ R as bs := by
  induction as with
  | nil => exact ⟨[], .nil⟩
  | cons a as ih =>
    obtain ⟨b, hb⟩ := h a List.mem_cons_self
    obtain ⟨bs, hbs⟩ := ih fun a' ha' => h a' (List.mem_cons_of_mem _ ha')
    exact ⟨b :: bs, .cons hb hbs⟩

theorem array_val {ts : List Str} {xs : List (Json F)} (h : List.Forall₂ Val ts xs) :
    Val (chr '[' :: (join ", " ts ++ [chr ']'])) (.array xs) := by
  cases h with
  | nil => exact .emptyArray .nil
  | cons hx hxs => exact .array (items_join (.cons hx hxs))

theorem object_val {ms : List (Str × Str)} {kvs : List (Str × Json F)}
    (h : List.Forall₂ MemberVal ms kvs) :
    Val (chr '{' :: (join ", " (ms.map dumpMember) ++ [chr '}'])) (.object (dictOf kvs)) := by
  cases h with
  | nil => exact .emptyObject .nil
  | cons hm hms => exact .object (members_join (.cons hm hms))

/-! ## Values -/

variable (sort : Bool)

theorem mem_sortMembers {α : Type} {kvs : List (Str × α)} {kv : Str × α} :
    kv ∈ sortMembers kvs ↔ kv ∈ kvs :=
  List.mem_insertionSort _

mutual
/-- `json.dumps` writes JSON. -/
theorem dumpsWith_text [LawfulFloat F] : ∀ v : Json F, IsText F (dumpsWith sort v)
  | null => ⟨_, .constant .null⟩
  | bool true => ⟨_, .constant .true⟩
  | bool false => ⟨_, .constant .false⟩
  | int i => ⟨_, .number (intRepr_number i)⟩
  | float x => ⟨_, LawfulFloat.jsonRepr_val x⟩
  | string s => ⟨_, .string (dumpString_units s)⟩
  | array xs => by
    obtain ⟨ys, hys⟩ := exists_forall₂ (dumpItems_text xs)
    exact ⟨_, array_val hys⟩
  | object kvs => by
    have hall : ∀ kv ∈ (if sort then sortMembers (dumpMembers sort kvs) else dumpMembers sort kvs),
        ∃ kv', MemberVal (F := F) kv kv' := by
      intro kv hkv
      have hmem : kv ∈ dumpMembers sort kvs := by
        split at hkv
        · exact mem_sortMembers.mp hkv
        · exact hkv
      obtain ⟨v, hv⟩ := dumpMembers_text kvs kv hmem
      exact ⟨(_, v), rfl, hv⟩
    obtain ⟨kvs', hkvs'⟩ := exists_forall₂ hall
    rw [dumpsWith]
    exact ⟨_, object_val hkvs'⟩

theorem dumpItems_text [LawfulFloat F] :
    ∀ xs : List (Json F), ∀ t ∈ dumpItems sort xs, IsText F t
  | [] => by intro t ht; cases ht
  | x :: xs => by
    intro t ht
    rcases List.mem_cons.mp ht with rfl | ht
    · exact dumpsWith_text x
    · exact dumpItems_text xs t ht

theorem dumpMembers_text [LawfulFloat F] :
    ∀ kvs : List (Str × Json F), ∀ kv ∈ dumpMembers sort kvs, IsText F kv.2
  | [] => by intro kv hkv; cases hkv
  | (k, v) :: kvs => by
    intro kv hkv
    rcases List.mem_cons.mp hkv with rfl | hkv
    · exact dumpsWith_text v
    · exact dumpMembers_text kvs kv hkv
end

/-! ## Texts side by side -/

/-- A JSON text ends where it ends, whatever follows. -/
theorem IsText.cancel {t t' r r' : Str} (h : IsText F t) (h' : IsText F t')
    (hr : HeadNot continuesNumber r) (hr' : HeadNot continuesNumber r') (he : t ++ r = t' ++ r') :
    t = t' ∧ r = r' := by
  obtain ⟨v, hv⟩ := h
  obtain ⟨v', hv'⟩ := h'
  have hs := hv.scan (n := 2 * (t.length + t'.length) + 1) (by omega) hr
  have hs' := hv'.scan (n := 2 * (t.length + t'.length) + 1) (by omega) hr'
  rw [he, hs'] at hs
  cases hs
  exact ⟨List.append_cancel_right he, rfl⟩

/-- No character of the string is escaped. -/
def PlainString (s : Str) : Prop := ∀ c ∈ s, dumpChar c = [c]

omit [PyFloat F] in
theorem flatMap_dumpChar_plain {n : Str} (hn : PlainString n) : n.flatMap dumpChar = n := by
  induction n with
  | nil => rfl
  | cons c n ih =>
    rw [List.flatMap_cons, hn c List.mem_cons_self,
      ih fun d hd => hn d (List.mem_cons_of_mem _ hd)]
    rfl

omit [PyFloat F] in
theorem dumpChar_head (c : CodePoint) : dumpChar c = [c] ∨ (dumpChar c).head? = some (chr '\\') := by
  unfold dumpChar unicodeEscape
  split_ifs <;> simp [str]

omit [PyFloat F] in
theorem flatMap_dumpChar_eq {s n : Str} (hn : PlainString n) (h : s.flatMap dumpChar = n) : s = n := by
  induction s generalizing n with
  | nil => exact h
  | cons c s ih =>
    rw [List.flatMap_cons] at h
    rcases dumpChar_head c with hc | hc
    · rw [hc] at h
      cases n with
      | nil => cases h
      | cons d n =>
        injection h with h₁ h₂
        rw [h₁, ih (fun e he => hn e (List.mem_cons_of_mem _ he)) h₂]
    · cases hd : dumpChar c with
      | nil => rw [hd] at hc; cases hc
      | cons d ds =>
        rw [hd] at hc h
        cases hc
        exact absurd (hn (chr '\\') (by rw [← h]; simp)) (by decide)

/-- A plain string is written by that string only. -/
theorem dumpsWith_eq_dumpString [LawfulFloat F] {v : Json F} {n : Str} (hn : PlainString n)
    (h : dumpsWith sort v = dumpString n) : v = .string n := by
  have hnumber : ∀ {t : Str} {w : Json F}, Number t w → t ≠ dumpString n := by
    intro t w ht he
    obtain ⟨c, cs, rfl, hc⟩ := ht.head
    cases he
    rcases hc with hc | hc <;> revert hc <;> decide
  cases v with
  | null => cases h
  | bool b => cases b <;> cases h
  | int i =>
    exact absurd h (hnumber (intRepr_number i))
  | float x =>
    have hx := LawfulFloat.jsonRepr_val x
    generalize ht : PyFloat.jsonRepr x = t at hx
    rw [dumpsWith, ht] at h
    cases hx with
    | constant hc => cases hc <;> cases h
    | number hnum => exact absurd h (hnumber hnum)
  | string s =>
    have hq : dumpString s = dumpString n := h
    unfold dumpString at hq
    injection hq with _ hq
    have hb : s.flatMap dumpChar = n.flatMap dumpChar := List.append_cancel_right hq
    rw [flatMap_dumpChar_eq hn (hb.trans (flatMap_dumpChar_plain hn))]
  | array xs => cases h
  | object kvs => rw [dumpsWith] at h; cases h

end Texts

/-! ## Floats known by their literals -/

/-- The text is the literal of a float, from its first to its last character. -/
def isFloatLiteral (s : Str) : Bool :=
  match scanNumber (F := FloatText) s with
  | some (.float x, []) => x.text == s
  | _ => false

/-- A float known by a literal that denotes it, or none of these. -/
inductive FloatLiteral where
  | literal (s : Str) (h : isFloatLiteral s = true)
  | nan
  | inf
  | negInf
deriving DecidableEq

def FloatLiteral.ofText (s : Str) : FloatLiteral :=
  if h : isFloatLiteral s = true then .literal s h else .nan

def FloatLiteral.text : FloatLiteral → Str
  | .literal s _ => s
  | .nan => "nan"
  | .inf => "inf"
  | .negInf => "-inf"

instance : PyFloat FloatLiteral where
  maxNesting := 990
  ofLiteral := FloatLiteral.ofText
  nan := .nan
  inf := .inf
  negInf := .negInf
  ofInt i := some (.ofText (intRepr i ++ ".0"))
  isZero x := x.text = "0.0" || x.text = "-0.0"
  repr x := x.text
  jsonRepr
    | .literal s _ => s
    | .nan => "NaN"
    | .inf => "Infinity"
    | .negInf => "-Infinity"
  fixed2 x := x.text
  fixed2Grouped x := x.text

theorem isFloatLiteral_number {s : Str} (h : isFloatLiteral s = true) :
    Number s (.float (FloatLiteral.literal s h)) := by
  have hscan : scanNumber (F := FloatText) s = some (.float ⟨s⟩, []) := by
    unfold isFloatLiteral at h
    split at h
    · next x hx =>
      rw [hx, ← eq_of_beq h]
    · cases h
  obtain ⟨t, ht, hnumber⟩ := scanNumber_sound hscan
  rw [List.append_nil] at ht
  obtain ⟨sign, int, frac, exp, rfl, hsign, hint, hfrac, hexp, hv⟩ := hnumber
  subst ht
  refine ⟨sign, int, frac, exp, rfl, hsign, hint, hfrac, hexp, ?_⟩
  have hfloat : ¬ (frac = [] ∧ exp = []) := by
    intro hno
    rw [numberVal, if_pos hno] at hv
    cases hv
  rw [numberVal, if_neg hfloat]
  exact congrArg Json.float (dif_pos h).symm

instance : LawfulFloat FloatLiteral where
  jsonRepr_val
    | .literal _ h => .number (isFloatLiteral_number h)
    | .nan => .constant .nan
    | .inf => .constant .inf
    | .negInf => .constant .negInf

end Json

end Py
