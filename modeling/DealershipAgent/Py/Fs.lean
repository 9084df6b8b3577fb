import DealershipAgent.Py.Exc

/-!
# `os.fsencode` and `os.fsdecode`

The texts of the operating system are bytes. Python reads them as UTF-8 with the error handler
`surrogateescape`: a byte that is in no UTF-8 sequence becomes one of the surrogates U+DC80 to U+DCFF, and
such a surrogate is written as that byte again.

* `fsencode_fsdecode`: what was read is written back as it was.
* `fsdecode_fsencode_iff`: what is written is read back if and only if no UTF-8 sequence is spelled with
  escaped bytes in it.
* `Passes`: a text that comes back from the environment of a process.
-/

namespace Py

/-- The bytes of a text of the operating system. -/
abbrev Bytes := List UInt8

/-- The character of a code point; a surrogate is none. -/
def charOf (c : CodePoint) : Option Char :=
  if h : c.val.isValidChar then some (Char.ofNatAux c.val h) else none

/-- The surrogate that stands for a byte. -/
def escapeByte (b : UInt8) : CodePoint := codePoint (0xdc00 + b.toNat)

/-- A surrogate that stands for a byte which is no ASCII. -/
def isEscaped (c : CodePoint) : Bool := 0xdc80 ≤ c.val && c.val ≤ 0xdcff

/-- Neither a surrogate nor one that stands for no byte. -/
def isEncodable (c : CodePoint) : Bool := (charOf c).isSome || isEscaped c

def fsencodeChar (c : CodePoint) : Bytes :=
  match charOf c with
  | some d => String.utf8EncodeChar d
  | none => [UInt8.ofNat (c.val - 0xdc00)]

/-- `os.fsencode`. -/
def fsencode (s : Str) : Except Exc Bytes :=
  if s.all isEncodable then .ok (s.flatMap fsencodeChar)
  else .error ⟨.other "UnicodeEncodeError", "surrogates not allowed"⟩

/-- The UTF-8 sequence that the bytes start with. -/
def firstChar (bs : Bytes) : Option Char := ByteArray.utf8DecodeChar? bs.toByteArray 0

/-- `os.fsdecode`, where the first bytes were read already. -/
def fsdecodeFrom : Nat → Bytes → Str
  | _, [] => []
  | k + 1, _ :: bs => fsdecodeFrom k bs
  | 0, b :: bs =>
    match firstChar (b :: bs) with
    | some c => chr c :: fsdecodeFrom (c.utf8Size - 1) bs
    | none => escapeByte b :: fsdecodeFrom 0 bs

/-- `os.fsdecode`. -/
def fsdecode (bs : Bytes) : Str := fsdecodeFrom 0 bs

/-! ## One code point -/

section Char

theorem charOf_chr (c : Char) : charOf (chr c) = some c := by
  have h : (chr c).val.isValidChar := c.valid
  rw [charOf, dif_pos h, Option.some.injEq]
  exact Char.ext (UInt32.toNat_inj.mp rfl)

theorem eq_chr_of_charOf {c : CodePoint} {d : Char} (h : charOf c = some d) : c = chr d := by
  by_cases hc : c.val.isValidChar
  · rw [charOf, dif_pos hc] at h
    cases h
    rfl
  · rw [charOf, dif_neg hc] at h
    cases h

theorem charOf_eq_none {c : CodePoint} : charOf c = none ↔ 0xd800 ≤ c.val ∧ c.val ≤ 0xdfff := by
  have hlt := c.isLt
  by_cases h : c.val.isValidChar
  · rw [charOf, dif_pos h]
    refine iff_of_false (Option.some_ne_none _) ?_
    rcases h with h | h <;> omega
  · rw [charOf, dif_neg h]
    refine iff_of_true rfl ?_
    unfold Nat.isValidChar at h
    omega

theorem escapeByte_val (b : UInt8) : (escapeByte b).val = 0xdc00 + b.toNat := by
  have hb := b.toNat_lt
  exact Nat.mod_eq_of_lt (by omega)

theorem charOf_escapeByte (b : UInt8) : charOf (escapeByte b) = none := by
  have hval := escapeByte_val b
  have hb := b.toNat_lt
  rw [charOf_eq_none, hval]
  omega

theorem escapeByte_ne_chr (b : UInt8) (c : Char) : escapeByte b ≠ chr c := by
  intro h
  have := charOf_escapeByte b
  rw [h, charOf_chr] at this
  cases this

theorem fsencodeChar_chr (c : Char) : fsencodeChar (chr c) = String.utf8EncodeChar c := by
  rw [fsencodeChar, charOf_chr]

theorem fsencodeChar_escapeByte (b : UInt8) : fsencodeChar (escapeByte b) = [b] := by
  rw [fsencodeChar, charOf_escapeByte, escapeByte_val]
  simp

/-- An encodable code point is a character or stands for a byte. -/
theorem isEncodable_cases {c : CodePoint} (h : isEncodable c = true) :
    (∃ d, c = chr d) ∨ ∃ b : UInt8, 0x80 ≤ b.toNat ∧ c = escapeByte b := by
  rcases Bool.or_eq_true_iff.mp h with h | h
  · obtain ⟨d, hd⟩ := Option.isSome_iff_exists.mp h
    exact .inl ⟨d, eq_chr_of_charOf hd⟩
  · simp only [isEscaped, Bool.and_eq_true, decide_eq_true_eq] at h
    have hb : (UInt8.ofNat (c.val - 0xdc00)).toNat = c.val - 0xdc00 := by
      rw [UInt8.toNat_ofNat']
      omega
    refine .inr ⟨UInt8.ofNat (c.val - 0xdc00), by omega, ?_⟩
    rw [Fin.ext_iff, escapeByte_val, hb]
    omega

theorem isEncodable_chr (c : Char) : isEncodable (chr c) = true := by
  rw [isEncodable, charOf_chr]
  rfl

theorem isEncodable_escapeByte {b : UInt8} (h : 0x80 ≤ b.toNat) :
    isEncodable (escapeByte b) = true := by
  have hb := b.toNat_lt
  rw [isEncodable, isEscaped, escapeByte_val]
  simp
  omega

end Char

/-! ## UTF-8 sequences -/

section Sequences

variable {c d : Char} {b : UInt8} {bs rest : Bytes}

theorem utf8EncodeChar_ne_nil (c : Char) : String.utf8EncodeChar c ≠ [] := by
  intro h
  have := congrArg List.length h
  rw [String.length_utf8EncodeChar] at this
  exact absurd this (Nat.ne_of_gt c.utf8Size_pos)

theorem firstChar_append (c : Char) (rest : Bytes) :
    firstChar (String.utf8EncodeChar c ++ rest) = some c := by
  rw [firstChar, List.toByteArray_append]
  exact ByteArray.utf8DecodeChar?_utf8EncodeChar_append

theorem firstChar_eq_some : firstChar bs = some c ↔ String.utf8EncodeChar c <+: bs := by
  refine ⟨fun h => ?_, fun ⟨rest, h⟩ => h ▸ firstChar_append c rest⟩
  obtain ⟨l, hl⟩ := ByteArray.exists_of_utf8DecodeChar?_eq_some h
  refine ⟨l.data.toList, ?_⟩
  have := congrArg (fun x : ByteArray => x.data.toList) hl
  simpa using this.symm

/-- Of the bytes of a sequence only the first one starts one. -/
theorem utf8EncodeChar_cons (c : Char) : ∃ b bs, String.utf8EncodeChar c = b :: bs ∧
    b.IsUTF8FirstByte ∧ ∀ t ∈ bs, ¬ t.IsUTF8FirstByte := by
  obtain ⟨b, bs, h⟩ := List.exists_cons_of_ne_nil (utf8EncodeChar_ne_nil c)
  refine ⟨b, bs, h, ?_, fun t ht => ?_⟩
  · have hpos : 0 < (String.utf8EncodeChar c).length := by simp [h]
    have h0 : (String.utf8EncodeChar c)[0] = b := by simp [h]
    rw [← h0, UInt8.isUTF8FirstByte_getElem_utf8EncodeChar]
  · obtain ⟨i, hi, rfl⟩ := List.getElem_of_mem ht
    have hlt : i + 1 < (String.utf8EncodeChar c).length := by simp [h, hi]
    have hi' : (String.utf8EncodeChar c)[i + 1] = bs[i] := by simp [h]
    rw [← hi', UInt8.isUTF8FirstByte_getElem_utf8EncodeChar]
    omega

/-- An ASCII byte is a sequence of its own. -/
theorem firstChar_ascii (h : b.toNat < 0x80) : firstChar (b :: bs) = some (Char.ofNat b.toNat) := by
  have hval : (Char.ofNat b.toNat).val.toNat = b.toNat := by
    have hvalid : b.toNat.isValidChar := .inl (by omega)
    rw [Char.ofNat, dif_pos hvalid]
    rfl
  rw [firstChar_eq_some, String.utf8EncodeChar]
  simp only [hval]
  rw [if_pos (by omega)]
  exact ⟨bs, by simp⟩

/-- Only U+0000 is written with a zero byte. -/
theorem zero_mem_utf8EncodeChar : 0 ∈ String.utf8EncodeChar c ↔ c = '\x00' := by
  have hzero : ∀ n, 0 < n % 256 → (0 : UInt8) ≠ UInt8.ofNat n := by
    intro n hn h
    have := congrArg UInt8.toNat h
    rw [UInt8.toNat_ofNat'] at this
    simp at this
    omega
  refine ⟨fun h => ?_, fun h => by subst h; decide⟩
  have hlt := c.val.toNat_lt
  rw [String.utf8EncodeChar] at h
  split at h
  · rw [List.mem_singleton] at h
    by_contra hc
    refine hzero _ ?_ h
    have hne : c.val.toNat ≠ 0 := fun h0 => hc (Char.ext (UInt32.toNat_inj.mp h0))
    omega
  · exfalso
    split at h
    · simp only [List.mem_cons, List.not_mem_nil, or_false] at h
      rcases h with h | h <;> exact hzero _ (by omega) h
    split at h
    · simp only [List.mem_cons, List.not_mem_nil, or_false] at h
      rcases h with h | h | h <;> exact hzero _ (by omega) h
    · simp only [List.mem_cons, List.not_mem_nil, or_false] at h
      rcases h with h | h | h | h <;> exact hzero _ (by omega) h

end Sequences

/-! ## Texts -/

section Texts

variable {s : Str} {b : UInt8} {bs : Bytes}

theorem fsdecodeFrom_eq (k : Nat) (bs : Bytes) : fsdecodeFrom k bs = fsdecode (bs.drop k) := by
  induction k generalizing bs with
  | zero => rfl
  | succ k ih =>
    cases bs with
    | nil => rfl
    | cons b bs => exact ih bs

theorem fsdecode_append (c : Char) (bs : Bytes) :
    fsdecode (String.utf8EncodeChar c ++ bs) = chr c :: fsdecode bs := by
  have hfirst := firstChar_append c bs
  have hlength := String.length_utf8EncodeChar c
  obtain ⟨b, tail, h, -⟩ := utf8EncodeChar_cons c
  rw [h] at hfirst hlength
  rw [h, List.cons_append] at *
  rw [fsdecode, fsdecodeFrom, hfirst]
  simp only
  rw [fsdecodeFrom_eq, ← hlength, List.length_cons, Nat.add_sub_cancel, List.drop_left]

theorem fsdecode_escape (h : firstChar (b :: bs) = none) :
    fsdecode (b :: bs) = escapeByte b :: fsdecode bs := by
  rw [fsdecode, fsdecodeFrom, h]
  rfl

/-- Bytes are read sequence by sequence, or byte by byte where there is none. -/
theorem bytes_induction {P : Bytes → Prop} (nil : P [])
    (char : ∀ c bs, P bs → P (String.utf8EncodeChar c ++ bs))
    (escape : ∀ b bs, firstChar (b :: bs) = none → P bs → P (b :: bs)) (bs : Bytes) : P bs := by
  induction hn : bs.length using Nat.strong_induction_on generalizing bs with
  | h n ih =>
    cases bs with
    | nil => exact nil
    | cons b bs =>
      cases hfirst : firstChar (b :: bs) with
      | none => exact escape b bs hfirst (ih bs.length (by rw [← hn]; simp) bs rfl)
      | some c =>
        obtain ⟨rest, hrest⟩ := firstChar_eq_some.mp hfirst
        rw [← hrest]
        refine char c rest (ih rest.length ?_ rest rfl)
        have hlength := congrArg List.length hrest
        have hpos := c.utf8Size_pos
        rw [List.length_append, String.length_utf8EncodeChar] at hlength
        omega

theorem fsdecode_encodable (bs : Bytes) : (fsdecode bs).all isEncodable = true := by
  induction bs using bytes_induction with
  | nil => rfl
  | char c bs ih => simp [fsdecode_append, isEncodable_chr, ih]
  | escape b bs hfirst ih =>
    have hb : 0x80 ≤ b.toNat := by
      by_contra hlow
      rw [firstChar_ascii (by omega)] at hfirst
      cases hfirst
    simp [fsdecode_escape hfirst, isEncodable_escapeByte hb, ih]

/-- What was read is written back as it was. -/
theorem fsencode_fsdecode (bs : Bytes) : fsencode (fsdecode bs) = .ok bs := by
  rw [fsencode, if_pos (fsdecode_encodable bs)]
  congr 1
  induction bs using bytes_induction with
  | nil => rfl
  | char c bs ih => rw [fsdecode_append, List.flatMap_cons, fsencodeChar_chr, ih]
  | escape b bs hfirst ih =>
    rw [fsdecode_escape hfirst, List.flatMap_cons, fsencodeChar_escapeByte, ih, List.singleton_append]

theorem fsdecode_eq_nil : fsdecode bs = [] ↔ bs = [] := by
  induction bs using bytes_induction with
  | nil => exact iff_of_true rfl rfl
  | char c bs ih => simp [fsdecode_append]
  | escape b bs hfirst ih => simp [fsdecode_escape hfirst]

theorem flatMap_escapeByte (bs : Bytes) : (bs.map escapeByte).flatMap fsencodeChar = bs := by
  induction bs with
  | nil => rfl
  | cons b bs ih =>
    rw [List.map_cons, List.flatMap_cons, fsencodeChar_escapeByte, ih, List.singleton_append]

/-- Bytes that start no sequence were written by escaped bytes. -/
theorem map_escapeByte_prefix (hs : s.all isEncodable = true) (htail : ∀ t ∈ bs, ¬ t.IsUTF8FirstByte)
    (h : bs <+: s.flatMap fsencodeChar) : bs.map escapeByte <+: s := by
  induction bs generalizing s with
  | nil => exact List.nil_prefix
  | cons t bs ih =>
    cases s with
    | nil => exact absurd h.length_le (by simp)
    | cons c s =>
      rw [List.all_cons, Bool.and_eq_true] at hs
      rw [List.flatMap_cons] at h
      rcases isEncodable_cases hs.1 with ⟨d, rfl⟩ | ⟨b, -, rfl⟩
      · obtain ⟨b, tail, hd, hfirst, -⟩ := utf8EncodeChar_cons d
        rw [fsencodeChar_chr, hd, List.cons_append, List.cons_prefix_cons] at h
        exact absurd (h.1 ▸ hfirst) (htail t (by simp))
      · rw [fsencodeChar_escapeByte, List.singleton_append, List.cons_prefix_cons] at h
        rw [List.map_cons, h.1, List.cons_prefix_cons]
        exact ⟨rfl, ih hs.2 (fun t ht => htail t (by simp [ht])) h.2⟩

/-- What is written is read back if and only if escaped bytes spell no sequence in it. -/
theorem fsdecode_fsencode_iff (hs : s.all isEncodable = true) :
    fsdecode (s.flatMap fsencodeChar) = s ↔
      ∀ d, ¬ (String.utf8EncodeChar d).map escapeByte <:+: s := by
  induction s with
  | nil => simp [fsdecode_eq_nil.mpr rfl]
  | cons c s ih =>
    rw [List.all_cons, Bool.and_eq_true] at hs
    have ih := ih hs.2
    rcases isEncodable_cases hs.1 with ⟨d, rfl⟩ | ⟨b, -, rfl⟩
    · rw [List.flatMap_cons, fsencodeChar_chr, fsdecode_append, List.cons.injEq, ih]
      simp only [true_and]
      refine forall_congr' fun d' => not_congr ?_
      rw [List.infix_cons_iff]
      refine ⟨.inr, fun h => h.resolve_left fun hpre => ?_⟩
      obtain ⟨b, tail, hd', -⟩ := utf8EncodeChar_cons d'
      rw [hd', List.map_cons, List.cons_prefix_cons] at hpre
      exact escapeByte_ne_chr b d hpre.1
    · rw [List.flatMap_cons, fsencodeChar_escapeByte, List.singleton_append]
      cases hfirst : firstChar (b :: s.flatMap fsencodeChar) with
      | some d =>
        obtain ⟨b', tail, hd, -, htail⟩ := utf8EncodeChar_cons d
        obtain ⟨rest, hrest⟩ := firstChar_eq_some.mp hfirst
        have hspelled : (String.utf8EncodeChar d).map escapeByte <+: escapeByte b :: s := by
          have hpre := firstChar_eq_some.mp hfirst
          rw [hd, List.cons_prefix_cons] at hpre
          rw [hd, List.map_cons, hpre.1, List.cons_prefix_cons]
          exact ⟨rfl, map_escapeByte_prefix hs.2 htail hpre.2⟩
        rw [← hrest, fsdecode_append]
        refine iff_of_false (fun h => ?_) fun h => h d hspelled.isInfix
        exact escapeByte_ne_chr b d (List.cons.inj h).1.symm
      | none =>
        rw [fsdecode_escape hfirst, List.cons.injEq, ih]
        simp only [true_and]
        refine forall_congr' fun d => not_congr ?_
        rw [List.infix_cons_iff]
        refine ⟨.inr, fun h => h.resolve_left fun ⟨rest, hrest⟩ => ?_⟩
        have hspelled := congrArg (List.flatMap fsencodeChar) hrest
        rw [List.flatMap_append, flatMap_escapeByte, List.flatMap_cons, fsencodeChar_escapeByte,
          List.singleton_append] at hspelled
        rw [← hspelled, firstChar_append] at hfirst
        cases hfirst

end Texts

/-! ## The environment of a process -/

/-- The value of a variable: a zero byte would end it. -/
structure EnvValue where
  bytes : Bytes
  noNul : 0 ∉ bytes
deriving DecidableEq, Repr

/-- The environment of a process. -/
abbrev Environ := List (Str × EnvValue)

/-- A dict of variables. -/
abbrev EnvDict := List (Str × Str)

/-- `os.environ` -/
def Environ.dict (environ : Environ) : EnvDict := environ.map fun (name, v) => (name, fsdecode v.bytes)

/-- `env[name] = value` -/
def EnvDict.set (env : EnvDict) (name value : Str) : EnvDict :=
  env.filter (fun kv => kv.1 ≠ name) ++ [(name, value)]

/-- A value for a child process. -/
def envValue (v : Str) : Except Exc EnvValue := do
  let bytes ← fsencode v
  if h : 0 ∈ bytes then .error ⟨.valueError, "embedded null byte"⟩ else return ⟨bytes, h⟩

/-- The environment of a child process that is started with the variables `env`. -/
def spawnEnviron (env : EnvDict) : Except Exc Environ :=
  env.mapM fun (name, v) => do return (name, ← envValue v)

/-- The text comes back from the environment of a process. -/
def Passes (s : Str) : Prop :=
  codePoint 0 ∉ s ∧ s.all isEncodable = true ∧ ∀ d, ¬ (String.utf8EncodeChar d).map escapeByte <:+: s

section Environ

variable {env : EnvDict} {child : Environ} {s k : Str} {v : EnvValue}

theorem EnvDict.lookup_set (env : EnvDict) (name value k : Str) :
    (env.set name value).lookup k = if k = name then some value else env.lookup k := by
  have hfilter : (env.filter fun kv => kv.1 ≠ name).lookup k = if k = name then none else env.lookup k := by
    induction env with
    | nil => simp
    | cons kv env ih =>
      rw [List.filter_cons]
      by_cases hk : k = kv.1
      · subst hk
        split
        · next hname =>
          rw [decide_eq_true_eq] at hname
          rw [List.lookup_cons_self, if_neg hname, List.lookup_cons_self]
        · next hname =>
          rw [decide_eq_true_eq, not_not] at hname
          rw [ih, if_pos hname, if_pos hname]
      · have hne : (k == kv.1) = false := by simpa using hk
        split
        · rw [List.lookup_cons, hne, ih, List.lookup_cons, hne]
        · rw [ih, List.lookup_cons, hne]
  rw [EnvDict.set, List.lookup_append, hfilter]
  by_cases hk : k = name
  · subst hk
    simp
  · have hne : (k == name) = false := by simpa using hk
    simp [hk, List.lookup_cons, hne]

theorem EnvDict.mem_set {name value : Str} {kv : Str × Str} (h : kv ∈ env.set name value) :
    kv ∈ env ∨ kv = (name, value) := by
  rcases List.mem_append.mp h with h | h
  · exact .inl (List.mem_filter.mp h).1
  · exact .inr (List.mem_singleton.mp h)

theorem fsencode_ne_nil (hs : s.all isEncodable = true) (hne : s ≠ []) :
    s.flatMap fsencodeChar ≠ [] := by
  obtain ⟨c, cs, rfl⟩ := List.exists_cons_of_ne_nil hne
  rw [List.all_cons, Bool.and_eq_true] at hs
  rcases isEncodable_cases hs.1 with ⟨d, rfl⟩ | ⟨b, -, rfl⟩
  · simp [fsencodeChar_chr]
  · simp [fsencodeChar_escapeByte]

theorem zero_mem_flatMap (hs : s.all isEncodable = true) :
    0 ∈ s.flatMap fsencodeChar ↔ codePoint 0 ∈ s := by
  have hchar : ∀ c ∈ s, (0 ∈ fsencodeChar c ↔ codePoint 0 = c) := by
    intro c hc
    rcases isEncodable_cases (List.all_eq_true.mp hs c hc) with ⟨d, rfl⟩ | ⟨b, hb, rfl⟩
    · rw [fsencodeChar_chr, zero_mem_utf8EncodeChar]
      exact eq_comm.trans (chr_inj (c := '\x00')).symm
    · rw [fsencodeChar_escapeByte, List.mem_singleton]
      refine iff_of_false (fun h => by rw [← h] at hb; exact absurd hb (by decide)) fun h => ?_
      exact escapeByte_ne_chr b '\x00' h.symm
  rw [List.mem_flatMap]
  exact ⟨fun ⟨c, hc, h⟩ => (hchar c hc).mp h ▸ hc, fun h => ⟨_, h, (hchar _ h).mpr rfl⟩⟩

theorem envValue_eq_ok :
    envValue s = .ok v ↔ s.all isEncodable = true ∧ v.bytes = s.flatMap fsencodeChar := by
  obtain ⟨bytes, hzero⟩ := v
  unfold envValue fsencode
  by_cases hs : s.all isEncodable = true
  · rw [if_pos hs]
    simp only [bind, Except.bind, pure, Except.pure, hs, true_and]
    split
    · next h => exact iff_of_false (fun h' => by cases h') fun h' => hzero (h' ▸ h)
    · rw [Except.ok.injEq, EnvValue.mk.injEq]
      exact eq_comm
  · rw [if_neg hs]
    simp [hs, bind, Except.bind]

/-- A variable that was read is written back as it was. -/
theorem envValue_fsdecode (v : EnvValue) : envValue (fsdecode v.bytes) = .ok v := by
  have hback := fsencode_fsdecode v.bytes
  rw [fsencode, if_pos (fsdecode_encodable _)] at hback
  exact envValue_eq_ok.mpr ⟨fsdecode_encodable _, (Except.ok.inj hback).symm⟩

/-- A child reads the text that it was given if and only if it passes. -/
theorem envValue_passes : (∃ v, envValue s = .ok v ∧ fsdecode v.bytes = s) ↔ Passes s := by
  constructor
  · rintro ⟨v, hv, hread⟩
    obtain ⟨hs, hbytes⟩ := envValue_eq_ok.mp hv
    have hnul := v.noNul
    rw [hbytes, zero_mem_flatMap hs] at hnul
    rw [hbytes, fsdecode_fsencode_iff hs] at hread
    exact ⟨hnul, hs, hread⟩
  · rintro ⟨hnul, hs, hread⟩
    rw [← zero_mem_flatMap hs] at hnul
    exact ⟨⟨_, hnul⟩, envValue_eq_ok.mpr ⟨hs, rfl⟩, (fsdecode_fsencode_iff hs).mpr hread⟩

/-- A text without U+0000 and surrogates passes. -/
theorem passes_of_chars (hnul : codePoint 0 ∉ s) (h : ∀ c ∈ s, (charOf c).isSome) : Passes s := by
  refine ⟨hnul, List.all_eq_true.mpr fun c hc => by simp [isEncodable, h c hc], fun d hinfix => ?_⟩
  obtain ⟨b, bs, hd, -⟩ := utf8EncodeChar_cons d
  have hmem : escapeByte b ∈ s := hinfix.subset (by simp [hd])
  have := h _ hmem
  rw [charOf_escapeByte] at this
  cases this

theorem passes_of_ascii (h : s.all (fun c => 0 < c.val && c.val < 0x80) = true) : Passes s := by
  have hval : ∀ c ∈ s, 0 < c.val ∧ c.val < 0x80 := by simpa using h
  refine passes_of_chars (fun hnul => absurd (hval _ hnul).1 (by decide)) fun c hc => ?_
  rw [Option.isSome_iff_ne_none, ne_eq, charOf_eq_none]
  have := hval c hc
  omega

/-- A child reads what it was given, and of no other variable. -/
theorem spawnEnviron_lookup_cases (h : spawnEnviron env = .ok child) (k : Str) :
    (env.lookup k = none ∧ child.dict.lookup k = none) ∨
    ∃ s v, env.lookup k = some s ∧ envValue s = .ok v ∧
      child.dict.lookup k = some (fsdecode v.bytes) := by
  have hall := mapM_eq_ok.mp h
  induction hall with
  | nil => exact .inl ⟨rfl, rfl⟩
  | @cons kv kv' env child hone hrest ih =>
    obtain ⟨v, hv, hkv⟩ := bind_eq_ok.mp hone
    cases hkv
    cases heq : k == kv.1 with
    | true =>
      exact .inr ⟨kv.2, v, by rw [List.lookup_cons, heq], hv, by
        rw [Environ.dict, List.map_cons, List.lookup_cons, heq]⟩
    | false =>
      rw [List.lookup_cons, heq, Environ.dict, List.map_cons, List.lookup_cons, heq]
      exact ih (mapM_eq_ok.mpr hrest)

theorem spawnEnviron_lookup (h : spawnEnviron env = .ok child) (hk : env.lookup k = some s) :
    ∃ v, envValue s = .ok v ∧ child.dict.lookup k = some (fsdecode v.bytes) := by
  rcases spawnEnviron_lookup_cases h k with ⟨hnone, -⟩ | ⟨s', v, hsome, hv, hread⟩
  · cases hk.symm.trans hnone
  · cases hk.symm.trans hsome
    exact ⟨v, hv, hread⟩

theorem spawnEnviron_lookup_none (h : spawnEnviron env = .ok child) (hk : env.lookup k = none) :
    child.dict.lookup k = none := by
  rcases spawnEnviron_lookup_cases h k with ⟨-, hread⟩ | ⟨s, v, hsome, -⟩
  · exact hread
  · cases hk.symm.trans hsome

theorem spawnEnviron_of_values (h : ∀ kv ∈ env, ∃ v, envValue kv.2 = .ok v) :
    ∃ child, spawnEnviron env = .ok child :=
  mapM_isOk fun kv hkv =>
    have ⟨v, hv⟩ := h kv hkv
    ⟨(kv.1, v), bind_eq_ok.mpr ⟨v, hv, rfl⟩⟩

theorem Environ.mem_dict {environ : Environ} {kv : Str × Str} (h : kv ∈ environ.dict) :
    ∃ v, envValue kv.2 = .ok v := by
  obtain ⟨nv, -, rfl⟩ := List.mem_map.mp h
  exact ⟨nv.2, envValue_fsdecode nv.2⟩

theorem Environ.lookup_isSome {environ : Environ} {kv : Str × Str} (h : kv ∈ environ.dict) :
    (environ.dict.lookup kv.1).isSome := by
  rw [Option.isSome_iff_ne_none, ne_eq, List.lookup_eq_none_iff]
  exact fun hno => absurd (hno kv h) (by simp)

theorem Environ.mem_of_lookup {environ : Environ} (h : environ.dict.lookup k = some s) :
    (k, s) ∈ environ.dict := by
  generalize environ.dict = env at h
  induction env with
  | nil => cases h
  | cons kv env ih =>
    rw [List.lookup_cons] at h
    split at h
    · next heq =>
      cases h
      rw [beq_iff_eq.mp heq]
      exact List.mem_cons_self
    · exact List.mem_cons_of_mem _ (ih h)

end Environ

end Py
