import DealershipAgent.Py.Regex
import DealershipAgent.Py.Json.Grammar

/-!
# `json.loads`

The scanner of the standard library, value by value, with a bound on its depth that the length of
the text always meets. `loads_iff`: it returns a value exactly on the texts that denote it, and a
text denotes at most one value (`Denotes.unique`).

`none` is a `JSONDecodeError`. The interpreter's own limits (recursion depth, digits of an integer)
are in `Limits`.
-/

namespace Py

namespace Json

/-! ## The scanner -/

def skipWs (s : Str) : Str := s.dropWhile isWs

/-- Where the scanner of a string literal is: between units, after a backslash, or after a `\u` and
these digits. -/
inductive StringMode where
  | body
  | escape
  | unicode (digits : Str)

/-- The rest of a string literal and what comes after its closing quote. -/
def scanStringFrom : StringMode → Str → Option (List StrUnit × Str)
  | _, [] => none
  | .body, c :: cs =>
    if c = chr '"' then some ([], cs)
    else if c = chr '\\' then scanStringFrom .escape cs
    else if c.val < 32 then none
    else (scanStringFrom .body cs).map fun (us, r) => (⟨false, c⟩ :: us, r)
  | .escape, c :: cs =>
    if c = chr 'u' then scanStringFrom (.unicode []) cs
    else match simpleEscape c with
      | some d => (scanStringFrom .body cs).map fun (us, r) => (⟨false, d⟩ :: us, r)
      | none => none
  | .unicode [x, y, z], c :: cs =>
    match hex4 x y z c with
    | some n => (scanStringFrom .body cs).map fun (us, r) => (⟨true, n⟩ :: us, r)
    | none => none
  | .unicode digits, c :: cs => scanStringFrom (.unicode (digits ++ [c])) cs

def scanString (s : Str) : Option (List StrUnit × Str) := scanStringFrom .body s

def scanDigits (s : Str) : Str × Str := (s.takeWhile isDigit, s.dropWhile isDigit)

def scanSign : Str → Str × Str
  | [] => ([], [])
  | c :: cs => if c = chr '-' then ([c], cs) else ([], c :: cs)

def scanInt : Str → Option (Str × Str)
  | [] => none
  | c :: cs =>
    if c = chr '0' then some ([c], cs)
    else if isDigit c then some (scanDigits (c :: cs))
    else none

def scanFrac : Str → Str × Str
  | [] => ([], [])
  | c :: cs =>
    if c = chr '.' ∧ (scanDigits cs).1 ≠ [] then (c :: (scanDigits cs).1, (scanDigits cs).2)
    else ([], c :: cs)

def scanExpSign : Str → Str × Str
  | [] => ([], [])
  | c :: cs => if c = chr '+' ∨ c = chr '-' then ([c], cs) else ([], c :: cs)

def scanExp : Str → Str × Str
  | [] => ([], [])
  | c :: cs =>
    let (sign, r) := scanExpSign cs
    if isExpMark c = true ∧ (scanDigits r).1 ≠ [] then
      (c :: (sign ++ (scanDigits r).1), (scanDigits r).2)
    else ([], c :: cs)

section Scan

variable {F : Type} [PyFloat F]

def scanNumber (s : Str) : Option (Json F × Str) := do
  let (sign, r) := scanSign s
  let (digits, r) ← scanInt r
  let (frac, r) := scanFrac r
  let (exp, r) := scanExp r
  return (numberVal sign digits frac exp, r)

def constants : List (Str × Json F) :=
  [("null", .null), ("true", .bool true), ("false", .bool false), ("NaN", .float PyFloat.nan),
    ("Infinity", .float PyFloat.inf), ("-Infinity", .float PyFloat.negInf)]

/-- A constant, read off the front of a text. -/
def scanConstant (s : Str) : Option (Json F × Str) :=
  constants.findSome? fun kv => (dropPrefix kv.1 s).map fun r => (kv.2, r)

def scanAtom (s : Str) : Option (Json F × Str) := (scanConstant s).or (scanNumber s)

mutual
/-- `scan_once`: a value at the front of the text, and the rest. -/
def scanValue : Nat → Str → Option (Json F × Str)
  | 0, _ => none
  | _ + 1, [] => none
  | n + 1, c :: cs =>
    if c = chr '"' then (scanString cs).map fun (us, r) => (.string (joinPairs us), r)
    else if c = chr '{' then
      match skipWs cs with
      | [] => none
      | d :: ds =>
        if d = chr '}' then some (.object [], ds)
        else (scanMembers n (d :: ds)).map fun (kvs, r) => (.object (dictOf kvs), r)
    else if c = chr '[' then
      match skipWs cs with
      | [] => none
      | d :: ds =>
        if d = chr ']' then some (.array [], ds)
        else (scanItems n (d :: ds)).map fun (xs, r) => (.array xs, r)
    else scanAtom (c :: cs)

/-- The values of an array and what comes after its bracket. -/
def scanItems : Nat → Str → Option (List (Json F) × Str)
  | 0, _ => none
  | n + 1, s => do
    let (v, r) ← scanValue n s
    match skipWs r with
    | [] => none
    | c :: cs =>
      if c = chr ']' then some ([v], cs)
      else if c = chr ',' then (scanItems n (skipWs cs)).map fun (xs, r) => (v :: xs, r)
      else none

/-- The members of an object and what comes after its brace. -/
def scanMembers : Nat → Str → Option (List (Str × Json F) × Str)
  | 0, _ => none
  | _ + 1, [] => none
  | n + 1, q :: s =>
    if q = chr '"' then do
      let (us, r) ← scanString s
      match skipWs r with
      | [] => none
      | k :: r =>
        if k = chr ':' then do
          let (v, r) ← scanValue n (skipWs r)
          match skipWs r with
          | [] => none
          | c :: cs =>
            if c = chr '}' then some ([(joinPairs us, v)], cs)
            else if c = chr ',' then
              (scanMembers n (skipWs cs)).map fun (kvs, r) => ((joinPairs us, v) :: kvs, r)
            else none
        else none
    else none
end

/-- `json.loads`, without its limits. -/
def loads (s : Str) : Option (Json F) :=
  match scanValue (2 * s.length + 1) (skipWs s) with
  | some (v, r) => if skipWs r = [] then some v else none
  | none => none

end Scan

/-! ## White space and strings -/

theorem skipWs_append {w : Str} (hw : Ws w) (s : Str) : skipWs (w ++ s) = skipWs s :=
  List.dropWhile_append_of_pos hw

@[simp] theorem skipWs_cons {c : CodePoint} (hc : isWs c = false) (s : Str) :
    skipWs (c :: s) = c :: s := by
  simp [skipWs, hc]

theorem skipWs_eq (s : Str) : ∃ w, Ws w ∧ s = w ++ skipWs s :=
  ⟨s.takeWhile isWs, fun _ hc => List.mem_takeWhile_imp hc, List.takeWhile_append_dropWhile.symm⟩

theorem skipWs_eq_nil {s : Str} (h : skipWs s = []) : Ws s := by
  obtain ⟨w, hw, he⟩ := skipWs_eq s
  rw [he, h, List.append_nil]
  exact hw

theorem skipWs_of_ws {s : Str} (h : Ws s) : skipWs s = [] := List.dropWhile_eq_nil_iff.mpr h

theorem scanStringFrom_plain {c : CodePoint} {cs : Str} (h₁ : c ≠ chr '"') (h₂ : c ≠ chr '\\')
    (h₃ : 32 ≤ c.val) : scanStringFrom .body (c :: cs) =
      (scanStringFrom .body cs).map fun (us, r) => (⟨false, c⟩ :: us, r) := by
  rw [scanStringFrom, if_neg h₁, if_neg h₂, if_neg (by omega)]

theorem scanStringFrom_escape {e d : CodePoint} {cs : Str} (h : simpleEscape e = some d) :
    scanStringFrom .body (chr '\\' :: e :: cs) =
      (scanStringFrom .body cs).map fun (us, r) => (⟨false, d⟩ :: us, r) := by
  have hu : e ≠ chr 'u' := by
    rintro rfl
    exact absurd (h.symm.trans (by decide : simpleEscape (chr 'u') = none)) (by simp)
  rw [scanStringFrom, if_neg (by decide), if_pos rfl, scanStringFrom, if_neg hu, h]

theorem scanStringFrom_unicode {a b c d n : CodePoint} {cs : Str} (h : hex4 a b c d = some n) :
    scanStringFrom .body (chr '\\' :: chr 'u' :: a :: b :: c :: d :: cs) =
      (scanStringFrom .body cs).map fun (us, r) => (⟨true, n⟩ :: us, r) := by
  rw [scanStringFrom, if_neg (by decide), if_pos rfl, scanStringFrom, if_pos rfl,
    scanStringFrom, List.nil_append, scanStringFrom, List.cons_append, List.nil_append,
    scanStringFrom, List.cons_append, List.cons_append, List.nil_append, scanStringFrom, h]
  · simp
  · simp
  · simp

theorem scanString_complete {b : Str} {us : List StrUnit} (h : Units b us) (r : Str) :
    scanString (b ++ chr '"' :: r) = some (us, r) := by
  rw [scanString]
  induction h with
  | nil => rw [List.nil_append, scanStringFrom, if_pos rfl]
  | plain h₁ h₂ h₃ _ ih => rw [List.cons_append, scanStringFrom_plain h₁ h₂ h₃, ih]; rfl
  | escape he _ ih =>
    rw [List.cons_append, List.cons_append, scanStringFrom_escape he, ih]; rfl
  | unicode hn _ ih =>
    simp only [List.cons_append]
    rw [scanStringFrom_unicode hn, ih]
    rfl

/-- What the scanner has read of a unit before it is in `mode`. -/
def StringMode.before : StringMode → Str
  | body => []
  | escape => [chr '\\']
  | unicode digits => chr '\\' :: chr 'u' :: digits

theorem scanStringFrom_sound {mode : StringMode} {s : Str} {us : List StrUnit} {r : Str}
    (h : scanStringFrom mode s = some (us, r)) :
    ∃ b, s = b ++ chr '"' :: r ∧ Units (mode.before ++ b) us := by
  fun_induction scanStringFrom mode s generalizing us with
  | case1 => cases h
  | case2 cs => cases h; exact ⟨[], rfl, .nil⟩
  | case3 cs _ ih =>
    obtain ⟨b, rfl, hb⟩ := ih h
    exact ⟨chr '\\' :: b, rfl, hb⟩
  | case4 => cases h
  | case5 c cs h₁ h₂ h₃ ih =>
    obtain ⟨⟨us', r'⟩, hs, he⟩ := Option.map_eq_some_iff.mp h
    cases he
    obtain ⟨b, rfl, hb⟩ := ih hs
    exact ⟨c :: b, rfl, .plain h₁ h₂ (by omega) hb⟩
  | case6 cs ih =>
    obtain ⟨b, rfl, hb⟩ := ih h
    exact ⟨chr 'u' :: b, rfl, hb⟩
  | case7 c cs _ d hd ih =>
    obtain ⟨⟨us', r'⟩, hs, he⟩ := Option.map_eq_some_iff.mp h
    cases he
    obtain ⟨b, rfl, hb⟩ := ih hs
    exact ⟨c :: b, rfl, .escape hd hb⟩
  | case8 => cases h
  | case9 x y z c cs n hn ih =>
    obtain ⟨⟨us', r'⟩, hs, he⟩ := Option.map_eq_some_iff.mp h
    cases he
    obtain ⟨b, rfl, hb⟩ := ih hs
    exact ⟨c :: b, rfl, .unicode hn hb⟩
  | case10 => cases h
  | case11 digits c cs _ ih =>
    obtain ⟨b, rfl, hb⟩ := ih h
    refine ⟨c :: b, rfl, ?_⟩
    simpa [StringMode.before] using hb

theorem scanString_sound {s : Str} {us : List StrUnit} {r : Str}
    (h : scanString s = some (us, r)) : ∃ b, s = b ++ chr '"' :: r ∧ Units b us :=
  scanStringFrom_sound h

/-! ## Numbers and constants -/

/-- The text does not begin with a character of `P`. -/
def HeadNot (P : CodePoint → Bool) (s : Str) : Prop := ∀ c ∈ s.head?, P c = false

/-- A character that could be a further one of a number literal. -/
def continuesNumber (c : CodePoint) : Bool := isDigit c || c == chr '.' || isExpMark c

theorem HeadNot.mono {P Q : CodePoint → Bool} {s : Str} (h : HeadNot P s)
    (hq : ∀ c, Q c = true → P c = true) : HeadNot Q s := by
  intro c hc
  by_contra hne
  have := h c hc
  rw [hq c (by simpa using hne)] at this
  cases this

theorem HeadNot.cons {P : CodePoint → Bool} {c : CodePoint} (h : P c = false) (s : Str) :
    HeadNot P (c :: s) := by
  intro d hd
  obtain rfl : c = d := by simpa using hd
  exact h

theorem HeadNot.ws {s w : Str} (hw : Ws w) (h : HeadNot continuesNumber s) :
    HeadNot continuesNumber (w ++ s) := by
  cases w with
  | nil => exact h
  | cons c w =>
    refine .cons ?_ _
    have hc := hw c (by simp)
    simp only [isWs, Bool.or_eq_true, beq_iff_eq] at hc
    rcases hc with ((rfl | rfl) | rfl) | rfl <;> decide

theorem scanDigits_append {ds r : Str} (hds : ∀ c ∈ ds, isDigit c = true)
    (hr : HeadNot isDigit r) : scanDigits (ds ++ r) = (ds, r) := by
  rw [scanDigits, List.takeWhile_append_of_pos hds, List.dropWhile_append_of_pos hds]
  cases r with
  | nil => simp
  | cons c r => simp [hr c rfl]

theorem scanDigits_eq (s : Str) : s = (scanDigits s).1 ++ (scanDigits s).2 :=
  List.takeWhile_append_dropWhile.symm

theorem scanDigits_digits {s : Str} (h : (scanDigits s).1 ≠ []) : Digits (scanDigits s).1 :=
  ⟨h, fun _ hc => List.mem_takeWhile_imp hc⟩

theorem scanSign_append {sign r : Str} (h : Sign sign) (hr : HeadNot (· == chr '-') r) :
    scanSign (sign ++ r) = (sign, r) := by
  rcases h with rfl | rfl
  · cases r with
    | nil => rfl
    | cons c r => rw [List.nil_append, scanSign, if_neg (by simpa using hr c rfl)]
  · rw [List.cons_append, scanSign, if_pos rfl, List.nil_append]

theorem scanSign_eq (s : Str) : s = (scanSign s).1 ++ (scanSign s).2 ∧ Sign (scanSign s).1 := by
  unfold scanSign
  split
  · exact ⟨rfl, .inl rfl⟩
  · next c cs =>
    split
    · next h => exact ⟨rfl, .inr (by rw [h])⟩
    · exact ⟨rfl, .inl rfl⟩

theorem scanInt_append {int r : Str} (h : IntPart int) (hr : HeadNot isDigit r) :
    scanInt (int ++ r) = some (int, r) := by
  obtain ⟨c, cs, rfl, hc⟩ := h.head
  rw [List.cons_append, scanInt]
  split
  · next h0 =>
    have he := h.2 (by simp [h0])
    injection he with _ he
    rw [he, List.nil_append]
  · rw [← List.cons_append, scanDigits_append h.1.2 hr]

theorem scanInt_sound {s int r : Str} (h : scanInt s = some (int, r)) :
    s = int ++ r ∧ IntPart int := by
  unfold scanInt at h
  split at h
  · cases h
  · next c cs =>
    split at h
    · next h0 =>
      cases h
      refine ⟨rfl, ⟨by simp, ?_⟩, fun _ => by rw [h0]⟩
      intro d hd
      obtain rfl : d = c := by simpa using hd
      rw [h0]; decide
    · next h0 =>
      split at h
      · next hc =>
        have he := scanDigits_eq (c :: cs)
        have hne : (scanDigits (c :: cs)).1 ≠ [] := by simp [scanDigits, hc]
        have hd := scanDigits_digits hne
        rw [Option.some.inj h] at he hd
        refine ⟨he, hd, fun hh => ?_⟩
        have : int.head? = some c := by
          rw [← show (scanDigits (c :: cs)).1 = int by rw [Option.some.inj h]]
          simp [scanDigits, hc]
        rw [this] at hh
        exact absurd (Option.some.inj hh) h0
      · cases h

theorem scanFrac_append {frac r : Str} (h : Frac frac) (hr : HeadNot isDigit r)
    (hdot : HeadNot (· == chr '.') r) : scanFrac (frac ++ r) = (frac, r) := by
  rcases h with rfl | ⟨ds, rfl, hds⟩
  · cases r with
    | nil => rfl
    | cons c r =>
      have hc : c ≠ chr '.' := by simpa using hdot c rfl
      rw [List.nil_append, scanFrac, if_neg (by simp [hc])]
  · rw [List.cons_append, scanFrac, scanDigits_append hds.2 hr, if_pos ⟨rfl, hds.1⟩]

theorem scanFrac_eq (s : Str) : s = (scanFrac s).1 ++ (scanFrac s).2 ∧ Frac (scanFrac s).1 := by
  unfold scanFrac
  split
  · exact ⟨rfl, .inl rfl⟩
  · next c cs =>
    split
    · next h =>
      refine ⟨?_, .inr ⟨(scanDigits cs).1, by rw [h.1], scanDigits_digits h.2⟩⟩
      rw [List.cons_append, ← scanDigits_eq]
    · exact ⟨rfl, .inl rfl⟩

theorem scanExpSign_append {sign r : Str} (h : ExpSign sign)
    (hr : HeadNot (fun c => c == chr '+' || c == chr '-') r) :
    scanExpSign (sign ++ r) = (sign, r) := by
  rcases h with rfl | rfl | rfl
  · cases r with
    | nil => rfl
    | cons c r => rw [List.nil_append, scanExpSign, if_neg (by simpa using hr c rfl)]
  · rw [List.cons_append, scanExpSign, if_pos (.inl rfl), List.nil_append]
  · rw [List.cons_append, scanExpSign, if_pos (.inr rfl), List.nil_append]

theorem scanExpSign_eq (s : Str) :
    s = (scanExpSign s).1 ++ (scanExpSign s).2 ∧ ExpSign (scanExpSign s).1 := by
  unfold scanExpSign
  split
  · exact ⟨rfl, .inl rfl⟩
  · next c cs =>
    split
    · next h =>
      rcases h with rfl | rfl
      · exact ⟨rfl, .inr (.inl rfl)⟩
      · exact ⟨rfl, .inr (.inr rfl)⟩
    · exact ⟨rfl, .inl rfl⟩

theorem Digits.headNot {ds : Str} (h : Digits ds) {P : CodePoint → Bool}
    (hp : ∀ c, isDigit c = true → P c = false) (r : Str) : HeadNot P (ds ++ r) := by
  obtain ⟨c, cs, rfl⟩ := List.exists_cons_of_ne_nil h.1
  exact .cons (hp c (h.2 c (by simp))) _

theorem scanExp_append {exp r : Str} (h : Exp exp) (hr : HeadNot isDigit r)
    (hmark : HeadNot isExpMark r) : scanExp (exp ++ r) = (exp, r) := by
  rcases h with rfl | ⟨e, sign, ds, rfl, he, hsign, hds⟩
  · cases r with
    | nil => rfl
    | cons c r => simp [scanExp, hmark c rfl]
  · have hs : scanExpSign (sign ++ (ds ++ r)) = (sign, ds ++ r) :=
      scanExpSign_append hsign (hds.headNot (fun c hc => by
        rw [isDigit_ne hc (by decide), isDigit_ne hc (by decide)]; rfl) r)
    rw [List.cons_append, List.append_assoc, scanExp, hs]
    simp only
    rw [scanDigits_append hds.2 hr, if_pos ⟨he, hds.1⟩]

theorem scanExp_eq (s : Str) : s = (scanExp s).1 ++ (scanExp s).2 ∧ Exp (scanExp s).1 := by
  unfold scanExp
  split
  · exact ⟨rfl, .inl rfl⟩
  · next c cs =>
    obtain ⟨he, hs⟩ := scanExpSign_eq cs
    simp only
    split
    · next h =>
      refine ⟨?_, .inr ⟨c, _, _, rfl, h.1, hs, scanDigits_digits h.2⟩⟩
      simp only [List.cons_append, List.append_assoc]
      rw [← scanDigits_eq, ← he]
    · exact ⟨rfl, .inl rfl⟩

section Values

variable {F : Type} [PyFloat F]

theorem scanNumber_complete {t r : Str} {v : Json F} (h : Number t v)
    (hr : HeadNot continuesNumber r) : scanNumber (t ++ r) = some (v, r) := by
  obtain ⟨sign, int, frac, exp, rfl, hsign, hint, hfrac, hexp, rfl⟩ := h
  have hdig : HeadNot isDigit r := hr.mono fun c hc => by simp [continuesNumber, hc]
  have hdot : HeadNot (· == chr '.') r := hr.mono fun c hc => by simp_all [continuesNumber]
  have hmark : HeadNot isExpMark r := hr.mono fun c hc => by simp [continuesNumber, hc]
  -- Neither a digit nor a point continues the exponent part, so each part ends where it should.
  have hmark' : ∀ e, isExpMark e = true → isDigit e = false ∧ (e == chr '.') = false := by
    intro e he
    simp only [isExpMark, Bool.or_eq_true, beq_iff_eq] at he
    rcases he with rfl | rfl <;> decide
  have hexpr : HeadNot isDigit (exp ++ r) ∧ HeadNot (· == chr '.') (exp ++ r) := by
    rcases hexp with rfl | ⟨e, s, ds, rfl, he, -⟩
    · exact ⟨hdig, hdot⟩
    · exact ⟨.cons (hmark' e he).1 _, .cons (P := (· == chr '.')) (hmark' e he).2 _⟩
  have hfracr : HeadNot isDigit (frac ++ (exp ++ r)) := by
    rcases hfrac with rfl | ⟨ds, rfl, -⟩
    · exact hexpr.1
    · exact .cons (by decide) _
  have hintr : HeadNot (· == chr '-') (int ++ (frac ++ (exp ++ r))) :=
    hint.1.headNot (fun c hc => isDigit_ne hc (by decide)) _
  rw [scanNumber]
  simp only [List.append_assoc, scanSign_append hsign hintr, scanInt_append hint hfracr,
    Option.bind_eq_bind, Option.bind_some, scanFrac_append hfrac hexpr.1 hexpr.2,
    scanExp_append hexp hdig hmark]
  rfl

theorem scanNumber_sound {s r : Str} {v : Json F} (h : scanNumber s = some (v, r)) :
    ∃ t, s = t ++ r ∧ Number t v := by
  obtain ⟨hs, hsign⟩ := scanSign_eq s
  obtain ⟨⟨int, r₁⟩, hscan, h⟩ := Option.bind_eq_some_iff.mp h
  have hint : (scanSign s).2 = int ++ r₁ ∧ IntPart int := scanInt_sound hscan
  obtain ⟨hi, hint⟩ := hint
  obtain ⟨hf, hfrac⟩ := scanFrac_eq r₁
  obtain ⟨he, hexp⟩ := scanExp_eq (scanFrac r₁).2
  cases h
  refine ⟨_, ?_, (scanSign s).1, int, (scanFrac r₁).1, _, rfl, hsign, hint, hfrac, hexp, rfl⟩
  rw [hi, hf, he] at hs
  simp only [List.append_assoc] at hs ⊢
  exact hs

theorem constants_constant : ∀ kv ∈ constants (F := F), Constant kv.1 kv.2 := by
  intro kv hkv
  simp only [constants, List.mem_cons, List.not_mem_nil, or_false] at hkv
  rcases hkv with rfl | rfl | rfl | rfl | rfl | rfl <;> constructor

theorem scanConstant_complete {t : Str} {v : Json F} (h : Constant t v) (r : Str) :
    scanConstant (t ++ r) = some (v, r) := by
  cases h <;> rfl

theorem scanConstant_sound {s r : Str} {v : Json F} (h : scanConstant s = some (v, r)) :
    ∃ t, s = t ++ r ∧ Constant t v := by
  obtain ⟨kv, hkv, he⟩ := List.exists_of_findSome?_eq_some h
  obtain ⟨r', hr, he⟩ := Option.map_eq_some_iff.mp he
  cases he
  exact ⟨kv.1, dropPrefix_eq_some hr, constants_constant kv hkv⟩

/-- A number is no constant: it begins with a digit, or with a sign and a digit. -/
theorem scanConstant_number {t : Str} {v : Json F} (h : Number t v) (r : Str) :
    scanConstant (F := F) (t ++ r) = none := by
  have hne : ∀ c d, isDigit c = true → isDigit d = false → d ≠ c := by
    rintro c d hc hd rfl
    rw [hc] at hd
    cases hd
  obtain ⟨sign, int, frac, exp, rfl, rfl | rfl, hint, -⟩ := h
  all_goals
    obtain ⟨c, cs, rfl, hc⟩ := hint.head
    have h1 := fun d hd => hne c d hc hd
    simp [scanConstant, constants, str, dropPrefix, h1 _ (show isDigit (chr 'n') = false by decide),
      h1 _ (show isDigit (chr 't') = false by decide),
      h1 _ (show isDigit (chr 'f') = false by decide),
      h1 _ (show isDigit (chr 'N') = false by decide),
      h1 _ (show isDigit (chr 'I') = false by decide),
      h1 _ (show isDigit (chr '-') = false by decide), chr_inj]

theorem scanAtom_sound {s r : Str} {v : Json F} (h : scanAtom s = some (v, r)) :
    ∃ t, s = t ++ r ∧ Val t v := by
  rcases Option.or_eq_some_iff.mp h with h | ⟨-, h⟩
  · obtain ⟨t, rfl, ht⟩ := scanConstant_sound h
    exact ⟨t, rfl, .constant ht⟩
  · obtain ⟨t, rfl, ht⟩ := scanNumber_sound h
    exact ⟨t, rfl, .number ht⟩

/-! ## Values, items and members -/

/-- What the scanners read within the depth bound `n` is what their relations say. -/
structure Sound (F : Type) [PyFloat F] (n : Nat) : Prop where
  value : ∀ {s r : Str} {v : Json F}, scanValue n s = some (v, r) → ∃ t, s = t ++ r ∧ Val t v
  items : ∀ {s r : Str} {xs : List (Json F)}, scanItems n s = some (xs, r) →
    ∃ t, s = t ++ chr ']' :: r ∧ ∀ w, Ws w → Items (w ++ t) xs
  members : ∀ {s r : Str} {kvs : List (Str × Json F)}, scanMembers n s = some (kvs, r) →
    ∃ t, s = t ++ chr '}' :: r ∧ ∀ w, Ws w → Members (w ++ t) kvs

theorem scanValue_sound {n : Nat} (ih : Sound F n) {s r : Str} {v : Json F}
    (h : scanValue (n + 1) s = some (v, r)) : ∃ t, s = t ++ r ∧ Val t v := by
  cases s with
  | nil => cases h
  | cons c cs =>
    rw [scanValue] at h
    split at h
    · next hc =>
      obtain ⟨⟨us, r'⟩, hs, he⟩ := Option.map_eq_some_iff.mp h
      cases he
      obtain ⟨b, rfl, hb⟩ := scanString_sound hs
      exact ⟨quoted b, by simp [quoted, hc], .string hb⟩
    split at h
    · next hc =>
      obtain ⟨w, hw, hcs⟩ := skipWs_eq cs
      split at h
      · cases h
      · next d ds hd =>
        rw [hd] at hcs
        split at h
        · next hclose =>
          cases h
          exact ⟨_, by simp [hc, hcs, hclose], .emptyObject hw⟩
        · obtain ⟨⟨kvs, r'⟩, hs, he⟩ := Option.map_eq_some_iff.mp h
          cases he
          obtain ⟨t, ht, hm⟩ := ih.members hs
          exact ⟨_, by simp [hc, hcs, ht], .object (hm w hw)⟩
    split at h
    · next hc =>
      obtain ⟨w, hw, hcs⟩ := skipWs_eq cs
      split at h
      · cases h
      · next d ds hd =>
        rw [hd] at hcs
        split at h
        · next hclose =>
          cases h
          exact ⟨_, by simp [hc, hcs, hclose], .emptyArray hw⟩
        · obtain ⟨⟨xs, r'⟩, hs, he⟩ := Option.map_eq_some_iff.mp h
          cases he
          obtain ⟨t, ht, hi⟩ := ih.items hs
          exact ⟨_, by simp [hc, hcs, ht], .array (hi w hw)⟩
    · exact scanAtom_sound h

theorem scanItems_sound {n : Nat} (ih : Sound F n) {s r : Str} {xs : List (Json F)}
    (h : scanItems (n + 1) s = some (xs, r)) :
    ∃ t, s = t ++ chr ']' :: r ∧ ∀ w, Ws w → Items (w ++ t) xs := by
  rw [scanItems] at h
  obtain ⟨⟨v, r₁⟩, hv, h'⟩ := Option.bind_eq_some_iff.mp h
  obtain ⟨t, rfl, ht⟩ := ih.value hv
  obtain ⟨w', hw', hr⟩ := skipWs_eq r₁
  simp only at h'
  split at h'
  · cases h'
  · next c cs hc =>
    rw [hc] at hr
    split at h'
    · next hclose =>
      cases h'
      exact ⟨t ++ w', by simp [hr, hclose], fun w hw => .one hw ht hw'⟩
    split at h'
    · next hcomma =>
      obtain ⟨⟨ys, r₂⟩, hi, he⟩ := Option.map_eq_some_iff.mp h'
      cases he
      obtain ⟨t', ht', hi⟩ := ih.items hi
      obtain ⟨u, hu, hcs⟩ := skipWs_eq cs
      rw [ht'] at hcs
      exact ⟨t ++ (w' ++ chr ',' :: (u ++ t')), by simp [hr, hcomma, hcs],
        fun w hw => .more hw ht hw' (hi u hu)⟩
    · cases h'

theorem scanMembers_sound {n : Nat} (ih : Sound F n) {s r : Str} {kvs : List (Str × Json F)}
    (h : scanMembers (n + 1) s = some (kvs, r)) :
    ∃ t, s = t ++ chr '}' :: r ∧ ∀ w, Ws w → Members (w ++ t) kvs := by
  cases s with
  | nil => cases h
  | cons q s =>
    rw [scanMembers] at h
    split at h
    · next hq =>
      obtain ⟨⟨us, r₁⟩, hs, h₁⟩ := Option.bind_eq_some_iff.mp h
      obtain ⟨b, rfl, hb⟩ := scanString_sound hs
      obtain ⟨w₂, hw₂, hr₁⟩ := skipWs_eq r₁
      simp only at h₁
      split at h₁
      · cases h₁
      · next k r₂ hk =>
        rw [hk] at hr₁
        split at h₁
        · next hcolon =>
          obtain ⟨⟨v, r₃⟩, hv, h₂⟩ := Option.bind_eq_some_iff.mp h₁
          obtain ⟨w₃, hw₃, hr₂⟩ := skipWs_eq r₂
          obtain ⟨t, ht, htv⟩ := ih.value hv
          rw [ht] at hr₂
          obtain ⟨w₄, hw₄, hr₃⟩ := skipWs_eq r₃
          simp only at h₂
          split at h₂
          · cases h₂
          · next c cs hc =>
            rw [hc] at hr₃
            split at h₂
            · next hclose =>
              cases h₂
              exact ⟨quoted b ++ (w₂ ++ chr ':' :: (w₃ ++ (t ++ w₄))),
                by simp [quoted, hq, hr₁, hcolon, hr₂, hr₃, hclose],
                fun w hw => .one hw hb hw₂ hw₃ htv hw₄⟩
            split at h₂
            · next hcomma =>
              obtain ⟨⟨ms, r₄⟩, hm, he⟩ := Option.map_eq_some_iff.mp h₂
              cases he
              obtain ⟨t', ht', hm'⟩ := ih.members hm
              obtain ⟨u, hu, hcs⟩ := skipWs_eq cs
              rw [ht'] at hcs
              exact ⟨quoted b ++ (w₂ ++ chr ':' :: (w₃ ++ (t ++ (w₄ ++ chr ',' :: (u ++ t'))))),
                by simp [quoted, hq, hr₁, hcolon, hr₂, hr₃, hcomma, hcs],
                fun w hw => .more hw hb hw₂ hw₃ htv hw₄ (hm' u hu)⟩
            · cases h₂
        · cases h₁
    · cases h

theorem scan_sound (n : Nat) : Sound F n := by
  induction n with
  | zero =>
    refine ⟨fun h => ?_, fun h => ?_, fun h => ?_⟩
    · rw [scanValue] at h; cases h
    · rw [scanItems] at h; cases h
    · rw [scanMembers] at h; cases h
  | succ n ih => exact ⟨scanValue_sound ih, scanItems_sound ih, scanMembers_sound ih⟩

/-! ## Every text of the grammar is read -/

theorem Items.start {s : Str} {xs : List (Json F)} (h : Items s xs) :
    ∃ w c cs, Ws w ∧ s = w ++ c :: cs ∧ isValueStart c = true := by
  cases h with
  | one hw ht _ =>
    obtain ⟨c, cs, rfl, hc⟩ := ht.head
    exact ⟨_, c, _, hw, rfl, hc⟩
  | more hw ht _ _ =>
    obtain ⟨c, cs, rfl, hc⟩ := ht.head
    exact ⟨_, c, _, hw, rfl, hc⟩

theorem Members.start {s : Str} {kvs : List (Str × Json F)} (h : Members s kvs) :
    ∃ w cs, Ws w ∧ s = w ++ chr '"' :: cs := by
  cases h with
  | one hw _ _ _ _ _ => exact ⟨_, _, hw, rfl⟩
  | more hw _ _ _ _ _ _ => exact ⟨_, _, hw, rfl⟩

theorem skipWs_start {w : Str} {c : CodePoint} (hw : Ws w) (hc : isWs c = false) (s : Str) :
    skipWs (w ++ c :: s) = c :: s := by
  rw [skipWs_append hw, skipWs_cons hc]

theorem Val.skipWs {t : Str} {v : Json F} (h : Val t v) {w : Str} (hw : Ws w) (r : Str) :
    skipWs (w ++ (t ++ r)) = t ++ r := by
  obtain ⟨c, cs, rfl, hc⟩ := h.head
  exact skipWs_start hw (isValueStart_ne hc).1 _

/-- A constant or a number is not taken for a string, an object or an array. -/
theorem scanValue_atom {t : Str} {v : Json F} (h : Constant t v ∨ Number t v) (n : Nat) (r : Str) :
    scanValue (F := F) (n + 1) (t ++ r) = scanAtom (t ++ r) := by
  have hstart : ∃ c cs, t = c :: cs ∧ c ≠ chr '"' ∧ c ≠ chr '{' ∧ c ≠ chr '[' := by
    rcases h with h | h
    · cases h <;> exact ⟨_, _, rfl, by decide, by decide, by decide⟩
    · obtain ⟨c, cs, rfl, hc | rfl⟩ := h.head
      · refine ⟨c, cs, rfl, ?_, ?_, ?_⟩ <;> rintro rfl <;> exact absurd hc (by decide)
      · exact ⟨_, _, rfl, by decide, by decide, by decide⟩
  obtain ⟨c, cs, rfl, h₁, h₂, h₃⟩ := hstart
  rw [List.cons_append, scanValue, if_neg h₁, if_neg h₂, if_neg h₃]

theorem scanAtom_number {t r : Str} {v : Json F} (h : Number t v)
    (hr : HeadNot continuesNumber r) : scanAtom (t ++ r) = some (v, r) := by
  rw [scanAtom, scanConstant_number h, Option.none_or, scanNumber_complete h hr]

/-- White space and then a character that ends a value. -/
theorem HeadNot.wsCons {w : Str} (hw : Ws w) {c : CodePoint} (hc : continuesNumber c = false)
    (s : Str) : HeadNot continuesNumber (w ++ c :: s) :=
  .ws hw (.cons hc s)

mutual
theorem Val.scan {t : Str} {v : Json F} (h : Val t v) {n : Nat} {r : Str}
    (hn : 2 * t.length + 1 ≤ n) (hr : HeadNot continuesNumber r) :
    scanValue n (t ++ r) = some (v, r) := by
  obtain ⟨n, rfl⟩ : ∃ m, n = m + 1 := ⟨n - 1, by omega⟩
  cases h with
  | constant h => rw [scanValue_atom (.inl h), scanAtom, scanConstant_complete h, Option.some_or]
  | number h => rw [scanValue_atom (.inr h), scanAtom_number h hr]
  | @string b us h =>
    have he : quoted b ++ r = chr '"' :: (b ++ chr '"' :: r) := by simp [quoted]
    rw [he, scanValue, if_pos rfl, scanString_complete h]
    rfl
  | @emptyArray w hw =>
    have he : skipWs (w ++ [chr ']'] ++ r) = chr ']' :: r := by
      rw [List.append_assoc]; exact skipWs_start hw (by decide) r
    rw [List.cons_append, scanValue, if_neg (by decide), if_neg (by decide), if_pos rfl, he]
    simp only [if_true]
  | @array s xs h =>
    obtain ⟨w, c, cs, hw, rfl, hc⟩ := Items.start h
    have ih := Items.scan h (n := n) (r := r) (by simp at hn ⊢; omega)
    have he : skipWs (w ++ c :: cs ++ [chr ']'] ++ r) = c :: (cs ++ chr ']' :: r) := by
      simpa using skipWs_start hw (isValueStart_ne hc).1 (cs ++ chr ']' :: r)
    have hs : skipWs (w ++ c :: cs ++ chr ']' :: r) = c :: (cs ++ chr ']' :: r) := by
      simpa using he
    rw [hs] at ih
    rw [List.cons_append, scanValue, if_neg (by decide), if_neg (by decide), if_pos rfl, he]
    simp only [if_neg (isValueStart_ne hc).2.1, ih, Option.map_some]
  | @emptyObject w hw =>
    have he : skipWs (w ++ [chr '}'] ++ r) = chr '}' :: r := by
      rw [List.append_assoc]; exact skipWs_start hw (by decide) r
    rw [List.cons_append, scanValue, if_neg (by decide), if_pos rfl, he]
    simp only [if_true]
  | @object s kvs h =>
    obtain ⟨w, cs, hw, rfl⟩ := Members.start h
    have ih := Members.scan h (n := n) (r := r) (by simp at hn ⊢; omega)
    have he : skipWs (w ++ chr '"' :: cs ++ [chr '}'] ++ r) = chr '"' :: (cs ++ chr '}' :: r) := by
      simpa using skipWs_start hw (c := chr '"') (by decide) (cs ++ chr '}' :: r)
    have hs : skipWs (w ++ chr '"' :: cs ++ chr '}' :: r) = chr '"' :: (cs ++ chr '}' :: r) := by
      simpa using he
    rw [hs] at ih
    rw [List.cons_append, scanValue, if_neg (by decide), if_pos rfl, he]
    simp only [if_neg (show chr '"' ≠ chr '}' by decide), ih, Option.map_some]

theorem Items.scan {s : Str} {xs : List (Json F)} (h : Items s xs) {n : Nat} {r : Str}
    (hn : 2 * s.length + 2 ≤ n) : scanItems n (skipWs (s ++ chr ']' :: r)) = some (xs, r) := by
  obtain ⟨n, rfl⟩ : ∃ m, n = m + 1 := ⟨n - 1, by omega⟩
  cases h with
  | @one w t w' v hw ht hw' =>
    have hv := Val.scan ht (n := n) (r := w' ++ chr ']' :: r) (by simp at hn; omega)
      (.wsCons hw' (by decide) r)
    rw [List.append_assoc, List.append_assoc, ht.skipWs hw, scanItems, hv]
    simp only [Option.bind_eq_bind, Option.bind_some]
    rw [skipWs_start hw' (by decide)]
    simp only [if_true]
  | @more w t w' s v xs hw ht hw' hs =>
    have hv := Val.scan ht (n := n) (r := w' ++ chr ',' :: (s ++ chr ']' :: r))
      (by simp at hn; omega) (.wsCons hw' (by decide) _)
    have ih := Items.scan hs (n := n) (r := r) (by simp at hn; omega)
    simp only [List.append_assoc, List.cons_append]
    rw [ht.skipWs hw, scanItems, hv]
    simp only [Option.bind_eq_bind, Option.bind_some]
    rw [skipWs_start hw' (by decide)]
    simp only [if_neg (show chr ',' ≠ chr ']' by decide), if_true, ih, Option.map_some]

theorem Members.scan {s : Str} {kvs : List (Str × Json F)} (h : Members s kvs) {n : Nat} {r : Str}
    (hn : 2 * s.length + 2 ≤ n) :
    scanMembers n (skipWs (s ++ chr '}' :: r)) = some (kvs, r) := by
  obtain ⟨n, rfl⟩ : ∃ m, n = m + 1 := ⟨n - 1, by omega⟩
  cases h with
  | @one w₁ b w₂ w₃ t w₄ us v hw₁ hb hw₂ hw₃ ht hw₄ =>
    have hv := Val.scan ht (n := n) (r := w₄ ++ chr '}' :: r) (by simp at hn; omega)
      (.wsCons hw₄ (by decide) r)
    simp only [quoted, List.append_assoc, List.cons_append, List.nil_append]
    rw [skipWs_start hw₁ (by decide), scanMembers, if_pos rfl, scanString_complete hb]
    simp only [Option.bind_eq_bind, Option.bind_some]
    rw [skipWs_start hw₂ (by decide)]
    simp only [if_true]
    rw [ht.skipWs hw₃, hv]
    simp only [Option.bind_some]
    rw [skipWs_start hw₄ (by decide)]
    simp only [if_true]
  | @more w₁ b w₂ w₃ t w₄ s us v kvs hw₁ hb hw₂ hw₃ ht hw₄ hs =>
    have hv := Val.scan ht (n := n) (r := w₄ ++ chr ',' :: (s ++ chr '}' :: r))
      (by simp at hn; omega) (.wsCons hw₄ (by decide) _)
    have ih := Members.scan hs (n := n) (r := r) (by simp at hn; omega)
    simp only [quoted, List.append_assoc, List.cons_append, List.nil_append]
    rw [skipWs_start hw₁ (by decide), scanMembers, if_pos rfl, scanString_complete hb]
    simp only [Option.bind_eq_bind, Option.bind_some]
    rw [skipWs_start hw₂ (by decide)]
    simp only [if_true]
    rw [ht.skipWs hw₃, hv]
    simp only [Option.bind_some]
    rw [skipWs_start hw₄ (by decide)]
    simp only [if_neg (show chr ',' ≠ chr '}' by decide), if_true, ih, Option.map_some]
end

/-! ## `json.loads` -/

/-- `json.loads` returns a value exactly on the texts that denote it. -/
theorem loads_iff {s : Str} {v : Json F} : loads s = some v ↔ Denotes s v := by
  constructor
  · intro h
    rw [loads] at h
    split at h
    · next u r hs =>
      split at h
      · next hr =>
        cases h
        obtain ⟨t, ht, htv⟩ := (scan_sound _).value hs
        obtain ⟨w, hw, he⟩ := skipWs_eq s
        rw [ht] at he
        exact ⟨w, t, r, he, hw, htv, skipWs_eq_nil hr⟩
      · cases h
    · cases h
  · rintro ⟨w, t, w', rfl, hw, ht, hw'⟩
    have hn : HeadNot continuesNumber w' := by
      have := HeadNot.ws hw' (s := []) (by intro c hc; simp at hc)
      simpa using this
    have hs := ht.scan (n := 2 * (w ++ (t ++ w')).length + 1) (by simp; omega) hn
    rw [loads, ht.skipWs hw, hs]
    simp only [skipWs_of_ws hw', if_true]

/-- A text denotes at most one value. -/
theorem Denotes.unique {s : Str} {v w : Json F} (hv : Denotes s v) (hw : Denotes s w) : v = w :=
  Option.some.inj ((loads_iff.mpr hv).symm.trans (loads_iff.mpr hw))

end Values

end Json

end Py
