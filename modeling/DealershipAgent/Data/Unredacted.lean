import DealershipAgent.Data.RedactPii
import DealershipAgent.Py.Pieces

/-!
# What redaction leaves

* `redactPii_complete_iff`: nothing that matches a pattern is left exactly when no pass replaces a match
  directly behind a telephone number that stands outside the matches (`Uncovered`).
* `gluedNumbers_not_complete`: two numbers without anything between them.
-/

namespace DealershipAgent

open Py Re

section Words

variable {r : Regex} {rs ss : List Regex} {t : Str} {c : CodePoint → Bool}

theorem mem_seqs_cons :
    t ∈ (seqs (r :: rs)).lang ↔ ∃ u ∈ r.lang, ∃ v ∈ (seqs rs).lang, u ++ v = t := mem_lang_seq

theorem mem_seqs_append : t ∈ (seqs (rs ++ ss)).lang ↔
    ∃ u ∈ (seqs rs).lang, ∃ v ∈ (seqs ss).lang, u ++ v = t := by
  induction rs generalizing t with
  | nil =>
    constructor
    · exact fun h => ⟨[], rfl, t, h, rfl⟩
    · rintro ⟨u, hu, v, hv, rfl⟩
      rw [mem_lang_eps.mp hu]
      exact hv
  | cons r rs ih =>
    rw [List.cons_append, mem_seqs_cons]
    constructor
    · rintro ⟨u, hu, _, hrest, rfl⟩
      obtain ⟨w, hw, v, hv, rfl⟩ := ih.mp hrest
      exact ⟨u ++ w, mem_seqs_cons.mpr ⟨u, hu, w, hw, rfl⟩, v, hv, List.append_assoc ..⟩
    · rintro ⟨_, hfirst, v, hv, rfl⟩
      obtain ⟨u, hu, w, hw, rfl⟩ := mem_seqs_cons.mp hfirst
      exact ⟨u, hu, w ++ v, ih.mpr ⟨w, hw, v, hv, rfl⟩, (List.append_assoc ..).symm⟩

theorem mem_seqs_single : t ∈ (seqs [r]).lang ↔ t ∈ r.lang := by
  rw [mem_seqs_cons]
  constructor
  · rintro ⟨u, hu, v, hv, rfl⟩
    rw [mem_lang_eps.mp hv, List.append_nil]
    exact hu
  · exact fun h => ⟨t, h, [], rfl, List.append_nil t⟩

theorem mem_seqs_concat : t ∈ (seqs (rs ++ [r])).lang ↔
    ∃ u ∈ (seqs rs).lang, ∃ v ∈ r.lang, u ++ v = t := by
  rw [mem_seqs_append]
  simp only [mem_seqs_single]

theorem last_of_mem_times {n : Nat} (h : t ∈ (times (n + 1) (.char c)).lang) :
    ∃ u a, t = u ++ [a] ∧ c a = true := by
  rw [times, List.replicate_succ'] at h
  obtain ⟨u, -, v, ⟨a, ha, rfl⟩, rfl⟩ := mem_seqs_concat.mp h
  exact ⟨u, a, rfl, ha⟩

theorem mem_lang_plus : t ∈ (plus (.char c)).lang ↔
    ∃ a v, t = a :: v ∧ c a = true ∧ ∀ b ∈ v, c b = true := by
  rw [plus, mem_lang_seq]
  constructor
  · rintro ⟨_, ⟨a, ha, rfl⟩, v, hv, rfl⟩
    exact ⟨a, v, rfl, ha, allows_of_mem_lang hv⟩
  · rintro ⟨a, v, rfl, ha, hv⟩
    refine ⟨[a], ⟨a, ha, rfl⟩, v, Language.mem_kstar.mpr ⟨v.map fun b => [b], ?_, ?_⟩, rfl⟩
    · exact (List.flatMap_singleton' v).symm
    · intro w hw
      obtain ⟨b, hb, rfl⟩ := List.mem_map.mp hw
      exact ⟨b, hv b hb, rfl⟩

theorem notMem_of_allows {x : CodePoint} (ht : t ∈ r.lang) (hx : r.allows x = false) : x ∉ t := by
  intro hmem
  rw [allows_of_mem_lang ht x hmem] at hx
  cases hx

end Words

section Redaction

variable [Unicode]

/-! ## The patterns -/

/-- Every decimal digit is a word character and no white space. -/
def DecimalTables : Prop := ∀ c, isDecimal c = true → Unicode.isWord c = true ∧ isSpace c = false

theorem isDecimal_ascii {c : CodePoint} (hc : c.val < 128) : isDecimal c = isDigit c := by
  rw [isDecimal, Unicode.decimal_ascii c hc]
  cases isDigit c <;> rfl

theorem bracket_not_decimal : isDecimal (chr '[') = false ∧ isDecimal (chr ']') = false := by
  rw [isDecimal_ascii (by decide), isDecimal_ascii (by decide)]
  decide

omit [Unicode] in
theorem PiiCategory.marker_eq (category : PiiCategory) :
    ∃ w, category.marker = chr '[' :: (w ++ [chr ']']) := by
  cases category
  · exact ⟨str "REDACTED_PHONE", by decide⟩
  · exact ⟨str "REDACTED_EMAIL", by decide⟩
  · exact ⟨str "REDACTED_URL", by decide⟩
  · exact ⟨str "REDACTED_ADDRESS", by decide⟩

omit [Unicode] in
/-- A text without brackets and with something that no marker has. -/
theorem apart_marker {d : Str} (category : PiiCategory) (hl : chr '[' ∉ d) (hr : chr ']' ∉ d)
    (h : ∃ c ∈ d, c ∉ category.marker) : Apart category.marker d := by
  obtain ⟨w, hw⟩ := category.marker_eq
  exact ⟨⟨_, w, _, hw, hl, hr⟩, h⟩

/-- A decimal digit is in no text of other ASCII characters. -/
theorem decimal_notMem {c : CodePoint} (hc : isDecimal c = true) {s : Str}
    (h : (s.all fun x => decide (x.val < 128) && !isDigit x) = true) : c ∉ s := by
  intro hmem
  obtain ⟨hascii, hdigit⟩ : c.val < 128 ∧ isDigit c = false := by
    simpa using List.all_eq_true.mp h c hmem
  rw [isDecimal_ascii hascii, hdigit] at hc
  cases hc

theorem decimal_notMem_marker {c : CodePoint} (h : isDecimal c = true) (category : PiiCategory) :
    c ∉ category.marker := by
  cases category
  · exact decimal_notMem h (by decide)
  · exact decimal_notMem h (by decide)
  · exact decimal_notMem h (by decide)
  · exact decimal_notMem h (by decide)

theorem last_of_mem_phone {d : Str} (h : d ∈ phonePattern.re.lang) :
    ∃ u c, d = u ++ [c] ∧ isDecimal c = true := by
  have hsplit : phonePattern.re = seqs ([opt (seqs [opt (lit "+"), lit "1", opt phoneSeparator]),
      opt (lit "("), times 3 (.char isDecimal), opt (lit ")"), phoneSeparator,
      times 3 (.char isDecimal), phoneSeparator] ++ [times 4 (.char isDecimal)]) := rfl
  rw [hsplit] at h
  obtain ⟨u, -, v, hv, rfl⟩ := mem_seqs_concat.mp h
  obtain ⟨w, c, rfl, hc⟩ := last_of_mem_times hv
  exact ⟨u ++ w, c, (List.append_assoc ..).symm, hc⟩

theorem phone_apart {d : Str} (h : d ∈ phonePattern.re.lang) (category : PiiCategory) :
    Apart category.marker d := by
  obtain ⟨hl, hr⟩ := bracket_not_decimal
  have hsep : phoneSeparator.allows (chr '[') = false ∧ phoneSeparator.allows (chr ']') = false := by
    decide
  have hallows : phonePattern.re.allows (chr '[') = false ∧
      phonePattern.re.allows (chr ']') = false := by
    simp [phonePattern, seqs, times, opt, Regex.allows, lit, str, hl, hr, hsep, List.replicate,
      chr_inj]
  refine apart_marker category (notMem_of_allows h hallows.1) (notMem_of_allows h hallows.2) ?_
  obtain ⟨u, c, rfl, hc⟩ := last_of_mem_phone h
  exact ⟨c, by simp, decimal_notMem_marker hc category⟩

omit [Unicode] in
theorem email_split {d : Str} (h : d ∈ emailPattern.re.lang) :
    d ≠ [] ∧ chr '@' ∈ d ∧ chr '[' ∉ d ∧ chr ']' ∉ d := by
  refine ⟨?_, ?_, notMem_of_allows h (by decide), notMem_of_allows h (by decide)⟩
  · obtain ⟨_, hu, v, -, rfl⟩ := mem_seqs_cons.mp h
    obtain ⟨a, u, rfl, -⟩ := mem_lang_plus.mp hu
    exact List.cons_ne_nil a _
  · obtain ⟨u, -, _, hrest, rfl⟩ := mem_seqs_cons.mp h
    obtain ⟨_, hat, v, -, rfl⟩ := mem_seqs_cons.mp hrest
    rw [mem_lang_lit.mp hat]
    exact List.mem_append_right _ (List.mem_append_left _ (List.mem_singleton.mpr rfl))

omit [Unicode] in
theorem at_notMem_marker (category : PiiCategory) : chr '@' ∉ category.marker := by
  cases category <;> decide

omit [Unicode] in
theorem email_apart {d : Str} (h : d ∈ emailPattern.re.lang) (category : PiiCategory) :
    Apart category.marker d := by
  obtain ⟨-, hat, hl, hr⟩ := email_split h
  exact apart_marker category hl hr ⟨_, hat, at_notMem_marker category⟩

/-- What a URL begins with. -/
def urlScheme : Regex :=
  .alt (seqs [anyCase 'h', anyCase 't', anyCase 't', anyCase 'p', opt (anyCase 's'), lit "://"])
    (seqs [anyCase 'w', anyCase 'w', anyCase 'w', lit "."])

/-- `[^\s<>"')]` -/
def urlChar (c : CodePoint) : Bool := !(isSpace c || oneOf "<>\"')" c)

omit [Unicode] in
theorem mem_url {t : Str} : t ∈ urlPattern.re.lang ↔
    ∃ u ∈ urlScheme.lang, ∃ v, v ≠ [] ∧ (∀ c ∈ v, urlChar c = true) ∧ u ++ v = t := by
  have hre : urlPattern.re = seqs [urlScheme, plus (.char urlChar)] := rfl
  rw [hre, mem_seqs_cons]
  constructor
  · rintro ⟨u, hu, v, hv, rfl⟩
    obtain ⟨a, w, rfl, ha, hw⟩ := mem_lang_plus.mp (mem_seqs_single.mp hv)
    exact ⟨u, hu, a :: w, List.cons_ne_nil a w, List.forall_mem_cons.mpr ⟨ha, hw⟩, rfl⟩
  · rintro ⟨u, hu, v, hne, hv, rfl⟩
    obtain ⟨a, w, rfl⟩ := List.exists_cons_of_ne_nil hne
    obtain ⟨ha, hw⟩ := List.forall_mem_cons.mp hv
    exact ⟨u, hu, a :: w, mem_seqs_single.mpr (mem_lang_plus.mpr ⟨a, w, rfl, ha, hw⟩), rfl⟩

omit [Unicode] in
theorem asciiLower_eq {c : CodePoint} {letter : Char} (h : asciiLower c = chr letter) :
    c.val = letter.toNat ∨ c.val + 32 = letter.toNat := by
  have hval := congrArg Fin.val h
  rw [chr_val, asciiLower] at hval
  split at hval
  · exact .inr hval
  · exact .inl hval

omit [Unicode] in
/-- The characters of a scheme. -/
theorem urlScheme_allows {c : CodePoint} (h : urlScheme.allows c = true) :
    c ∈ (str "htpswHTPSW:/." ++ [codePoint 0x17f]) := by
  have hlist : (str "htpswHTPSW:/." ++ [codePoint 0x17f]).map Fin.val =
      [104, 116, 112, 115, 119, 72, 84, 80, 83, 87, 58, 47, 46, 383] := by decide
  rw [← List.mem_map_of_injective Fin.val_injective, hlist]
  have hletters : (asciiLower c = chr 'h' ∨ asciiLower c = chr 't' ∨ asciiLower c = chr 'p' ∨
      (asciiLower c = chr 's' ∨ c = codePoint 0x17f) ∨ c = chr ':' ∨ c = chr '/') ∨
      asciiLower c = chr 'w' ∨ c = chr '.' := by
    simpa [urlScheme, seqs, opt, anyCase, lit, str, Regex.allows] using h
  have hcase : ∀ letter : Char, letter.toNat ∈ [104, 116, 112, 115, 119] →
      asciiLower c = chr letter → c.val ∈ [104, 116, 112, 115, 119, 72, 84, 80, 83, 87] := by
    intro letter hletter hlower
    have hval := asciiLower_eq hlower
    simp only [List.mem_cons, List.not_mem_nil, or_false] at hletter ⊢
    omega
  have hsub : ∀ n ∈ [104, 116, 112, 115, 119, 72, 84, 80, 83, 87],
      n ∈ [104, 116, 112, 115, 119, 72, 84, 80, 83, 87, 58, 47, 46, 383] := by decide
  rcases hletters with (h | h | h | (h | rfl) | rfl | rfl) | h | rfl
  · exact hsub _ (hcase 'h' (by decide) h)
  · exact hsub _ (hcase 't' (by decide) h)
  · exact hsub _ (hcase 'p' (by decide) h)
  · exact hsub _ (hcase 's' (by decide) h)
  · decide
  · decide
  · decide
  · exact hsub _ (hcase 'w' (by decide) h)
  · decide

omit [Unicode] in
theorem urlScheme_split {u : Str} (h : u ∈ urlScheme.lang) :
    u ≠ [] ∧ (∀ c ∈ u, urlChar c = true) ∧ chr '[' ∉ u ∧ chr ']' ∉ u ∧
      ∃ c ∈ u, ∀ category : PiiCategory, c ∉ category.marker := by
  have hforeign : ∃ c ∈ u, ∀ category : PiiCategory, c ∉ category.marker := by
    rcases mem_lang_alt.mp h with h | h
    · obtain ⟨v, -, w, hw, rfl⟩ := (@mem_seqs_concat (lit "://")
        [anyCase 'h', anyCase 't', anyCase 't', anyCase 'p', opt (anyCase 's')] u).mp h
      rw [mem_lang_lit.mp hw]
      refine ⟨chr '/', List.mem_append_right _ (by decide), fun category => ?_⟩
      cases category <;> decide
    · obtain ⟨v, -, w, hw, rfl⟩ := (@mem_seqs_concat (lit ".")
        [anyCase 'w', anyCase 'w', anyCase 'w'] u).mp h
      rw [mem_lang_lit.mp hw]
      refine ⟨chr '.', List.mem_append_right _ (by decide), fun category => ?_⟩
      cases category <;> decide
  have hall : (str "htpswHTPSW:/." ++ [codePoint 0x17f]).all urlChar = true := by decide
  have hne : u ≠ [] := by
    obtain ⟨c, hc, -⟩ := hforeign
    exact List.ne_nil_of_mem hc
  exact ⟨hne,
    fun c hc => List.all_eq_true.mp hall c (urlScheme_allows (allows_of_mem_lang h c hc)),
    notMem_of_allows h (by decide), notMem_of_allows h (by decide), hforeign⟩

theorem mem_address {t : Str} (h : t ∈ addressPattern.re.lang) :
    ∃ c u, t = c :: (u ++ str ".") ∧ isDecimal c = true := by
  have hsplit : addressPattern.re = seqs (.char isDecimal :: ([upTo 5 (.char isDecimal),
      plus (.char isSpace), streetWord, upTo 2 streetWord, altLits streetSuffixes] ++ [lit "."])) := rfl
  rw [hsplit] at h
  obtain ⟨_, ⟨c, hc, rfl⟩, v, hv, rfl⟩ := mem_seqs_cons.mp h
  obtain ⟨u, -, w, hw, rfl⟩ := mem_seqs_concat.mp hv
  rw [mem_lang_lit.mp hw]
  exact ⟨c, u, rfl, hc⟩

theorem address_apart {d : Str} (h : d ∈ addressPattern.re.lang) (category : PiiCategory) :
    Apart category.marker d := by
  obtain ⟨hl, hr⟩ := bracket_not_decimal
  have hstreet : streetWord.allows (chr '[') = false ∧ streetWord.allows (chr ']') = false := by
    decide
  have hsuffix : (altLits streetSuffixes).allows (chr '[') = false ∧
      (altLits streetSuffixes).allows (chr ']') = false := by decide
  have hspace : isSpace (chr '[') = false ∧ isSpace (chr ']') = false := by decide
  have hallows : addressPattern.re.allows (chr '[') = false ∧
      addressPattern.re.allows (chr ']') = false := by
    simp [addressPattern, seqs, upTo, opt, plus, Regex.allows, lit, str, hl, hr, hstreet, hsuffix,
      hspace, chr_inj]
  refine apart_marker category (notMem_of_allows h hallows.1) (notMem_of_allows h hallows.2) ?_
  obtain ⟨c, u, rfl, hc⟩ := mem_address h
  exact ⟨c, List.mem_cons_self, decimal_notMem_marker hc category⟩

theorem PiiCategory.proper (category : PiiCategory) : category.pattern.Proper := by
  cases category with
  | phone => exact ⟨rfl, fun t ht => (phone_apart ht .phone).ne_nil⟩
  | email => exact ⟨rfl, fun t ht => (email_apart ht .email).ne_nil⟩
  | url =>
    refine ⟨rfl, fun t ht => ?_⟩
    obtain ⟨u, hu, v, hv, -, rfl⟩ := mem_url.mp ht
    exact List.append_ne_nil_of_right_ne_nil u hv
  | address => exact ⟨rfl, fun t ht => (address_apart ht .address).ne_nil⟩

/-! ## One pass -/

/-- One pass over the text. -/
def PiiCategory.redact (category : PiiCategory) (s : Str) : Str :=
  sub [category.pattern] category.marker s

theorem PiiCategory.redact_eq (category : PiiCategory) (s : Str) :
    category.redact s = substText category.marker (pieces [category.pattern] s) := sub_eq _ _ s

variable {category : PiiCategory} {s d : Str} {ps qs : List Piece}

/-- What stood between the hits of a pass, where the text after it has a text that no marker has. -/
theorem PiiCategory.pieces_of_redact {a b : Str} (hd : Apart category.marker d)
    (h : category.redact s = a ++ d ++ b) : ∃ ps qs,
      pieces [category.pattern] s = ps ++ d.map .plain ++ qs ∧
        substText category.marker ps = a ∧ substText category.marker qs = b :=
  plain_of_subst hd (by rw [← category.redact_eq, h])

theorem PiiCategory.text_of_pieces
    (hs : pieces [category.pattern] s = ps ++ d.map .plain ++ qs) :
    s = pieceText ps ++ d ++ pieceText qs := by
  rw [← text_pieces category.proper s, hs, pieceText_append, pieceText_append, pieceText_plain]

/-- A match in the pieces of another pass is one in the text. -/
theorem finds_of_pieces {other : PiiCategory} {t after : Str}
    (hs : pieces [category.pattern] s = ps ++ d.map .plain ++ qs)
    (heq : t ++ after = d ++ pieceText qs)
    (hm : other.pattern.Matches (pieceText ps).reverse t after) : other.pattern.Finds s := by
  refine (finds_iff other.proper).mpr ⟨pieceText ps, t, after, ?_, hm⟩
  rw [PiiCategory.text_of_pieces hs, List.append_assoc, List.append_assoc, heq]

/-- A match of a pattern after a pass comes of one that stood there before, for this pattern too: there
is none for the pattern of the pass. -/
def Kept (other category : PiiCategory) : Prop :=
  ∀ s, other.pattern.Finds (category.redact s) → ∃ ps d qs t after,
    pieces [category.pattern] s = ps ++ d.map .plain ++ qs ∧ d ≠ [] ∧
      t ++ after = d ++ pieceText qs ∧ other.pattern.Matches (pieceText ps).reverse t after

theorem Kept.finds {other : PiiCategory} (h : Kept other category)
    (hf : other.pattern.Finds (category.redact s)) : other.pattern.Finds s := by
  obtain ⟨ps, d, qs, t, after, hs, -, heq, hm⟩ := h s hf
  exact finds_of_pieces hs heq hm

theorem Kept.not_finds (h : Kept category category) (s : Str) :
    ¬ category.pattern.Finds (category.redact s) := by
  intro hf
  obtain ⟨ps, d, qs, t, after, hs, hd, heq, hm⟩ := h s hf
  exact not_matches_plain category.proper hd hs heq hm

theorem email_kept (category : PiiCategory) : Kept .email category := by
  intro s hf
  obtain ⟨a, d, b, hredact, hm⟩ := (finds_iff (PiiCategory.proper .email)).mp hf
  have hd := email_apart hm.mem category
  obtain ⟨ps, qs, hs, -, -⟩ := category.pieces_of_redact hd hredact
  exact ⟨ps, d, qs, d, pieceText qs, hs, hd.ne_nil, rfl, ⟨rfl, hm.mem, rfl⟩⟩

/-- A URL is kept where what is replaced begins as a URL can go on. -/
theorem url_kept (hchar : ∀ t ∈ category.pattern.re.lang, ∃ c u, t = c :: u ∧ urlChar c = true) :
    Kept .url category := by
  intro s hf
  obtain ⟨a, d, b, hredact, hm⟩ := (finds_iff (PiiCategory.proper .url)).mp hf
  obtain ⟨u, hu, v, hv, hchars, rfl⟩ := mem_url.mp hm.mem
  obtain ⟨hne, huchars, hl, hr, c, hc, hforeign⟩ := urlScheme_split hu
  have hd := apart_marker category hl hr ⟨c, hc, hforeign category⟩
  have hredact' : category.redact s = a ++ u ++ (v ++ b) := by
    rw [hredact]
    simp only [List.append_assoc]
  obtain ⟨ps, qs, hs, -, hqs⟩ := category.pieces_of_redact hd hredact'
  -- the character behind the scheme, as it was before the pass
  obtain ⟨x, rest, htext, hx⟩ : ∃ x rest, pieceText qs = x :: rest ∧ urlChar x = true := by
    cases qs with
    | nil =>
      have hnil := List.append_eq_nil_iff.mp hqs.symm
      exact absurd hnil.1 hv
    | cons q qs =>
      cases q with
      | plain x =>
        obtain ⟨y, w, rfl⟩ := List.exists_cons_of_ne_nil hv
        rw [substText_cons, Piece.subst, List.singleton_append, List.cons_append] at hqs
        obtain ⟨rfl, -⟩ := List.cons_eq_cons.mp hqs
        exact ⟨x, pieceText qs, rfl, hchars x List.mem_cons_self⟩
      | hit t =>
        obtain ⟨y, w, rfl, hy⟩ := hchar t (matches_hit category.proper hs).mem
        exact ⟨y, w ++ pieceText qs, rfl, hy⟩
  refine ⟨ps, u, qs, u ++ [x], rest, hs, hne, by rw [htext]; simp, ⟨rfl, ?_, rfl⟩⟩
  exact mem_url.mpr ⟨u, hu, [x], List.cons_ne_nil x [], List.forall_mem_singleton.mpr hx, rfl⟩

theorem url_kept_url : Kept .url .url := by
  refine url_kept fun t ht => ?_
  obtain ⟨u, hu, v, -, -, rfl⟩ := mem_url.mp ht
  obtain ⟨hne, huchars, -⟩ := urlScheme_split hu
  obtain ⟨c, w, rfl⟩ := List.exists_cons_of_ne_nil hne
  exact ⟨c, w ++ v, rfl, huchars c List.mem_cons_self⟩

theorem url_kept_address (hdec : DecimalTables) : Kept .url .address := by
  refine url_kept fun t ht => ?_
  obtain ⟨c, u, rfl, hc⟩ := mem_address ht
  refine ⟨c, _, rfl, ?_⟩
  have hnot : oneOf "<>\"')" c = false := by
    rw [oneOf, decide_eq_false_iff_not]
    exact decimal_notMem hc (by decide)
  rw [urlChar, (hdec c hc).2, hnot]
  rfl

/-! ## Word boundaries -/

/-- The text begins with a word character. -/
def startsWord (s : Str) : Bool := s.head?.any Unicode.isWord

theorem punctuation_not_word : Unicode.isWord (chr '[') = false ∧ Unicode.isWord (chr ']') = false ∧
    Unicode.isWord (chr '.') = false := by
  rw [Unicode.isWord_ascii _ (by decide), Unicode.isWord_ascii _ (by decide),
    Unicode.isWord_ascii _ (by decide)]
  decide

theorem wordBoundary_eq (before after : Str) :
    wordBoundary before after = (startsWord before != startsWord after) := rfl

/-- An address ends as its marker does, without a word character. -/
theorem startsWord_reverse (hs : pieces [addressPattern] s = ps ++ qs) :
    startsWord (pieceText ps).reverse = startsWord (substText PiiCategory.address.marker ps).reverse := by
  rcases List.eq_nil_or_concat' ps with rfl | ⟨ps, p, rfl⟩
  · rfl
  rw [pieceText_append, substText_append, List.reverse_append, List.reverse_append]
  cases p with
  | plain c => rfl
  | hit t =>
    rw [List.append_assoc] at hs
    obtain ⟨c, u, rfl, -⟩ := mem_address (matches_hit (PiiCategory.proper .address) hs).mem
    have hmarker : PiiCategory.address.marker = str "[REDACTED_ADDRESS" ++ [chr ']'] := by decide
    have hdot : str "." = [chr '.'] := rfl
    simp [startsWord, Piece.text, Piece.subst, hmarker, hdot, punctuation_not_word]

theorem address_kept : Kept .address .address := by
  intro s hf
  obtain ⟨a, d, b, hredact, hm⟩ := (finds_iff (PiiCategory.proper .address)).mp hf
  have hd := address_apart hm.mem .address
  obtain ⟨ps, qs, hs, ha, -⟩ := PiiCategory.address.pieces_of_redact hd hredact
  refine ⟨ps, d, qs, d, pieceText qs, hs, hd.ne_nil, rfl, ⟨?_, hm.mem, rfl⟩⟩
  rw [List.append_assoc] at hs
  have hstart : wordBoundary a.reverse (d ++ b) = true := hm.start
  obtain ⟨c, u, rfl, -⟩ := mem_address hm.mem
  show wordBoundary (pieceText ps).reverse _ = true
  rw [wordBoundary_eq, startsWord_reverse hs, ha]
  exact hstart

theorem startsWord_subst (h : startsWord (pieceText qs) = false) :
    startsWord (substText category.marker qs) = false := by
  cases qs with
  | nil => rfl
  | cons q qs =>
    cases q with
    | plain c => exact h
    | hit t =>
      obtain ⟨w, hw⟩ := category.marker_eq
      rw [substText_cons, Piece.subst, hw]
      exact punctuation_not_word.1

/-! ## Numbers that are left -/

/-- `PHONE_RE` without its `\b` matches all of it. -/
def numberShaped (d : Str) : Bool := (run phonePattern.re ⟨[], d, []⟩).any fun q => q.after.isEmpty

theorem numberShaped_iff : numberShaped d = true ↔ d ∈ phonePattern.re.lang := by
  rw [numberShaped, List.any_eq_true]
  constructor
  · rintro ⟨q, hq, hempty⟩
    obtain ⟨t, ht, hadv⟩ := (mem_run_iff rfl).mp hq
    have hafter : d = t ++ q.after := hadv.after
    rw [List.isEmpty_iff.mp hempty, List.append_nil] at hafter
    rwa [hafter]
  · intro hd
    refine ⟨⟨d.reverse, [], []⟩, (mem_run_iff rfl).mpr ⟨d, hd, ?_, ?_, rfl⟩, rfl⟩
    · exact (List.append_nil d).symm
    · exact (List.append_nil d.reverse).symm

/-- A number is a match where no word character follows. -/
theorem phone_matches_iff (hdec : DecimalTables) {before after : Str} :
    phonePattern.Matches before d after ↔ numberShaped d = true ∧ startsWord after = false := by
  have hlast : d ∈ phonePattern.re.lang → startsWord (d.reverse ++ before) = true := by
    intro hd
    obtain ⟨u, c, rfl, hc⟩ := last_of_mem_phone hd
    rw [List.reverse_append]
    exact (hdec c hc).1
  rw [numberShaped_iff]
  constructor
  · rintro ⟨-, hd, hstop⟩
    refine ⟨hd, ?_⟩
    have hboundary : wordBoundary (d.reverse ++ before) after = true := hstop
    rw [wordBoundary_eq, hlast hd] at hboundary
    simpa using hboundary
  · rintro ⟨hd, hafter⟩
    refine ⟨rfl, hd, ?_⟩
    show wordBoundary (d.reverse ++ before) after = true
    rw [wordBoundary_eq, hlast hd, hafter]
    rfl

/-- The passes one after the other. -/
def redactText (passes : List PiiCategory) (text : Str) : Str :=
  passes.foldl (fun s category => category.redact s) text

/-- `d`, between what lies before and after it, stands outside the matches of each of the passes. -/
def StaysPlain : List PiiCategory → Str → Str → Str → Prop
  | [], _, _, _ => True
  | category :: passes, before, d, after => ∃ ps qs,
    pieces [category.pattern] (before ++ d ++ after) = ps ++ d.map .plain ++ qs ∧
      pieceText ps = before ∧ pieceText qs = after ∧
      StaysPlain passes (substText category.marker ps) d (substText category.marker qs)

/-- One of the passes replaces a match directly behind a number that stands outside its matches, and
outside those of the later ones. -/
def Uncovered : List PiiCategory → Str → Prop
  | [], _ => False
  | category :: passes, text =>
    (∃ ps d t qs, numberShaped d = true ∧
      pieces [category.pattern] text = ps ++ d.map .plain ++ .hit t :: qs ∧
      StaysPlain passes (substText category.marker ps) d (substText category.marker (.hit t :: qs))) ∨
    Uncovered passes (category.redact text)

/-- A pass that leaves no digit leaves no number uncovered. -/
theorem not_uncovered_cons {passes : List PiiCategory} {text : Str}
    (hplain : ∀ c, .plain c ∈ pieces [category.pattern] text → isDecimal c = false)
    (hrest : ¬ Uncovered passes (category.redact text)) : ¬ Uncovered (category :: passes) text := by
  rintro (⟨ps, d, t, qs, hd, hs, -⟩ | h)
  · obtain ⟨u, c, rfl, hc⟩ := last_of_mem_phone (numberShaped_iff.mp hd)
    have hmem : Piece.plain c ∈ pieces [category.pattern] text := by
      rw [hs]
      simp
    rw [hplain c hmem] at hc
    cases hc
  · exact hrest h

/-- In a text without digits there is none. -/
theorem not_uncovered_of_digitless {passes : List PiiCategory} {text : Str}
    (h : ∀ c ∈ text, isDecimal c = false) : ¬ Uncovered passes text := by
  induction passes generalizing text with
  | nil => exact id
  | cons category passes ih =>
    have hplain : ∀ c, .plain c ∈ pieces [category.pattern] text → isDecimal c = false := by
      intro c hc
      refine h c ?_
      rw [← text_pieces category.proper text]
      exact List.mem_flatMap.mpr ⟨_, hc, List.mem_singleton_self c⟩
    refine not_uncovered_cons hplain (ih fun c hc => ?_)
    rw [category.redact_eq] at hc
    obtain ⟨piece, hpiece, hin⟩ := List.mem_flatMap.mp hc
    cases piece with
    | plain x =>
      obtain rfl := List.mem_singleton.mp hin
      exact hplain _ hpiece
    | hit t =>
      by_contra hdigit
      exact decimal_notMem_marker (Bool.not_eq_false _ ▸ hdigit) category hin

theorem redact_of_pieces (hs : pieces [category.pattern] s = ps ++ d.map .plain ++ qs) :
    category.redact s = substText category.marker ps ++ d ++ substText category.marker qs := by
  rw [category.redact_eq, hs, substText_append, substText_append, substText_plain]

/-- A number that stays keeps what is no word character behind it. -/
theorem StaysPlain.redactText {passes : List PiiCategory} {a b : Str} (h : StaysPlain passes a d b)
    (hb : startsWord b = false) : ∃ a' b', redactText passes (a ++ d ++ b) = a' ++ d ++ b' ∧
      startsWord b' = false := by
  induction passes generalizing a b with
  | nil => exact ⟨a, b, rfl, hb⟩
  | cons category passes ih =>
    obtain ⟨ps, qs, hs, -, rfl, hrest⟩ := h
    have htail := ih hrest (startsWord_subst hb)
    rwa [← redact_of_pieces hs] at htail

theorem Uncovered.finds (hdec : DecimalTables) {passes : List PiiCategory} {text : Str}
    (h : Uncovered passes text) : phonePattern.Finds (redactText passes text) := by
  induction passes generalizing text with
  | nil => cases h
  | cons category passes ih =>
    rcases h with ⟨ps, d, t, qs, hd, hs, hstays⟩ | h
    · have hmarker : startsWord (substText category.marker (.hit t :: qs)) = false := by
        obtain ⟨w, hw⟩ := category.marker_eq
        rw [substText_cons, Piece.subst, hw]
        exact punctuation_not_word.1
      obtain ⟨a, b, hredact, hb⟩ := hstays.redactText hmarker
      rw [← redact_of_pieces hs] at hredact
      exact (finds_iff (PiiCategory.proper .phone)).mpr
        ⟨a, d, b, hredact, (phone_matches_iff hdec).mpr ⟨hd, hb⟩⟩
    · exact ih h

/-- A number in the text after the passes: it was followed by no word character before them, or one
of them has replaced what followed. -/
theorem stays_or_uncovered {passes : List PiiCategory} {text a b : Str}
    (hd : numberShaped d = true) (h : redactText passes text = a ++ d ++ b)
    (hb : startsWord b = false) :
    (∃ a' b', text = a' ++ d ++ b' ∧ startsWord b' = false ∧ StaysPlain passes a' d b') ∨
      Uncovered passes text := by
  induction passes generalizing text with
  | nil => exact .inl ⟨a, b, h, hb, trivial⟩
  | cons category passes ih =>
    rcases ih h with ⟨a', b', hredact, hb', hstays⟩ | hrest
    · obtain ⟨ps, qs, hs, rfl, rfl⟩ :=
        category.pieces_of_redact (phone_apart (numberShaped_iff.mp hd) category) hredact
      have htext := PiiCategory.text_of_pieces hs
      rw [htext] at hs
      have hleft : startsWord (pieceText qs) = false → ∃ a' b', text = a' ++ d ++ b' ∧
          startsWord b' = false ∧ StaysPlain (category :: passes) a' d b' := fun hq =>
        ⟨pieceText ps, pieceText qs, htext, hq, ps, qs, hs, rfl, rfl, hstays⟩
      cases qs with
      | nil => exact .inl (hleft rfl)
      | cons q qs =>
        cases q with
        | plain c => exact .inl (hleft hb')
        | hit t =>
          rw [← htext] at hs
          exact .inr (.inl ⟨ps, d, t, qs, hd, hs, hstays⟩)
    · exact .inr (.inr hrest)

/-! ## The whole redaction -/

theorem redactCategory_eq (st : Str × List (PiiCategory × Nat)) (category : PiiCategory) :
    redactCategory st category =
      (category.redact st.1, st.2 ++ [(category, hits [category.pattern] st.1)]) := by
  unfold redactCategory PiiCategory.redact
  by_cases hzero : hits [category.pattern] st.1 = 0
  · simp only [hzero, if_true, sub_of_hits_eq_zero category.proper hzero]
  · simp only [if_neg hzero]

theorem foldl_redactCategory_fst (passes : List PiiCategory) (st : Str × List (PiiCategory × Nat)) :
    (passes.foldl redactCategory st).1 = redactText passes st.1 := by
  induction passes generalizing st with
  | nil => rfl
  | cons category passes ih =>
    rw [List.foldl_cons, ih, redactCategory_eq]
    rfl

theorem redactPii_text (text : Str) : (redactPii text).1 = redactText piiCategories text :=
  foldl_redactCategory_fst piiCategories (text, [])

/-- Nothing changes where there is no match. -/
theorem redactPii_of_not_finds (h : ∀ category : PiiCategory, ¬ category.pattern.Finds s) :
    redactPii s = (s, piiCategories.map fun category => (category, 0)) := by
  have hfold : ∀ (passes : List PiiCategory) (counts : List (PiiCategory × Nat)),
      passes.foldl redactCategory (s, counts) =
        (s, counts ++ passes.map fun category => (category, 0)) := by
    intro passes
    induction passes with
    | nil => exact fun counts => by rw [List.foldl_nil, List.map_nil, List.append_nil]
    | cons category passes ih =>
      intro counts
      have hzero := (hits_eq_zero_iff category.proper).mpr (h category)
      have hsame : category.redact s = s := sub_of_hits_eq_zero category.proper hzero
      rw [List.foldl_cons, redactCategory_eq, hsame, hzero, ih, List.append_assoc]
      rfl
  exact hfold piiCategories []

/-- No number is left in a match when none is uncovered. -/
theorem phone_not_finds (hdec : DecimalTables) {text : Str} (h : ¬ Uncovered piiCategories text) :
    ¬ phonePattern.Finds (redactText piiCategories text) := by
  intro hf
  obtain ⟨a, d, b, hredact, hm⟩ := (finds_iff (PiiCategory.proper .phone)).mp hf
  obtain ⟨hd, hb⟩ := (phone_matches_iff hdec).mp hm
  rcases stays_or_uncovered hd hredact hb with ⟨a', b', rfl, hb', hstays⟩ | huncovered
  · obtain ⟨ps, qs, hs, -, rfl, -⟩ := hstays
    have hne := (phone_apart (numberShaped_iff.mp hd) .phone).ne_nil
    exact not_matches_plain (PiiCategory.proper .phone) hne hs rfl
      ((phone_matches_iff hdec).mpr ⟨hd, hb'⟩)
  · exact h huncovered

theorem redactText_categories (text : Str) : redactText piiCategories text =
    PiiCategory.address.redact (PiiCategory.url.redact (PiiCategory.email.redact
      (PiiCategory.phone.redact text))) := by
  simp only [redactText, piiCategories, List.foldl_cons, List.foldl_nil]

theorem email_not_finds (text : Str) :
    ¬ PiiCategory.email.pattern.Finds (redactText piiCategories text) := by
  rw [redactText_categories]
  intro hf
  have hurl := (email_kept .address).finds hf
  have hemail := (email_kept .url).finds hurl
  exact (email_kept .email).not_finds _ hemail

theorem url_not_finds (hdec : DecimalTables) (text : Str) :
    ¬ PiiCategory.url.pattern.Finds (redactText piiCategories text) := by
  rw [redactText_categories]
  intro hf
  have hurl := (url_kept_address hdec).finds hf
  exact url_kept_url.not_finds _ hurl

theorem address_not_finds (text : Str) :
    ¬ PiiCategory.address.pattern.Finds (redactText piiCategories text) := by
  rw [redactText_categories]
  exact address_kept.not_finds _

/-- Redaction is complete exactly when no number is uncovered. -/
theorem redactPii_complete_iff (hdec : DecimalTables) (text : Str) :
    ((∀ category : PiiCategory, ¬ category.pattern.Finds (redactPii text).1) ∧
      redactPii (redactPii text).1 =
        ((redactPii text).1, piiCategories.map fun category => (category, 0))) ↔
    ¬ Uncovered piiCategories text := by
  rw [redactPii_text]
  constructor
  · rintro ⟨hnone, -⟩ huncovered
    exact hnone .phone (huncovered.finds hdec)
  · intro h
    have hnone : ∀ category : PiiCategory,
        ¬ category.pattern.Finds (redactText piiCategories text) := by
      intro category
      cases category with
      | phone => exact phone_not_finds hdec h
      | email => exact email_not_finds text
      | url => exact url_not_finds hdec text
      | address => exact address_not_finds text
    exact ⟨hnone, redactPii_of_not_finds hnone⟩

end Redaction

/-! ## Two numbers without anything between them -/

def gluedNumbers : Str := "555-123-4567555-987-6543"

theorem gluedNumbers_redacted : (@redactPii asciiUnicode gluedNumbers).1 =
    "555-123-4567[REDACTED_PHONE]" := by
  decide +kernel

theorem gluedNumbers_finds : (@phonePattern asciiUnicode).Finds
    (@redactPii asciiUnicode gluedNumbers).1 := by
  rw [gluedNumbers_redacted]
  exact ⟨[], _, rfl, by decide +kernel⟩

theorem decimalTables_ascii : @DecimalTables asciiUnicode := by
  let _ := asciiUnicode
  intro c hc
  have hdigit : isDigit c = true := by
    by_contra hnot
    rw [isDecimal, show Unicode.decimal c = none from if_neg hnot] at hc
    cases hc
  refine ⟨?_, ?_⟩
  · show (isAsciiLetter c || isDigit c || c == 95) = true
    rw [hdigit]
    simp
  · have hrange := isDigit_iff.mp hdigit
    simp only [isSpace]
    simp
    omega

/-- A number with blanks around it. -/
def soleNumber : Str := "Call 555-123-4567 now."

theorem soleNumber_redacted : (@redactPii asciiUnicode soleNumber).1 = "Call [REDACTED_PHONE] now." ∧
    (@PiiCategory.redact asciiUnicode .phone soleNumber).all (fun c => !@isDecimal asciiUnicode c) ∧
    (pieces [@phonePattern asciiUnicode] soleNumber).all fun
      | .plain c => !@isDecimal asciiUnicode c
      | .hit _ => true := by
  decide +kernel

/-- Of two numbers with nothing between them only the second is redacted, a sole one is. -/
theorem numbers_redacted : @Uncovered asciiUnicode piiCategories gluedNumbers ∧
    (@redactPii asciiUnicode soleNumber).1 = "Call [REDACTED_PHONE] now." ∧
    ∀ category : PiiCategory, ¬ (@PiiCategory.pattern asciiUnicode category).Finds
      (@redactPii asciiUnicode soleNumber).1 := by
  let _ := asciiUnicode
  obtain ⟨hredacted, hrest, hplain⟩ := soleNumber_redacted
  refine ⟨?_, hredacted, ?_⟩
  · by_contra h
    have hnone := ((redactPii_complete_iff decimalTables_ascii gluedNumbers).mpr h).1 .phone
    exact hnone gluedNumbers_finds
  · refine ((redactPii_complete_iff decimalTables_ascii soleNumber).mpr ?_).1
    refine not_uncovered_cons (fun c hc => ?_) (not_uncovered_of_digitless fun c hc => ?_)
    · simpa using List.all_eq_true.mp hplain _ hc
    · simpa using List.all_eq_true.mp hrest c hc

theorem gluedNumbers_not_complete :
    ¬ ∀ text : Str, (∀ category : PiiCategory, ¬ (@PiiCategory.pattern asciiUnicode category).Finds
        (@redactPii asciiUnicode text).1) ∧
      @redactPii asciiUnicode (@redactPii asciiUnicode text).1 = ((@redactPii asciiUnicode text).1,
        piiCategories.map fun category => (category, 0)) := by
  intro h
  have hnone := (h gluedNumbers).1 .phone
  exact hnone gluedNumbers_finds

end DealershipAgent
