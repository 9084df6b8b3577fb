import Mathlib.Data.List.Chain
import DealershipAgent.Py.Json.Text

/-!
# What is read back of `json.dumps`

* `Val.regular`: what is read of an ASCII text has no surrogate pair in two code points and no key
  twice.
* `loads_dumps`: such a value is read back as it was written.
* `dumpsWith_sorted_inj`: with `sort_keys`, two such values are written alike if and only if they are
  the same up to the order of members.
-/

namespace Py
namespace Json

/-! ## Strings -/

/-- No surrogate pair stands in the string as two code points. -/
def NoSplitPair (s : Str) : Prop :=
  s.IsChain fun c d => ¬ (isHighSurrogate c = true ∧ isLowSurrogate d = true)

instance (s : Str) : Decidable (NoSplitPair s) := inferInstanceAs (Decidable (List.IsChain _ s))

theorem isHighSurrogate_iff {c : CodePoint} :
    isHighSurrogate c = true ↔ 0xd800 ≤ c.val ∧ c.val ≤ 0xdbff := by
  simp [isHighSurrogate]

theorem isLowSurrogate_iff {c : CodePoint} :
    isLowSurrogate c = true ↔ 0xdc00 ≤ c.val ∧ c.val ≤ 0xdfff := by
  simp [isLowSurrogate]

theorem codePoint_val {n : Nat} (h : n < 0x110000) : (codePoint n).val = n := Nat.mod_eq_of_lt h

/-- Of the code units of a code point only its own can be the second half of a pair. -/
theorem dumpUnits_head (c : CodePoint) :
    ∃ u us, dumpUnits c = u :: us ∧ (isLowSurrogate u.code = true → u.code = c) := by
  have hc := c.isLt
  unfold dumpUnits
  split
  · exact ⟨_, _, rfl, fun _ => rfl⟩
  split
  · exact ⟨_, _, rfl, fun _ => rfl⟩
  · refine ⟨_, _, rfl, fun h => ?_⟩
    rw [isLowSurrogate_iff, codePoint_val (by omega)] at h
    omega

/-- A string is read back as it was written. -/
theorem joinPairs_dumpUnits {s : Str} (h : NoSplitPair s) :
    joinPairs (s.flatMap dumpUnits) = s := by
  induction s with
  | nil => rfl
  | cons c s ih =>
    obtain ⟨hhead, htail⟩ := List.isChain_cons.mp h
    have ih := ih htail
    rw [List.flatMap_cons]
    have hone : ∀ e : Bool, joinPairs ([⟨e, c⟩] ++ s.flatMap dumpUnits) = c :: s := by
      intro e
      cases s with
      | nil => rfl
      | cons d s =>
        obtain ⟨w, ws, hd, hlow⟩ := dumpUnits_head d
        rw [List.flatMap_cons, hd] at ih ⊢
        rw [List.singleton_append, List.cons_append, joinPairs, if_neg]
        · rw [← List.cons_append, ih]
        · intro hpair
          simp only [Bool.and_eq_true] at hpair
          refine hhead d rfl ⟨hpair.1.2, ?_⟩
          rw [← hlow hpair.2]
          exact hpair.2
    have hc := c.isLt
    rw [dumpUnits]
    split
    · exact hone _
    split
    · exact hone _
    · have hhigh : (codePoint (0xd800 + (c.val - 0x10000) / 0x400)).val =
          0xd800 + (c.val - 0x10000) / 0x400 := codePoint_val (by omega)
      have hlow : (codePoint (0xdc00 + (c.val - 0x10000) % 0x400)).val =
          0xdc00 + (c.val - 0x10000) % 0x400 := codePoint_val (by omega)
      have hjoin : joinSurrogates (codePoint (0xd800 + (c.val - 0x10000) / 0x400))
          (codePoint (0xdc00 + (c.val - 0x10000) % 0x400)) = c := by
        rw [joinSurrogates, hhigh, hlow]
        exact Fin.ext ((codePoint_val (by omega)).trans (by omega))
      rw [List.cons_append, List.cons_append, List.nil_append, joinPairs, if_pos, ih, hjoin]
      simp only [Bool.and_eq_true, isHighSurrogate_iff, isLowSurrogate_iff, hhigh, hlow]
      refine ⟨⟨⟨trivial, trivial⟩, ?_⟩, ?_⟩ <;> omega

/-- Every character is an ASCII one. -/
def Ascii (s : Str) : Prop := ∀ c ∈ s, c.val < 128

instance (s : Str) : Decidable (Ascii s) := List.decidableBAll _ s

theorem Ascii.units {b : Str} {us : List StrUnit} (hb : Ascii b) (h : Units b us) :
    ∀ u ∈ us, u.escaped = true ∨ u.code.val < 128 := by
  induction h with
  | nil => exact fun u hu => by cases hu
  | @plain c t us h₁ h₂ h₃ h ih =>
    obtain ⟨hc, ht⟩ := List.forall_mem_cons.mp hb
    exact List.forall_mem_cons.mpr ⟨.inr hc, ih ht⟩
  | @escape e d t us he h ih =>
    refine List.forall_mem_cons.mpr ⟨.inr ?_, ih fun c hc => hb c (by simp [hc])⟩
    have he' : e.val < 128 := hb e (by simp)
    unfold simpleEscape at he
    split_ifs at he <;> cases he <;> first | exact he' | decide
  | unicode hx h ih => exact List.forall_mem_cons.mpr ⟨.inl rfl, ih fun c hc => hb c (by simp [hc])⟩

/-- A code point that is joined from a pair is behind all surrogates. -/
theorem joinPairs_head (u : StrUnit) (us : List StrUnit) :
    ∃ c s, joinPairs (u :: us) = c :: s ∧ (isLowSurrogate c = true → c = u.code) := by
  cases us with
  | nil => exact ⟨_, _, rfl, fun _ => rfl⟩
  | cons w us =>
    rw [joinPairs]
    split
    · next hpair =>
      refine ⟨_, _, rfl, fun h => ?_⟩
      simp only [Bool.and_eq_true, isHighSurrogate_iff, isLowSurrogate_iff] at hpair
      rw [isLowSurrogate_iff, joinSurrogates, codePoint_val] at h <;> omega
    · exact ⟨_, _, rfl, fun _ => rfl⟩

/-- Where every surrogate is an escape, no pair is left in two. -/
theorem noSplitPair_joinPairs {us : List StrUnit}
    (h : ∀ u ∈ us, u.escaped = true ∨ u.code.val < 128) : NoSplitPair (joinPairs us) := by
  fun_induction joinPairs us with
  | case1 => exact .nil
  | case2 u => exact .singleton _
  | case3 u w us hpair ih =>
    refine List.isChain_cons.mpr ⟨fun d _ hsplit => ?_, ih fun v hv => h v (by simp [hv])⟩
    simp only [Bool.and_eq_true, isHighSurrogate_iff, isLowSurrogate_iff] at hpair
    have hhigh := isHighSurrogate_iff.mp hsplit.1
    rw [joinSurrogates, codePoint_val] at hhigh <;> omega
  | case4 u w us hpair ih =>
    obtain ⟨hu, hw⟩ := List.forall_mem_cons.mp h
    refine List.isChain_cons.mpr ⟨fun d hd hsplit => hpair ?_, ih hw⟩
    obtain ⟨c, s, hc, hlow⟩ := joinPairs_head w us
    rw [hc] at hd
    obtain rfl : c = d := Option.some.inj hd
    have hhigh := isHighSurrogate_iff.mp hsplit.1
    have hcode := hlow hsplit.2
    have hlow' := isLowSurrogate_iff.mp hsplit.2
    rw [hcode] at hlow' hsplit
    have hw' := (List.forall_mem_cons.mp hw).1
    simp only [Bool.and_eq_true]
    exact ⟨⟨⟨hu.resolve_right (by omega), hw'.resolve_right (by omega)⟩, hsplit.1⟩, hsplit.2⟩

/-! ## Values -/

section Values

variable {F : Type}

mutual
/-- No string has a surrogate pair in two code points, and no object has a key twice. -/
def Regular : Json F → Prop
  | string s => NoSplitPair s
  | array xs => RegularItems xs
  | object kvs => (kvs.map Prod.fst).Nodup ∧ RegularMembers kvs
  | _ => True

def RegularItems : List (Json F) → Prop
  | [] => True
  | x :: xs => Regular x ∧ RegularItems xs

def RegularMembers : List (Str × Json F) → Prop
  | [] => True
  | (k, v) :: kvs => NoSplitPair k ∧ Regular v ∧ RegularMembers kvs
end

mutual
/-- The value with the members of its objects in the order of their keys. -/
def sortKeys : Json F → Json F
  | array xs => array (sortKeysItems xs)
  | object kvs => object (sortMembers (sortKeysMembers kvs))
  | v => v

def sortKeysItems : List (Json F) → List (Json F)
  | [] => []
  | x :: xs => sortKeys x :: sortKeysItems xs

def sortKeysMembers : List (Str × Json F) → List (Str × Json F)
  | [] => []
  | (k, v) :: kvs => (k, sortKeys v) :: sortKeysMembers kvs
end

theorem regularMembers_iff {kvs : List (Str × Json F)} :
    RegularMembers kvs ↔ ∀ kv ∈ kvs, NoSplitPair kv.1 ∧ Regular kv.2 := by
  induction kvs with
  | nil => simp [RegularMembers]
  | cons kv kvs ih => simp [RegularMembers, ih, and_assoc]

theorem sortKeysMembers_keys (kvs : List (Str × Json F)) :
    (sortKeysMembers kvs).map Prod.fst = kvs.map Prod.fst := by
  induction kvs with
  | nil => rfl
  | cons kv kvs ih => rw [sortKeysMembers, List.map_cons, List.map_cons, ih]

mutual
theorem Regular.sortKeys : ∀ {v : Json F}, Regular v → Regular (sortKeys v)
  | null, h | bool _, h | int _, h | float _, h | string _, h => h
  | array _, h => RegularItems.sortKeys h
  | object kvs, ⟨hkeys, hkvs⟩ => by
    have hperm : (sortMembers (sortKeysMembers kvs)).Perm (sortKeysMembers kvs) :=
      List.perm_insertionSort _ _
    refine ⟨?_, regularMembers_iff.mpr fun kv hkv => ?_⟩
    · rw [(hperm.map Prod.fst).nodup_iff, sortKeysMembers_keys]
      exact hkeys
    · exact regularMembers_iff.mp (RegularMembers.sortKeys hkvs) kv (hperm.mem_iff.mp hkv)

theorem RegularItems.sortKeys : ∀ {xs : List (Json F)}, RegularItems xs →
    RegularItems (sortKeysItems xs)
  | [], _ => trivial
  | _ :: _, ⟨hx, hxs⟩ => ⟨Regular.sortKeys hx, RegularItems.sortKeys hxs⟩

theorem RegularMembers.sortKeys : ∀ {kvs : List (Str × Json F)}, RegularMembers kvs →
    RegularMembers (sortKeysMembers kvs)
  | [], _ => trivial
  | _ :: _, ⟨hk, hv, hkvs⟩ => ⟨hk, Regular.sortKeys hv, RegularMembers.sortKeys hkvs⟩
end

/-! ## Dictionaries -/

theorem dictSet_append {d : List (Str × Json F)} {key : Str} (h : key ∉ d.map Prod.fst)
    (v : Json F) : dictSet d key v = d ++ [(key, v)] := by
  induction d with
  | nil => rfl
  | cons kv d ih =>
    rw [List.map_cons, List.mem_cons, not_or] at h
    rw [dictSet, if_neg (Ne.symm h.1), ih h.2, List.cons_append]

/-- A new entry is found where the old ones have nothing under its key. -/
theorem lookup_concat (d : List (Str × Json F)) (key : Str) (v : Json F) (k : Str) :
    (d ++ [(key, v)]).lookup k = (d.lookup k).or (if k = key then some v else none) := by
  rw [List.lookup_append]
  congr 1
  by_cases hk : k = key
  · rw [if_pos hk, hk]
    exact List.lookup_cons_self
  · have hne : (k == key) = false := beq_eq_false_iff_ne.mpr hk
    rw [if_neg hk, List.lookup_cons, hne]
    rfl

theorem mem_dictSet {d : List (Str × Json F)} {key : Str} {v : Json F} {kv : Str × Json F}
    (h : kv ∈ dictSet d key v) : kv = (key, v) ∨ kv ∈ d := by
  induction d with
  | nil => exact .inl (List.mem_singleton.mp h)
  | cons kv' d ih =>
    rw [dictSet] at h
    split at h
    · next hk =>
      rw [hk] at h
      exact (List.mem_cons.mp h).imp_right (List.mem_cons_of_mem _)
    · rcases List.mem_cons.mp h with rfl | h
      · exact .inr List.mem_cons_self
      · exact (ih h).imp_right (List.mem_cons_of_mem _)

theorem dictSet_keys_nodup {d : List (Str × Json F)} (h : (d.map Prod.fst).Nodup) (key : Str)
    (v : Json F) : ((dictSet d key v).map Prod.fst).Nodup := by
  by_cases hk : key ∈ d.map Prod.fst
  · have hkeys : (dictSet d key v).map Prod.fst = d.map Prod.fst := by
      clear h
      induction d with
      | nil => cases hk
      | cons kv d ih =>
        rw [dictSet]
        split
        · rfl
        · next hne =>
          rw [List.map_cons, List.mem_cons] at hk
          rw [List.map_cons, List.map_cons, ih (hk.resolve_left (Ne.symm hne))]
    rwa [hkeys]
  · rw [dictSet_append hk, List.map_append, List.nodup_append]
    refine ⟨h, List.nodup_singleton _, fun a ha b hb hab => hk ?_⟩
    rwa [hab, List.mem_singleton.mp hb] at ha

/-- A dictionary has its pairs, each key once. -/
theorem dictOf_spec (kvs : List (Str × Json F)) :
    ((dictOf kvs).map Prod.fst).Nodup ∧ ∀ kv ∈ dictOf kvs, kv ∈ kvs := by
  have hfold : ∀ (kvs d : List (Str × Json F)), (d.map Prod.fst).Nodup →
      ((kvs.foldl (fun d kv => dictSet d kv.1 kv.2) d).map Prod.fst).Nodup ∧
        ∀ kv ∈ kvs.foldl (fun d kv => dictSet d kv.1 kv.2) d, kv ∈ d ∨ kv ∈ kvs := by
    intro kvs
    induction kvs with
    | nil => exact fun d hd => ⟨hd, fun kv hkv => .inl hkv⟩
    | cons kv kvs ih =>
      intro d hd
      obtain ⟨hnodup, hmem⟩ := ih _ (dictSet_keys_nodup hd kv.1 kv.2)
      refine ⟨hnodup, fun kv' hkv' => ?_⟩
      rcases hmem kv' hkv' with h | h
      · rcases mem_dictSet h with rfl | h
        · exact .inr List.mem_cons_self
        · exact .inl h
      · exact .inr (List.mem_cons_of_mem _ h)
  obtain ⟨hnodup, hmem⟩ := hfold kvs [] List.nodup_nil
  exact ⟨hnodup, fun kv hkv => (hmem kv hkv).resolve_left (by simp)⟩

/-- Pairs with different keys are the dictionary. -/
theorem dictOf_eq_self {kvs : List (Str × Json F)} (h : (kvs.map Prod.fst).Nodup) :
    dictOf kvs = kvs := by
  have hfold : ∀ (kvs d : List (Str × Json F)), ((d ++ kvs).map Prod.fst).Nodup →
      kvs.foldl (fun d kv => dictSet d kv.1 kv.2) d = d ++ kvs := by
    intro kvs
    induction kvs with
    | nil => exact fun d _ => (List.append_nil d).symm
    | cons kv kvs ih =>
      intro d hd
      have hnew : kv.1 ∉ d.map Prod.fst := by
        rw [List.map_append, List.map_cons, List.nodup_append] at hd
        exact fun hmem => hd.2.2 _ hmem _ List.mem_cons_self rfl
      rw [List.foldl_cons, dictSet_append hnew, ih _ (by simpa using hd)]
      simp
  exact hfold kvs [] h

theorem regular_dictOf {kvs : List (Str × Json F)} (h : RegularMembers kvs) :
    Regular (object (dictOf kvs)) := by
  obtain ⟨hnodup, hmem⟩ := dictOf_spec kvs
  exact ⟨hnodup, regularMembers_iff.mpr fun kv hkv => regularMembers_iff.mp h kv (hmem kv hkv)⟩

/-! ## What is read of an ASCII text -/

theorem Ascii.of_append_left {s t : Str} (h : Ascii (s ++ t)) : Ascii s :=
  fun c hc => h c (List.mem_append_left _ hc)

theorem Ascii.of_append_right {s t : Str} (h : Ascii (s ++ t)) : Ascii t :=
  fun c hc => h c (List.mem_append_right _ hc)

theorem Ascii.of_cons {c : CodePoint} {s : Str} (h : Ascii (c :: s)) : Ascii s :=
  fun d hd => h d (List.mem_cons_of_mem _ hd)

variable [PyFloat F]

theorem Constant.regular {t : Str} {v : Json F} (h : Constant t v) : Regular v := by
  cases h <;> trivial

theorem Number.regular {t : Str} {v : Json F} (h : Number t v) : Regular v := by
  obtain ⟨i, rfl⟩ | ⟨x, rfl⟩ := h.shape
  · trivial
  · trivial

theorem Ascii.noSplitPair {b : Str} {us : List StrUnit} (hb : Ascii (quoted b)) (h : Units b us) :
    NoSplitPair (joinPairs us) :=
  noSplitPair_joinPairs (hb.of_cons.of_append_left.units h)

mutual
/-- What is read of an ASCII text. By induction on the derivation. -/
theorem Val.regular {t : Str} {v : Json F} : Val t v → Ascii t → Regular v
  | .constant h, _ => h.regular
  | .number h, _ => h.regular
  | .string h, ht => ht.noSplitPair h
  | .emptyArray _, _ => trivial
  | .array h, ht => Items.regular h ht.of_cons.of_append_left
  | .emptyObject _, _ => ⟨List.nodup_nil, trivial⟩
  | .object h, ht => regular_dictOf (Members.regular h ht.of_cons.of_append_left)

theorem Items.regular {s : Str} {xs : List (Json F)} : Items s xs → Ascii s → RegularItems xs
  | .one _ hv _, hs => ⟨Val.regular hv hs.of_append_right.of_append_left, trivial⟩
  | .more _ hv _ hrest, hs =>
    ⟨Val.regular hv hs.of_append_right.of_append_left,
      Items.regular hrest hs.of_append_right.of_append_right.of_append_right.of_cons⟩

theorem Members.regular {s : Str} {kvs : List (Str × Json F)} :
    Members s kvs → Ascii s → RegularMembers kvs
  | .one _ hk _ _ hv _, hs =>
    ⟨hs.of_append_right.of_append_left.noSplitPair hk,
      Val.regular hv
        hs.of_append_right.of_append_right.of_append_right.of_cons.of_append_right.of_append_left,
      trivial⟩
  | .more _ hk _ _ hv _ hrest, hs =>
    ⟨hs.of_append_right.of_append_left.noSplitPair hk,
      Val.regular hv
        hs.of_append_right.of_append_right.of_append_right.of_cons.of_append_right.of_append_left,
      Members.regular hrest (hs.of_append_right.of_append_right.of_append_right.of_cons
        |>.of_append_right.of_append_right.of_append_right.of_cons)⟩
end

/-! ## Round trip -/

theorem dumpMembers_eq (sort : Bool) (kvs : List (Str × Json F)) :
    dumpMembers sort kvs = kvs.map fun kv => (kv.1, dumpsWith sort kv.2) := by
  induction kvs with
  | nil => rfl
  | cons kv kvs ih => rw [dumpMembers, List.map_cons, ih]

mutual
/-- What is written of a regular value denotes it. -/
theorem dumps_val [LawfulFloat F] : ∀ {v : Json F}, Regular v → Val (dumpsWith false v) v
  | null, _ => .constant .null
  | bool true, _ => .constant .true
  | bool false, _ => .constant .false
  | int i, _ => .number (intRepr_number i)
  | float x, _ => LawfulFloat.jsonRepr_val x
  | string s, h => by
    have hs := Val.string (F := F) (dumpString_units s)
    rwa [joinPairs_dumpUnits h] at hs
  | array xs, h => array_val (dumpItems_val h)
  | object kvs, ⟨hkeys, hkvs⟩ => by
    have hobject := object_val (dumpMembers_val hkvs)
    rwa [dictOf_eq_self hkeys] at hobject

theorem dumpItems_val [LawfulFloat F] :
    ∀ {xs : List (Json F)}, RegularItems xs → List.Forall₂ Val (dumpItems false xs) xs
  | [], _ => .nil
  | _ :: _, ⟨hx, hxs⟩ => .cons (dumps_val hx) (dumpItems_val hxs)

theorem dumpMembers_val [LawfulFloat F] : ∀ {kvs : List (Str × Json F)}, RegularMembers kvs →
    List.Forall₂ MemberVal (dumpMembers false kvs) kvs
  | [], _ => .nil
  | (_, _) :: _, ⟨hk, hv, hkvs⟩ =>
    .cons ⟨(joinPairs_dumpUnits hk).symm, dumps_val hv⟩ (dumpMembers_val hkvs)
end

theorem loads_dumps [LawfulFloat F] {v : Json F} (h : Regular v) : loads (dumps v) = some v :=
  loads_iff.mpr (dumps_val h).denotes

mutual
/-- `sort_keys` writes the value with its keys sorted. -/
theorem dumpsWith_sortKeys : ∀ v : Json F, dumpsWith true v = dumpsWith false (sortKeys v)
  | null | bool true | bool false | int _ | float _ | string _ => rfl
  | array xs => by
    rw [dumpsWith, sortKeys, dumpsWith, dumpItems_sortKeys xs]
  | object kvs => by
    have hsort : sortMembers (dumpMembers true kvs) =
        dumpMembers false (sortMembers (sortKeysMembers kvs)) := by
      rw [dumpMembers_sortKeys kvs, dumpMembers_eq, dumpMembers_eq]
      exact (List.map_insertionSort _ (fun a b : Str × Str => strLe a.1 b.1) _ _
        fun _ _ _ _ => Iff.rfl).symm
    rw [dumpsWith, sortKeys, dumpsWith]
    simp only [if_true, hsort]
    rfl

theorem dumpItems_sortKeys :
    ∀ xs : List (Json F), dumpItems true xs = dumpItems false (sortKeysItems xs)
  | [] => rfl
  | x :: xs => by
    rw [dumpItems, sortKeysItems, dumpItems, dumpsWith_sortKeys x, dumpItems_sortKeys xs]

theorem dumpMembers_sortKeys :
    ∀ kvs : List (Str × Json F), dumpMembers true kvs = dumpMembers false (sortKeysMembers kvs)
  | [] => rfl
  | (k, v) :: kvs => by
    rw [dumpMembers, sortKeysMembers, dumpMembers, dumpsWith_sortKeys v, dumpMembers_sortKeys kvs]
end

/-- With `sort_keys`, two values are written alike when they differ in the order of members only. -/
theorem dumpsWith_sorted_inj [LawfulFloat F] {v w : Json F} (hv : Regular v) (hw : Regular w) :
    dumpsWith true v = dumpsWith true w ↔ sortKeys v = sortKeys w := by
  rw [dumpsWith_sortKeys, dumpsWith_sortKeys]
  refine ⟨fun h => ?_, fun h => by rw [h]⟩
  have hval := (dumps_val hv.sortKeys).denotes
  rw [h] at hval
  exact hval.unique (dumps_val hw.sortKeys).denotes

/-! ## ASCII -/

theorem Ascii.append {s t : Str} (hs : Ascii s) (ht : Ascii t) : Ascii (s ++ t) :=
  fun c hc => (List.mem_append.mp hc).elim (hs c) (ht c)

theorem Ascii.cons {c : CodePoint} {s : Str} (hc : c.val < 128) (hs : Ascii s) : Ascii (c :: s) :=
  List.forall_mem_cons.mpr ⟨hc, hs⟩

theorem ascii_join {sep : Str} {parts : List Str} (hsep : Ascii sep)
    (h : ∀ part ∈ parts, Ascii part) : Ascii (join sep parts) := by
  induction parts with
  | nil => exact fun c hc => by cases hc
  | cons part parts ih =>
    obtain ⟨hpart, hparts⟩ := List.forall_mem_cons.mp h
    cases parts with
    | nil => simpa [join, List.intercalate] using hpart
    | cons part' parts =>
      rw [join_cons_cons]
      exact hpart.append (hsep.append (ih hparts))

theorem ascii_unicodeEscape (n : Nat) : Ascii (unicodeEscape n) := by
  have hdigit : ∀ m < 16, (chr (Nat.digitChar m)).val < 128 := by decide
  refine Ascii.append (by decide) fun c hc => ?_
  obtain ⟨i, -, rfl⟩ := List.mem_map.mp hc
  exact hdigit _ (Nat.mod_lt _ (by decide))

theorem ascii_dumpChar (c : CodePoint) : Ascii (dumpChar c) := by
  unfold dumpChar
  split_ifs with _ _ _ _ _ _ _ h
  · decide
  · decide
  · decide
  · decide
  · decide
  · decide
  · decide
  · exact List.forall_mem_singleton.mpr (by omega)
  · exact ascii_unicodeEscape _
  · exact (ascii_unicodeEscape _).append (ascii_unicodeEscape _)

theorem ascii_dumpString (s : Str) : Ascii (dumpString s) := by
  refine Ascii.cons (by decide) (Ascii.append (fun c hc => ?_) (by decide))
  obtain ⟨d, -, hd⟩ := List.mem_flatMap.mp hc
  exact ascii_dumpChar d c hd

theorem Digits.ascii {s : Str} (h : Digits s) : Ascii s := by
  intro c hc
  have hdigit := h.2 c hc
  simp only [isDigit, Bool.and_eq_true, decide_eq_true_eq] at hdigit
  omega

theorem Number.ascii {t : Str} {v : Json F} (h : Number t v) : Ascii t := by
  obtain ⟨sign, int, frac, exp, rfl, hsign, hint, hfrac, hexp, -⟩ := h
  refine (Ascii.append (Ascii.append ?_ hint.1.ascii) ?_).append ?_
  · rcases hsign with rfl | rfl <;> decide
  · rcases hfrac with rfl | ⟨ds, rfl, hds⟩
    · decide
    · exact .cons (by decide) hds.ascii
  · rcases hexp with rfl | ⟨e, sign', ds, rfl, he, hsign', hds⟩
    · decide
    · refine .cons ?_ (Ascii.append ?_ hds.ascii)
      · simp only [isExpMark, Bool.or_eq_true, beq_iff_eq] at he
        rcases he with rfl | rfl <;> decide
      · rcases hsign' with rfl | rfl | rfl <;> decide

theorem Constant.ascii {t : Str} {v : Json F} (h : Constant t v) : Ascii t := by
  cases h <;> decide

theorem ascii_jsonRepr [LawfulFloat F] (x : F) : Ascii (PyFloat.jsonRepr x) := by
  have hval := LawfulFloat.jsonRepr_val x
  generalize PyFloat.jsonRepr x = t at hval
  cases hval with
  | constant h => exact h.ascii
  | number h => exact h.ascii

mutual
/-- `json.dumps` writes ASCII only. -/
theorem ascii_dumps [LawfulFloat F] : ∀ v : Json F, Ascii (dumpsWith false v)
  | null => (.null : Constant "null" (null : Json F)).ascii
  | bool true => (.true : Constant "true" (bool true : Json F)).ascii
  | bool false => (.false : Constant "false" (bool false : Json F)).ascii
  | int i => (intRepr_number (F := F) i).ascii
  | float x => ascii_jsonRepr x
  | string s => ascii_dumpString s
  | array xs => (Ascii.append (by decide) (ascii_join (by decide) (ascii_dumpItems xs))).append
      (by decide)
  | object kvs => by
    refine (Ascii.append (by decide) (ascii_join (by decide) fun part hpart => ?_)).append (by decide)
    obtain ⟨m, hm, rfl⟩ := List.mem_map.mp hpart
    exact ((ascii_dumpString m.1).append (by decide)).append (ascii_dumpMembers kvs m hm)

theorem ascii_dumpItems [LawfulFloat F] :
    ∀ xs : List (Json F), ∀ t ∈ dumpItems false xs, Ascii t
  | [], _, h => by cases h
  | x :: xs, t, h => (List.mem_cons.mp h).elim (fun he => he ▸ ascii_dumps x)
      (ascii_dumpItems xs t)

theorem ascii_dumpMembers [LawfulFloat F] :
    ∀ kvs : List (Str × Json F), ∀ m ∈ dumpMembers false kvs, Ascii m.2
  | [], _, h => by cases h
  | (_, v) :: kvs, m, h => (List.mem_cons.mp h).elim (fun he => he ▸ ascii_dumps v)
      (ascii_dumpMembers kvs m)
end

end Values

end Json
end Py
