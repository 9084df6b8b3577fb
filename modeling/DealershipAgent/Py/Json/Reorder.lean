import Mathlib.Data.List.Sort
import DealershipAgent.Py.Json.RoundTrip

/-!
# Values up to the order of members

* `SameUpToOrder`: structural equality, with objects as what maps a key to a value.
* `sortKeys_eq_iff`: sorting the keys makes exactly such values equal.
* `Scalars`: the strings are sequences of Unicode scalar values. `Val.regular_of_scalars`: what is
  read of a text has each key once, so such a value is written back faithfully.
-/

namespace Py

/-! ## The order of the keys -/

theorem strLe_total (s t : Str) : strLe s t = true ∨ strLe t s = true := by
  induction s generalizing t with
  | nil => exact .inl rfl
  | cons a s ih =>
    cases t with
    | nil => exact .inr rfl
    | cons b t =>
      simp only [strLe, Bool.or_eq_true, Bool.and_eq_true, decide_eq_true_eq, beq_iff_eq]
      rcases lt_trichotomy a b with hlt | rfl | hlt
      · exact .inl (.inl hlt)
      · exact (ih t).imp (fun h => .inr ⟨rfl, h⟩) fun h => .inr ⟨rfl, h⟩
      · exact .inr (.inl hlt)

theorem strLe_trans {s t u : Str} (hst : strLe s t = true) (htu : strLe t u = true) :
    strLe s u = true := by
  induction s generalizing t u with
  | nil => rfl
  | cons a s ih =>
    cases t with
    | nil => cases hst
    | cons b t =>
      cases u with
      | nil => cases htu
      | cons c u =>
        simp only [strLe, Bool.or_eq_true, Bool.and_eq_true, decide_eq_true_eq, beq_iff_eq]
          at hst htu ⊢
        rcases hst with hab | ⟨rfl, hst⟩
        · rcases htu with hbc | ⟨rfl, -⟩
          · exact .inl (hab.trans hbc)
          · exact .inl hab
        · exact htu.imp id fun ⟨hac, htu⟩ => ⟨hac, ih hst htu⟩

theorem strLe_antisymm {s t : Str} (hst : strLe s t = true) (hts : strLe t s = true) : s = t := by
  induction s generalizing t with
  | nil =>
    cases t with
    | nil => rfl
    | cons b t => cases hts
  | cons a s ih =>
    cases t with
    | nil => cases hst
    | cons b t =>
      simp only [strLe, Bool.or_eq_true, Bool.and_eq_true, decide_eq_true_eq, beq_iff_eq] at hst hts
      rcases hst with hab | ⟨rfl, hst⟩
      · rcases hts with hba | ⟨rfl, -⟩
        · exact absurd hab (lt_asymm hba)
        · exact absurd hab (lt_irrefl _)
      · rcases hts with hba | ⟨-, hts⟩
        · exact absurd hba (lt_irrefl _)
        · rw [ih hst hts]

section SortMembers

variable {α : Type} {kvs ms : List (Str × α)}

instance total_strLe : Std.Total fun a b : Str × α => strLe a.1 b.1 = true :=
  ⟨fun a b => strLe_total a.1 b.1⟩

instance isTrans_strLe : IsTrans (Str × α) fun a b => strLe a.1 b.1 = true :=
  ⟨fun _ _ _ => strLe_trans⟩

theorem sortMembers_perm (kvs : List (Str × α)) : (sortMembers kvs).Perm kvs :=
  List.perm_insertionSort _ kvs

/-- Members with different keys have one sorted order. -/
theorem sortMembers_eq_iff (h : (kvs.map Prod.fst).Nodup) :
    sortMembers kvs = sortMembers ms ↔ kvs.Perm ms := by
  constructor
  · intro hsorted
    have hperm := sortMembers_perm kvs
    rw [hsorted] at hperm
    exact hperm.symm.trans (sortMembers_perm ms)
  · intro hperm
    refine List.Perm.eq_of_pairwise (fun a b ha hb hab hba => ?_)
      (List.pairwise_insertionSort _ kvs) (List.pairwise_insertionSort _ ms)
      ((sortMembers_perm kvs).trans (hperm.trans (sortMembers_perm ms).symm))
    have ha' := (sortMembers_perm kvs).mem_iff.mp ha
    have hb' := hperm.mem_iff.mpr ((sortMembers_perm ms).mem_iff.mp hb)
    exact List.inj_on_of_nodup_map h ha' hb' (strLe_antisymm hab hba)

end SortMembers

namespace Json

section Reorder

variable {F : Type}

/-! ## Equality up to order -/

mutual
/-- The values are the same, up to the order of the members of objects. -/
def SameUpToOrder : Json F → Json F → Prop
  | array xs, array ys => SameItems xs ys
  | object kvs, object ms =>
    (∀ key, key ∈ kvs.map Prod.fst ↔ key ∈ ms.map Prod.fst) ∧ SameValues kvs ms
  | v, w => v = w

def SameItems : List (Json F) → List (Json F) → Prop
  | [], [] => True
  | x :: xs, y :: ys => SameUpToOrder x y ∧ SameItems xs ys
  | _, _ => False

/-- Each of these keys has the same value there. -/
def SameValues : List (Str × Json F) → List (Str × Json F) → Prop
  | [], _ => True
  | (k, v) :: kvs, ms => (∃ w, (k, w) ∈ ms ∧ SameUpToOrder v w) ∧ SameValues kvs ms
end

theorem mem_sortKeysMembers {kvs : List (Str × Json F)} {key : Str} {v : Json F} :
    (key, v) ∈ sortKeysMembers kvs ↔ ∃ w, (key, w) ∈ kvs ∧ v = sortKeys w := by
  induction kvs with
  | nil => simp [sortKeysMembers]
  | cons kv kvs ih =>
    rw [sortKeysMembers, List.mem_cons, ih]
    constructor
    · rintro (h | ⟨w, hw, rfl⟩)
      · obtain ⟨rfl, rfl⟩ := Prod.mk.inj h
        exact ⟨_, List.mem_cons_self, rfl⟩
      · exact ⟨w, List.mem_cons_of_mem _ hw, rfl⟩
    · rintro ⟨w, hw, rfl⟩
      rcases List.mem_cons.mp hw with rfl | hw
      · exact .inl rfl
      · exact .inr ⟨w, hw, rfl⟩

/-- Two dictionaries are permutations of each other when they have the same keys, and each member of
one is in the other. -/
theorem perm_iff_of_keys {α : Type} {kvs ms : List (Str × α)} (h : (kvs.map Prod.fst).Nodup)
    (h' : (ms.map Prod.fst).Nodup) : kvs.Perm ms ↔
      (∀ key, key ∈ kvs.map Prod.fst ↔ key ∈ ms.map Prod.fst) ∧ ∀ kv ∈ kvs, kv ∈ ms := by
  constructor
  · intro hperm
    exact ⟨fun key => (hperm.map Prod.fst).mem_iff, fun kv hkv => hperm.mem_iff.mp hkv⟩
  · rintro ⟨hkeys, hsub⟩
    refine (List.perm_ext_iff_of_nodup h.of_map h'.of_map).mpr fun kv => ⟨hsub kv, fun hkv => ?_⟩
    obtain ⟨kv', hkv', hkey⟩ := List.mem_map.mp ((hkeys kv.1).mpr (List.mem_map_of_mem hkv))
    rwa [← List.inj_on_of_nodup_map h' (hsub kv' hkv') hkv hkey]

mutual
/-- Sorting the keys makes the values equal that differ in the order of members only. -/
theorem sortKeys_eq_iff : ∀ {v w : Json F}, Regular v → Regular w →
    (sortKeys v = sortKeys w ↔ SameUpToOrder v w)
  | null, w, _, _ | bool _, w, _, _ | int _, w, _, _ | float _, w, _, _ | string _, w, _, _ => by
    cases w <;> simp [sortKeys, SameUpToOrder]
  | array xs, w, hv, hw => by
    cases w with
    | array ys =>
      rw [sortKeys, sortKeys, SameUpToOrder, ← sortKeysItems_eq_iff hv hw, array.injEq]
    | _ => simp [sortKeys, SameUpToOrder]
  | object kvs, w, hv, hw => by
    cases w with
    | object ms =>
      have hk := hv.1
      have hm := hw.1
      rw [← sortKeysMembers_keys] at hk hm
      rw [sortKeys, sortKeys, SameUpToOrder, object.injEq, sortMembers_eq_iff hk,
        perm_iff_of_keys hk hm, sortKeysMembers_keys, sortKeysMembers_keys,
        sameValues_iff hv.2 hw.2]
    | _ => simp [sortKeys, SameUpToOrder]

theorem sortKeysItems_eq_iff : ∀ {xs ys : List (Json F)}, RegularItems xs → RegularItems ys →
    (sortKeysItems xs = sortKeysItems ys ↔ SameItems xs ys)
  | [], [], _, _ | [], _ :: _, _, _ | _ :: _, [], _, _ => by simp [sortKeysItems, SameItems]
  | x :: xs, y :: ys, ⟨hx, hxs⟩, ⟨hy, hys⟩ => by
    rw [sortKeysItems, sortKeysItems, SameItems, List.cons.injEq, sortKeys_eq_iff hx hy,
      sortKeysItems_eq_iff hxs hys]

theorem sameValues_iff : ∀ {kvs ms : List (Str × Json F)}, RegularMembers kvs → RegularMembers ms →
    (SameValues kvs ms ↔ ∀ kv ∈ sortKeysMembers kvs, kv ∈ sortKeysMembers ms)
  | [], _, _, _ => by simp [sortKeysMembers, SameValues]
  | (k, v) :: kvs, ms, ⟨_, hv, hkvs⟩, hms => by
    have hsame : (∃ w, (k, w) ∈ ms ∧ SameUpToOrder v w) ↔
        ∃ w, (k, w) ∈ ms ∧ sortKeys v = sortKeys w := by
      refine exists_congr fun w => and_congr_right fun hw => ?_
      exact (sortKeys_eq_iff hv (regularMembers_iff.mp hms (k, w) hw).2).symm
    rw [sortKeysMembers, SameValues, List.forall_mem_cons, hsame, mem_sortKeysMembers,
      sameValues_iff hkvs hms]
end

/-! ## Strings of scalar values -/

/-- No surrogate is in the string. -/
def ScalarText (s : Str) : Prop := ∀ c ∈ s, isHighSurrogate c = false ∧ isLowSurrogate c = false

instance (s : Str) : Decidable (ScalarText s) := List.decidableBAll _ s

mutual
/-- The strings are sequences of Unicode scalar values. -/
def Scalars : Json F → Prop
  | string s => ScalarText s
  | array xs => ScalarsItems xs
  | object kvs => ScalarsMembers kvs
  | _ => True

def ScalarsItems : List (Json F) → Prop
  | [] => True
  | x :: xs => Scalars x ∧ ScalarsItems xs

def ScalarsMembers : List (Str × Json F) → Prop
  | [] => True
  | (k, v) :: kvs => ScalarText k ∧ Scalars v ∧ ScalarsMembers kvs
end

theorem scalarsMembers_iff {kvs : List (Str × Json F)} :
    ScalarsMembers kvs ↔ ∀ kv ∈ kvs, ScalarText kv.1 ∧ Scalars kv.2 := by
  induction kvs with
  | nil => simp [ScalarsMembers]
  | cons kv kvs ih => simp [ScalarsMembers, ih, and_assoc]

theorem ScalarText.noSplitPair {s : Str} (h : ScalarText s) : NoSplitPair s := by
  induction s with
  | nil => exact .nil
  | cons c s ih =>
    obtain ⟨hc, hs⟩ := List.forall_mem_cons.mp h
    refine List.isChain_cons.mpr ⟨fun d _ hsplit => ?_, ih hs⟩
    rw [hc.1] at hsplit
    cases hsplit.1

variable [PyFloat F]

mutual
/-- What is read of a text. By induction on the derivation. -/
theorem Val.regular_of_scalars {t : Str} {v : Json F} : Val t v → Scalars v → Regular v
  | .constant h, _ => h.regular
  | .number h, _ => h.regular
  | .string _, hs => ScalarText.noSplitPair hs
  | .emptyArray _, _ => trivial
  | .array h, hs => Items.regular_of_scalars h hs
  | .emptyObject _, _ => ⟨List.nodup_nil, trivial⟩
  | .object h, hs => by
    -- only the members that are kept have to be of scalar values
    obtain ⟨hnodup, hmem⟩ := dictOf_spec _
    refine ⟨hnodup, regularMembers_iff.mpr fun kv hkv => ?_⟩
    obtain ⟨hk, hv⟩ := scalarsMembers_iff.mp hs kv hkv
    exact ⟨hk.noSplitPair, Members.regular_of_scalars h kv (hmem kv hkv) hv⟩

theorem Items.regular_of_scalars {s : Str} {xs : List (Json F)} :
    Items s xs → ScalarsItems xs → RegularItems xs
  | .one _ hv _, hs => ⟨Val.regular_of_scalars hv hs.1, trivial⟩
  | .more _ hv _ hrest, hs =>
    ⟨Val.regular_of_scalars hv hs.1, Items.regular_of_scalars hrest hs.2⟩

theorem Members.regular_of_scalars {s : Str} {kvs : List (Str × Json F)} :
    Members s kvs → ∀ kv ∈ kvs, Scalars kv.2 → Regular kv.2
  | .one _ _ _ _ hv _, kv, hkv, hs => by
    obtain rfl := List.mem_singleton.mp hkv
    exact Val.regular_of_scalars hv hs
  | .more _ _ _ _ hv _ hrest, kv, hkv, hs => by
    rcases List.mem_cons.mp hkv with rfl | hkv
    · exact Val.regular_of_scalars hv hs
    · exact Members.regular_of_scalars hrest kv hkv hs
end

/-- The values of an object that was read are regular where their strings are of scalar values. -/
theorem regular_of_loads {raw : Str} {kvs : List (Str × Json F)}
    (h : loads raw = some (.object kvs)) {kv : Str × Json F} (hkv : kv ∈ kvs) (hs : Scalars kv.2) :
    Regular kv.2 := by
  obtain ⟨_, _, _, -, -, hval, -⟩ := loads_iff.mp h
  cases hval with
  | constant h => cases h
  | number h => obtain ⟨i, he⟩ | ⟨x, he⟩ := h.shape <;> cases he
  | emptyObject h => cases hkv
  | object hmembers => exact Members.regular_of_scalars hmembers kv ((dictOf_spec _).2 kv hkv) hs

end Reorder

end Json

end Py
