import Mathlib.Data.List.Dedup
import DealershipAgent.Py.Str
import DealershipAgent.Ranking.Sieve

/-!
# Near-duplicate listings

`find_near_duplicates` of `data/scripts/clean_listings.py`, for a frame of rows of any type with a
label, a key and a text, and for any similarity of texts.

* `findNearDuplicates`: the labels of the rows to drop, a greedy pass over each group of one key.
* `find_near_duplicates_sound_complete`: what is dropped is covered by a row kept before it, and
  nothing that is kept is similar to one before it.
-/

namespace DealershipAgent

open Py Ranking

section NearDuplicates

variable {α ι K F : Type} [Unicode] [DecidableEq K] [LE F] [DecidableLE F]

/-- `.fillna("").str.lower().str.strip()` -/
def comparedText (text : Option Str) : Str := strip (Unicode.lower (text.getD []))

/-- The text of the row is at the threshold for that of the kept one, or above it. -/
def similarTexts (ratio : Str → Str → F) (threshold : F) (text : α → Option Str) (row kept : α) :
    Bool :=
  threshold ≤ ratio (comparedText (text row)) (comparedText (text kept))

/-- A group of `df.groupby(DEDUPE_KEY_COLUMNS, dropna=False)`. -/
def groupOf (key : α → K) (df : List α) (k : K) : List α := df.filter fun row => key row = k

/-- `find_near_duplicates`; `groupOrder` is the order in which pandas visits the keys. -/
def findNearDuplicates (groupOrder : List K → List K) (ratio : Str → Str → F) (threshold : F)
    (index : α → ι) (key : α → K) (text : α → Option Str) (df : List α) : List ι :=
  (groupOrder (df.map key).dedup).flatMap fun k =>
    let group := groupOf key df k
    if group.length < 2 then []
    else (sieve (similarTexts ratio threshold text) group).1.map index

/-! ## What is dropped -/

variable {groupOrder : List K → List K} {ratio : Str → Str → F} {threshold : F} {index : α → ι}
  {key : α → K} {text : α → Option Str} {df : List α}

theorem similarTexts_eq_false {x y : α} : similarTexts ratio threshold text x y = false ↔
    ¬ threshold ≤ ratio (comparedText (text x)) (comparedText (text y)) :=
  ⟨of_decide_eq_false, decide_eq_false⟩

/-- A group of one row drops nothing either way. -/
theorem findNearDuplicates_eq : findNearDuplicates groupOrder ratio threshold index key text df =
    (groupOrder (df.map key).dedup).flatMap fun k =>
      (sieve (similarTexts ratio threshold text) (groupOf key df k)).1.map index := by
  unfold findNearDuplicates
  congr 1
  funext k
  change (if (groupOf key df k).length < 2 then [] else _) = _
  split
  · next hshort =>
    generalize groupOf key df k = group at hshort
    cases group with
    | nil => rfl
    | cons x rest =>
      cases rest with
      | nil => rfl
      | cons y rest =>
        rw [List.length_cons, List.length_cons] at hshort
        omega
  · rfl

theorem sieved_group (hindex : (df.map index).Nodup) (k : K) :
    Sieved (similarTexts ratio threshold text) (groupOf key df k)
      (sieve (similarTexts ratio threshold text) (groupOf key df k)).1
      (sieve (similarTexts ratio threshold text) (groupOf key df k)).2 :=
  sieved_sieve ((List.Nodup.of_map _ hindex).filter _)

section

variable (hgroups : ∀ ks, (groupOrder ks).Perm ks) (hindex : (df.map index).Nodup)
include hgroups hindex

theorem mem_findNearDuplicates {i : ι} :
    i ∈ findNearDuplicates groupOrder ratio threshold index key text df ↔ ∃ row ∈ df, index row = i ∧
      row ∈ (sieve (similarTexts ratio threshold text) (groupOf key df (key row))).1 := by
  rw [findNearDuplicates_eq]
  simp only [List.mem_flatMap, (hgroups _).mem_iff, List.mem_dedup, List.mem_map]
  constructor
  · rintro ⟨k, -, row, hrow, rfl⟩
    have hin := (sieved_group hindex k).sublist.subset hrow
    obtain ⟨hdf, hk⟩ := List.mem_filter.mp hin
    exact ⟨row, hdf, rfl, of_decide_eq_true hk ▸ hrow⟩
  · rintro ⟨row, hdf, rfl, hrow⟩
    exact ⟨key row, ⟨row, hdf, rfl⟩, row, hrow, rfl⟩

/-- A row is dropped if the pass over its group drops it. -/
theorem dropped_iff {row : α} (hrow : row ∈ df) :
    index row ∈ findNearDuplicates groupOrder ratio threshold index key text df ↔
      row ∈ (sieve (similarTexts ratio threshold text) (groupOf key df (key row))).1 := by
  rw [mem_findNearDuplicates hgroups hindex]
  constructor
  · rintro ⟨row', hrow', heq, hin⟩
    obtain rfl := List.inj_on_of_nodup_map hindex hrow' hrow heq
    exact hin
  · exact fun hin => ⟨row, hrow, rfl, hin⟩

theorem kept_iff {row : α} (hrow : row ∈ df) :
    index row ∉ findNearDuplicates groupOrder ratio threshold index key text df ↔
      row ∈ (sieve (similarTexts ratio threshold text) (groupOf key df (key row))).2 := by
  rw [dropped_iff hgroups hindex hrow]
  have hsieved : Sieved (similarTexts ratio threshold text) (groupOf key df (key row)) _ _ :=
    sieved_group hindex (key row)
  have hgroup : row ∈ groupOf key df (key row) := List.mem_filter.mpr ⟨hrow, decide_eq_true rfl⟩
  constructor
  · exact fun hnot => ((hsieved.mem row).mp hgroup).resolve_left hnot
  · exact fun hkept hdropped => hsieved.disjoint row hdropped hkept

/-- Two rows of one group that are kept. -/
theorem kept_apart {y x : α} (hbefore : Before df y x) (hkey : key y = key x)
    (hy : index y ∉ findNearDuplicates groupOrder ratio threshold index key text df)
    (hx : index x ∉ findNearDuplicates groupOrder ratio threshold index key text df) :
    similarTexts ratio threshold text x y = false := by
  rw [kept_iff hgroups hindex hbefore.mem_left, hkey] at hy
  rw [kept_iff hgroups hindex hbefore.mem_right] at hx
  exact (sieved_group hindex (key x)).apart y x
    (before_filter.mpr ⟨hbefore, decide_eq_true hkey, decide_eq_true rfl⟩) hy hx

theorem findNearDuplicates_eq_nil :
    findNearDuplicates groupOrder ratio threshold index key text df = [] ↔
      ∀ y x, Before df y x → key y = key x → similarTexts ratio threshold text x y = false := by
  constructor
  · intro hnil y x hbefore hkey
    exact kept_apart hgroups hindex hbefore hkey (hnil ▸ List.not_mem_nil)
      (hnil ▸ List.not_mem_nil)
  · intro hnone
    refine List.eq_nil_iff_forall_not_mem.mpr fun i hi => ?_
    obtain ⟨row, hrow, -, hin⟩ := (mem_findNearDuplicates hgroups hindex).mp hi
    obtain ⟨y, -, hbefore, hs⟩ := (sieved_group hindex (key row)).covered row hin
    obtain ⟨hbefore, hy, -⟩ := before_filter.mp hbefore
    rw [hnone y row hbefore (of_decide_eq_true hy)] at hs
    cases hs

theorem nodup_findNearDuplicates :
    (findNearDuplicates groupOrder ratio threshold index key text df).Nodup := by
  have hsub : ∀ k, ∀ row ∈ (sieve (similarTexts ratio threshold text) (groupOf key df k)).1,
      row ∈ df ∧ key row = k := by
    intro k row hrow
    obtain ⟨hdf, hk⟩ := List.mem_filter.mp
      ((sieved_group hindex k).sublist.subset hrow)
    exact ⟨hdf, of_decide_eq_true hk⟩
  rw [findNearDuplicates_eq, List.nodup_flatMap]
  refine ⟨fun k _ => ?_, ?_⟩
  · have hgroup : ((groupOf key df k).map index).Nodup := hindex.sublist (List.filter_sublist.map _)
    exact hgroup.sublist ((sieved_group hindex k).sublist.map _)
  · have hkeys : (groupOrder (df.map key).dedup).Nodup := (hgroups _).nodup_iff.mpr (List.nodup_dedup _)
    refine hkeys.imp fun {k k'} hne => ?_
    intro i hi hi'
    obtain ⟨row, hrow, rfl⟩ := List.mem_map.mp hi
    obtain ⟨row', hrow', heq⟩ := List.mem_map.mp hi'
    obtain ⟨hdf, hk⟩ := hsub k row hrow
    obtain ⟨hdf', hk'⟩ := hsub k' row' hrow'
    have hsame := List.inj_on_of_nodup_map hindex hdf' hdf heq
    exact hne (by rw [← hk, ← hk', hsame])

end

/-- The rows that are left. -/
def dropRows [DecidableEq ι] (index : α → ι) (df : List α) (labels : List ι) : List α :=
  df.filter fun row => index row ∉ labels

/-- Every row that is dropped has an earlier row of its group that is kept and that it is similar to;
no row that is kept is similar to an earlier one of its group that is kept. No row is reported twice, the
first one of each group is kept, and the rows that are left have no near-duplicates. -/
theorem find_near_duplicates_sound_complete [DecidableEq ι] (groupOrder : List K → List K)
    (hgroups : ∀ ks, (groupOrder ks).Perm ks) (ratio : Str → Str → F) (threshold : F)
    (index : α → ι) (key : α → K) (text : α → Option Str) (df : List α)
    (hindex : (df.map index).Nodup) :
    let dropped := findNearDuplicates groupOrder ratio threshold index key text df
    (∀ i ∈ dropped, ∃ x ∈ df, index x = i ∧ ∃ y, Before df y x ∧ index y ∉ dropped ∧
      key y = key x ∧ threshold ≤ ratio (comparedText (text x)) (comparedText (text y))) ∧
    (∀ y x, Before df y x → key y = key x → index y ∉ dropped → index x ∉ dropped →
      ¬ threshold ≤ ratio (comparedText (text x)) (comparedText (text y))) ∧
    dropped.Nodup ∧
    (∀ x ∈ df, (∀ y, Before df y x → key y ≠ key x) → index x ∉ dropped) ∧
    findNearDuplicates groupOrder ratio threshold index key text (dropRows index df dropped) = [] := by
  intro dropped
  have hcovered : ∀ i ∈ dropped, ∃ x ∈ df, index x = i ∧ ∃ y, Before df y x ∧ index y ∉ dropped ∧
      key y = key x ∧ threshold ≤ ratio (comparedText (text x)) (comparedText (text y)) := by
    intro i hi
    obtain ⟨x, hx, hxi, hin⟩ := (mem_findNearDuplicates hgroups hindex).mp hi
    obtain ⟨y, hy, hbefore, hs⟩ := (sieved_group hindex (key x)).covered x hin
    obtain ⟨hbefore, hkey, -⟩ := before_filter.mp hbefore
    have hkey := of_decide_eq_true hkey
    exact ⟨x, hx, hxi, y, hbefore, (kept_iff hgroups hindex hbefore.mem_left).mpr (hkey ▸ hy), hkey,
      of_decide_eq_true hs⟩
  have hapart : ∀ y x, Before df y x → key y = key x → index y ∉ dropped → index x ∉ dropped →
      ¬ threshold ≤ ratio (comparedText (text x)) (comparedText (text y)) := fun y x hbefore hkey hy hx =>
    of_decide_eq_false (kept_apart hgroups hindex hbefore hkey hy hx)
  refine ⟨hcovered, hapart, nodup_findNearDuplicates hgroups hindex, fun x hx hfirst hin => ?_, ?_⟩
  · obtain ⟨x', hx', heq, y, hbefore, -, hkey, -⟩ := hcovered (index x) hin
    obtain rfl := List.inj_on_of_nodup_map hindex hx' hx heq
    exact hfirst y hbefore hkey
  · have hleft : ((dropRows index df dropped).map index).Nodup :=
      hindex.sublist (List.filter_sublist.map _)
    refine (findNearDuplicates_eq_nil hgroups hleft).mpr fun y x hbefore hkey => ?_
    obtain ⟨hbefore, hy, hx⟩ := before_filter.mp hbefore
    exact decide_eq_false (hapart y x hbefore hkey (of_decide_eq_true hy) (of_decide_eq_true hx))

end NearDuplicates

/-- Two listings of one car, with the same text but for its case. -/
def twoListings : List (Nat × Option Str) := [(0, str "One owner."), (1, str "ONE OWNER. ")]

/-- The second one is dropped, for the first one. -/
theorem twoListings_dropped :
    let _ := asciiUnicode
    ∀ i ∈ findNearDuplicates id (fun s t => if s = t then 1 else 0) 1 Prod.fst (fun _ => ())
      Prod.snd twoListings, i = 1 := by
  intro _ i hi
  have hlaw := find_near_duplicates_sound_complete id (fun _ => List.Perm.refl _)
    (fun s t => if s = t then 1 else 0) 1 Prod.fst (fun _ => ()) Prod.snd twoListings (by decide)
  obtain ⟨x, hx, rfl, -⟩ := hlaw.1 i hi
  obtain rfl | rfl : x = (0, some (str "One owner.")) ∨ x = (1, some (str "ONE OWNER. ")) := by
    simpa [twoListings] using hx
  · exact absurd hi (hlaw.2.2.2.1 _ hx fun y hbefore =>
      absurd hbefore (not_before_head (by decide) y))
  · rfl

end DealershipAgent
