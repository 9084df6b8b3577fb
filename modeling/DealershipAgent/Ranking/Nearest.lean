import Mathlib.Data.List.Sort
import Mathlib.Data.Prod.Lex

/-!
# Ranking by a key

`orderBy key xs` is the stable sort by a key. `demote flag key` is the key that puts what is flagged
last, each part by `key`.

* `orderBy_demote`: that sort is the sort by `key`, what is not flagged first.
* `orderBy_demote_pool`: the first of it are found in a pool of the nearest by `key`, when the pool
  has room for all that is flagged.
-/

namespace Ranking

section OrderBy

variable {α β R : Type} [LinearOrder R]

/-- The list sorted by the key, what has the same key in its old order. -/
def orderBy (key : α → R) (xs : List α) : List α := xs.insertionSort fun a b => key a ≤ key b

variable {key : α → R} {xs ys : List α}

instance total_key : Std.Total fun a b : α => key a ≤ key b := ⟨fun a b => le_total (key a) (key b)⟩

instance isTrans_key : IsTrans α fun a b => key a ≤ key b := ⟨fun _ _ _ => le_trans⟩

theorem orderBy_perm (key : α → R) (xs : List α) : (orderBy key xs).Perm xs :=
  List.perm_insertionSort _ xs

@[simp] theorem mem_orderBy {a : α} : a ∈ orderBy key xs ↔ a ∈ xs := (orderBy_perm key xs).mem_iff

@[simp] theorem length_orderBy (key : α → R) (xs : List α) : (orderBy key xs).length = xs.length :=
  (orderBy_perm key xs).length_eq

theorem orderBy_pairwise (key : α → R) (xs : List α) :
    (orderBy key xs).Pairwise fun a b => key a ≤ key b :=
  List.pairwise_insertionSort _ xs

/-- What is not among the first is no nearer than these. -/
theorem key_le_of_take {n : Nat} {a b : α} (ha : a ∈ (orderBy key xs).take n) (hb : b ∈ xs)
    (hnot : b ∉ (orderBy key xs).take n) : key a ≤ key b := by
  have hsorted := orderBy_pairwise key xs
  rw [← List.take_append_drop n (orderBy key xs), List.pairwise_append] at hsorted
  have hsplit : b ∈ (orderBy key xs).take n ++ (orderBy key xs).drop n := by
    rw [List.take_append_drop]
    exact mem_orderBy.mpr hb
  exact hsorted.2.2 a ha b ((List.mem_append.mp hsplit).resolve_left hnot)

/-- Without ties the sort is strict. -/
theorem orderBy_strict (h : (xs.map key).Nodup) :
    (orderBy key xs).Pairwise fun a b => key a < key b := by
  have hne : (orderBy key xs).Pairwise fun a b => key a ≠ key b :=
    List.pairwise_map.mp (((orderBy_perm key xs).map key).nodup_iff.mpr h)
  exact ((orderBy_pairwise key xs).and hne).imp fun h => lt_of_le_of_ne h.1 h.2

/-- The sort of a list without ties is the only one. -/
theorem orderBy_eq (hp : ys.Perm xs) (hs : ys.Pairwise fun a b => key a < key b) :
    orderBy key xs = ys := by
  have hnodup : (ys.map key).Nodup := List.pairwise_map.mpr (hs.imp ne_of_lt)
  refine ((orderBy_perm key xs).trans hp.symm).eq_of_pairwise (fun a b ha hb hab hba => ?_)
    (orderBy_pairwise key xs) (hs.imp le_of_lt)
  exact List.inj_on_of_nodup_map hnodup (hp.mem_iff.mpr (mem_orderBy.mp ha)) hb (le_antisymm hab hba)

theorem orderBy_map (f : β → α) (xs : List β) :
    orderBy key (xs.map f) = (orderBy (fun b => key (f b)) xs).map f :=
  (List.map_insertionSort _ _ f xs fun _ _ _ _ => Iff.rfl).symm

/-! ## What is flagged last -/

/-- What is not flagged first, each part by the key. -/
def demote (flag : α → Bool) (key : α → R) (a : α) : Bool ×ₗ R := toLex (flag a, key a)

variable {flag : α → Bool} {a b : α}

theorem demote_lt : demote flag key a < demote flag key b ↔
    (flag a = false ∧ flag b = true) ∨ (flag a = flag b ∧ key a < key b) := by
  unfold demote
  rw [Prod.Lex.toLex_lt_toLex, Bool.lt_iff]

/-- What is flagged and what is not, each in its order, is sorted when the list is. -/
theorem partition_strict (h : xs.Pairwise fun a b => key a < key b) :
    (xs.filter (fun a => !flag a) ++ xs.filter flag).Pairwise fun a b =>
      demote flag key a < demote flag key b := by
  have hpart : ∀ {p : α → Bool} {v : Bool}, (∀ a, p a = true → flag a = v) →
      (xs.filter p).Pairwise fun a b => demote flag key a < demote flag key b := by
    intro p v hp
    refine (h.filter p).imp_of_mem fun ha hb hab => demote_lt.mpr (.inr ⟨?_, hab⟩)
    rw [hp _ (List.mem_filter.mp ha).2, hp _ (List.mem_filter.mp hb).2]
  refine List.pairwise_append.mpr ⟨hpart (v := false) (by simp), hpart (v := true) (by simp),
    fun a ha b hb => demote_lt.mpr (.inl ⟨?_, (List.mem_filter.mp hb).2⟩)⟩
  simpa using (List.mem_filter.mp ha).2

/-- The sort with what is flagged last is a partition of the strict sort by the key. -/
theorem orderBy_demote (hp : ys.Perm xs) (hs : ys.Pairwise fun a b => key a < key b) :
    orderBy (demote flag key) xs = ys.filter (fun a => !flag a) ++ ys.filter flag :=
  orderBy_eq ((List.perm_append_comm.trans (List.filter_append_perm flag ys)).trans hp)
    (partition_strict hs)

/-- The first `limit` of that sort, from a pool of the nearest: all that is flagged and `limit` others
have room in the pool. -/
theorem orderBy_demote_pool {pool limit : Nat} (h : (xs.map key).Nodup)
    (hpool : xs.countP flag + limit ≤ pool) :
    (orderBy (demote flag key) ((orderBy key xs).take pool)).take limit =
      (orderBy (demote flag key) xs).take limit := by
  have hstrict := orderBy_strict h
  rw [orderBy_demote (orderBy_perm key xs) hstrict,
    orderBy_demote (List.Perm.refl _) (hstrict.sublist (List.take_sublist pool _))]
  rcases Nat.le_total (orderBy key xs).length pool with hall | hmore
  · rw [List.take_of_length_le hall]
  · -- the pool is full, and so has `limit` elements that are not flagged
    have hflagged : ((orderBy key xs).take pool).countP flag ≤ xs.countP flag := by
      rw [← (orderBy_perm key xs).countP_eq]
      exact (List.take_sublist pool _).countP_le
    have hlength : ((orderBy key xs).take pool).length = pool := by
      rw [List.length_take]
      exact Nat.min_eq_left hmore
    have hcount := List.length_eq_countP_add_countP flag (l := (orderBy key xs).take pool)
    have hroom : limit ≤ (((orderBy key xs).take pool).filter fun a => !flag a).length := by
      rw [← List.countP_eq_length_filter]
      simp only [Bool.not_eq_true, Bool.decide_eq_false] at hcount
      omega
    have hsplit : (orderBy key xs).filter (fun a => !flag a) =
        ((orderBy key xs).take pool).filter (fun a => !flag a) ++
          ((orderBy key xs).drop pool).filter (fun a => !flag a) := by
      rw [← List.filter_append, List.take_append_drop]
    rw [hsplit, List.take_append_of_le_length hroom, List.append_assoc,
      List.take_append_of_le_length hroom]

end OrderBy

end Ranking
