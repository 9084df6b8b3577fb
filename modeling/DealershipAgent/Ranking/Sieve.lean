import Mathlib.Data.List.Nodup
import Mathlib.Data.List.Induction

/-!
# A greedy pass over a list

`sieve similar xs` drops each element that is similar to one kept before it. Nothing is asked of
`similar`: it need not be symmetric or transitive.

* `Before xs y x`: in `xs` the element `y` comes before `x`.
* `Sieved`: what the pass makes of a list; `sieved_sieve`.
-/

namespace Ranking

variable {α β : Type} {similar : α → α → Bool} {xs : List α}

/-- In the list `y` comes before `x`. -/
def Before (xs : List α) (y x : α) : Prop := [y, x].Sublist xs

theorem Before.mem_left {y x : α} (h : Before xs y x) : y ∈ xs := h.subset (by simp)

theorem Before.mem_right {y x : α} (h : Before xs y x) : x ∈ xs := h.subset (by simp)

theorem Before.mono {ys : List α} {y x : α} (h : Before xs y x) (hs : xs.Sublist ys) :
    Before ys y x := List.Sublist.trans h hs

theorem before_concat {y x a : α} :
    Before (xs ++ [a]) y x ↔ Before xs y x ∨ y ∈ xs ∧ x = a := by
  have hpair : Before (xs ++ [a]) y x ↔ ([x, y] : List α).Sublist (a :: xs.reverse) := by
    unfold Before
    rw [← List.reverse_sublist, List.reverse_append]
    rfl
  have hold : Before xs y x ↔ ([x, y] : List α).Sublist xs.reverse := by
    unfold Before
    rw [← List.reverse_sublist]
    rfl
  rw [hpair, hold, List.sublist_cons_iff]
  refine or_congr Iff.rfl ⟨?_, ?_⟩
  · rintro ⟨r, hr, hsub⟩
    cases hr
    exact ⟨List.mem_reverse.mp (List.singleton_sublist.mp hsub), rfl⟩
  · rintro ⟨hy, rfl⟩
    exact ⟨[y], rfl, List.singleton_sublist.mpr (List.mem_reverse.mpr hy)⟩

theorem before_filter {p : α → Bool} {y x : α} :
    Before (xs.filter p) y x ↔ Before xs y x ∧ p y = true ∧ p x = true := by
  constructor
  · intro h
    exact ⟨h.mono List.filter_sublist, (List.mem_filter.mp h.mem_left).2,
      (List.mem_filter.mp h.mem_right).2⟩
  · rintro ⟨h, hy, hx⟩
    have := List.Sublist.filter p h
    rwa [List.filter_cons_of_pos hy, List.filter_cons_of_pos hx, List.filter_nil] at this

theorem forall_before_map {f : α → β} (P : β → β → Prop) :
    (∀ y x, Before (xs.map f) y x → P y x) ↔ ∀ y x, Before xs y x → P (f y) (f x) := by
  constructor
  · exact fun h y x hbefore => h _ _ (List.Sublist.map f hbefore)
  · intro h y x hbefore
    obtain ⟨pair, hpair, hmap⟩ := List.sublist_map_iff.mp hbefore
    obtain ⟨y', rest, rfl, rfl, hrest⟩ := List.map_eq_cons_iff.mp hmap.symm
    obtain ⟨x', rest', rfl, rfl, hnil⟩ := List.map_eq_cons_iff.mp hrest
    obtain rfl := List.map_eq_nil_iff.mp hnil
    exact h y' x' hpair

theorem not_before_head {x : α} (h : x ∉ xs) (y : α) : ¬ Before (x :: xs) y x := by
  intro hbefore
  rcases List.sublist_cons_iff.mp hbefore with hsub | ⟨r, hr, hsub⟩
  · exact h (hsub.subset (by simp))
  · cases hr
    exact h (hsub.subset (by simp))

/-- One step of the pass, over what was dropped and what was kept. -/
def sieveStep (similar : α → α → Bool) (s : List α × List α) (x : α) : List α × List α :=
  if s.2.any (similar x) then (s.1 ++ [x], s.2) else (s.1, s.2 ++ [x])

/-- What is dropped, and what is kept. -/
def sieve (similar : α → α → Bool) (xs : List α) : List α × List α :=
  xs.foldl (sieveStep similar) ([], [])

/-- What was dropped is covered by something kept before it, and no two of what was kept are
similar. -/
structure Sieved (similar : α → α → Bool) (xs dropped kept : List α) : Prop where
  mem : ∀ x, x ∈ xs ↔ x ∈ dropped ∨ x ∈ kept
  disjoint : ∀ x ∈ dropped, x ∉ kept
  sublist : dropped.Sublist xs
  covered : ∀ x ∈ dropped, ∃ y ∈ kept, Before xs y x ∧ similar x y = true
  apart : ∀ y x, Before xs y x → y ∈ kept → x ∈ kept → similar x y = false

theorem Sieved.step {s : List α × List α} {a : α} (h : Sieved similar xs s.1 s.2) (ha : a ∉ xs) :
    Sieved similar (xs ++ [a]) (sieveStep similar s a).1 (sieveStep similar s a).2 := by
  obtain ⟨dropped, kept⟩ := s
  have hdropped : a ∉ dropped := fun hin => ha ((h.mem a).mpr (.inl hin))
  have hkept : a ∉ kept := fun hin => ha ((h.mem a).mpr (.inr hin))
  have hcovered : ∀ x ∈ dropped, ∃ y ∈ kept, Before (xs ++ [a]) y x ∧ similar x y = true := by
    intro x hx
    obtain ⟨y, hy, hbefore, hs⟩ := h.covered x hx
    exact ⟨y, hy, hbefore.mono (List.sublist_append_left _ _), hs⟩
  unfold sieveStep
  by_cases hany : kept.any (similar a) = true
  · rw [if_pos hany]
    obtain ⟨y, hy, hs⟩ := List.any_eq_true.mp hany
    refine ⟨fun x => ?_, ?_, h.sublist.append (List.Sublist.refl _), ?_, ?_⟩
    · simp only [List.mem_append, h.mem x, List.mem_singleton]
      exact or_right_comm
    · intro x hx
      rcases List.mem_append.mp hx with hx | hx
      · exact h.disjoint x hx
      · exact List.mem_singleton.mp hx ▸ hkept
    · intro x hx
      rcases List.mem_append.mp hx with hx | hx
      · exact hcovered x hx
      · obtain rfl := List.mem_singleton.mp hx
        exact ⟨y, hy, before_concat.mpr (.inr ⟨(h.mem y).mpr (.inr hy), rfl⟩), hs⟩
    · intro z x hbefore hz hx
      obtain hbefore | ⟨-, rfl⟩ := before_concat.mp hbefore
      · exact h.apart z x hbefore hz hx
      · exact absurd hx hkept
  · rw [if_neg hany]
    refine ⟨fun x => ?_, ?_, h.sublist.trans (List.sublist_append_left _ _), ?_, ?_⟩
    · simp only [List.mem_append, h.mem x, List.mem_singleton]
      exact or_assoc
    · intro x hx hin
      rcases List.mem_append.mp hin with hin | hin
      · exact h.disjoint x hx hin
      · exact hdropped (List.mem_singleton.mp hin ▸ hx)
    · intro x hx
      obtain ⟨y, hy, hrest⟩ := hcovered x hx
      exact ⟨y, List.mem_append_left _ hy, hrest⟩
    · intro z x hbefore hz hx
      obtain hbefore | ⟨hz', rfl⟩ := before_concat.mp hbefore
      · -- neither is the new element
        have hne : ∀ {w}, w ∈ xs → w ∈ kept ++ [a] → w ∈ kept := fun hw hin =>
          (List.mem_append.mp hin).resolve_right fun heq => ha (List.mem_singleton.mp heq ▸ hw)
        exact h.apart z x hbefore (hne hbefore.mem_left hz) (hne hbefore.mem_right hx)
      · have hz : z ∈ kept :=
          (List.mem_append.mp hz).resolve_right fun heq => ha (List.mem_singleton.mp heq ▸ hz')
        have hnone := List.any_eq_false.mp (Bool.not_eq_true _ ▸ hany) z hz
        exact Bool.not_eq_true _ ▸ hnone

theorem sieved_sieve (h : xs.Nodup) : Sieved similar xs (sieve similar xs).1 (sieve similar xs).2 := by
  unfold sieve
  induction xs using List.reverseRecOn with
  | nil =>
    exact ⟨fun x => by simp, fun x hx => (by cases hx), List.Sublist.refl _,
      fun x hx => (by cases hx), fun y x _ hy => by cases hy⟩
  | append_singleton xs a ih =>
    obtain ⟨hxs, -, hdisjoint⟩ := List.nodup_append.mp h
    rw [List.foldl_concat]
    exact (ih hxs).step fun ha => hdisjoint a ha a (List.mem_singleton_self a) rfl

end Ranking
