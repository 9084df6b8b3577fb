import DealershipAgent.Py.Exc

/-!
# Transactions and batches of the data scripts

* `transact`: `with engine.begin() as conn`, over the tables that its statements change.
* `slices`: the batches that a list is cut into. `flatten_slices`: together they are the list.
-/

namespace DealershipAgent

open Py

section Transact

variable {S α : Type}

/-- Commits what `body` does to the tables, or rolls back and raises. -/
def transact (body : S → Except Exc (α × S)) (tables : S) : Except Exc α × S :=
  match body tables with
  | .ok (a, tables') => (.ok a, tables')
  | .error e => (.error e, tables)

/-- A transaction that returns has committed. -/
theorem transact_ok {body : S → Except Exc (α × S)} {tables tables' : S} {a : α} :
    transact body tables = (.ok a, tables') ↔ body tables = .ok (a, tables') := by
  unfold transact
  split
  · next b t h => rw [h]; simp
  · next e h => rw [h]; simp

/-- A transaction that raises has changed nothing. -/
theorem transact_error {body : S → Except Exc (α × S)} {tables tables' : S} {e : Exc}
    (h : transact body tables = (.error e, tables')) : tables' = tables := by
  unfold transact at h
  split at h
  · cases h
  · exact (Prod.mk.inj h).2.symm

end Transact

/-- `zip(xs, ys, strict=True)` at its end. -/
def zipStrict {α β : Type} (xs : List α) (ys : List β) : Except Exc Unit :=
  if ys.length < xs.length then .error ⟨.valueError, "zip() argument 2 is shorter than argument 1"⟩
  else if xs.length < ys.length then
    .error ⟨.valueError, "zip() argument 2 is longer than argument 1"⟩
  else .ok ()

theorem zipStrict_ok {α β : Type} {xs : List α} {ys : List β} :
    zipStrict xs ys = .ok () ↔ xs.length = ys.length := by
  unfold zipStrict
  split
  · next h => simp; omega
  · split
    · next h => simp; omega
    · simp; omega

section Slices

variable {α : Type}

/-- `xs[start : start + size] for start in range(0, len(xs), size)`, for a positive size. -/
def slices (size : Nat) (xs : List α) : List (List α) :=
  (List.range ((xs.length + size - 1) / size)).map fun i => (xs.drop (i * size)).take size

theorem slices_of_ne_nil {size : Nat} (hsize : 0 < size) {xs : List α} (h : xs ≠ []) :
    slices size xs = xs.take size :: slices size (xs.drop size) := by
  have hcount : (xs.length + size - 1) / size = ((xs.drop size).length + size - 1) / size + 1 := by
    have hlen := List.length_pos_iff.mpr h
    rw [List.length_drop]
    by_cases hle : size ≤ xs.length
    · rw [← Nat.add_div_right _ hsize]
      congr 1
      omega
    · rw [Nat.div_eq_of_lt_le (k := 1) (by omega) (by omega), Nat.div_eq_of_lt (by omega)]
  unfold slices
  rw [hcount, List.range_succ_eq_map, List.map_cons, List.map_map, Nat.zero_mul, List.drop_zero]
  refine congrArg _ (List.map_congr_left fun i _ => ?_)
  rw [Function.comp_apply, List.drop_drop, Nat.succ_mul, Nat.add_comm]

theorem flatten_slices {size : Nat} (hsize : 0 < size) (xs : List α) :
    (slices size xs).flatten = xs := by
  by_cases h : xs = []
  · subst h
    have hzero : (0 + size - 1) / size = 0 := Nat.div_eq_of_lt (by omega)
    unfold slices
    rw [List.length_nil, hzero]
    rfl
  · have hpos := List.length_pos_iff.mpr h
    rw [slices_of_ne_nil hsize h, List.flatten_cons, flatten_slices hsize, List.take_append_drop]
termination_by xs.length
decreasing_by rw [List.length_drop]; omega

end Slices

end DealershipAgent
