import Mathlib.Data.List.Nodup
import Mathlib.Data.List.Induction

/-!
# Upserts

A table is the list of its rows, no two with one key.

* `upsert`: `INSERT .. ON CONFLICT DO UPDATE` of one row. `keys_upsert`, `nodup_upsert`: the keys
  after it. `map_upsert`: what it is on a part of the rows.
* `put`: an upsert that overwrites the whole row. `mem_foldl_put`: after several of them each key has
  the last row put there. `foldl_put_again`: putting them all again changes nothing.
-/

namespace Sql

variable {α β κ : Type} [DecidableEq κ] {key : α → κ}

/-- Changes the row that has the key of `row`, or adds `row`. -/
def upsert (key : α → κ) (row : α) (update : α → α) (rows : List α) : List α :=
  if key row ∈ rows.map key then rows.map fun r => if key r = key row then update r else r
  else rows ++ [row]

theorem keys_upsert {row : α} {update : α → α} (h : ∀ r, key (update r) = key r) (rows : List α) :
    (upsert key row update rows).map key =
      if key row ∈ rows.map key then rows.map key else rows.map key ++ [key row] := by
  unfold upsert
  split
  · rw [List.map_map]
    refine List.map_congr_left fun r _ => ?_
    simp only [Function.comp_apply]
    split
    · exact h r
    · rfl
  · rw [List.map_append]
    rfl

theorem nodup_upsert {row : α} {update : α → α} {rows : List α} (h : ∀ r, key (update r) = key r)
    (hnodup : (rows.map key).Nodup) : ((upsert key row update rows).map key).Nodup := by
  rw [keys_upsert h]
  split
  · exact hnodup
  · next hnew =>
    refine List.nodup_append.mpr ⟨hnodup, List.nodup_singleton _, fun a ha b hb => ?_⟩
    obtain rfl := List.mem_singleton.mp hb
    exact fun heq => hnew (heq ▸ ha)

theorem mem_upsert {row r : α} {update : α → α} {rows : List α}
    (h : r ∈ upsert key row update rows) :
    r = row ∧ key row ∉ rows.map key ∨ r ∈ rows ∧ key r ≠ key row ∨
      ∃ old ∈ rows, key old = key row ∧ r = update old := by
  unfold upsert at h
  split at h
  · obtain ⟨old, hold, rfl⟩ := List.mem_map.mp h
    by_cases hkey : key old = key row
    · rw [if_pos hkey]
      exact .inr (.inr ⟨old, hold, hkey, rfl⟩)
    · rw [if_neg hkey]
      exact .inr (.inl ⟨hold, hkey⟩)
  · next hnew =>
    rcases List.mem_append.mp h with hr | hr
    · exact .inr (.inl ⟨hr, fun heq => hnew (List.mem_map.mpr ⟨r, hr, heq⟩)⟩)
    · exact .inl ⟨List.mem_singleton.mp hr, hnew⟩

theorem map_upsert (f : α → β) {key' : β → κ} {row : α} {update : α → α} {update' : β → β}
    (hkey : ∀ r, key' (f r) = key r)
    (hupdate : ∀ r, key r = key row → f (update r) = update' (f r)) (rows : List α) :
    (upsert key row update rows).map f = upsert key' (f row) update' (rows.map f) := by
  have hkeys : (rows.map f).map key' = rows.map key := by
    rw [List.map_map]
    exact List.map_congr_left fun r _ => hkey r
  unfold upsert
  rw [hkeys, hkey]
  split
  · rw [List.map_map, List.map_map]
    refine List.map_congr_left fun r _ => ?_
    simp only [Function.comp_apply, hkey]
    split
    · next heq => exact hupdate r heq
    · rfl
  · rw [List.map_append]
    rfl

/-! ## Overwriting -/

/-- An upsert that overwrites the row. -/
def put (key : α → κ) (rows : List α) (row : α) : List α := upsert key row (fun _ => row) rows

theorem mem_put {rows : List α} {row r : α} (h : r ∈ put key rows row) :
    r = row ∨ r ∈ rows ∧ key r ≠ key row := by
  obtain ⟨hr, -⟩ | hr | ⟨old, -, -, hr⟩ := mem_upsert h
  · exact .inl hr
  · exact .inr hr
  · exact .inl hr

theorem keys_put (rows : List α) (row : α) : (put key rows row).map key =
    if key row ∈ rows.map key then rows.map key else rows.map key ++ [key row] := by
  unfold put upsert
  split
  · rw [List.map_map]
    refine List.map_congr_left fun r _ => ?_
    simp only [Function.comp_apply]
    split
    · next heq => exact heq.symm
    · rfl
  · rw [List.map_append]
    rfl

theorem put_of_mem {rows : List α} {row : α} (h : key row ∈ rows.map key) :
    put key rows row = rows.map fun r => if key r = key row then row else r := if_pos h

/-- The last row of the list with the key of `r`, or `r`. -/
def lastFor (key : α → κ) (puts : List α) (r : α) : α :=
  (puts.reverse.find? fun row => key row = key r).getD r

theorem lastFor_concat (puts : List α) (row r : α) : lastFor key (puts ++ [row]) r =
    if key row = key r then row else lastFor key puts r := by
  unfold lastFor
  rw [List.reverse_append, List.reverse_singleton, List.singleton_append, List.find?_cons]
  by_cases h : key row = key r <;> simp [h]

theorem key_lastFor (key : α → κ) (puts : List α) (r : α) : key (lastFor key puts r) = key r := by
  induction puts using List.reverseRecOn with
  | nil => rfl
  | append_singleton puts row ih =>
    rw [lastFor_concat]
    split
    · assumption
    · exact ih

/-- After the puts each row is the last one put under its key. -/
theorem mem_foldl_put {puts rows : List α} {r : α} (h : r ∈ puts.foldl (put key) rows) :
    lastFor key puts r = r ∧ (r ∈ rows ∨ r ∈ puts) := by
  induction puts using List.reverseRecOn generalizing r with
  | nil => exact ⟨rfl, .inl h⟩
  | append_singleton puts row ih =>
    rw [List.foldl_concat] at h
    rw [lastFor_concat]
    obtain rfl | ⟨hr, hne⟩ := mem_put h
    · exact ⟨if_pos rfl, .inr (by simp)⟩
    · obtain ⟨hlast, hmem⟩ := ih hr
      rw [if_neg (Ne.symm hne)]
      exact ⟨hlast, hmem.imp_right fun h => List.mem_append_left _ h⟩

/-- From no rows, each row is the last one put under its key. -/
theorem mem_foldl_put_nil {puts : List α} {r : α} (h : r ∈ puts.foldl (put key) []) :
    ∃ before after, puts = before ++ r :: after ∧ ∀ row ∈ after, key row ≠ key r := by
  induction puts using List.reverseRecOn generalizing r with
  | nil => cases h
  | append_singleton puts row ih =>
    rw [List.foldl_concat] at h
    obtain rfl | ⟨hr, hne⟩ := mem_put h
    · exact ⟨puts, [], rfl, fun _ hnone => by cases hnone⟩
    · obtain ⟨before, after, rfl, hafter⟩ := ih hr
      refine ⟨before, after ++ [row], by simp, fun x hx => ?_⟩
      rcases List.mem_append.mp hx with hx | hx
      · exact hafter x hx
      · rw [List.mem_singleton.mp hx]
        exact hne.symm

/-- The keys stay, and those of the puts come. -/
theorem mem_keys_foldl_put {puts rows : List α} {k : κ} :
    k ∈ (puts.foldl (put key) rows).map key ↔ k ∈ rows.map key ∨ k ∈ puts.map key := by
  induction puts generalizing rows with
  | nil => simp
  | cons row puts ih =>
    rw [List.foldl_cons, ih, keys_put, List.map_cons, List.mem_cons]
    split
    · next h =>
      refine ⟨fun hk => hk.imp_right .inr, ?_⟩
      rintro (hk | rfl | hk)
      · exact .inl hk
      · exact .inl h
      · exact .inr hk
    · rw [List.mem_append, List.mem_singleton, or_assoc]

/-- Puts of keys that are all there. -/
theorem foldl_put_of_mem {puts rows : List α} (h : ∀ row ∈ puts, key row ∈ rows.map key) :
    puts.foldl (put key) rows = rows.map (lastFor key puts) := by
  induction puts using List.reverseRecOn with
  | nil => exact (List.map_id' rows).symm
  | append_singleton puts row ih =>
    have hputs := ih fun r hr => h r (List.mem_append_left _ hr)
    have hrow : key row ∈ (puts.foldl (put key) rows).map key :=
      mem_keys_foldl_put.mpr (.inl (h row (by simp)))
    rw [List.foldl_concat, put_of_mem hrow, hputs, List.map_map]
    refine List.map_congr_left fun r _ => ?_
    rw [Function.comp_apply, lastFor_concat, key_lastFor key]
    simp only [eq_comm]

/-- Putting the same rows again changes nothing. -/
theorem foldl_put_again (puts rows : List α) :
    puts.foldl (put key) (puts.foldl (put key) rows) = puts.foldl (put key) rows := by
  rw [foldl_put_of_mem fun row hrow =>
    mem_keys_foldl_put.mpr (.inr (List.mem_map_of_mem hrow))]
  calc (puts.foldl (put key) rows).map (lastFor key puts)
      = (puts.foldl (put key) rows).map id := List.map_congr_left fun r hr => (mem_foldl_put hr).1
    _ = puts.foldl (put key) rows := List.map_id _

end Sql
