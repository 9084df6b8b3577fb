import DealershipAgent.Data.Transaction
import DealershipAgent.Db.Vehicles
import DealershipAgent.Sql.Upsert

/-!
# Loading of the listings

`load_vehicles` of `data/scripts/load_listings.py`, over the table `vehicles`.

* `VehicleTable`: the table with its constraints.
* `loadVehicles`: one transaction, an upsert statement for each chunk of the rows.
* `upsertEach`: the same rows upserted one at a time.
* `load_vehicles_row_by_row_iff`: the load succeeds, and as these do, exactly when no statement has a
  value that Postgres refuses, more parameters than it takes, or one `external_ref` twice.
-/

namespace DealershipAgent

open Py Sql

section Load

variable {R : Type}

/-- The table `vehicles`, with the last id of its sequence. -/
@[ext] structure VehicleTable (R : Type) where
  rows : List (VehicleRow R)
  lastId : Nat
  ids : (rows.map VehicleRow.id).Nodup
  refs : (rows.map fun v => v.externalRef).Nodup
  fresh : ∀ v ∈ rows, v.id ≤ lastId

/-- The table without rows. -/
def VehicleTable.empty : VehicleTable R := ⟨[], 0, .nil, .nil, fun v hv => by cases hv⟩

/-- The row that an insert proposes. -/
def proposed (id : Nat) (columns : VehicleColumns R) : VehicleRow R := { columns with id := id }

/-- `DO UPDATE SET` of every column but `external_ref`. -/
def updateFrom (columns : VehicleColumns R) (v : VehicleRow R) : VehicleRow R :=
  { columns with externalRef := v.externalRef, id := v.id }

/-- The rows after one row was upserted. -/
def upsertedRows (rows : List (VehicleRow R)) (id : Nat) (columns : VehicleColumns R) :
    List (VehicleRow R) :=
  upsert (fun v => v.externalRef) (proposed id columns) (updateFrom columns) rows

theorem mem_upsertedRows {rows : List (VehicleRow R)} {id : Nat} {columns : VehicleColumns R}
    {v : VehicleRow R} (h : v ∈ upsertedRows rows id columns) :
    v = proposed id columns ∨ v ∈ rows ∨ ∃ old ∈ rows, v = updateFrom columns old := by
  obtain ⟨hv, -⟩ | ⟨hv, -⟩ | ⟨old, hold, -, hv⟩ := mem_upsert h
  · exact .inl hv
  · exact .inr (.inl hv)
  · exact .inr (.inr ⟨old, hold, hv⟩)

/-- The ids stay, and at most one comes. -/
theorem ids_upsertedRows (rows : List (VehicleRow R)) (id : Nat) (columns : VehicleColumns R) :
    (upsertedRows rows id columns).map VehicleRow.id = rows.map VehicleRow.id ∨
      (upsertedRows rows id columns).map VehicleRow.id = rows.map VehicleRow.id ++ [id] := by
  unfold upsertedRows upsert
  split
  · refine .inl ?_
    rw [List.map_map]
    refine List.map_congr_left fun v _ => ?_
    rw [Function.comp_apply]
    split <;> rfl
  · exact .inr (by rw [List.map_append]; rfl)

/-- One row of an upsert. It takes an id from the sequence, also if it needs none. -/
def VehicleTable.upsert (table : VehicleTable R) (columns : VehicleColumns R) : VehicleTable R where
  rows := upsertedRows table.rows (table.lastId + 1) columns
  lastId := table.lastId + 1
  ids := by
    rcases ids_upsertedRows table.rows (table.lastId + 1) columns with h | h
    · rw [h]
      exact table.ids
    · rw [h]
      refine List.nodup_append.mpr ⟨table.ids, List.nodup_singleton _, fun a ha b hb => ?_⟩
      obtain ⟨v, hv, rfl⟩ := List.mem_map.mp ha
      obtain rfl := List.mem_singleton.mp hb
      have := table.fresh v hv
      omega
  refs := nodup_upsert (fun _ => rfl) table.refs
  fresh := by
    intro v hv
    rcases mem_upsertedRows hv with rfl | hv | ⟨old, hold, rfl⟩
    · exact Nat.le_refl _
    · exact (table.fresh v hv).trans (Nat.le_succ _)
    · exact (table.fresh old hold).trans (Nat.le_succ _)

/-- The parameters of a statement are counted in 16 bits. -/
def maxParameters : Nat := 65535

/-- The number of `VEHICLE_COLUMNS`. -/
def vehicleColumnCount : Nat := 16

/-- `INSERT INTO vehicles .. ON CONFLICT (external_ref) DO UPDATE` of the rows of a chunk; `check` is
what Postgres says of the values of a row. -/
def upsertChunk (check : VehicleColumns R → Except Exc Unit) (chunk : List (VehicleColumns R))
    (table : VehicleTable R) : Except Exc (VehicleTable R) := do
  if maxParameters < vehicleColumnCount * chunk.length then
    .error ⟨.other "OperationalError", "number of parameters must be between 0 and 65535"⟩
  let _ ← chunk.mapM check
  if ¬ (chunk.map fun row => row.externalRef).Nodup then
    .error ⟨.other "CardinalityViolation",
      "ON CONFLICT DO UPDATE command cannot affect row a second time"⟩
  return chunk.foldl VehicleTable.upsert table

/-- One step of the loop over the chunks, with the count so far. -/
def loadChunk (check : VehicleColumns R → Except Exc Unit) (loaded : Nat × VehicleTable R)
    (chunk : List (VehicleColumns R)) : Except Exc (Nat × VehicleTable R) := do
  let table ← upsertChunk check chunk loaded.2
  return (loaded.1 + chunk.length, table)

/-- `load_vehicles`: its result, and the table after it. -/
def loadVehicles (check : VehicleColumns R → Except Exc Unit) (chunkSize : Nat)
    (rows : List (VehicleColumns R)) (table : VehicleTable R) : Except Exc Nat × VehicleTable R :=
  transact (fun table => (slices chunkSize rows).foldlM (loadChunk check) (0, table)) table

/-- The rows upserted one at a time. -/
def upsertEach (check : VehicleColumns R → Except Exc Unit) (rows : List (VehicleColumns R))
    (table : VehicleTable R) : Except Exc (VehicleTable R) :=
  rows.foldlM (fun table row => upsertChunk check [row] table) table

/-! ## What a load does -/

/-- A statement that Postgres takes. -/
structure Loads (check : VehicleColumns R → Except Exc Unit) (chunk : List (VehicleColumns R)) :
    Prop where
  few : vehicleColumnCount * chunk.length ≤ maxParameters
  valid : ∀ row ∈ chunk, check row = .ok ()
  distinct : (chunk.map fun row => row.externalRef).Nodup

variable {check : VehicleColumns R → Except Exc Unit} {chunkSize : Nat}
  {rows chunk : List (VehicleColumns R)} {table table' : VehicleTable R}

theorem upsertChunk_ok : upsertChunk check chunk table = .ok table' ↔
    Loads check chunk ∧ table' = chunk.foldl VehicleTable.upsert table := by
  have hloads : Loads check chunk ↔ vehicleColumnCount * chunk.length ≤ maxParameters ∧
      (∃ us, chunk.mapM check = .ok us) ∧ (chunk.map fun row => row.externalRef).Nodup := by
    rw [mapM_isOk_iff]
    exact ⟨fun h => ⟨h.few, fun row hrow => ⟨(), h.valid row hrow⟩, h.distinct⟩,
      fun ⟨hfew, hvalid, hdistinct⟩ =>
        ⟨hfew, fun row hrow => (hvalid row hrow).elim fun _ hu => hu, hdistinct⟩⟩
  rw [hloads]
  unfold upsertChunk
  by_cases hfew : maxParameters < vehicleColumnCount * chunk.length
  · simp [hfew, bind, Except.bind, not_le.mpr hfew]
  · cases chunk.mapM check with
    | error e => simp [hfew, bind, Except.bind]
    | ok us =>
      by_cases hdistinct : (chunk.map fun row => row.externalRef).Nodup
      · simp [hfew, hdistinct, bind, Except.bind, pure, Except.pure, not_lt.mp hfew, eq_comm]
      · simp [hfew, hdistinct, bind, Except.bind]

theorem not_loads {e : Exc} (h : upsertChunk check chunk table = .error e) :
    ¬ Loads check chunk := by
  intro hloads
  have hok : upsertChunk check chunk table = .ok _ := upsertChunk_ok.mpr ⟨hloads, rfl⟩
  rw [h] at hok
  cases hok

theorem foldlM_loadChunk {chunks : List (List (VehicleColumns R))} {loaded : Nat × VehicleTable R}
    {n : Nat} : chunks.foldlM (loadChunk check) loaded = .ok (n, table') ↔
      (∀ chunk ∈ chunks, Loads check chunk) ∧ n = loaded.1 + chunks.flatten.length ∧
        table' = chunks.flatten.foldl VehicleTable.upsert loaded.2 := by
  induction chunks generalizing loaded with
  | nil =>
    obtain ⟨total, table⟩ := loaded
    simp [pure, Except.pure, eq_comm]
  | cons chunk chunks ih =>
    rw [List.foldlM_cons, List.forall_mem_cons, List.flatten_cons, List.foldl_append,
      List.length_append]
    cases hchunk : upsertChunk check chunk loaded.2 with
    | error e =>
      simp [loadChunk, hchunk, bind, Except.bind, not_loads hchunk]
    | ok t =>
      obtain ⟨hloads, rfl⟩ := upsertChunk_ok.mp hchunk
      have hstep : loadChunk check loaded chunk =
          .ok (loaded.1 + chunk.length, chunk.foldl VehicleTable.upsert loaded.2) := by
        unfold loadChunk
        rw [hchunk]
        rfl
      rw [hstep, ← Nat.add_assoc]
      simp only [hloads, true_and]
      exact ih

/-- When a load returns, and what it leaves. -/
theorem loadVehicles_ok {n : Nat} (hsize : 0 < chunkSize) :
    loadVehicles check chunkSize rows table = (.ok n, table') ↔
      (∀ chunk ∈ slices chunkSize rows, Loads check chunk) ∧ n = rows.length ∧
        table' = rows.foldl VehicleTable.upsert table := by
  rw [loadVehicles, transact_ok, foldlM_loadChunk, flatten_slices hsize, Nat.zero_add]

theorem loads_singleton {row : VehicleColumns R} : Loads check [row] ↔ check row = .ok () := by
  refine ⟨fun h => h.valid row (List.mem_singleton_self _), fun h => ⟨?_, fun r hr => ?_, ?_⟩⟩
  · rw [List.length_singleton]
    decide
  · rwa [List.mem_singleton.mp hr]
  · exact List.nodup_singleton _

theorem upsertEach_ok : upsertEach check rows table = .ok table' ↔
    (∀ row ∈ rows, check row = .ok ()) ∧ table' = rows.foldl VehicleTable.upsert table := by
  unfold upsertEach
  induction rows generalizing table with
  | nil => simp [pure, Except.pure, eq_comm]
  | cons row rows ih =>
    rw [List.foldlM_cons, List.forall_mem_cons, List.foldl_cons]
    cases hrow : upsertChunk check [row] table with
    | error e =>
      have hnot := mt loads_singleton.mpr (not_loads hrow)
      simp [bind, Except.bind, hnot]
    | ok t =>
      obtain ⟨hloads, rfl⟩ := upsertChunk_ok.mp hrow
      simp only [loads_singleton.mp hloads, true_and]
      exact ih

/-! ## Loading again -/

/-- The columns that were loaded. -/
def VehicleTable.columns (table : VehicleTable R) : List (VehicleColumns R) :=
  table.rows.map VehicleRow.toVehicleColumns

/-- On the columns an upsert overwrites the row. -/
theorem columns_upsert (table : VehicleTable R) (row : VehicleColumns R) :
    (table.upsert row).columns = put (fun v => v.externalRef) table.columns row := by
  refine map_upsert VehicleRow.toVehicleColumns (fun _ => rfl) (fun v hv => ?_) table.rows
  change v.externalRef = row.externalRef at hv
  unfold updateFrom
  rw [hv]

theorem columns_foldl_upsert (rows : List (VehicleColumns R)) (table : VehicleTable R) :
    (rows.foldl VehicleTable.upsert table).columns =
      rows.foldl (put fun v => v.externalRef) table.columns := by
  induction rows generalizing table with
  | nil => rfl
  | cons row rows ih => rw [List.foldl_cons, List.foldl_cons, ih, columns_upsert]

theorem lastId_foldl_upsert (rows : List (VehicleColumns R)) (table : VehicleTable R) :
    (rows.foldl VehicleTable.upsert table).lastId = table.lastId + rows.length := by
  induction rows generalizing table with
  | nil => rfl
  | cons row rows ih =>
    rw [List.foldl_cons, ih, List.length_cons]
    exact Nat.add_right_comm _ _ _

/-- A row after a load is new, or a row from before with the last columns loaded for it. -/
theorem mem_foldl_upsert {v : VehicleRow R}
    (h : v ∈ (rows.foldl VehicleTable.upsert table).rows) :
    table.lastId < v.id ∨ ∃ old ∈ table.rows, v.id = old.id ∧
      v.toVehicleColumns = lastFor (fun row => row.externalRef) rows old.toVehicleColumns := by
  induction rows using List.reverseRecOn generalizing v with
  | nil => exact .inr ⟨v, h, rfl, rfl⟩
  | append_singleton rows row ih =>
    have hlast := lastId_foldl_upsert rows table
    rw [List.foldl_concat] at h
    obtain ⟨rfl, -⟩ | ⟨hv, hne⟩ | ⟨before, hbefore, heq, rfl⟩ := mem_upsert h
    · refine .inl ?_
      change table.lastId < (rows.foldl VehicleTable.upsert table).lastId + 1
      omega
    · refine (ih hv).imp_right fun ⟨old, hold, hid, hcolumns⟩ => ⟨old, hold, hid, ?_⟩
      have href := (congrArg VehicleColumns.externalRef hcolumns).trans
        (key_lastFor (fun row => row.externalRef) rows old.toVehicleColumns)
      rw [lastFor_concat, if_neg fun hrow => hne (href.trans hrow.symm)]
      exact hcolumns
    · refine (ih hbefore).imp_right fun ⟨old, hold, hid, hcolumns⟩ => ⟨old, hold, hid, ?_⟩
      have href := (congrArg VehicleColumns.externalRef hcolumns).trans
        (key_lastFor (fun row => row.externalRef) rows old.toVehicleColumns)
      change before.externalRef = row.externalRef at heq
      rw [lastFor_concat, if_pos (heq.symm.trans href)]
      unfold updateFrom
      rw [heq]

/-- Loading succeeds and leaves the table as upserting the rows one at a time, and loading them again
changes no column, exactly when Postgres takes the values of every row and every statement stays under
the parameters that it counts and names no `external_ref` twice. -/
theorem load_vehicles_row_by_row_iff (check : VehicleColumns R → Except Exc Unit) (chunkSize : Nat)
    (hsize : 0 < chunkSize) (rows : List (VehicleColumns R)) (table : VehicleTable R) :
    (∃ table', loadVehicles check chunkSize rows table = (.ok rows.length, table') ∧
      upsertEach check rows table = .ok table' ∧
      ∃ table'', loadVehicles check chunkSize rows table' = (.ok rows.length, table'') ∧
        table''.columns = table'.columns) ↔
    (∀ row ∈ rows, check row = .ok ()) ∧ ∀ chunk ∈ slices chunkSize rows,
      vehicleColumnCount * chunk.length ≤ maxParameters ∧
        (chunk.map fun row => row.externalRef).Nodup := by
  have hmem : ∀ {row}, row ∈ rows ↔ ∃ chunk ∈ slices chunkSize rows, row ∈ chunk := by
    intro row
    rw [← List.mem_flatten, flatten_slices hsize]
  constructor
  · rintro ⟨table', hload, -⟩
    have hchunks := ((loadVehicles_ok hsize).mp hload).1
    refine ⟨fun row hrow => ?_, fun chunk hchunk => ⟨(hchunks chunk hchunk).few,
      (hchunks chunk hchunk).distinct⟩⟩
    obtain ⟨chunk, hchunk, hin⟩ := hmem.mp hrow
    exact (hchunks chunk hchunk).valid row hin
  · rintro ⟨hvalid, hstatements⟩
    have hchunks : ∀ chunk ∈ slices chunkSize rows, Loads check chunk := fun chunk hchunk =>
      ⟨(hstatements chunk hchunk).1, fun row hrow => hvalid row (hmem.mpr ⟨chunk, hchunk, hrow⟩),
        (hstatements chunk hchunk).2⟩
    refine ⟨_, (loadVehicles_ok hsize).mpr ⟨hchunks, rfl, rfl⟩, upsertEach_ok.mpr ⟨hvalid, rfl⟩, _,
      (loadVehicles_ok hsize).mpr ⟨hchunks, rfl, rfl⟩, ?_⟩
    simp only [columns_foldl_upsert, foldl_put_again]

end Load

/-! ## A listing that comes twice -/

/-- A listing with this mileage and description. -/
def corolla (ref : String) (mileage : Int) (description : String) : VehicleColumns Int where
  externalRef := ref
  year := 2019
  make := "Toyota"
  model := "Corolla"
  trim := none
  bodyStyle := some "Sedan"
  fuelType := none
  mileage := mileage
  price := some 15000
  priceLow := none
  priceHigh := none
  isPriceReliable := true
  sellerState := none
  descriptionRaw := some description
  descriptionClean := some description
  isAvailable := true

/-- `CHUNK_SIZE` -/
def chunkSize : Nat := 1000

/-- A listing, another one, and the first one again. -/
def corollas : List (VehicleColumns Int) :=
  [corolla "7316" 41000 "One owner.", corolla "7317" 41000 "New tyres.",
    corolla "7316" 42000 "Two owners."]

/-- In chunks of two it comes twice in the load and once in each chunk, and its last row stays. -/
theorem corollas_load : ∃ table', loadVehicles (fun _ => .ok ()) 2 corollas .empty = (.ok 3, table') ∧
    table'.columns = [corolla "7316" 42000 "Two owners.", corolla "7317" 41000 "New tyres."] := by
  obtain ⟨table', hload, -⟩ := (load_vehicles_row_by_row_iff (fun _ => .ok ()) 2 (by decide) corollas
    .empty).mpr ⟨fun _ _ => rfl, by decide⟩
  refine ⟨table', hload, ?_⟩
  rw [((loadVehicles_ok (by decide)).mp hload).2.2]
  rfl

/-- Twice in one chunk it is refused, one row at a time it is not. -/
theorem corolla_twice :
    loadVehicles (fun _ => .ok ()) chunkSize corollas .empty =
        (.error ⟨.other "CardinalityViolation",
          "ON CONFLICT DO UPDATE command cannot affect row a second time"⟩, .empty) ∧
      ∃ table', upsertEach (fun _ => .ok ()) corollas .empty = .ok table' :=
  ⟨rfl, _, upsertEach_ok.mpr ⟨fun _ _ => rfl, rfl⟩⟩

end DealershipAgent
