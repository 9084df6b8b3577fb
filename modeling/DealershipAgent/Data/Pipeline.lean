import DealershipAgent.Data.CleanListings
import DealershipAgent.Retrieval.Exact

/-!
# From the raw listings to a search

The scripts one after the other: raw frames are cleaned (`clean_listings.py`) and loaded
(`load_listings.py`), and the vehicles are embedded (`embed_listings.py`), over any number of frames.

* `vehicleColumns`, `loadFrame`: the rows of a cleaned frame, and their load.
* `Pipeline`: what the scripts may have made of the tables, with the frames that were loaded.
* `catalog_lineage`: the vehicles are those of the listings that were loaded, none is lost.
* `pipeline_search`: a search finds the nearest of them, and what it shows of them.
-/

namespace DealershipAgent

open Py Ranking Sql

/-! ## The load of a frame -/

section Frame

variable {N R R' : Type}

/-- A value for a column that is `NOT NULL`. -/
def notNull {α : Type} (column : Str) : Option α → Except Exc α
  | some a => .ok a
  | none => .error ⟨.other "IntegrityError", str "null value in column \"" ++ column ++
      str "\" of relation \"vehicles\" violates not-null constraint"⟩

/-- A record of `_rows_from_dataframe`, as the table takes it: `number` and `amount` are what the types
of its columns make of a number. -/
def vehicleColumns (number : N → Int) (amount : R → R') (row : CleanRow N R) :
    Except Exc (VehicleColumns R') := do
  let year ← notNull "year" (row.raw.year.map number)
  let make ← notNull "make" row.make
  let model ← notNull "model" row.model
  let mileage ← notNull "mileage" (row.raw.mileage.map number)
  return {
    externalRef := row.externalRef, year := year, make := make, model := model, trim := row.raw.trim,
    bodyStyle := row.bodyStyle, fuelType := row.fuelType, mileage := mileage,
    price := row.price.map amount, priceLow := row.priceLow.map amount,
    priceHigh := row.priceHigh.map amount, isPriceReliable := row.isPriceReliable,
    sellerState := row.sellerState, descriptionRaw := row.descriptionRaw,
    descriptionClean := row.descriptionClean, isAvailable := row.isAvailable }

variable (number : N → Int) (amount : R → R') (check : VehicleColumns R' → Except Exc Unit)

/-- One step of the loop over the chunks of the records. -/
def loadRecords (loaded : Nat × VehicleTable R') (chunk : List (CleanRow N R)) :
    Except Exc (Nat × VehicleTable R') := do
  let rows ← chunk.mapM (vehicleColumns number amount)
  loadChunk check loaded rows

/-- `main` of the load, on the frame that it has read. -/
def loadFrame (chunkSize : Nat) (df : List (CleanRow N R)) (table : VehicleTable R') :
    Except Exc Nat × VehicleTable R' :=
  transact (fun table => (slices chunkSize df).foldlM (loadRecords number amount check) (0, table)) table

variable {number amount check} {table' : VehicleTable R'} {n : Nat}

theorem notNull_ok {α : Type} {column : Str} {value : Option α} {a : α} :
    notNull column value = .ok a ↔ value = some a := by
  cases value <;> simp [notNull]

theorem loadRecords_ok {loaded loaded' : Nat × VehicleTable R'} {chunk : List (CleanRow N R)}
    (h : loadRecords number amount check loaded chunk = .ok loaded') :
    ∃ rows, chunk.mapM (vehicleColumns number amount) = .ok rows ∧
      loaded' = (loaded.1 + rows.length, rows.foldl VehicleTable.upsert loaded.2) := by
  unfold loadRecords loadChunk at h
  obtain ⟨rows, hrows, h⟩ := bind_eq_ok.mp h
  obtain ⟨table, htable, h⟩ := bind_eq_ok.mp h
  cases h
  exact ⟨rows, hrows, by rw [(upsertChunk_ok.mp htable).2]⟩

theorem foldlM_loadRecords {chunks : List (List (CleanRow N R))} {loaded : Nat × VehicleTable R'}
    (h : chunks.foldlM (loadRecords number amount check) loaded = .ok (n, table')) :
    ∃ rows, chunks.flatten.mapM (vehicleColumns number amount) = .ok rows ∧
      n = loaded.1 + rows.length ∧ table' = rows.foldl VehicleTable.upsert loaded.2 := by
  induction chunks generalizing loaded with
  | nil =>
    cases h
    exact ⟨[], rfl, rfl, rfl⟩
  | cons chunk chunks ih =>
    rw [List.foldlM_cons] at h
    obtain ⟨loaded', hchunk, h⟩ := bind_eq_ok.mp h
    obtain ⟨rows, hrows, rfl⟩ := loadRecords_ok hchunk
    obtain ⟨rest, hrest, hn, htable⟩ := ih h
    refine ⟨rows ++ rest, ?_, ?_, ?_⟩
    · rw [mapM_eq_ok] at hrows hrest ⊢
      exact List.rel_append hrows hrest
    · rw [hn, List.length_append, Nat.add_assoc]
    · rw [htable, List.foldl_append]

/-- A load that returns has upserted the records of the frame one after the other. -/
theorem loadFrame_ok {chunkSize : Nat} (hsize : 0 < chunkSize) {df : List (CleanRow N R)}
    {table : VehicleTable R'}
    (h : loadFrame number amount check chunkSize df table = (.ok n, table')) :
    ∃ rows, df.mapM (vehicleColumns number amount) = .ok rows ∧ n = rows.length ∧
      table' = rows.foldl VehicleTable.upsert table := by
  obtain ⟨rows, hrows, hn, htable⟩ := foldlM_loadRecords (transact_ok.mp h)
  rw [flatten_slices hsize] at hrows
  exact ⟨rows, hrows, by omega, htable⟩

end Frame

/-! ## Runs of the scripts -/

/-- Where one of the results of a `flatMap` comes from. -/
theorem flatMap_split {α β : Type} {f : α → List β} {xs : List α} {before after : List β} {b : β}
    (h : xs.flatMap f = before ++ b :: after) : ∃ earlier x later left right,
      xs = earlier ++ x :: later ∧ f x = left ++ b :: right ∧ after = right ++ later.flatMap f := by
  induction xs generalizing before with
  | nil => simp at h
  | cons x xs ih =>
    rw [List.flatMap_cons] at h
    rcases List.append_eq_append_iff.mp h with ⟨rest, rfl, hrest⟩ | ⟨rest, hx, hrest⟩
    · obtain ⟨earlier, y, later, left, right, rfl, hy, rfl⟩ := ih hrest
      exact ⟨x :: earlier, y, later, left, right, rfl, hy, rfl⟩
    · cases rest with
      | nil =>
        obtain ⟨earlier, y, later, left, right, rfl, hy, rfl⟩ := @ih [] hrest.symm
        exact ⟨x :: earlier, y, later, left, right, rfl, hy, rfl⟩
      | cons b' right =>
        obtain ⟨rfl, rfl⟩ := List.cons_eq_cons.mp hrest
        exact ⟨[], x, xs, before, right, rfl, hx, rfl⟩

section Pipeline

variable {V N R R' F : Type} [Unicode] [Casing] [Add R] [Div R] [OfNat R 0] [OfNat R 2]
  [DecidableEq R] [DecidableEq N] [LE F] [DecidableLE F] (number : N → Int) (amount : R → R')
  (groupOrder : List (DedupeKey N) → List (DedupeKey N)) (ratio : Str → Str → F) (threshold : F)

/-- What the scripts may have made of the tables from nothing, and the raw frames that were loaded, in
their order. A load may fail, a run of the embedding, for any model, may be stopped. A sequence is not
rolled back. -/
inductive Pipeline : List (List (RawListing N R)) → CatalogTables V R' → Prop
  | empty : Pipeline [] ⟨.empty, {}⟩
  | load {loaded : List (List (RawListing N R))} {tables : CatalogTables V R'}
      {raws : List (RawListing N R)} {df : List (CleanRow N R)} {stats : CleaningStats}
      {check : VehicleColumns R' → Except Exc Unit} {chunkSize n : Nat} {vehicles : VehicleTable R'}
      (h : Pipeline loaded tables) (hclean : clean groupOrder ratio threshold raws = .ok (df, stats))
      (hsize : 0 < chunkSize)
      (hload : loadFrame number amount check chunkSize df tables.vehicles = (.ok n, vehicles)) :
      Pipeline (loaded ++ [raws]) { tables with vehicles := vehicles }
  | failed {loaded : List (List (RawListing N R))} {tables : CatalogTables V R'}
      {df : List (CleanRow N R)} {check : VehicleColumns R' → Except Exc Unit} {chunkSize : Nat}
      {e : Exc} {left vehicles : VehicleTable R'} (h : Pipeline loaded tables)
      (hload : loadFrame number amount check chunkSize df tables.vehicles = (.error e, left))
      (hrows : vehicles.rows = left.rows) :
      Pipeline loaded { tables with vehicles := vehicles }
  | run {loaded : List (List (RawListing N R))} {tables : CatalogTables V R'}
      {embedTexts : List Str → Except Exc (List V)} {check : VehicleEmbedding V → Except Exc Unit}
      {name : Str} {batchSize k lastId : Nat} (h : Pipeline loaded tables) (hsize : 0 < batchSize) :
      Pipeline loaded { tables with embeddings :=
        { stoppedRun embedTexts check name batchSize k tables.vehicles.rows tables.embeddings with
          lastId := lastId } }

/-- The rows that `clean` makes of these listings. -/
def cleanedRows (raws : List (RawListing N R)) : List (CleanRow N R) :=
  let kept := keptRows groupOrder ratio threshold raws
  kept.map fun row => finished row (cleanedDescription kept row)

variable {number amount groupOrder ratio threshold} {loaded : List (List (RawListing N R))}
  {tables : CatalogTables V R'}

/-- The columns of the catalog are those of all that was loaded, put there one after the other. -/
theorem Pipeline.columns (h : Pipeline number amount groupOrder ratio threshold loaded tables) :
    ∃ rows, (loaded.flatMap (cleanedRows groupOrder ratio threshold)).mapM
        (vehicleColumns number amount) = .ok rows ∧
      tables.vehicles.columns = rows.foldl (put fun v => v.externalRef) [] := by
  induction h with
  | empty => exact ⟨[], rfl, rfl⟩
  | run h hsize ih => exact ih
  | failed h hload hrows ih =>
    rw [transact_error hload] at hrows
    obtain ⟨rows, hrecords, hcolumns⟩ := ih
    exact ⟨rows, hrecords, by rw [← hcolumns, VehicleTable.columns, hrows, VehicleTable.columns]⟩
  | load h hclean hsize hload ih =>
    obtain ⟨rows, hrecords, hcolumns⟩ := ih
    obtain ⟨new, hnew, -, rfl⟩ := loadFrame_ok hsize hload
    rw [clean_ok hclean] at hnew
    refine ⟨rows ++ new, ?_, ?_⟩
    · rw [List.flatMap_append, List.flatMap_singleton]
      rw [mapM_eq_ok] at hrecords hnew ⊢
      exact List.rel_append hrecords hnew
    · rw [columns_foldl_upsert, hcolumns, List.foldl_append]

/-- No vehicle has two embeddings of one model. -/
theorem Pipeline.once (h : Pipeline number amount groupOrder ratio threshold loaded tables)
    (modelName : Str) : (embeddedIds modelName tables.embeddings.rows).Nodup := by
  induction h with
  | empty => exact List.nodup_nil
  | load h hclean hsize hload ih => exact ih
  | failed h hload hrows ih => exact ih
  | @run loaded tables embedTexts check name batchSize k lastId h hsize ih =>
    obtain ⟨done, new, hdone, hrows, hwritten, -⟩ :=
      embedPrefix_spec produces_any hsize (List.take_prefix k _) (Prod.eta _).symm
    change (embeddedIds modelName (stoppedRun ..).rows).Nodup
    rw [stoppedRun, hrows]
    by_cases hname : name = modelName
    · subst hname
      exact nodup_written tables.vehicles.ids hdone ih hwritten
    · rw [embeddedIds_append, embeddedIds_others hwritten hname, List.append_nil]
      exact ih

/-! ## The listings in the catalog -/

omit [Unicode] [Casing] [Add R] [Div R] [OfNat R 0] [OfNat R 2] [DecidableEq R] [DecidableEq N] in
theorem externalRef_vehicleColumns {row : CleanRow N R} {v : VehicleColumns R'}
    (h : vehicleColumns number amount row = .ok v) : v.externalRef = row.externalRef := by
  unfold vehicleColumns at h
  obtain ⟨_, -, h⟩ := bind_eq_ok.mp h
  obtain ⟨_, -, h⟩ := bind_eq_ok.mp h
  obtain ⟨_, -, h⟩ := bind_eq_ok.mp h
  obtain ⟨_, -, h⟩ := bind_eq_ok.mp h
  cases h
  rfl

variable (groupOrder ratio threshold) in
/-- The last row that was loaded under a reference, and the frame that it is kept of. -/
def LastKept (loaded : List (List (RawListing N R))) (ref : Str) (raws : List (RawListing N R))
    (row : PreparedRow N R) : Prop :=
  ∃ earlier later before after, loaded = earlier ++ raws :: later ∧
    keptRows groupOrder ratio threshold raws = before ++ row :: after ∧ row.raw.listingId = ref ∧
    (∀ x ∈ after, x.raw.listingId ≠ ref) ∧
    ∀ others ∈ later, ∀ x ∈ keptRows groupOrder ratio threshold others, x.raw.listingId ≠ ref

/-- The listing of a vehicle is the last of those loaded under its reference. -/
theorem Pipeline.last_kept (h : Pipeline number amount groupOrder ratio threshold loaded tables)
    {v : VehicleRow R'} (hv : v ∈ tables.vehicles.rows) :
    ∃ raws row, LastKept groupOrder ratio threshold loaded v.externalRef raws row ∧
      vehicleColumns number amount (finished row (cleanedDescription
        (keptRows groupOrder ratio threshold raws) row)) = .ok v.toVehicleColumns := by
  obtain ⟨rows, hrecords, hcolumns⟩ := h.columns
  have hin : v.toVehicleColumns ∈ tables.vehicles.columns := List.mem_map_of_mem hv
  rw [hcolumns] at hin
  obtain ⟨before, after, rfl, hafter⟩ := mem_foldl_put_nil hin
  generalize hall : loaded.flatMap (cleanedRows groupOrder ratio threshold) = records at hrecords
  have hrest := List.forall₂_drop_append _ _ _ (mapM_eq_ok.mp hrecords)
  obtain ⟨row, later, hrow, hlater, hdrop⟩ := List.forall₂_cons_right_iff.mp hrest
  have hother : ∀ x ∈ later, x.externalRef ≠ v.externalRef := by
    intro x hx
    obtain ⟨y, hy, hxy⟩ := mapM_ok_mem (mapM_eq_ok.mpr hlater) hx
    rw [← externalRef_vehicleColumns hxy]
    exact hafter y hy
  rw [← List.take_append_drop before.length records, hdrop] at hall
  obtain ⟨frames, raws, frames', left, right, hloaded, hframe, rfl⟩ := flatMap_split hall
  obtain ⟨kept, kept', hsplit, -, hkept⟩ := List.map_eq_append_iff.mp hframe
  obtain ⟨y, kept', rfl, rfl, rfl⟩ := List.map_eq_cons_iff.mp hkept
  refine ⟨raws, y, ⟨frames, frames', kept, kept', hloaded, hsplit, ?_, ?_, ?_⟩, hrow⟩
  · exact (externalRef_vehicleColumns hrow).symm
  · exact fun x hx => hother _ (List.mem_append_left _ (List.mem_map_of_mem hx))
  · exact fun others hin x hx => hother _ (List.mem_append_right _
      (List.mem_flatMap.mpr ⟨others, hin, List.mem_map_of_mem hx⟩))

/-- Every row that was loaded has its vehicle. -/
theorem Pipeline.listed (h : Pipeline number amount groupOrder ratio threshold loaded tables)
    {row : CleanRow N R} (hrow : row ∈ loaded.flatMap (cleanedRows groupOrder ratio threshold)) :
    ∃ v ∈ tables.vehicles.rows, v.externalRef = row.externalRef := by
  obtain ⟨rows, hrecords, hcolumns⟩ := h.columns
  obtain ⟨y, hy, hrow⟩ := mapM_ok_mem hrecords hrow
  have hkey : y.externalRef ∈ tables.vehicles.columns.map fun v => v.externalRef := by
    rw [hcolumns]
    exact mem_keys_foldl_put.mpr (.inr (List.mem_map_of_mem hy))
  rw [VehicleTable.columns, List.map_map, List.mem_map] at hkey
  obtain ⟨v, hv, href⟩ := hkey
  exact ⟨v, hv, href.trans (externalRef_vehicleColumns hrow)⟩

omit [Casing] in
/-- A listing of a frame is kept, or an earlier one of the same car and with a similar text is. -/
theorem keptRows_covers (hgroups : ∀ ks, (groupOrder ks).Perm ks) (ratio : Str → Str → F)
    (threshold : F) {raws : List (RawListing N R)} {x : PreparedRow N R} (hx : x ∈ preparedRows raws) :
    ∃ y ∈ keptRows groupOrder ratio threshold raws, y = x ∨ Before (preparedRows raws) y x ∧
      y.key = x.key ∧
      threshold ≤ ratio (comparedText x.descriptionClean) (comparedText y.descriptionClean) := by
  have hindex := nodup_preparedRows raws
  by_cases hdrop : x.index ∈ nearDuplicates groupOrder ratio threshold (preparedRows raws)
  · have hin := (dropped_iff hgroups hindex hx).mp hdrop
    obtain ⟨y, hy, hbefore, hsimilar⟩ := (sieved_group hindex x.key).covered x hin
    obtain ⟨hbefore, hkey, -⟩ := before_filter.mp hbefore
    have hkey := of_decide_eq_true hkey
    have hkept := (kept_iff hgroups hindex hbefore.mem_left).mpr (hkey ▸ hy)
    exact ⟨y, List.mem_filter.mpr ⟨hbefore.mem_left, decide_eq_true hkept⟩,
      .inr ⟨hbefore, hkey, of_decide_eq_true hsimilar⟩⟩
  · exact ⟨x, List.mem_filter.mpr ⟨hx, decide_eq_true hdrop⟩, .inl rfl⟩

/-- After any runs of the scripts. The columns of a vehicle are those of the last row that was kept and
loaded under its reference. Each listing of a frame that was loaded has one vehicle, or an earlier listing
of the same car and with a similar text has. -/
theorem catalog_lineage (hgroups : ∀ ks, (groupOrder ks).Perm ks)
    (h : Pipeline number amount groupOrder ratio threshold loaded tables) :
    (∀ v ∈ tables.vehicles.rows, ∃ raws row,
      LastKept groupOrder ratio threshold loaded v.externalRef raws row ∧
      vehicleColumns number amount (finished row (cleanedDescription
        (keptRows groupOrder ratio threshold raws) row)) = .ok v.toVehicleColumns) ∧
    ∀ raws ∈ loaded, ∀ raw ∈ raws, ∃ x ∈ preparedRows raws, x.raw = raw ∧
      ∃ y ∈ keptRows groupOrder ratio threshold raws,
        (y = x ∨ Before (preparedRows raws) y x ∧ y.key = x.key ∧
          threshold ≤ ratio (comparedText x.descriptionClean) (comparedText y.descriptionClean)) ∧
        ∃! v, v ∈ tables.vehicles.rows ∧ v.externalRef = y.raw.listingId := by
  refine ⟨fun v hv => h.last_kept hv, fun raws hraws raw hraw => ?_⟩
  obtain ⟨i, hi, rfl⟩ := List.getElem_of_mem hraw
  have hx : preparedRow i raws[i] ∈ preparedRows raws := by
    rw [preparedRows_eq]
    exact List.mem_map.mpr ⟨(raws[i], i), by simp [List.mem_zipIdx_iff_getElem?, hi], rfl⟩
  obtain ⟨y, hy, hcovers⟩ := keptRows_covers hgroups ratio threshold hx
  have hrow : finished y (cleanedDescription (keptRows groupOrder ratio threshold raws) y) ∈
      loaded.flatMap (cleanedRows groupOrder ratio threshold) :=
    List.mem_flatMap.mpr ⟨raws, hraws, List.mem_map_of_mem hy⟩
  obtain ⟨v, hv, href⟩ := h.listed hrow
  refine ⟨_, hx, rfl, y, hy, hcovers, v, ⟨hv, href⟩, fun v' hv' => ?_⟩
  exact List.inj_on_of_nodup_map tables.vehicles.refs hv'.1 hv (hv'.2.trans href.symm)

/-! ## A search after the scripts -/

/-- What a result shows of a listing from a frame with these segments: its columns as `clean` writes
them, no price where the midpoint is zero, and of the description what redaction and the removal of the
segments leave. -/
structure Shows (number : N → Int) (amount : R → R') (segments : List Str) (raw : RawListing N R)
    (r : VehicleSearchResult R') : Prop where
  externalRef : r.externalRef = raw.listingId
  year : raw.year.map number = some r.year
  make : raw.makeName.map normalizeMake = some r.make
  model : raw.modelName.map normalizeModel = some r.model
  mileage : raw.mileage.map number = some r.mileage
  columns : r.trim = raw.trim ∧ r.bodyStyle = raw.bodyStyle ∧ r.fuelType = raw.fuelType ∧
    r.sellerState = raw.sellerState
  description : r.descriptionClean =
    strippedDescription segments (some (redactPii (raw.description.getD [])).1)
  valued : ∀ low high, raw.kbbFairPriceLow = some low → raw.kbbFairPriceHigh = some high →
    (low + high) / 2 ≠ 0 → r.price = some (amount ((low + high) / 2)) ∧
      r.priceLow = some (amount low) ∧ r.priceHigh = some (amount high)
  sentinel : ∀ low high, raw.kbbFairPriceLow = some low → raw.kbbFairPriceHigh = some high →
    (low + high) / 2 = 0 → r.price = none ∧ r.priceLow = none ∧ r.priceHigh = none
  unknown : raw.kbbFairPriceLow = none ∨ raw.kbbFairPriceHigh = none → r.price = none

omit [Unicode] [Casing] [DecidableEq N] in
theorem computePrice_some {raw : RawListing N R} {low high : R} (hlow : raw.kbbFairPriceLow = some low)
    (hhigh : raw.kbbFairPriceHigh = some high) :
    computePrice raw = (some ((low + high) / 2), decide ((low + high) / 2 ≠ 0)) := by
  simp [computePrice, hlow, hhigh]

omit [Unicode] [Casing] [DecidableEq N] in
theorem computePrice_none {raw : RawListing N R}
    (h : raw.kbbFairPriceLow = none ∨ raw.kbbFairPriceHigh = none) :
    computePrice raw = (none, true) := by
  rcases h with h | h <;> simp [computePrice, h]

/-- What the columns of a kept row say of its listing. -/
theorem shows_of_columns [AddCommGroup R'] [One R'] {raws : List (RawListing N R)}
    {row : PreparedRow N R} {v : VehicleRow R'}
    (hrow : row ∈ keptRows groupOrder ratio threshold raws) {segments : List Str}
    (hv : vehicleColumns number amount
      (finished row (strippedDescription segments row.descriptionClean)) = .ok v.toVehicleColumns)
    (d : R') : Shows number amount segments row.raw (v.result d) := by
  have hprepared : row ∈ preparedRows raws := (List.mem_filter.mp hrow).1
  rw [preparedRows_eq] at hprepared
  obtain ⟨⟨raw, i⟩, -, rfl⟩ := List.mem_map.mp hprepared
  change Shows number amount segments raw (v.result d)
  unfold vehicleColumns at hv
  obtain ⟨year, hyear, hv⟩ := bind_eq_ok.mp hv
  obtain ⟨make, hmake, hv⟩ := bind_eq_ok.mp hv
  obtain ⟨model, hmodel, hv⟩ := bind_eq_ok.mp hv
  obtain ⟨mileage, hmileage, hv⟩ := bind_eq_ok.mp hv
  rw [notNull_ok] at hyear hmake hmodel hmileage
  obtain ⟨columns, id⟩ := v
  cases hv
  refine ⟨rfl, hyear, hmake, hmodel, hmileage, ⟨rfl, rfl, rfl, rfl⟩, rfl, ?_, ?_, ?_⟩
  · intro low high hlow hhigh hne
    simp [VehicleRow.result, finished, preparedRow, computePrice_some hlow hhigh, hlow, hhigh, hne]
  · intro low high hlow hhigh hzero
    simp [VehicleRow.result, finished, preparedRow, computePrice_some hlow hhigh, hzero]
  · intro hnone
    simp [VehicleRow.result, finished, preparedRow, computePrice_none hnone]

/-- A search after the scripts, when a run of the embedding has returned: the nearest of the vehicles
that its conditions let pass, each with what was loaded last under its reference. -/
theorem pipeline_search [AddCommGroup R'] [One R'] [LinearOrder R'] [IsOrderedAddMonoid R']
    {modelName : Str} (h : Pipeline number amount groupOrder ratio threshold loaded tables)
    {embedTexts : List Str → Except Exc (List V)} {check : VehicleEmbedding V → Except Exc Unit}
    {batchSize n : Nat} (hsize : 0 < batchSize) {table : EmbeddingTable V}
    (hok : embedPendingVehicles embedTexts check modelName batchSize tables.vehicles.rows
      tables.embeddings = (.ok n, table))
    {embedText : Str → V} {distance : V → V → R'} {fold : CodePoint → CodePoint} {query : Str}
    {filters : SearchFilters R'} {limit : Int} {results : List (VehicleSearchResult R')}
    (hsearch : searchListings embedText distance fold modelName ⟨tables.vehicles.rows, table.rows⟩
      query filters limit = .ok results) :
    (∃ patterns, filters.texts.given.mapM bindPattern = .ok patterns ∧
      Exact distance fold modelName ⟨tables.vehicles.rows, table.rows⟩ filters limit (embedText query)
        patterns results) ∧
    ∀ r ∈ results, ∃ raws row,
      LastKept groupOrder ratio threshold loaded r.externalRef raws row ∧
      Shows number amount (boilerplateSegments ((keptRows groupOrder ratio threshold raws).map
        fun kept => kept.descriptionClean)) row.raw r := by
  have honce : EmbeddedOnce modelName (⟨tables.vehicles.rows, table.rows⟩ : Catalog V R') :=
    embeddedOnce_of_run (h.once modelName) hsize hok
  obtain ⟨patterns, hpatterns, hexact⟩ := searchListings_exact honce tables.vehicles.ids hsearch
  refine ⟨⟨patterns, hpatterns, hexact⟩, fun r hr => ?_⟩
  obtain ⟨v, hv, e, -, -, -, rfl⟩ := hexact.sound r hr
  obtain ⟨raws, row, hlast, hcolumns⟩ := h.last_kept (List.mem_filter.mp hv).1
  have hkept : row ∈ keptRows groupOrder ratio threshold raws := by
    obtain ⟨_, _, before, after, -, hsplit, -⟩ := hlast
    rw [hsplit]
    exact List.mem_append_right _ List.mem_cons_self
  exact ⟨raws, row, hlast, shows_of_columns hkept hcolumns _⟩

end Pipeline

/-! ## Two frames through the scripts -/

/-- A listing, a copy of it, and one of another make. -/
def corollaFrame : List (RawListing Nat Int) :=
  [rawCorolla "7316" "toyota" "One owner.", rawCorolla "7317" "toyota" "ONE OWNER. ",
    rawCorolla "7318" "Honda" "One owner."]

/-- The first listing, with a new description. -/
def newFrame : List (RawListing Nat Int) := [rawCorolla "7316" "toyota" "New tyres."]

/-- The load of a frame. -/
def corollaLoad (raws : List (RawListing Nat Int)) (table : VehicleTable Int) :
    Except Exc Nat × VehicleTable Int :=
  let _ := asciiUnicode
  let _ := asciiCasing
  loadFrame Int.ofNat id (fun _ => .ok ()) chunkSize (cleanedRows id sameText 1 raws) table

/-- The tables after both loads. -/
def corollaTables : CatalogTables Str Int :=
  ⟨(corollaLoad newFrame (corollaLoad corollaFrame .empty).2).2, {}⟩

theorem corollaFrame_clean :
    let _ := asciiUnicode
    let _ := asciiCasing
    ∃ df stats, clean id sameText 1 corollaFrame = .ok (df, stats) :=
  ⟨_, _, rfl⟩

theorem newFrame_clean :
    let _ := asciiUnicode
    let _ := asciiCasing
    ∃ df stats, clean id sameText 1 newFrame = .ok (df, stats) :=
  ⟨_, _, rfl⟩

theorem corollaFrame_loaded : (corollaLoad corollaFrame .empty).1 = .ok 2 := rfl

theorem newFrame_loaded : (corollaLoad newFrame (corollaLoad corollaFrame .empty).2).1 = .ok 1 := rfl

/-- One more frame is loaded. -/
theorem corolla_load {loaded : List (List (RawListing Nat Int))} {tables : CatalogTables Str Int}
    {raws : List (RawListing Nat Int)} {n : Nat}
    (h : let _ := asciiUnicode
      let _ := asciiCasing
      Pipeline Int.ofNat id id sameText 1 loaded tables)
    (hclean : let _ := asciiUnicode
      let _ := asciiCasing
      ∃ df stats, clean id sameText 1 raws = .ok (df, stats))
    (hload : (corollaLoad raws tables.vehicles).1 = .ok n) :
    let _ := asciiUnicode
    let _ := asciiCasing
    Pipeline Int.ofNat id id sameText 1 (loaded ++ [raws])
      { tables with vehicles := (corollaLoad raws tables.vehicles).2 } := by
  intro _ _
  obtain ⟨df, stats, hclean⟩ := hclean
  obtain rfl : df = cleanedRows id sameText 1 raws := clean_ok hclean
  have hsize : 0 < chunkSize := by decide
  exact .load h hclean hsize (Prod.ext hload rfl)

theorem corollaTables_pipeline :
    let _ := asciiUnicode
    let _ := asciiCasing
    Pipeline Int.ofNat id id sameText 1 [corollaFrame, newFrame] corollaTables := by
  intro _ _
  have hempty : Pipeline Int.ofNat id id sameText 1 [] (⟨.empty, {}⟩ : CatalogTables Str Int) := .empty
  exact corolla_load (corolla_load hempty corollaFrame_clean corollaFrame_loaded) newFrame_clean
    newFrame_loaded

/-- The vehicle of the first listing has its new description, and the copy has the vehicle of the listing
before it. -/
theorem corollaTables_lineage :
    let _ := asciiUnicode
    let _ := asciiCasing
    (∃ v ∈ corollaTables.vehicles.rows, v.externalRef = "7316" ∧ v.descriptionClean = str "New tyres." ∧
      ∃ raws row, LastKept id sameText 1 [corollaFrame, newFrame] v.externalRef raws row) ∧
    (keptRows id sameText 1 corollaFrame).map (fun row => row.raw.listingId) = ["7316", "7318"] ∧
    ∃ x ∈ preparedRows corollaFrame, x.raw = rawCorolla "7317" "toyota" "ONE OWNER. " ∧
      ∃ y ∈ keptRows id sameText 1 corollaFrame, (y = x ∨ Before (preparedRows corollaFrame) y x) ∧
        ∃! v, v ∈ corollaTables.vehicles.rows ∧ v.externalRef = y.raw.listingId := by
  intro _ _
  obtain ⟨hlisted, hcovered⟩ := catalog_lineage (fun _ => List.Perm.refl _) corollaTables_pipeline
  have hrow : ∃ v ∈ corollaTables.vehicles.rows,
      v.externalRef = "7316" ∧ v.descriptionClean = str "New tyres." := by decide
  refine ⟨?_, by decide, ?_⟩
  · obtain ⟨v, hv, href, htext⟩ := hrow
    obtain ⟨raws, row, hlast, -⟩ := hlisted v hv
    exact ⟨v, hv, href, htext, raws, row, hlast⟩
  · have hframe : corollaFrame ∈ [corollaFrame, newFrame] := List.mem_cons_self
    have hcopy : rawCorolla "7317" "toyota" "ONE OWNER. " ∈ corollaFrame :=
      List.mem_cons_of_mem _ List.mem_cons_self
    obtain ⟨x, hx, hraw, y, hy, hcovers, hone⟩ := hcovered _ hframe _ hcopy
    exact ⟨x, hx, hraw, y, hy, hcovers.imp_right And.left, hone⟩

/-- A search of them, by the lengths of the texts. -/
def corollaSearch : Except Exc (List (VehicleSearchResult Int)) :=
  searchListings id (fun s t => (s.length : Int) - t.length) asciiLower "m"
    ⟨corollaTables.vehicles.rows, (embedTitles corollaTables).2.rows⟩ "sedan" {} 5

theorem corollaSearch_lineage :
    let _ := asciiUnicode
    let _ := asciiCasing
    ∃ results, corollaSearch = .ok results ∧ results.length = 2 ∧ ∀ r ∈ results, ∃ raws row,
      LastKept id sameText 1 [corollaFrame, newFrame] r.externalRef raws row ∧
      Shows Int.ofNat id (boilerplateSegments ((keptRows id sameText 1 raws).map
        fun kept => kept.descriptionClean)) row.raw r := by
  intro _ _
  have hrun : embedTitles corollaTables = (.ok 2, (embedTitles corollaTables).2) := Prod.ext rfl rfl
  have hfound : ∃ results, corollaSearch = .ok results ∧ results.length = 2 := ⟨_, rfl, by decide⟩
  obtain ⟨results, hok, hlength⟩ := hfound
  have hsize : 0 < 256 := by decide
  exact ⟨results, hok, hlength, (pipeline_search corollaTables_pipeline hsize hrun hok).2⟩

end DealershipAgent
