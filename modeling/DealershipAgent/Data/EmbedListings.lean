import Mathlib.Logic.Relation
import DealershipAgent.Data.LoadListings
import DealershipAgent.Py.Json.Dump
import DealershipAgent.Ranking.Nearest

/-!
# Embedding of the listings

`embed_pending_vehicles` of `data/scripts/embed_listings.py`, over the tables `vehicles` and
`vehicle_embeddings`.

* `embedPendingVehicles`: reads the vehicles without an embedding, and writes theirs, a transaction
  for each batch. `stoppedRun`: what it leaves if it is stopped after some batches.
* `embedding_resumes`: over runs that may be stopped and vehicles that come between them, no vehicle
  gets two embeddings, and a run that returns leaves each with one.
* `embeddings_current`: over loads and runs, the embeddings are those of the texts of the vehicles
  when no load changes the text of a vehicle that has one.
-/

namespace DealershipAgent

open Py Ranking Sql

section Embed

variable {V R : Type}

/-- The table `vehicle_embeddings`, with the last id of its sequence. -/
structure EmbeddingTable (V : Type) where
  rows : List (VehicleEmbedding V) := []
  lastId : Nat := 0

/-- `_embedding_text` -/
def embeddingText (row : VehicleColumns R) : Str :=
  let prefixParts := [intRepr row.year, row.make, row.model, row.trim.getD []]
  let head := strip (join " " (prefixParts.filter fun part => part ≠ []))
  strip (head ++ str " " ++ row.descriptionClean.getD [])

/-- The vehicle has an embedding of the model. -/
def hasEmbedding (modelName : Str) (embeddings : List (VehicleEmbedding V)) (id : Nat) : Bool :=
  embeddings.any fun e => e.vehicleId = id && e.modelName = modelName

/-- `SELECT_UNEMBEDDED` -/
def selectUnembedded (modelName : Str) (vehicles : List (VehicleRow R))
    (embeddings : List (VehicleEmbedding V)) : List (VehicleRow R) :=
  orderBy VehicleRow.id (vehicles.filter fun v => !hasEmbedding modelName embeddings v.id)

/-- `INSERT_EMBEDDING`; `check` is what Postgres says of the values of a row. -/
def insertEmbedding (check : VehicleEmbedding V → Except Exc Unit) (modelName : Str)
    (table : EmbeddingTable V) (x : VehicleRow R × V) : Except Exc (EmbeddingTable V) := do
  let row : VehicleEmbedding V :=
    { id := table.lastId + 1, vehicleId := x.1.id, embedding := x.2, modelName := modelName }
  check row
  return ⟨table.rows ++ [row], table.lastId + 1⟩

variable (embedTexts : List Str → Except Exc (List V))
  (check : VehicleEmbedding V → Except Exc Unit) (modelName : Str)

/-- One batch. -/
def embedBatch (batch : List (VehicleRow R)) (table : EmbeddingTable V) :
    Except Exc Unit × EmbeddingTable V :=
  match embedTexts (batch.map fun row => embeddingText row.toVehicleColumns) with
  | .error e => (.error e, table)
  | .ok vectors => transact (fun table => do
      let table ← (batch.zip vectors).foldlM (insertEmbedding check modelName) table
      zipStrict batch vectors
      return ((), table)) table

/-- The loop over the batches, with the total so far. -/
def embedBatches : List (List (VehicleRow R)) → Nat → EmbeddingTable V →
    Except Exc Nat × EmbeddingTable V
  | [], total, table => (.ok total, table)
  | batch :: batches, total, table =>
    match embedBatch embedTexts check modelName batch table with
    | (.error e, table) => (.error e, table)
    | (.ok (), table) => embedBatches batches (total + batch.length) table

/-- The batches of a run. -/
def pendingBatches (batchSize : Nat) (vehicles : List (VehicleRow R)) (table : EmbeddingTable V) :
    List (List (VehicleRow R)) :=
  slices batchSize (selectUnembedded modelName vehicles table.rows)

/-- `embed_pending_vehicles`: its result, and the embeddings after it. -/
def embedPendingVehicles (batchSize : Nat) (vehicles : List (VehicleRow R))
    (table : EmbeddingTable V) : Except Exc Nat × EmbeddingTable V :=
  embedBatches embedTexts check modelName (pendingBatches modelName batchSize vehicles table) 0 table

/-- The embeddings that a run leaves if it is stopped before its batch `k`, or earlier by what it
raises. -/
def stoppedRun (batchSize k : Nat) (vehicles : List (VehicleRow R)) (table : EmbeddingTable V) :
    EmbeddingTable V :=
  (embedBatches embedTexts check modelName
    ((pendingBatches modelName batchSize vehicles table).take k) 0 table).2

/-! ## What a run writes -/

/-- The rows of the model for these vehicles in their order, each with an embedding of its text. -/
def Written (P : Str → V → Prop) (vehicles : List (VehicleRow R)) (rows : List (VehicleEmbedding V)) :
    Prop :=
  List.Forall₂ (fun v e => e.vehicleId = v.id ∧ e.modelName = modelName ∧
    P (embeddingText v.toVehicleColumns) e.embedding) vehicles rows

/-- What the embedder makes of a text. -/
def Produces (P : Str → V → Prop) : Prop :=
  ∀ texts vectors, embedTexts texts = .ok vectors → texts.length = vectors.length →
    List.Forall₂ P texts vectors

variable {embedTexts check modelName} {P : Str → V → Prop} {batch : List (VehicleRow R)}
  {table table' : EmbeddingTable V}

theorem insertEmbedding_ok {x : VehicleRow R × V}
    (h : insertEmbedding check modelName table x = .ok table') :
    ∃ e : VehicleEmbedding V, table'.rows = table.rows ++ [e] ∧ e.vehicleId = x.1.id ∧
      e.modelName = modelName ∧ e.embedding = x.2 := by
  unfold insertEmbedding at h
  simp only [bind, Except.bind, pure, Except.pure] at h
  split at h
  · cases h
  · cases h
    exact ⟨_, rfl, rfl, rfl, rfl⟩

theorem foldlM_insertEmbedding {vectors : List V}
    (hvectors : List.Forall₂ (fun v x => P (embeddingText v.toVehicleColumns) x) batch vectors)
    (h : (batch.zip vectors).foldlM (insertEmbedding check modelName) table = .ok table') :
    ∃ rows, table'.rows = table.rows ++ rows ∧ Written modelName P batch rows := by
  induction hvectors generalizing table with
  | nil =>
    cases h
    exact ⟨[], (List.append_nil _).symm, .nil⟩
  | @cons v x vs xs hx _ ih =>
    rw [List.zip_cons_cons, List.foldlM_cons] at h
    cases hrow : insertEmbedding check modelName table (v, x) with
    | error e => rw [hrow] at h; cases h
    | ok t =>
      rw [hrow] at h
      obtain ⟨rows, hrows, hwritten⟩ := ih h
      obtain ⟨e, he, hid, hmodel, hembedding⟩ := insertEmbedding_ok hrow
      refine ⟨e :: rows, ?_, .cons ⟨hid, hmodel, hembedding ▸ hx⟩ hwritten⟩
      rw [hrows, he, List.append_assoc]
      rfl

/-- A batch writes the rows of all of its vehicles, or nothing. -/
theorem embedBatch_spec (hP : Produces embedTexts P) {r : Except Exc Unit}
    (h : embedBatch embedTexts check modelName batch table = (r, table')) :
    r = .ok () ∧ (∃ rows, table'.rows = table.rows ++ rows ∧ Written modelName P batch rows) ∨
      (∃ e, r = .error e) ∧ table' = table := by
  unfold embedBatch at h
  split at h
  · cases h
    exact .inr ⟨⟨_, rfl⟩, rfl⟩
  · next vectors hvectors =>
    cases r with
    | error e => exact .inr ⟨⟨e, rfl⟩, transact_error h⟩
    | ok u =>
      have hbody := transact_ok.mp h
      simp only [bind, Except.bind, pure, Except.pure] at hbody
      split at hbody
      · cases hbody
      · next t hinsert =>
        split at hbody
        · cases hbody
        · next hzip =>
          cases hbody
          have hlen : (batch.map fun row => embeddingText row.toVehicleColumns).length =
              vectors.length := by
            rw [List.length_map]
            exact zipStrict_ok.mp hzip
          have hproduced := List.forall₂_map_left_iff.mp (hP _ _ hvectors hlen)
          exact .inl ⟨rfl, foldlM_insertEmbedding hproduced hinsert⟩

/-- A run writes the rows of the first of its vehicles, of all of them if it returns. -/
theorem embedBatches_spec (hP : Produces embedTexts P) {batches : List (List (VehicleRow R))}
    {total : Nat} {r : Except Exc Nat}
    (h : embedBatches embedTexts check modelName batches total table = (r, table')) :
    ∃ done rows, done <+: batches.flatten ∧ table'.rows = table.rows ++ rows ∧
      Written modelName P done rows ∧
      ∀ n, r = .ok n → done = batches.flatten ∧ n = total + done.length := by
  induction batches generalizing total table with
  | nil =>
    cases h
    exact ⟨[], [], List.prefix_rfl, (List.append_nil _).symm, .nil, fun n hn => by cases hn; simp⟩
  | cons batch batches ih =>
    unfold embedBatches at h
    split at h
    · next e t hbatch =>
      cases h
      obtain ⟨hr, -⟩ | ⟨-, rfl⟩ := embedBatch_spec hP hbatch
      · cases hr
      · exact ⟨[], [], List.nil_prefix, (List.append_nil _).symm, .nil, fun n hn => by cases hn⟩
    · next t hbatch =>
      obtain ⟨-, rows, hrows, hwritten⟩ | ⟨⟨e, hr⟩, -⟩ := embedBatch_spec hP hbatch
      · obtain ⟨done, rows', hdone, hrows', hwritten', hok⟩ := ih h
        refine ⟨batch ++ done, rows ++ rows', ?_, ?_, ?_, fun n hn => ?_⟩
        · exact (List.prefix_append_right_inj _).mpr hdone
        · rw [hrows', hrows, List.append_assoc]
        · exact List.rel_append hwritten hwritten'
        · obtain ⟨hall, hn⟩ := hok n hn
          refine ⟨by rw [hall, List.flatten_cons], ?_⟩
          rw [List.length_append]
          omega
      · cases hr

/-! ## The embeddings of a model -/

/-- The vehicles of the embeddings of the model, once for each. -/
def embeddedIds (modelName : Str) (rows : List (VehicleEmbedding V)) : List Nat :=
  (rows.filter fun e => e.modelName = modelName).map VehicleEmbedding.vehicleId

/-- The embeddings of other models. -/
def ofOtherModels (modelName : Str) (rows : List (VehicleEmbedding V)) :
    List (VehicleEmbedding V) :=
  rows.filter fun e => e.modelName ≠ modelName

variable {rows rows' : List (VehicleEmbedding V)} {vehicles : List (VehicleRow R)}

theorem embeddedIds_append : embeddedIds modelName (rows ++ rows') =
    embeddedIds modelName rows ++ embeddedIds modelName rows' := by
  unfold embeddedIds
  rw [List.filter_append, List.map_append]

theorem mem_embeddedIds {id : Nat} : id ∈ embeddedIds modelName rows ↔
    ∃ e ∈ rows, e.vehicleId = id ∧ e.modelName = modelName := by
  unfold embeddedIds
  simp only [List.mem_map, List.mem_filter, decide_eq_true_eq]
  constructor
  · rintro ⟨e, ⟨he, hm⟩, hid⟩
    exact ⟨e, he, hid, hm⟩
  · rintro ⟨e, he, hid, hm⟩
    exact ⟨e, ⟨he, hm⟩, hid⟩

theorem hasEmbedding_iff {id : Nat} :
    hasEmbedding modelName rows id = true ↔ id ∈ embeddedIds modelName rows := by
  rw [mem_embeddedIds]
  unfold hasEmbedding
  simp only [List.any_eq_true, Bool.and_eq_true, decide_eq_true_eq]

theorem embeddedIds_written (h : Written modelName P vehicles rows) :
    embeddedIds modelName rows = vehicles.map VehicleRow.id := by
  unfold embeddedIds
  induction h with
  | nil => rfl
  | cons hx _ ih =>
    obtain ⟨hid, hmodel, -⟩ := hx
    rw [List.filter_cons_of_pos (by simp [hmodel]), List.map_cons, List.map_cons, hid, ih]

theorem embeddedIds_others {name : Str} (h : Written name P vehicles rows) (hne : name ≠ modelName) :
    embeddedIds modelName rows = [] := by
  unfold embeddedIds
  induction h with
  | nil => rfl
  | cons hx _ ih => rw [List.filter_cons_of_neg (by simp [hx.2.1, hne]), ih]

theorem ofOtherModels_written (h : Written modelName P vehicles rows) :
    ofOtherModels modelName rows = [] := by
  unfold ofOtherModels
  induction h with
  | nil => rfl
  | cons hx _ ih => rw [List.filter_cons_of_neg (by simp [hx.2.1]), ih]

theorem mem_selectUnembedded {v : VehicleRow R} : v ∈ selectUnembedded modelName vehicles rows ↔
    v ∈ vehicles ∧ v.id ∉ embeddedIds modelName rows := by
  unfold selectUnembedded
  rw [mem_orderBy, List.mem_filter, ← hasEmbedding_iff]
  simp

theorem nodup_selectUnembedded (h : (vehicles.map VehicleRow.id).Nodup) :
    ((selectUnembedded modelName vehicles rows).map VehicleRow.id).Nodup := by
  unfold selectUnembedded
  refine ((orderBy_perm _ _).map _).nodup_iff.mpr (h.sublist ?_)
  exact (List.filter_sublist).map _

/-- Rows for some of the vehicles without an embedding give none a second one. -/
theorem nodup_written {done : List (VehicleRow R)} (hids : (vehicles.map VehicleRow.id).Nodup)
    (hdone : done <+: selectUnembedded modelName vehicles rows)
    (hone : (embeddedIds modelName rows).Nodup) (hwritten : Written modelName P done rows') :
    (embeddedIds modelName (rows ++ rows')).Nodup := by
  rw [embeddedIds_append, embeddedIds_written hwritten]
  refine List.nodup_append.mpr ⟨hone, ?_, fun a ha b hb => ?_⟩
  · exact (nodup_selectUnembedded hids).sublist (hdone.sublist.map _)
  · obtain ⟨v, hv, rfl⟩ := List.mem_map.mp hb
    exact fun heq => (mem_selectUnembedded.mp (hdone.subset hv)).2 (heq ▸ ha)

/-! ## Runs that are stopped -/

/-- What a run leaves: the rows of the first of the vehicles without an embedding. -/
theorem embedPrefix_spec (hP : Produces embedTexts P) {batchSize : Nat} (hsize : 0 < batchSize)
    {batches : List (List (VehicleRow R))}
    (hbatches : batches <+: pendingBatches modelName batchSize vehicles table) {r : Except Exc Nat}
    (h : embedBatches embedTexts check modelName batches 0 table = (r, table')) :
    ∃ done new, done <+: selectUnembedded modelName vehicles table.rows ∧
      table'.rows = table.rows ++ new ∧ Written modelName P done new ∧
      ∀ n, r = .ok n → done = batches.flatten ∧ n = done.length := by
  obtain ⟨done, new, hdone, hrows, hwritten, hok⟩ := embedBatches_spec hP h
  refine ⟨done, new, hdone.trans ?_, hrows, hwritten, fun n hn => ?_⟩
  · obtain ⟨rest, hrest⟩ := hbatches
    refine ⟨rest.flatten, ?_⟩
    rw [← List.flatten_append, hrest, pendingBatches, flatten_slices hsize]
  · obtain ⟨hall, hn⟩ := hok n hn
    exact ⟨hall, by omega⟩

/-- A run that returns has written the rows of all of them. -/
theorem embedPendingVehicles_ok (hP : Produces embedTexts P) {batchSize n : Nat}
    (hsize : 0 < batchSize)
    (h : embedPendingVehicles embedTexts check modelName batchSize vehicles table =
      (.ok n, table')) :
    ∃ new, table'.rows = table.rows ++ new ∧
      Written modelName P (selectUnembedded modelName vehicles table.rows) new ∧
      new.length = n := by
  obtain ⟨done, new, -, hrows, hwritten, hok⟩ := embedPrefix_spec hP hsize List.prefix_rfl h
  obtain ⟨hall, hn⟩ := hok n rfl
  rw [pendingBatches, flatten_slices hsize] at hall
  refine ⟨new, hrows, hall ▸ hwritten, ?_⟩
  rw [hn, hwritten.length_eq]

/-- The two tables. -/
structure CatalogTables (V R : Type) where
  vehicles : VehicleTable R
  embeddings : EmbeddingTable V

/-- What may happen to them: a run, which may be stopped at any point, and vehicles that come. A
sequence is not rolled back. -/
inductive EmbedStep (modelName : Str) (tables : CatalogTables V R) : CatalogTables V R → Prop
  | run (embedTexts : List Str → Except Exc (List V)) (check : VehicleEmbedding V → Except Exc Unit)
      (batchSize k lastId : Nat) (hsize : 0 < batchSize) :
      EmbedStep modelName tables { tables with embeddings :=
        { stoppedRun embedTexts check modelName batchSize k tables.vehicles.rows
            tables.embeddings with lastId := lastId } }
  | insert (vehicles : VehicleTable R) (h : tables.vehicles.rows <+: vehicles.rows) :
      EmbedStep modelName tables { tables with vehicles := vehicles }

theorem produces_any : Produces embedTexts fun _ _ => True := by
  intro texts vectors _ hlen
  exact List.forall₂_iff_get.mpr ⟨hlen, fun _ _ _ => trivial⟩

theorem EmbedStep.once {tables tables' : CatalogTables V R} (h : EmbedStep modelName tables tables')
    (hone : (embeddedIds modelName tables.embeddings.rows).Nodup) :
    (embeddedIds modelName tables'.embeddings.rows).Nodup ∧
      ofOtherModels modelName tables'.embeddings.rows =
        ofOtherModels modelName tables.embeddings.rows := by
  cases h with
  | insert vehicles hv => exact ⟨hone, rfl⟩
  | run embedTexts check batchSize k lastId hsize =>
    obtain ⟨done, new, hdone, hrows, hwritten, -⟩ :=
      embedPrefix_spec produces_any hsize (List.take_prefix k _) (Prod.eta _).symm
    change (embeddedIds modelName (stoppedRun ..).rows).Nodup ∧
      ofOtherModels modelName (stoppedRun ..).rows = _
    rw [stoppedRun, hrows]
    refine ⟨nodup_written tables.vehicles.ids hdone hone hwritten, ?_⟩
    rw [ofOtherModels, List.filter_append]
    exact (congrArg _ (ofOtherModels_written hwritten)).trans (List.append_nil _)

/-- After any runs for the model, each stopped at any point or not, and vehicles that came between
them: no vehicle has two embeddings of the model, and those of other models are as they were. A run that
returns leaves each vehicle with one, and returns how many it added. -/
theorem embedding_resumes (modelName : Str) {tables tables' : CatalogTables V R}
    (hone : (embeddedIds modelName tables.embeddings.rows).Nodup)
    (h : Relation.ReflTransGen (EmbedStep modelName) tables tables') :
    (embeddedIds modelName tables'.embeddings.rows).Nodup ∧
    ofOtherModels modelName tables'.embeddings.rows =
      ofOtherModels modelName tables.embeddings.rows ∧
    ∀ embedTexts check batchSize n table, 0 < batchSize →
      embedPendingVehicles embedTexts check modelName batchSize tables'.vehicles.rows
        tables'.embeddings = (.ok n, table) →
      (∀ v ∈ tables'.vehicles.rows, (embeddedIds modelName table.rows).count v.id = 1) ∧
        table.rows.length = tables'.embeddings.rows.length + n := by
  have hrun : (embeddedIds modelName tables'.embeddings.rows).Nodup ∧
      ofOtherModels modelName tables'.embeddings.rows =
        ofOtherModels modelName tables.embeddings.rows := by
    induction h with
    | refl => exact ⟨hone, rfl⟩
    | tail _ hstep ih =>
      obtain ⟨hnodup, hothers⟩ := hstep.once ih.1
      exact ⟨hnodup, hothers.trans ih.2⟩
  refine ⟨hrun.1, hrun.2, fun embedTexts check batchSize n table hsize hok => ?_⟩
  obtain ⟨new, hrows, hwritten, hn⟩ := embedPendingVehicles_ok produces_any hsize hok
  refine ⟨fun v hv => ?_, by rw [hrows, List.length_append, hn]⟩
  have hnodup := nodup_written tables'.vehicles.ids List.prefix_rfl hrun.1 hwritten
  rw [hrows]
  refine List.count_eq_one_of_mem hnodup ?_
  rw [embeddedIds_append, embeddedIds_written hwritten, List.mem_append]
  by_cases hin : v.id ∈ embeddedIds modelName tables'.embeddings.rows
  · exact .inl hin
  · exact .inr (List.mem_map_of_mem (mem_selectUnembedded.mpr ⟨hv, hin⟩))

/-! ## Loads between the runs -/

theorem mem_written {e : VehicleEmbedding V} (h : Written modelName P vehicles rows)
    (he : e ∈ rows) : ∃ v ∈ vehicles, e.vehicleId = v.id ∧ e.modelName = modelName ∧
      P (embeddingText v.toVehicleColumns) e.embedding := by
  obtain ⟨i, hi, rfl⟩ := List.getElem_of_mem he
  have hi' := h.length_eq ▸ hi
  exact ⟨vehicles[i], List.getElem_mem hi', h.get hi' hi⟩

/-- What may happen to the tables in the pipeline: a load, which is of what `allowed` says if it returns,
and a run for any model, which may be stopped at any point. For `modelName` the vectors are those of
`embed`. -/
inductive DataStep (embed : Str → V) (modelName : Str)
    (allowed : CatalogTables V R → List (VehicleColumns R) → Prop) (tables : CatalogTables V R) :
    CatalogTables V R → Prop
  | load (check : VehicleColumns R → Except Exc Unit) (chunkSize : Nat)
      (rows : List (VehicleColumns R)) (hsize : 0 < chunkSize)
      (hallowed : ∀ n, (loadVehicles check chunkSize rows tables.vehicles).1 = .ok n → allowed tables rows) :
      DataStep embed modelName allowed tables
        { tables with vehicles := (loadVehicles check chunkSize rows tables.vehicles).2 }
  | run (embedTexts : List Str → Except Exc (List V)) (check : VehicleEmbedding V → Except Exc Unit)
      (name : Str) (batchSize k lastId : Nat) (hsize : 0 < batchSize)
      (hembed : name = modelName → Produces embedTexts fun s x => x = embed s) :
      DataStep embed modelName allowed tables { tables with embeddings :=
        { stoppedRun embedTexts check name batchSize k tables.vehicles.rows
            tables.embeddings with lastId := lastId } }

/-- The load leaves the text of every vehicle that has an embedding as it is. -/
def KeepsTexts (modelName : Str) (tables : CatalogTables V R) (rows : List (VehicleColumns R)) :
    Prop :=
  ∀ v ∈ tables.vehicles.rows, v.id ∈ embeddedIds modelName tables.embeddings.rows →
    embeddingText (lastFor (fun row => row.externalRef) rows v.toVehicleColumns) =
      embeddingText v.toVehicleColumns

/-- The embeddings of the model are those of the texts of their vehicles. -/
structure Current (embed : Str → V) (modelName : Str) (tables : CatalogTables V R) : Prop where
  texts : ∀ e ∈ tables.embeddings.rows, e.modelName = modelName → ∀ v ∈ tables.vehicles.rows,
    v.id = e.vehicleId → e.embedding = embed (embeddingText v.toVehicleColumns)
  known : ∀ e ∈ tables.embeddings.rows, e.modelName = modelName →
    e.vehicleId ≤ tables.vehicles.lastId

variable {embed : Str → V} {tables tables' : CatalogTables V R}

theorem Current.load (hcurrent : Current embed modelName tables)
    {check : VehicleColumns R → Except Exc Unit} {chunkSize : Nat} {rows : List (VehicleColumns R)}
    (hsize : 0 < chunkSize)
    (hkeeps : ∀ n, (loadVehicles check chunkSize rows tables.vehicles).1 = .ok n →
      KeepsTexts modelName tables rows) :
    Current embed modelName
      { tables with vehicles := (loadVehicles check chunkSize rows tables.vehicles).2 } := by
  cases hload : loadVehicles check chunkSize rows tables.vehicles with
  | mk r vehicles =>
    cases r with
    | error e =>
      rw [transact_error hload]
      exact hcurrent
    | ok n =>
      obtain ⟨-, -, rfl⟩ := (loadVehicles_ok hsize).mp hload
      refine ⟨fun e he hm v hv hid => ?_, fun e he hm => ?_⟩
      · have hknown := hcurrent.known e he hm
        obtain hnew | ⟨old, hold, hsame, hcolumns⟩ := mem_foldl_upsert hv
        · omega
        · have hkeeps := hkeeps n (congrArg Prod.fst hload)
          have htext := hkeeps old hold (mem_embeddedIds.mpr ⟨e, he, (hsame ▸ hid).symm, hm⟩)
          rw [hcolumns, htext]
          exact hcurrent.texts e he hm old hold (hsame ▸ hid)
      · exact (hcurrent.known e he hm).trans (by rw [lastId_foldl_upsert]; omega)

theorem Current.written (hcurrent : Current embed modelName tables) {name : Str}
    {done : List (VehicleRow R)} {new : List (VehicleEmbedding V)} {embeddings : EmbeddingTable V}
    (hdone : done ⊆ tables.vehicles.rows)
    (hrows : embeddings.rows = tables.embeddings.rows ++ new)
    (hwritten : Written name (fun s x => name = modelName → x = embed s) done new) :
    Current embed modelName { tables with embeddings := embeddings } := by
  refine ⟨fun e he hm v hv hid => ?_, fun e he hm => ?_⟩
  · rcases List.mem_append.mp (hrows ▸ he) with he | he
    · exact hcurrent.texts e he hm v hv hid
    · obtain ⟨w, hw, hwid, hname, hembedding⟩ := mem_written hwritten he
      have hvw : v = w := List.inj_on_of_nodup_map tables.vehicles.ids hv (hdone hw) (hid.trans hwid)
      rw [hvw]
      exact hembedding (hname.symm.trans hm)
  · rcases List.mem_append.mp (hrows ▸ he) with he | he
    · exact hcurrent.known e he hm
    · obtain ⟨w, hw, hwid, -, -⟩ := mem_written hwritten he
      rw [hwid]
      exact tables.vehicles.fresh w (hdone hw)

theorem produces_of (name : Str) (h : name = modelName → Produces embedTexts fun s x => x = embed s) :
    Produces embedTexts fun s x => name = modelName → x = embed s := by
  intro texts vectors hvectors hlen
  by_cases hname : name = modelName
  · exact (h hname texts vectors hvectors hlen).imp fun _ _ hx _ => hx
  · exact (produces_any texts vectors hvectors hlen).imp fun _ _ _ hn => absurd hn hname

theorem Current.step (hcurrent : Current embed modelName tables)
    (h : DataStep embed modelName (KeepsTexts modelName) tables tables') :
    Current embed modelName tables' := by
  cases h with
  | load check chunkSize rows hsize hkeeps => exact hcurrent.load hsize hkeeps
  | run embedTexts check name batchSize k lastId hsize hembed =>
    obtain ⟨done, new, hdone, hrows, hwritten, -⟩ :=
      embedPrefix_spec (produces_of name hembed) hsize (List.take_prefix k _) (Prod.eta _).symm
    exact hcurrent.written (fun v hv => (mem_selectUnembedded.mp (hdone.subset hv)).1) hrows hwritten

/-- When every load of a history that returns keeps the texts of the vehicles that have an embedding,
a run that returns leaves each vehicle with an embedding of its text. -/
theorem embeddings_current (embed : Str → V) (modelName : Str) {tables : CatalogTables V R}
    (h : Relation.ReflTransGen (DataStep embed modelName (KeepsTexts modelName)) ⟨.empty, {}⟩ tables)
    {embedTexts : List Str → Except Exc (List V)} {check : VehicleEmbedding V → Except Exc Unit}
    (hembed : Produces embedTexts fun s x => x = embed s) {batchSize n : Nat}
    (hsize : 0 < batchSize) {table : EmbeddingTable V}
    (hok : embedPendingVehicles embedTexts check modelName batchSize tables.vehicles.rows
      tables.embeddings = (.ok n, table)) :
    ∀ v ∈ tables.vehicles.rows, ∃ e ∈ table.rows, e.vehicleId = v.id ∧ e.modelName = modelName ∧
      e.embedding = embed (embeddingText v.toVehicleColumns) := by
  have hcurrent : Current embed modelName tables := by
    clear hok
    induction h with
    | refl => exact ⟨fun e he => (by cases he), fun e he => (by cases he)⟩
    | tail _ hstep ih => exact ih.step hstep
  obtain ⟨new, hrows, hwritten, -⟩ := embedPendingVehicles_ok hembed hsize hok
  intro v hv
  by_cases hin : v.id ∈ embeddedIds modelName tables.embeddings.rows
  · obtain ⟨e, he, hid, hm⟩ := mem_embeddedIds.mp hin
    exact ⟨e, hrows ▸ List.mem_append_left _ he, hid, hm, hcurrent.texts e he hm v hv hid.symm⟩
  · have hpending := mem_selectUnembedded.mpr ⟨hv, hin⟩
    obtain ⟨i, hi, rfl⟩ := List.getElem_of_mem hpending
    have hi' := hwritten.length_eq ▸ hi
    obtain ⟨hid, hm, hembedding⟩ := hwritten.get hi hi'
    exact ⟨new[i], hrows ▸ List.mem_append_right _ (List.getElem_mem hi'), hid, hm, hembedding⟩

end Embed

/-! ## A listing that changes -/

/-- A run with an embedder that keeps the texts. -/
def embedTitles (tables : CatalogTables Str Int) : Except Exc Nat × EmbeddingTable Str :=
  embedPendingVehicles (fun texts => .ok texts) (fun _ => .ok ()) "m" 256 tables.vehicles.rows
    tables.embeddings

/-- The tables with a listing that has no embedding. -/
def listedTables : CatalogTables Str Int :=
  ⟨VehicleTable.empty.upsert (corolla "7316" 41000 "One owner."), {}⟩

/-- The tables after its run. -/
def embeddedTables : CatalogTables Str Int :=
  { listedTables with embeddings := (embedTitles listedTables).2 }

/-- Another mileage and this description for it, and another listing. -/
def relisted (description : String) : List (VehicleColumns Int) :=
  [corolla "7316" 42000 description, corolla "7317" 41000 "New tyres."]

/-- The tables after it was loaded again. -/
def relistedTables (description : String) : CatalogTables Str Int :=
  { embeddedTables with vehicles :=
      (loadVehicles (fun _ => .ok ()) chunkSize (relisted description) embeddedTables.vehicles).2 }

/-- The run after one that was stopped before its first batch. -/
theorem listedTables_resumed :
    (embeddedIds "m" (embedTitles listedTables).2.rows).count 1 = 1 := by
  have hstopped : Relation.ReflTransGen (EmbedStep "m") listedTables listedTables :=
    .single (.run (fun texts => .ok texts) (fun _ => .ok ()) 256 0 0 (by decide))
  have hone : (embeddedIds "m" listedTables.embeddings.rows).Nodup := List.nodup_nil
  have hresumed := (embedding_resumes "m" hone hstopped).2.2 (fun texts => .ok texts)
    (fun _ => .ok ()) 256 1 (embedTitles listedTables).2 (by decide) rfl
  exact hresumed.1 _ (List.mem_singleton_self _)

theorem produces_titles :
    Produces (fun texts : List Str => .ok texts) fun s x => x = id s := by
  intro texts vectors hvectors _
  cases hvectors
  exact List.forall₂_same.mpr fun _ _ => rfl

/-- A load, a run, and the second load. -/
theorem relistedTables_steps (allowed : CatalogTables Str Int → List (VehicleColumns Int) → Prop)
    (description : String) (hfirst : allowed ⟨.empty, {}⟩ [corolla "7316" 41000 "One owner."])
    (hsecond : allowed embeddedTables (relisted description)) :
    Relation.ReflTransGen (DataStep id "m" allowed) ⟨.empty, {}⟩ (relistedTables description) := by
  have hload : DataStep id "m" allowed ⟨.empty, {}⟩ listedTables :=
    .load (fun _ => .ok ()) chunkSize [corolla "7316" 41000 "One owner."] (by decide) fun _ _ => hfirst
  have hrun : DataStep id "m" allowed listedTables embeddedTables :=
    .run (fun texts => .ok texts) (fun _ => .ok ()) "m" 256 1 1 (by decide) fun _ => produces_titles
  have hreload : DataStep id "m" allowed embeddedTables (relistedTables description) :=
    .load (fun _ => .ok ()) chunkSize (relisted description) (by decide) fun _ _ => hsecond
  exact .tail (.tail (.single hload) hrun) hreload

/-- Loaded again with the same description and another mileage, the listing keeps its embedding, and the
other one gets its own. -/
theorem relistedTables_current :
    (relistedTables "One owner.").vehicles.rows.length = 2 ∧
    ∀ v ∈ (relistedTables "One owner.").vehicles.rows,
      ∃ e ∈ (embedTitles (relistedTables "One owner.")).2.rows,
        e.vehicleId = v.id ∧ e.modelName = "m" ∧ e.embedding = embeddingText v.toVehicleColumns := by
  have hold : ∀ v ∈ embeddedTables.vehicles.rows, embeddingText (lastFor (fun row => row.externalRef)
      (relisted "One owner.") v.toVehicleColumns) = embeddingText v.toVehicleColumns := by decide
  have hsteps := relistedTables_steps (KeepsTexts "m") "One owner." (fun v hv => by cases hv)
    fun v hv _ => hold v hv
  have hsize : 0 < 256 := by decide
  have hrun : embedTitles (relistedTables "One owner.") =
      (.ok 1, (embedTitles (relistedTables "One owner.")).2) := rfl
  exact ⟨rfl, embeddings_current id "m" hsteps produces_titles hsize hrun⟩

/-- Loaded again with another description, the listing keeps the embedding of the old one. -/
theorem relistedTables_stale :
    ∃ (tables : CatalogTables Str Int) (table : EmbeddingTable Str),
      Relation.ReflTransGen (DataStep id "m" fun _ _ => True) ⟨.empty, {}⟩ tables ∧
      embedPendingVehicles (fun texts => .ok texts) (fun _ => .ok ()) "m" 256 tables.vehicles.rows
        tables.embeddings = (.ok 1, table) ∧
      ¬ ∀ v ∈ tables.vehicles.rows, ∃ e ∈ table.rows, e.vehicleId = v.id ∧ e.modelName = "m" ∧
        e.embedding = id (embeddingText v.toVehicleColumns) :=
  ⟨relistedTables "Two owners.", (embedTitles (relistedTables "Two owners.")).2,
    relistedTables_steps _ "Two owners." trivial trivial, rfl, by decide⟩

end DealershipAgent
