import DealershipAgent.Data.EmbedListings
import DealershipAgent.Retrieval.Search

/-!
# Searches of a catalog that is embedded

* `searchListings_exact`: where every vehicle has one embedding of the model, a search returns the
  nearest of the vehicles that its conditions let pass, each once, as many as the limit allows.
-/

namespace DealershipAgent

open Py Ranking Sql

section Exact

variable {V R : Type} [AddCommGroup R] [One R] [LinearOrder R] {embedText : Str → V}
  {distance : V → V → R} {fold : CodePoint → CodePoint} {modelName query : Str}
  {catalog : Catalog V R} {filters : SearchFilters R} {limit : Int}

/-- Every vehicle has one embedding of the model. -/
def EmbeddedOnce (modelName : Str) (catalog : Catalog V R) : Prop :=
  ∀ v ∈ catalog.vehicles, (embeddedIds modelName catalog.embeddings).count v.id = 1

omit [AddCommGroup R] [One R] [LinearOrder R] in
/-- A run of the embedding that returns. -/
theorem embeddedOnce_of_run {tables : CatalogTables V R}
    (hone : (embeddedIds modelName tables.embeddings.rows).Nodup)
    {embedTexts : List Str → Except Exc (List V)} {check : VehicleEmbedding V → Except Exc Unit}
    {batchSize n : Nat} (hsize : 0 < batchSize) {table : EmbeddingTable V}
    (hok : embedPendingVehicles embedTexts check modelName batchSize tables.vehicles.rows
      tables.embeddings = (.ok n, table)) :
    EmbeddedOnce modelName (⟨tables.vehicles.rows, table.rows⟩ : Catalog V R) := by
  obtain ⟨new, hrows, hwritten, -⟩ := embedPendingVehicles_ok produces_any hsize hok
  have hnodup := nodup_written tables.vehicles.ids List.prefix_rfl hone hwritten
  intro v hv
  rw [hrows]
  refine List.count_eq_one_of_mem hnodup ?_
  rw [embeddedIds_append, embeddedIds_written hwritten, List.mem_append]
  by_cases hin : v.id ∈ embeddedIds modelName tables.embeddings.rows
  · exact .inl hin
  · exact .inr (List.mem_map_of_mem (mem_selectUnembedded.mpr ⟨hv, hin⟩))

/-- The vehicles that the conditions of a search let pass. -/
def eligible (fold : CodePoint → CodePoint) (filters : SearchFilters R)
    (patterns : List (TextColumn × List LikeToken)) (vehicles : List (VehicleRow R)) :
    List (VehicleRow R) :=
  vehicles.filter fun v => conj (searchConditions fold filters patterns v) = some true

omit [AddCommGroup R] [One R] [LinearOrder R] in
theorem length_ofVehicle (embeddings : List (VehicleEmbedding V)) (id : Nat) :
    (embeddings.filter fun e => e.vehicleId = id && e.modelName = modelName).length =
      (embeddedIds modelName embeddings).count id := by
  rw [embeddedIds, List.count, List.countP_map, List.countP_filter, List.countP_eq_length_filter]
  congr 2

omit [AddCommGroup R] [One R] [LinearOrder R] in
/-- The join has each vehicle once. -/
theorem embedded_vehicles (h : EmbeddedOnce modelName catalog) :
    (embedded modelName catalog).map Prod.fst = catalog.vehicles := by
  have hone : ∀ v ∈ catalog.vehicles, ((catalog.embeddings.filter fun e =>
      e.vehicleId = v.id && e.modelName = modelName).map (v, ·)).map Prod.fst = [v] := by
    intro v hv
    rw [List.map_map]
    obtain ⟨e, he⟩ := List.length_eq_one_iff.mp ((length_ofVehicle _ _).trans (h v hv))
    rw [he]
    rfl
  rw [embedded, List.map_flatMap, List.flatMap_congr hone]
  exact List.flatMap_singleton' _

omit [AddCommGroup R] [One R] in
theorem eligible_eq (h : EmbeddedOnce modelName catalog) (fold : CodePoint → CodePoint)
    (filters : SearchFilters R) (patterns : List (TextColumn × List LikeToken)) :
    ((embedded modelName catalog).filter fun row =>
      conj (searchConditions fold filters patterns row.1) = some true).map Prod.fst =
        eligible fold filters patterns catalog.vehicles := by
  rw [eligible, ← embedded_vehicles h, List.filter_map]
  rfl

/-- What a search says of the vehicles that its conditions let pass. -/
structure Exact (distance : V → V → R) (fold : CodePoint → CodePoint) (modelName : Str)
    (catalog : Catalog V R) (filters : SearchFilters R) (limit : Int) (queryEmbedding : V)
    (patterns : List (TextColumn × List LikeToken)) (results : List (VehicleSearchResult R)) : Prop where
  once : (results.map VehicleSearchResult.id).Nodup
  length : results.length = min limit.toNat (eligible fold filters patterns catalog.vehicles).length
  /-- Each result is one of these vehicles. -/
  sound : ∀ r ∈ results, ∃ v ∈ eligible fold filters patterns catalog.vehicles,
    ∃ e ∈ catalog.embeddings, e.vehicleId = v.id ∧ e.modelName = modelName ∧
      r = v.result (distance e.embedding queryEmbedding)
  /-- None that is left out is nearer than a result. -/
  nearest : ∀ v ∈ eligible fold filters patterns catalog.vehicles,
    (∀ r ∈ results, r.id ≠ v.id) → ∃ e ∈ catalog.embeddings, e.vehicleId = v.id ∧
      e.modelName = modelName ∧ ∀ r ∈ results, ∃ s, r.similarity = some s ∧
        1 - distance e.embedding queryEmbedding ≤ s

omit [AddCommGroup R] [One R] in
/-- The rows of the query: each of these vehicles at most once, as many as the limit allows. -/
theorem selectedRows_once (h : EmbeddedOnce modelName catalog)
    (hids : (catalog.vehicles.map VehicleRow.id).Nodup) (distance : V → V → R)
    (fold : CodePoint → CodePoint) (filters : SearchFilters R) (limit : Int) (queryEmbedding : V)
    (patterns : List (TextColumn × List LikeToken)) :
    let rows := selectedRows distance fold modelName catalog queryEmbedding filters limit patterns
    (rows.map fun row => row.1.id).Nodup ∧
      rows.length = min limit.toNat (eligible fold filters patterns catalog.vehicles).length := by
  have hall := eligible_eq h fold filters patterns
  have hsub : ((eligible fold filters patterns catalog.vehicles).map VehicleRow.id).Nodup :=
    hids.sublist ((List.filter_sublist).map _)
  constructor
  · rw [← hall, List.map_map] at hsub
    refine List.Nodup.sublist ((List.take_sublist _ _).map _) ?_
    exact ((orderBy_perm _ _).map _).nodup_iff.mpr hsub
  · rw [selectedRows, List.length_take, length_orderBy, ← hall, List.length_map]

/-- A search returns the nearest of the vehicles that its conditions let pass, each once, as many as the
limit allows. -/
theorem searchListings_exact [IsOrderedAddMonoid R] (honce : EmbeddedOnce modelName catalog)
    (hids : (catalog.vehicles.map VehicleRow.id).Nodup) {results : List (VehicleSearchResult R)}
    (hok : searchListings embedText distance fold modelName catalog query filters limit = .ok results) :
    ∃ patterns, filters.texts.given.mapM bindPattern = .ok patterns ∧
      Exact distance fold modelName catalog filters limit (embedText query) patterns results := by
  obtain ⟨patterns, hpatterns, -, rfl⟩ := searchListings_eq_ok.mp hok
  obtain ⟨hnodup, hlength⟩ := selectedRows_once honce hids distance fold filters limit
    (embedText query) patterns
  refine ⟨patterns, hpatterns, ?_, ?_, ?_, ?_⟩
  · rw [List.map_map]
    simpa [List.map_map, Function.comp_def, VehicleRow.result] using hnodup.map Nat.cast_injective
  · rw [List.length_map]
    exact hlength
  · intro r hr
    obtain ⟨row, hrow, rfl⟩ := List.mem_map.mp hr
    obtain ⟨hrow, hpass⟩ := mem_selectedRows hrow
    obtain ⟨hv, he, hid, hname⟩ := mem_embedded.mp hrow
    exact ⟨row.1, List.mem_filter.mpr ⟨hv, by simpa using conj_eq_true.mpr hpass⟩, row.2, he, hid,
      hname, rfl⟩
  · intro v hv hout
    rw [← eligible_eq honce fold] at hv
    obtain ⟨row, hrow, rfl⟩ := List.mem_map.mp hv
    obtain ⟨-, he, hid, hname⟩ := mem_embedded.mp (List.mem_filter.mp hrow).1
    refine ⟨row.2, he, hid, hname, fun r hr => ?_⟩
    obtain ⟨row', hrow', rfl⟩ := List.mem_map.mp hr
    refine ⟨_, rfl, sub_le_sub_left (key_le_of_take hrow' hrow fun hin => ?_) 1⟩
    exact hout _ (List.mem_map_of_mem hin) rfl

end Exact

end DealershipAgent
