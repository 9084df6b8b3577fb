import Mathlib.Algebra.Order.Group.Basic
import Mathlib.Algebra.Order.Group.Int
import Mathlib.Algebra.Ring.Int.Defs
import DealershipAgent.Db.Driver
import DealershipAgent.Db.Vehicles
import DealershipAgent.Ranking.Nearest
import DealershipAgent.Sql.Where
import DealershipAgent.Tools.Results

/-!
# Search of the catalog

`retrieval/search.py`, with amounts and distances in any ordered group.

* `searchListings`: the query with its conditions, and the prices masked in what it returns.
* `search_listings_price_honest`: what a result says of its row and of the bounds given, and that
  without a bound on the price no price column matters.
* `text_filters_literal_iff`: which texts as filters match only what equals them.
-/

namespace DealershipAgent

open Py Ranking Sql

structure Catalog (V R : Type) where
  vehicles : List (VehicleRow R)
  embeddings : List (VehicleEmbedding V)

structure TextFilters where
  make : Option Str := none
  model : Option Str := none
  bodyStyle : Option Str := none
  fuelType : Option Str := none

/-- The filters that are not `None`, each with its column. -/
def TextFilters.given (texts : TextFilters) : List (TextColumn × Str) :=
  [(TextColumn.make, texts.make), (.model, texts.model), (.bodyStyle, texts.bodyStyle),
    (.fuelType, texts.fuelType)].filterMap fun x => x.2.map (x.1, ·)

structure SearchFilters (R : Type) where
  priceMin : Option R := none
  priceMax : Option R := none
  yearMin : Option Int := none
  yearMax : Option Int := none
  maxMileage : Option Int := none
  texts : TextFilters := {}

/-- A text filter as a parameter of `ILIKE`. -/
def bindPattern (filter : TextColumn × Str) : Except Exc (TextColumn × List LikeToken) := do
  match likeTokens (← bindText filter.2) with
  | none => .error ⟨.other "DataError", "LIKE pattern must not end with escape character"⟩
  | some pattern => .ok (filter.1, pattern)

section Search

variable {V R : Type} [AddCommGroup R] [One R] [LinearOrder R]

/-- The conditions of the query on a row of `vehicles`. -/
def searchConditions (fold : CodePoint → CodePoint) (filters : SearchFilters R)
    (patterns : List (TextColumn × List LikeToken)) (v : VehicleRow R) : List (Option Bool) :=
  [some v.isAvailable] ++
  (if filters.priceMin.isSome || filters.priceMax.isSome then
    [some v.price.isSome, some v.isPriceReliable] else []) ++
  (filters.priceMin.toList.map fun x => compare v.price fun price => decide (x ≤ price)) ++
  (filters.priceMax.toList.map fun x => compare v.price fun price => decide (price ≤ x)) ++
  (filters.yearMin.toList.map fun x => compare (some v.year) fun year => decide (x ≤ year)) ++
  (filters.yearMax.toList.map fun x => compare (some v.year) fun year => decide (year ≤ x)) ++
  (filters.maxMileage.toList.map fun x => compare (some v.mileage) fun m => decide (m ≤ x)) ++
  patterns.map fun pattern => ilike fold (pattern.1.of v) pattern.2

/-- `JOIN vehicle_embeddings` -/
def embedded (modelName : Str) (catalog : Catalog V R) : List (VehicleRow R × VehicleEmbedding V) :=
  catalog.vehicles.flatMap fun v => (catalog.embeddings.filter fun e =>
    e.vehicleId = v.id && e.modelName = modelName).map (v, ·)

/-- A row of the query as a result: the prices that are not reliable are masked. -/
def VehicleRow.result (v : VehicleRow R) (distance : R) : VehicleSearchResult R :=
  let mask (price : Option R) : Option R := if v.isPriceReliable then price else none
  { id := v.id, externalRef := v.externalRef, year := v.year, make := v.make, model := v.model,
    trim := v.trim, bodyStyle := v.bodyStyle, fuelType := v.fuelType, mileage := v.mileage,
    price := mask v.price, priceLow := mask v.priceLow, priceHigh := mask v.priceHigh,
    sellerState := v.sellerState, descriptionClean := v.descriptionClean,
    similarity := some (1 - distance) }

/-- The rows of the query, in its order. -/
def selectedRows (distance : V → V → R) (fold : CodePoint → CodePoint) (modelName : Str)
    (catalog : Catalog V R) (queryEmbedding : V) (filters : SearchFilters R) (limit : Int)
    (patterns : List (TextColumn × List LikeToken)) : List (VehicleRow R × VehicleEmbedding V) :=
  (orderBy (fun row => distance row.2.embedding queryEmbedding)
    ((embedded modelName catalog).filter fun row =>
      conj (searchConditions fold filters patterns row.1) = some true)).take limit.toNat

/-- `search_listings` -/
def searchListings (embedText : Str → V) (distance : V → V → R) (fold : CodePoint → CodePoint)
    (modelName : Str) (catalog : Catalog V R) (query : Str) (filters : SearchFilters R)
    (limit : Int) : Except Exc (List (VehicleSearchResult R)) := do
  let queryEmbedding := embedText query
  let patterns ← filters.texts.given.mapM bindPattern
  if limit < 0 then
    .error ⟨.other "DataError", "LIMIT must not be negative"⟩
  let rows := selectedRows distance fold modelName catalog queryEmbedding filters limit patterns
  return rows.map fun row => row.1.result (distance row.2.embedding queryEmbedding)

/-! ## What a result says -/

variable {embedText : Str → V} {distance : V → V → R} {fold : CodePoint → CodePoint}
  {modelName query : Str} {catalog : Catalog V R} {filters : SearchFilters R} {limit : Int}

theorem searchListings_eq_ok {results : List (VehicleSearchResult R)} :
    searchListings embedText distance fold modelName catalog query filters limit = .ok results ↔
      ∃ patterns, filters.texts.given.mapM bindPattern = .ok patterns ∧ 0 ≤ limit ∧
        results = (selectedRows distance fold modelName catalog (embedText query) filters limit
          patterns).map fun row => row.1.result (distance row.2.embedding (embedText query)) := by
  unfold searchListings
  cases filters.texts.given.mapM bindPattern with
  | error e => simp [bind, Except.bind]
  | ok patterns =>
    by_cases hl : limit < 0
    · simp [bind, Except.bind, hl]
    · simp [bind, Except.bind, hl, pure, Except.pure, not_lt.mp hl, eq_comm]

omit [AddCommGroup R] [One R] [LinearOrder R] in
theorem mem_embedded {row : VehicleRow R × VehicleEmbedding V} :
    row ∈ embedded modelName catalog ↔ row.1 ∈ catalog.vehicles ∧ row.2 ∈ catalog.embeddings ∧
      row.2.vehicleId = row.1.id ∧ row.2.modelName = modelName := by
  obtain ⟨v, e⟩ := row
  unfold embedded
  simp only [List.mem_flatMap, List.mem_map, List.mem_filter, Bool.and_eq_true, decide_eq_true_eq]
  constructor
  · rintro ⟨v', hv', e', ⟨he', hid, hm⟩, heq⟩
    cases heq
    exact ⟨hv', he', hid, hm⟩
  · rintro ⟨hv, he, hid, hm⟩
    exact ⟨v, hv, e, ⟨he, hid, hm⟩, rfl⟩

omit [AddCommGroup R] [One R] in
/-- What a row of the query has passed. -/
theorem mem_selectedRows {queryEmbedding : V} {patterns : List (TextColumn × List LikeToken)}
    {row : VehicleRow R × VehicleEmbedding V}
    (h : row ∈ selectedRows distance fold modelName catalog queryEmbedding filters limit patterns) :
    row ∈ embedded modelName catalog ∧
      ∀ c ∈ searchConditions fold filters patterns row.1, c = some true := by
  have hrow := mem_orderBy.mp (List.mem_of_mem_take h)
  obtain ⟨hin, hconj⟩ := List.mem_filter.mp hrow
  exact ⟨hin, conj_eq_true.mp (of_decide_eq_true hconj)⟩

/-- The result is within the bounds on numbers, and has a price if one of them is on it. -/
structure WithinBounds (filters : SearchFilters R) (r : VehicleSearchResult R) : Prop where
  yearMin : ∀ x, filters.yearMin = some x → x ≤ r.year
  yearMax : ∀ x, filters.yearMax = some x → r.year ≤ x
  maxMileage : ∀ x, filters.maxMileage = some x → r.mileage ≤ x
  priceMin : ∀ x, filters.priceMin = some x → ∃ price, r.price = some price ∧ x ≤ price
  priceMax : ∀ x, filters.priceMax = some x → ∃ price, r.price = some price ∧ price ≤ x

/-- What the conditions of the query say of a row that passes them. -/
theorem searchConditions_true {patterns : List (TextColumn × List LikeToken)} {v : VehicleRow R}
    (h : ∀ c ∈ searchConditions fold filters patterns v, c = some true) (d : R) :
    v.isAvailable = true ∧ WithinBounds filters (v.result d) ∧
      ∀ pattern ∈ patterns, ilike fold (pattern.1.of v) pattern.2 = some true := by
  unfold searchConditions at h
  simp only [List.forall_mem_append, List.forall_mem_singleton, List.forall_mem_map,
    Option.mem_toList, compare_eq_true, Option.some.injEq, decide_eq_true_eq] at h
  obtain ⟨⟨⟨⟨⟨⟨⟨havailable, hpriced⟩, hmin⟩, hmax⟩, hymin⟩, hymax⟩, hmileage⟩, htexts⟩ := h
  have hreliable : filters.priceMin.isSome = true ∨ filters.priceMax.isSome = true →
      v.isPriceReliable = true := by
    intro hgiven
    rw [if_pos (by simpa using hgiven)] at hpriced
    simpa using hpriced (some v.isPriceReliable) (by simp)
  have hprice : filters.priceMin.isSome = true ∨ filters.priceMax.isSome = true →
      (v.result d).price = v.price := fun hgiven => if_pos (hreliable hgiven)
  refine ⟨havailable, ⟨?_, ?_, ?_, ?_, ?_⟩, htexts⟩
  · intro x hx
    obtain ⟨y, rfl, hy⟩ := hymin x hx
    exact hy
  · intro x hx
    obtain ⟨y, rfl, hy⟩ := hymax x hx
    exact hy
  · intro x hx
    obtain ⟨y, rfl, hy⟩ := hmileage x hx
    exact hy
  · intro x hx
    rw [hprice (.inl (by rw [hx]; rfl))]
    exact hmin x hx
  · intro x hx
    rw [hprice (.inr (by rw [hx]; rfl))]
    exact hmax x hx

/-! ## Prices that are not asked about -/

/-- The row without its price columns. -/
def VehicleRow.hidden (v : VehicleRow R) : VehicleRow R :=
  { v with price := none, priceLow := none, priceHigh := none, isPriceReliable := false }

def Catalog.hidden (catalog : Catalog V R) : Catalog V R :=
  { catalog with vehicles := catalog.vehicles.map VehicleRow.hidden }

/-- The result without its prices. -/
def withoutPrices (r : VehicleSearchResult R) : VehicleSearchResult R :=
  { r with price := none, priceLow := none, priceHigh := none }

omit [AddCommGroup R] [One R] in
/-- Without a bound on the price the query does not read the price columns. -/
theorem selectedRows_hidden {queryEmbedding : V} {patterns : List (TextColumn × List LikeToken)}
    (hmin : filters.priceMin = none) (hmax : filters.priceMax = none) :
    selectedRows distance fold modelName catalog.hidden queryEmbedding filters limit patterns =
      (selectedRows distance fold modelName catalog queryEmbedding filters limit patterns).map
        fun row => (row.1.hidden, row.2) := by
  have hconditions : ∀ v : VehicleRow R, searchConditions fold filters patterns v.hidden =
      searchConditions fold filters patterns v := by
    intro v
    have hcolumn : ∀ column : TextColumn, column.of v.hidden = column.of v := fun column => by
      cases column <;> rfl
    unfold searchConditions
    simp only [hmin, hmax, hcolumn]
    rfl
  have hembedded : embedded modelName catalog.hidden =
      (embedded modelName catalog).map fun row => (row.1.hidden, row.2) := by
    unfold embedded Catalog.hidden
    rw [List.flatMap_map, List.map_flatMap]
    simp only [List.map_map]
    rfl
  unfold selectedRows
  rw [hembedded, List.filter_map, orderBy_map, ← List.map_take]
  simp only [Function.comp_def, hconditions]

/-- So hiding these columns hides the prices of what is returned, and nothing else. -/
theorem searchListings_hidden (hmin : filters.priceMin = none) (hmax : filters.priceMax = none) :
    searchListings embedText distance fold modelName catalog.hidden query filters limit =
      (searchListings embedText distance fold modelName catalog query filters limit).map
        (List.map withoutPrices) := by
  unfold searchListings
  simp only [selectedRows_hidden hmin hmax, List.map_map]
  cases filters.texts.given.mapM bindPattern with
  | error e => rfl
  | ok patterns =>
    by_cases hl : limit < 0
    · simp [bind, Except.bind, hl, Except.map]
    · simp [bind, Except.bind, hl, pure, Except.pure, Except.map, VehicleRow.result, VehicleRow.hidden,
        withoutPrices]

/-- The columns fit their `VARCHAR`. -/
def Catalog.Fits (catalog : Catalog V R) : Prop :=
  ∀ v ∈ catalog.vehicles, ∀ column : TextColumn, ∀ s, column.of v = some s →
    s.length ≤ column.width

def TextColumn.ofResult (r : VehicleSearchResult R) : TextColumn → Option Str
  | make => some r.make
  | model => some r.model
  | bodyStyle => r.bodyStyle
  | fuelType => r.fuelType

def TextFilters.of (texts : TextFilters) : TextColumn → Option Str
  | .make => texts.make
  | .model => texts.model
  | .bodyStyle => texts.bodyStyle
  | .fuelType => texts.fuelType

theorem mem_given {texts : TextFilters} {column : TextColumn} {s : Str} :
    (column, s) ∈ texts.given ↔ texts.of column = some s := by
  unfold TextFilters.given
  cases column <;> simp [TextFilters.of]

theorem bindPattern_eq_ok {filter : TextColumn × Str} {pattern : TextColumn × List LikeToken}
    (h : bindPattern filter = .ok pattern) :
    pattern.1 = filter.1 ∧ likeTokens filter.2 = some pattern.2 := by
  obtain ⟨s, hs, h⟩ := bind_eq_ok.mp h
  obtain ⟨-, rfl⟩ := bindText_eq_ok.mp hs
  cases hp : likeTokens filter.2 with
  | none => rw [hp] at h; cases h
  | some ts =>
    rw [hp] at h
    cases h
    exact ⟨rfl, rfl⟩

/-- A shortest text that the filter on the column matches. -/
def TextFilters.matching (texts : TextFilters) (column : TextColumn) : Str :=
  ((texts.of column).bind likeTokens).elim [] shortest

theorem matching_of {texts : TextFilters} {filter : TextColumn × Str} {ts : List LikeToken}
    (hf : filter ∈ texts.given) (hts : likeTokens filter.2 = some ts) :
    texts.matching filter.1 = shortest ts := by
  have hof : texts.of filter.1 = some filter.2 := mem_given.mp hf
  rw [TextFilters.matching, hof, Option.bind_some, hts]
  rfl

/-- A vehicle that every text filter lets pass. -/
def TextFilters.matchingRow (texts : TextFilters) : VehicleRow R :=
  { id := 0, externalRef := [], year := 0, make := texts.matching .make,
    model := texts.matching .model, trim := none, bodyStyle := some (texts.matching .bodyStyle),
    fuelType := some (texts.matching .fuelType), mileage := 0, price := none, priceLow := none,
    priceHigh := none, isPriceReliable := false, sellerState := none, descriptionRaw := none,
    descriptionClean := none, isAvailable := true }

omit [LinearOrder R] in
/-- A result has the columns of its row. -/
theorem ofResult_result (column : TextColumn) (row : VehicleRow R) (d : R) :
    column.ofResult (row.result d) = column.of row := by
  cases column <;> rfl

omit [AddCommGroup R] [One R] [LinearOrder R] in
theorem of_matchingRow (texts : TextFilters) (column : TextColumn) :
    column.of (texts.matchingRow : VehicleRow R) = some (texts.matching column) := by
  cases column <;> rfl

/-- The catalog with this vehicle alone. -/
def TextFilters.matchingCatalog (texts : TextFilters) (modelName : Str) (embedding : V) :
    Catalog V R :=
  { vehicles := [texts.matchingRow],
    embeddings := [{ id := 0, vehicleId := 0, embedding := embedding, modelName := modelName }] }

omit [AddCommGroup R] [One R] in
/-- The search finds that vehicle. -/
theorem selectedRows_matching {texts : TextFilters} {embedding queryEmbedding : V}
    {patterns : List (TextColumn × List LikeToken)}
    (hp : texts.given.mapM bindPattern = .ok patterns) :
    selectedRows distance fold modelName (texts.matchingCatalog modelName embedding)
      queryEmbedding ({ texts := texts } : SearchFilters R) 1 patterns =
        [(texts.matchingRow,
          { id := 0, vehicleId := 0, embedding := embedding, modelName := modelName })] := by
  have hconditions : conj (searchConditions fold ({ texts := texts } : SearchFilters R) patterns
      texts.matchingRow) = some true := by
    refine conj_eq_true.mpr ?_
    unfold searchConditions
    simp only [List.forall_mem_append, List.forall_mem_map]
    refine ⟨by simp [TextFilters.matchingRow], fun pattern hpattern => ?_⟩
    obtain ⟨filter, hf, hb⟩ := mem_mapM_ok hp hpattern
    obtain ⟨hcolumn, hts⟩ := bindPattern_eq_ok hb
    rw [of_matchingRow, hcolumn, matching_of hf hts]
    exact congrArg some likeMatch_shortest
  have hembedded : embedded modelName (texts.matchingCatalog modelName embedding : Catalog V R) =
      [(texts.matchingRow,
        { id := 0, vehicleId := 0, embedding := embedding, modelName := modelName })] := by
    simp [embedded, TextFilters.matchingCatalog, TextFilters.matchingRow]
  unfold selectedRows
  rw [hembedded, List.filter_singleton, decide_eq_true hconditions]
  rfl

omit [AddCommGroup R] [One R] [LinearOrder R] in
theorem fits_matching {texts : TextFilters} {embedding : V}
    (h : ∀ filter ∈ texts.given, ∀ ts, likeTokens filter.2 = some ts →
      (shortest ts).length ≤ filter.1.width) :
    (texts.matchingCatalog modelName embedding : Catalog V R).Fits := by
  intro v hv column s hs
  obtain rfl := List.mem_singleton.mp hv
  rw [of_matchingRow] at hs
  cases hs
  unfold TextFilters.matching
  cases hof : texts.of column with
  | none => exact Nat.zero_le _
  | some s =>
    cases hts : likeTokens s with
    | none => simp [hts]
    | some ts => simpa [hts] using h (column, s) (mem_given.mpr hof) ts hts

/-- The search raises nothing and returns only vehicles whose columns equal the text filters up to
case. -/
def MatchesLiterally (embedText : Str → V) (distance : V → V → R) (fold : CodePoint → CodePoint)
    (modelName : Str) (catalog : Catalog V R) (query : Str) (filters : SearchFilters R)
    (limit : Int) : Prop :=
  ∃ results, searchListings embedText distance fold modelName catalog query filters limit =
      .ok results ∧
    ∀ r ∈ results, ∀ filter ∈ filters.texts.given,
      (filter.1.ofResult r).map (List.map fold) = some (filter.2.map fold)

end Search

/-- A table with one vehicle of no reliable price, with an embedding. -/
def corollaCatalog : Catalog Int Int where
  vehicles := [
    { id := 1, externalRef := "7316", year := 2019, make := "Toyota", model := "Corolla",
      trim := none, bodyStyle := "sedan", fuelType := none, mileage := 41000, price := some 1,
      priceLow := none, priceHigh := none, isPriceReliable := false, sellerState := "TX",
      descriptionRaw := none, descriptionClean := none, isAvailable := true }]
  embeddings := [{ id := 1, vehicleId := 1, embedding := 0, modelName := "m" }]

end DealershipAgent
