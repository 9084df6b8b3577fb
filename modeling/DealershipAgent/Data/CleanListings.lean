import Mathlib.Data.List.Sigma
import DealershipAgent.Data.NearDuplicates
import DealershipAgent.Data.RedactPii
import DealershipAgent.Data.StripBoilerplate
import DealershipAgent.Py.Exc

/-!
# Cleaning of the listings

`clean` of `data/scripts/clean_listings.py`, on the raw frame that `_load_raw` makes of the files: its
rows are labelled by their positions.

* `clean`: prices, redaction, near-duplicates, boilerplate and the case of makes and models.
* `keptRows`: the rows that are left after the near-duplicates were dropped.
* `clean_no_near_duplicates`: the result has no near-duplicates, if no two listings of the raw frame come
  to be one car by the case of make or model, or lose boilerplate.
-/

namespace DealershipAgent

open Py Ranking

/-- What the interpreter's Unicode version says of cases. -/
class Casing where
  /-- `str.upper` -/
  upper : Str → Str
  /-- `str.title` -/
  title : Str → Str

def asciiUpper (c : CodePoint) : CodePoint :=
  if 97 ≤ c.val ∧ c.val ≤ 122 then codePoint (c.val - 32) else c

/-- A letter after another one is lower case, after anything else upper case. -/
def asciiTitle : Bool → Str → Str
  | _, [] => []
  | afterLetter, c :: s =>
    (if afterLetter then asciiLower c else asciiUpper c) :: asciiTitle (isAsciiLetter c) s

/-- The tables that know ASCII only. -/
@[reducible] def asciiCasing : Casing where
  upper s := s.map asciiUpper
  title s := asciiTitle false s

/-- `ALL_CAPS_MAKES` -/
def allCapsMakes : List Str := ["BMW", "GMC", "RAM", "MINI", "FIAT"]

/-- `normalize_make` -/
def normalizeMake [Casing] (make : Str) : Str :=
  let stripped := strip make
  if Casing.upper stripped ∈ allCapsMakes then Casing.upper stripped else Casing.title stripped

/-- `normalize_model` -/
def normalizeModel [Casing] (model : Str) : Str := Casing.title (strip model)

section Clean

variable {N R F : Type}

/-- A row of the raw frame. -/
structure RawListing (N R : Type) where
  listingId : Str
  makeName : Option Str
  modelName : Option Str
  year : Option N
  trim : Option Str
  mileage : Option N
  bodyStyle : Option Str
  fuelType : Option Str
  sellerState : Option Str
  kbbFairPriceLow : Option R
  kbbFairPriceHigh : Option R
  description : Option Str

/-- A row of the frame when near-duplicates are looked for. -/
structure PreparedRow (N R : Type) where
  index : Nat
  raw : RawListing N R
  priceLow : Option R
  priceHigh : Option R
  price : Option R
  isPriceReliable : Bool
  descriptionRaw : Option Str
  descriptionClean : Option Str
  make : Option Str
  model : Option Str

/-- A row of the cleaned frame. -/
structure CleanRow (N R : Type) extends PreparedRow N R where
  externalRef : Str
  bodyStyle : Option Str
  fuelType : Option Str
  sellerState : Option Str
  isAvailable : Bool

/-- The `DEDUPE_KEY_COLUMNS` of a row. A missing value is `none`. -/
structure DedupeKey (N : Type) where
  make : Option Str
  model : Option Str
  year : Option N
  trim : Option Str
  mileage : Option N
deriving DecidableEq

def PreparedRow.key (row : PreparedRow N R) : DedupeKey N :=
  ⟨row.make, row.model, row.raw.year, row.raw.trim, row.raw.mileage⟩

structure CleaningStats where
  rowsBefore : Nat
  rowsWithNullPrice : Nat
  rowsWithUnreliablePrice : Nat
  piiCounts : List (PiiCategory × Nat)
  duplicatesRemoved : Nat
  boilerplateSegmentsFound : Nat
  boilerplateSegmentsExamples : List Str
  boilerplateRemovals : Nat
  rowsAfter : Nat

variable [Unicode] [Add R] [Div R] [OfNat R 0] [OfNat R 2] [DecidableEq R]

/-- `compute_price`: the price of a row, and whether it is reliable. -/
def computePrice (raw : RawListing N R) : Option R × Bool :=
  let price := raw.kbbFairPriceLow.bind fun low =>
    raw.kbbFairPriceHigh.map fun high => (low + high) / 2
  (price, price ≠ some 0)

/-- `redact_descriptions`, with the total of each category. -/
def redactDescriptions (descriptions : List (Option Str)) : List Str × List (PiiCategory × Nat) :=
  let redacted := descriptions.map fun value => redactPii (value.getD [])
  (redacted.map Prod.fst, piiCategories.map fun category =>
    (category, (redacted.map fun x => (x.2.lookup category).getD 0).sum))

/-- The frame with its prices, redacted descriptions, makes and models. -/
def preparedRows (rows : List (RawListing N R)) : List (PreparedRow N R) :=
  ((rows.zip (redactDescriptions (rows.map fun raw => raw.description)).1).zipIdx).map fun x =>
    let raw := x.1.1
    let (price, reliable) := computePrice raw
    { index := x.2, raw := raw, priceLow := raw.kbbFairPriceLow, priceHigh := raw.kbbFairPriceHigh,
      price := price, isPriceReliable := reliable, descriptionRaw := raw.description,
      descriptionClean := some x.1.2, make := raw.makeName, model := raw.modelName }

variable [Casing] [DecidableEq N] [LE F] [DecidableLE F]

/-- `df[column].apply(normalize)`, on one value. -/
def applyToText (normalize : Str → Str) : Option Str → Except Exc (Option Str)
  | none => .error ⟨.attributeError, "'float' object has no attribute 'strip'"⟩
  | some s => .ok (some (normalize s))

/-- The columns of a row after the near-duplicates were dropped, from its stripped description. -/
def finishRow (row : PreparedRow N R) (description : Option Str) : Except Exc (CleanRow N R) := do
  let make ← applyToText normalizeMake row.make
  let model ← applyToText normalizeModel row.model
  return { row with
    descriptionClean := description, make := make, model := model, externalRef := row.raw.listingId,
    bodyStyle := row.raw.bodyStyle, fuelType := row.raw.fuelType,
    sellerState := row.raw.sellerState, isAvailable := true }

/-- The labels of the near-duplicates of a frame. -/
def nearDuplicates (groupOrder : List (DedupeKey N) → List (DedupeKey N)) (ratio : Str → Str → F)
    (threshold : F) (df : List (PreparedRow N R)) : List Nat :=
  findNearDuplicates groupOrder ratio threshold PreparedRow.index PreparedRow.key
    PreparedRow.descriptionClean df

/-- The rows that are left after the near-duplicates were dropped. -/
def keptRows (groupOrder : List (DedupeKey N) → List (DedupeKey N)) (ratio : Str → Str → F)
    (threshold : F) (rows : List (RawListing N R)) : List (PreparedRow N R) :=
  let df := preparedRows rows
  dropRows PreparedRow.index df (nearDuplicates groupOrder ratio threshold df)

/-- `clean` -/
def clean (groupOrder : List (DedupeKey N) → List (DedupeKey N)) (ratio : Str → Str → F)
    (threshold : F) (rows : List (RawListing N R)) :
    Except Exc (List (CleanRow N R) × CleaningStats) := do
  let prepared := preparedRows rows
  let piiCounts := (redactDescriptions (rows.map fun raw => raw.description)).2
  let df := keptRows groupOrder ratio threshold rows
  let (descriptions, segments, removals) :=
    stripBoilerplate (df.map fun row => row.descriptionClean)
  let cleaned ← (df.zip descriptions).mapM fun x => finishRow x.1 x.2
  return (cleaned,
    { rowsBefore := rows.length
      rowsWithNullPrice := prepared.countP fun row => row.price.isNone
      rowsWithUnreliablePrice := prepared.countP fun row => !row.isPriceReliable
      piiCounts := piiCounts
      duplicatesRemoved := (nearDuplicates groupOrder ratio threshold prepared).length
      boilerplateSegmentsFound := segments.length
      boilerplateSegmentsExamples := segments.take 5
      boilerplateRemovals := removals
      rowsAfter := cleaned.length })

/-! ## The rows of the result -/

/-- A row of the result, of a row that has a make and a model. -/
def finished (row : PreparedRow N R) (description : Option Str) : CleanRow N R :=
  { row with
    descriptionClean := description, make := row.make.map normalizeMake,
    model := row.model.map normalizeModel, externalRef := row.raw.listingId,
    bodyStyle := row.raw.bodyStyle, fuelType := row.raw.fuelType,
    sellerState := row.raw.sellerState, isAvailable := true }

/-- The key in the result: make and model in the case in which they are written. -/
def DedupeKey.normalized (key : DedupeKey N) : DedupeKey N :=
  { key with make := key.make.map normalizeMake, model := key.model.map normalizeModel }

omit [Unicode] [Add R] [Div R] [OfNat R 0] [OfNat R 2] [DecidableEq R] [DecidableEq N] [LE F]
  [DecidableLE F] in
@[simp] theorem key_finished (row : PreparedRow N R) (description : Option Str) :
    (finished row description).key = row.key.normalized := rfl

omit [Unicode] [Add R] [Div R] [OfNat R 0] [OfNat R 2] [DecidableEq R] [DecidableEq N] [LE F]
  [DecidableLE F] in
@[simp] theorem descriptionClean_finished (row : PreparedRow N R) (description : Option Str) :
    (finished row description).descriptionClean = description := rfl

/-- The description of the row in the result. -/
def cleanedDescription (df : List (PreparedRow N R)) (row : PreparedRow N R) : Option Str :=
  strippedDescription (boilerplateSegments (df.map fun row => row.descriptionClean))
    row.descriptionClean

variable {groupOrder : List (DedupeKey N) → List (DedupeKey N)} {ratio : Str → Str → F}
  {threshold : F} {rows : List (RawListing N R)} {df : List (CleanRow N R)} {stats : CleaningStats}

omit [Unicode] [Add R] [Div R] [OfNat R 0] [OfNat R 2] [DecidableEq R] [DecidableEq N] [LE F]
  [DecidableLE F] in
theorem finishRow_ok {row : PreparedRow N R} {description : Option Str} {r : CleanRow N R}
    (h : finishRow row description = .ok r) : r = finished row description := by
  unfold finishRow at h
  unfold finished
  cases hmake : row.make with
  | none => rw [hmake] at h; cases h
  | some make =>
    cases hmodel : row.model with
    | none => rw [hmake, hmodel] at h; cases h
    | some model =>
      rw [hmake, hmodel] at h
      cases h
      rfl

/-- The result has the kept rows. -/
theorem clean_ok (h : clean groupOrder ratio threshold rows = .ok (df, stats)) :
    df = (keptRows groupOrder ratio threshold rows).map fun row =>
      finished row (cleanedDescription (keptRows groupOrder ratio threshold rows) row) := by
  unfold clean at h
  simp only [bind, Except.bind, pure, Except.pure] at h
  split at h
  · cases h
  · next cleaned hcleaned =>
    cases h
    have hzip : ∀ (kept : List (PreparedRow N R)) (g : PreparedRow N R → Option Str),
        kept.zip (kept.map g) = kept.map fun row => (row, g row) := fun kept g => by
      simpa using @List.zip_map' _ _ _ id g kept
    rw [stripBoilerplate_fst, List.map_map, hzip] at hcleaned
    rw [mapM_eq_map hcleaned fun x _ => finishRow_ok, List.map_map]
    rfl

omit [Casing] [DecidableEq N] in
/-- The labels of the rows are their positions. -/
theorem nodup_preparedRows (rows : List (RawListing N R)) :
    ((preparedRows rows).map PreparedRow.index).Nodup := by
  unfold preparedRows
  rw [List.map_map]
  exact List.nodup_zipIdx_map_snd _

omit [Casing] in
theorem nodup_keptRows :
    ((keptRows groupOrder ratio threshold rows).map PreparedRow.index).Nodup := by
  unfold keptRows dropRows
  exact (nodup_preparedRows rows).sublist (List.filter_sublist.map _)

omit [Casing] in
/-- Two kept rows with one key are not similar. -/
theorem keptRows_apart (hgroups : ∀ ks, (groupOrder ks).Perm ks) {y x : PreparedRow N R}
    (hbefore : Before (keptRows groupOrder ratio threshold rows) y x) (hkey : y.key = x.key) :
    ¬ threshold ≤ ratio (comparedText x.descriptionClean) (comparedText y.descriptionClean) := by
  unfold keptRows dropRows at hbefore
  obtain ⟨hbefore, hy, hx⟩ := before_filter.mp hbefore
  have hapart := kept_apart hgroups (nodup_preparedRows rows) hbefore hkey (of_decide_eq_true hy)
    (of_decide_eq_true hx)
  exact of_decide_eq_false hapart

/-! ## The raw frame -/

/-- The row of the frame for a listing at this position. -/
def preparedRow (index : Nat) (raw : RawListing N R) : PreparedRow N R :=
  { index := index, raw := raw, priceLow := raw.kbbFairPriceLow, priceHigh := raw.kbbFairPriceHigh,
    price := (computePrice raw).1, isPriceReliable := (computePrice raw).2,
    descriptionRaw := raw.description,
    descriptionClean := some (redactPii (raw.description.getD [])).1, make := raw.makeName,
    model := raw.modelName }

omit [Casing] [DecidableEq N] in
theorem preparedRows_eq (rows : List (RawListing N R)) :
    preparedRows rows = rows.zipIdx.map fun x => preparedRow x.2 x.1 := by
  unfold preparedRows redactDescriptions
  have hzip : ∀ f : RawListing N R → Str, rows.zip (rows.map f) = rows.map fun raw => (raw, f raw) :=
    fun f => by simpa using @List.zip_map' _ _ _ id f rows
  simp only [List.map_map]
  rw [hzip, List.zipIdx_map, List.map_map]
  exact List.map_congr_left fun x _ => by simp only [preparedRow, Function.comp_apply, Prod.map, id_eq]

/-- The description without personal data. -/
def RawListing.redacted (raw : RawListing N R) : Str := (redactPii (raw.description.getD [])).1

/-- The `DEDUPE_KEY_COLUMNS` of a listing as it comes. -/
def RawListing.key (raw : RawListing N R) : DedupeKey N :=
  ⟨raw.makeName, raw.modelName, raw.year, raw.trim, raw.mileage⟩

/-- The segments that recur in the frame. -/
def frameSegments (rows : List (RawListing N R)) : List Str :=
  boilerplateSegments (rows.map fun raw => some raw.redacted)

/-- No segment recurs in the frame, or the description is tidy and has none of them. -/
def KeepsDescription (rows : List (RawListing N R)) (raw : RawListing N R) : Prop :=
  frameSegments rows = [] ∨ Untouched (frameSegments rows) raw.redacted

omit [Casing] in
/-- Two kept rows are two listings of the frame. -/
theorem before_keptRows {y x : PreparedRow N R}
    (h : Before (keptRows groupOrder ratio threshold rows) y x) :
    Before rows y.raw x.raw ∧ y.key = y.raw.key ∧ x.key = x.raw.key ∧
      y.descriptionClean = some y.raw.redacted ∧ x.descriptionClean = some x.raw.redacted := by
  have hprepared : Before (preparedRows rows) y x := h.mono List.filter_sublist
  rw [preparedRows_eq] at hprepared
  have hall := (@forall_before_map _ _ rows.zipIdx (fun z : RawListing N R × Nat => preparedRow z.2 z.1)
    fun y x => Before rows y.raw x.raw ∧ y.key = y.raw.key ∧ x.key = x.raw.key ∧
      y.descriptionClean = some y.raw.redacted ∧ x.descriptionClean = some x.raw.redacted).mpr
  refine hall (fun y' x' hbefore => ⟨?_, rfl, rfl, rfl, rfl⟩) y x hprepared
  have hrows : Before (rows.zipIdx.map Prod.fst) y'.1 x'.1 := List.Sublist.map Prod.fst hbefore
  rwa [List.zipIdx_map_fst] at hrows

omit [Casing] in
/-- A segment that recurs in the kept rows recurs in the frame. -/
theorem keptRows_segments : ∀ segment ∈ boilerplateSegments
    ((keptRows groupOrder ratio threshold rows).map fun row => row.descriptionClean),
      segment ∈ frameSegments rows := by
  have hdescriptions : (preparedRows rows).map (fun row => row.descriptionClean) =
      rows.map fun raw => some raw.redacted := by
    rw [preparedRows_eq, List.map_map]
    have hfst := congrArg (List.map fun raw => some raw.redacted) (List.zipIdx_map_fst 0 rows)
    rwa [List.map_map] at hfst
  unfold frameSegments
  rw [← hdescriptions]
  exact boilerplateSegments_sublist (List.filter_sublist.map _)

omit [Casing] in
theorem cleanedDescription_kept {row : PreparedRow N R}
    (hrow : row.descriptionClean = some row.raw.redacted) (h : KeepsDescription rows row.raw) :
    cleanedDescription (keptRows groupOrder ratio threshold rows) row = row.descriptionClean := by
  unfold cleanedDescription strippedDescription
  split
  · rfl
  · next hsome =>
    rcases h with hnone | huntouched
    · obtain ⟨segment, hsegment⟩ := List.exists_mem_of_ne_nil _ hsome
      have hin := keptRows_segments segment hsegment
      rw [hnone] at hin
      cases hin
    · rw [hrow, Option.getD_some, (huntouched.mono keptRows_segments).stripText]

/-- The result has no near-duplicates, if of any two listings of the frame that are one car in the result
the makes and models were the same before or the descriptions are not similar, and the descriptions stay. -/
theorem clean_no_near_duplicates (groupOrder : List (DedupeKey N) → List (DedupeKey N))
    (hgroups : ∀ ks, (groupOrder ks).Perm ks) (ratio : Str → Str → F) (threshold : F)
    (rows : List (RawListing N R))
    (hclean : clean groupOrder ratio threshold rows = .ok (df, stats))
    (hrows : ∀ y x, Before rows y x → y.key.normalized = x.key.normalized →
      (y.key = x.key ∨
        ¬ threshold ≤ ratio (comparedText (some x.redacted)) (comparedText (some y.redacted))) ∧
      KeepsDescription rows y ∧ KeepsDescription rows x) :
    (∀ y x, Before df y x → y.key = x.key →
        ¬ threshold ≤ ratio (comparedText x.descriptionClean) (comparedText y.descriptionClean)) ∧
      nearDuplicates groupOrder ratio threshold (df.map CleanRow.toPreparedRow) = [] := by
  obtain rfl := clean_ok hclean
  set kept := keptRows groupOrder ratio threshold rows with hkept
  have hapart : ∀ y x, Before kept y x → y.key.normalized = x.key.normalized →
      ¬ threshold ≤ ratio (comparedText (cleanedDescription kept x))
        (comparedText (cleanedDescription kept y)) := by
    intro y x hbefore hkey
    obtain ⟨hraw, hykey, hxkey, hy, hx⟩ := before_keptRows hbefore
    rw [hykey, hxkey] at hkey
    obtain ⟨hsame, hkeepsy, hkeepsx⟩ := hrows _ _ hraw hkey
    rw [cleanedDescription_kept hy hkeepsy, cleanedDescription_kept hx hkeepsx]
    rcases hsame with hsame | hdiffer
    · exact keptRows_apart hgroups hbefore (hykey.trans (hsame.trans hxkey.symm))
    · rwa [hy, hx]
  have hindex : (((kept.map fun row => finished row (cleanedDescription kept row)).map
      CleanRow.toPreparedRow).map PreparedRow.index).Nodup := by
    rw [List.map_map, List.map_map]
    exact nodup_keptRows
  have hlabels := @forall_before_map _ _ kept
    (CleanRow.toPreparedRow ∘ fun row => finished row (cleanedDescription kept row)) fun y x =>
      y.key = x.key → similarTexts ratio threshold PreparedRow.descriptionClean x y = false
  have hpairs := @forall_before_map _ _ kept (fun row => finished row (cleanedDescription kept row))
    fun y x => y.key = x.key →
      ¬ threshold ≤ ratio (comparedText x.descriptionClean) (comparedText y.descriptionClean)
  rw [hpairs, nearDuplicates, findNearDuplicates_eq_nil hgroups hindex, List.map_map, hlabels]
  simp only [Function.comp_apply, key_finished, descriptionClean_finished, similarTexts_eq_false,
    and_self]
  exact hapart

end Clean

/-! ## Corollas -/

/-- A listing with this make and description. -/
def rawCorolla (ref make description : String) : RawListing Nat Int where
  listingId := ref
  makeName := some make
  modelName := str "Corolla"
  year := some 2019
  trim := none
  mileage := some 41000
  bodyStyle := none
  fuelType := none
  sellerState := none
  kbbFairPriceLow := some 14000
  kbbFairPriceHigh := some 16000
  description := some description

/-- A similarity that finds equal texts only. -/
def sameText (s t : Str) : Nat := if s = t then 1 else 0

/-- A listing, a copy of it, and three others: another text, another spelling with another text, and
another make. -/
def rawCorollas : List (RawListing Nat Int) :=
  [rawCorolla "7316" "toyota" "One owner.", rawCorolla "7317" "toyota" "ONE OWNER. ",
    rawCorolla "7318" "toyota" "New tyres.", rawCorolla "7319" "TOYOTA" "Sunroof.",
    rawCorolla "7320" "Honda" "One owner."]

theorem rawCorollas_ok :
    let _ := asciiUnicode
    let _ := asciiCasing
    ∃ df stats, clean id sameText 1 rawCorollas = .ok (df, stats) ∧ df.length = 4 :=
  ⟨_, _, rfl, rfl⟩

theorem rawCorollas_spelled :
    let _ := asciiUnicode
    let _ := asciiCasing
    rawCorollas.Pairwise fun y x => y.key.normalized = x.key.normalized → y.key = x.key ∨
      ¬ 1 ≤ sameText (comparedText (some x.redacted)) (comparedText (some y.redacted)) := by
  decide

/-- The copy is dropped, and the other four listings are four cars or texts in the result. -/
theorem rawCorollas_apart :
    let _ := asciiUnicode
    let _ := asciiCasing
    ∃ df stats, clean id sameText 1 rawCorollas = .ok (df, stats) ∧ df.length = 4 ∧
      nearDuplicates id sameText 1 (df.map CleanRow.toPreparedRow) = [] := by
  intro _ _
  obtain ⟨df, stats, hclean, hlength⟩ := rawCorollas_ok
  have hkeeps : ∀ raw, KeepsDescription rawCorollas raw := fun _ => .inl (by decide)
  refine ⟨df, stats, hclean, hlength, (clean_no_near_duplicates id (fun _ => List.Perm.refl _) sameText 1
    rawCorollas hclean fun y x hbefore hkey => ⟨?_, hkeeps y, hkeeps x⟩).2⟩
  exact List.pairwise_iff_forall_sublist.mp rawCorollas_spelled hbefore hkey

/-- Two spellings of one make: both rows stay, and are one car in the result. -/
theorem rawCorolla_twice :
    let _ := asciiUnicode
    let _ := asciiCasing
    ∃ df stats, clean id sameText 1
        [rawCorolla "7316" "toyota" "One owner.", rawCorolla "7317" "Toyota" "One owner."] =
          .ok (df, stats) ∧
      nearDuplicates id sameText 1 (df.map CleanRow.toPreparedRow) ≠ [] :=
  ⟨_, _, rfl, by decide⟩

end DealershipAgent
