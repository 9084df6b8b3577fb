import DealershipAgent.Py.Str

/-!
# The catalog

The rows of `vehicles` and `vehicle_embeddings` (`db/models.py`), as the pipeline writes them and the
search reads them. An amount is a number of any type, `NULL` is `none`.
-/

namespace DealershipAgent

open Py

/-- The columns of `vehicles` that the pipeline writes (`VEHICLE_COLUMNS`). -/
structure VehicleColumns (R : Type) where
  externalRef : Str
  year : Int
  make : Str
  model : Str
  trim : Option Str
  bodyStyle : Option Str
  fuelType : Option Str
  mileage : Int
  price : Option R
  priceLow : Option R
  priceHigh : Option R
  isPriceReliable : Bool
  sellerState : Option Str
  descriptionRaw : Option Str
  descriptionClean : Option Str
  isAvailable : Bool
deriving DecidableEq

/-- A row of `vehicles`. -/
structure VehicleRow (R : Type) extends VehicleColumns R where
  id : Nat
deriving DecidableEq

/-- A row of `vehicle_embeddings`. -/
structure VehicleEmbedding (V : Type) where
  id : Nat
  vehicleId : Nat
  embedding : V
  modelName : Str
deriving DecidableEq

/-- The columns of `vehicles` that a text filter is about. -/
inductive TextColumn where
  | make
  | model
  | bodyStyle
  | fuelType
deriving DecidableEq, Repr

/-- The length of the `VARCHAR`. -/
def TextColumn.width : TextColumn → Nat
  | make => 64
  | model => 64
  | bodyStyle => 32
  | fuelType => 32

def TextColumn.of {R : Type} (row : VehicleRow R) : TextColumn → Option Str
  | make => some row.make
  | model => some row.model
  | bodyStyle => row.bodyStyle
  | fuelType => row.fuelType

end DealershipAgent
