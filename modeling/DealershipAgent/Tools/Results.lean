import DealershipAgent.Py.Json.Value

/-!
# What the five tools return

The results of `tools/server.py` as the client receives them: `VehicleSearchResult` and
`PolicyChunkResult` (`retrieval/`) dumped, rows of orders, the escalation record. A column whose
JSON form no code looks at is any value. `ToolResult name v`: `v` is a result of the tool `name`.
-/

namespace DealershipAgent

open Py

structure VehicleSearchResult (F : Type) where
  id : Int
  externalRef : Str
  year : Int
  make : Str
  model : Str
  trim : Option Str
  bodyStyle : Option Str
  fuelType : Option Str
  mileage : Int
  price : Option F
  priceLow : Option F
  priceHigh : Option F
  sellerState : Option Str
  descriptionClean : Option Str
  /-- A distance that is no number arrives as `null`. -/
  similarity : Option F

structure PolicyChunkResult (F : Type) where
  docSlug : Str
  docTitle : Str
  sectionHeading : Option Str
  content : Str
  isSuperseded : Bool
  similarity : Option F

section Dump

variable {F : Type}

def optString (s : Option Str) : Json F := (s.map Json.string).getD .null

def optFloat (x : Option F) : Json F := (x.map Json.float).getD .null

def VehicleSearchResult.modelDump (r : VehicleSearchResult F) : Json F :=
  .object [("id", .int r.id), ("external_ref", .string r.externalRef), ("year", .int r.year),
    ("make", .string r.make), ("model", .string r.model), ("trim", optString r.trim),
    ("body_style", optString r.bodyStyle), ("fuel_type", optString r.fuelType),
    ("mileage", .int r.mileage), ("price", optFloat r.price), ("price_low", optFloat r.priceLow),
    ("price_high", optFloat r.priceHigh), ("seller_state", optString r.sellerState),
    ("description_clean", optString r.descriptionClean), ("similarity", optFloat r.similarity)]

def PolicyChunkResult.modelDump (r : PolicyChunkResult F) : Json F :=
  .object [("doc_slug", .string r.docSlug), ("doc_title", .string r.docTitle),
    ("section_heading", optString r.sectionHeading), ("content", .string r.content),
    ("is_superseded", .bool r.isSuperseded), ("similarity", optFloat r.similarity)]

/-- The columns of `get_order_status`. -/
def orderStatusColumns : List Str :=
  ["order_ref", "status", "total_amount", "created_at", "expected_delivery_date",
    "actual_delivery_date"].map str

/-- The keys of an entry of `list_my_orders`. -/
def orderSummaryColumns : List Str :=
  ["order_ref", "status", "vehicle_summary", "created_at", "expected_delivery_date",
    "actual_delivery_date"].map str

/-- A `dict` with these keys. -/
def HasKeys (keys : List Str) (v : Json F) : Prop := ∃ kvs, v = .object kvs ∧ kvs.map Prod.fst = keys

/-- `v` is what the tool `name` returns when it succeeds. -/
inductive ToolResult : Str → Json F → Prop
  | searchListings (rs : List (VehicleSearchResult F)) :
      ToolResult "search_listings" (.array (rs.map VehicleSearchResult.modelDump))
  | searchPolicyDocs (rs : List (PolicyChunkResult F)) :
      ToolResult "search_policy_docs" (.array (rs.map PolicyChunkResult.modelDump))
  | noOrder : ToolResult "get_order_status" .null
  | getOrderStatus {v : Json F} : HasKeys orderStatusColumns v → ToolResult "get_order_status" v
  | listMyOrders {vs : List (Json F)} : (∀ v ∈ vs, HasKeys orderSummaryColumns v) →
      ToolResult "list_my_orders" (.array vs)
  | escalateToHuman (id createdAt : Json F) : ToolResult "escalate_to_human"
      (.object [("id", id), ("created_at", createdAt), ("status", .string "escalated")])

end Dump

end DealershipAgent
