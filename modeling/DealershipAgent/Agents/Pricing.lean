import DealershipAgent.Agents.State

/-!
# Price filters from vague price language

`agents/pricing.py`: words such as "cheap" become a bound of `search_listings`.
-/

namespace DealershipAgent

open Py

/-- `CHEAP_KEYWORDS` -/
def cheapKeywords : List Str :=
  ["cheap", "affordable", "budget", "inexpensive", "low-cost", "low cost", "economical"].map str

/-- `PREMIUM_KEYWORDS` -/
def premiumKeywords : List Str :=
  ["premium", "luxury", "high-end", "high end", "top-of-the-line", "upscale"].map str

def derivePriceFilters [Unicode] (text : Str) : Option PriceFilters :=
  let lowered := Unicode.lower text
  if cheapKeywords.any fun keyword => isIn keyword lowered then some .priceMax
  else if premiumKeywords.any fun keyword => isIn keyword lowered then some .priceMin
  else none

/-- The `dict`: `CHEAP_PRICE_MAX` or `PREMIUM_PRICE_MIN` under its key. -/
def PriceFilters.toJson {F : Type} [PyFloat F] : PriceFilters → Json F
  | .priceMax => .object [("price_max", .float (PyFloat.ofLiteral "18050.0"))]
  | .priceMin => .object [("price_min", .float (PyFloat.ofLiteral "40956.75"))]

end DealershipAgent
