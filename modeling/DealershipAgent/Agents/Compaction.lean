import DealershipAgent.Py.Json.Dump
import DealershipAgent.Tools.Results

/-!
# Compaction of tool results

`agents/compaction.py`: what the tool loop feeds back of a result. `compactToolResult` may raise on a
result of another shape than it expects; `compactToolResult_of_toolResult`: it does not on what the
five tools return.
-/

namespace DealershipAgent

open Py Json

def truncationMarker : Str := "...[truncated]"

/-- A text cut at `maxChars`, with the marker. -/
def truncate (text : Str) (maxChars : Int) : Str :=
  if maxChars < text.length then rstrip (sliceTo text maxChars) ++ truncationMarker else text

theorem length_rstrip_le (s : Str) : (rstrip s).length ≤ s.length :=
  (List.rdropWhile_prefix isSpace s).length_le

theorem length_truncate_le {s : Str} {maxChars : Int} (h : 0 ≤ maxChars) :
    (truncate s maxChars).length ≤ maxChars.toNat + 14 := by
  unfold truncate
  split
  · have hcut : (rstrip (sliceTo s maxChars)).length ≤ maxChars.toNat := by
      refine (length_rstrip_le _).trans ?_
      rw [sliceTo, if_pos h, List.length_take]
      exact Nat.min_le_left _ _
    have hmarker : truncationMarker.length = 14 := by rfl
    rw [List.length_append]
    omega
  · omega

/-- What comes before the cut stays. -/
theorem truncate_keeps {p s : Str} {c : CodePoint} {maxChars : Int} (hc : isSpace c = false)
    (hp : p.length < maxChars) : ∃ t, truncate (p ++ c :: s) maxChars = p ++ c :: t := by
  obtain ⟨t, ht⟩ : ∃ t, sliceTo (p ++ c :: s) maxChars = p ++ c :: t := by
    obtain ⟨k, hk⟩ := Nat.exists_eq_add_of_lt (by omega : p.length < maxChars.toNat)
    refine ⟨s.take k, ?_⟩
    rw [sliceTo, if_pos (by omega), hk, List.take_append, List.take_of_length_le (by omega),
      show p.length + k + 1 - p.length = k + 1 by omega, List.take_succ_cons]
  unfold truncate
  split
  · exact ⟨rstrip t ++ truncationMarker, by rw [ht, rstrip_append_cons hc]; simp⟩
  · exact ⟨s, rfl⟩

/-- Texts that agree up to the cut and go on after it become the same. -/
theorem truncate_cut {p s t : Str} {maxChars : Int} (h₀ : 0 ≤ maxChars)
    (hp : maxChars ≤ p.length) (hs : s ≠ []) (ht : t ≠ []) :
    truncate (p ++ s) maxChars = truncate (p ++ t) maxChars := by
  have hlong : ∀ x : Str, x ≠ [] → truncate (p ++ x) maxChars =
      rstrip (p.take maxChars.toNat) ++ truncationMarker := by
    intro x hx
    have hlen := List.length_pos_of_ne_nil hx
    rw [truncate, if_pos (by rw [List.length_append]; omega), sliceTo, if_pos h₀,
      List.take_append_of_le_length (by omega)]
  rw [hlong s hs, hlong t ht]

section Format

variable {F : Type} [PyFloat F]

/-- `f"{v:.2f}"`, or `f"{v:,.2f}"` when `grouped`. -/
def formatFixed (grouped : Bool) (v : Json F) : Except Exc Str :=
  let fixed (x : F) : Str := if grouped then PyFloat.fixed2Grouped x else PyFloat.fixed2 x
  let ofInt (i : Int) : Except Exc Str :=
    match PyFloat.ofInt i with
    | some x => .ok (fixed x)
    | none => .error ⟨.overflowError, "int too large to convert to float"⟩
  match v with
  | .float x => .ok (fixed x)
  | .int i => ofInt i
  | .bool b => ofInt (if b then 1 else 0)
  | .string _ => .error ⟨.valueError, "Unknown format code 'f' for object of type 'str'"⟩
  | v => .error ⟨.typeError,
      str "unsupported format string passed to " ++ v.typeName ++ str ".__format__"⟩

/-- `isinstance(v, int | float)`. -/
def isNumber : Json F → Bool
  | .int _ => true
  | .float _ => true
  | .bool _ => true
  | _ => false

variable [Unicode]

/-- `_compact_vehicle` -/
def compactVehicle (item : Json F) : Except Exc Str := do
  let kvs ← item.asDict
  let get (key : Str) : Json F := dictGet kvs key
  let price ← match get "price" with
    | .null => .ok (str "price unavailable")
    | price => (formatFixed true price).map (str "$" ++ ·)
  let similarity ← if isNumber (get "similarity") then formatFixed false (get "similarity")
    else .ok (str "n/a")
  return strip (str "#" ++ (get "id").pyStr ++ str " " ++ (get "year").pyStr ++ str " " ++
    (get "make").pyStr ++ str " " ++ (get "model").pyStr ++ str " " ++
    ((get "trim").orElse (.string [])).pyStr ++ str " (" ++
    ((get "body_style").orElse (.string "n/a")).pyStr ++ str ", " ++
    ((get "fuel_type").orElse (.string "n/a")).pyStr ++ str "), " ++ (get "mileage").pyStr ++
    str " mi, " ++ price ++ str ", ref=" ++ (get "external_ref").pyStr ++ str ", similarity=" ++
    similarity)

/-- The content of a chunk, cut at `maxChars`. Anything with a length passes as it is when short. -/
def compactContent (content : Json F) (maxChars : Int) : Except Exc Str :=
  match content with
  | .string s => .ok (truncate s maxChars)
  | .array xs =>
    if maxChars < xs.length then
      .error ⟨.attributeError, "'list' object has no attribute 'rstrip'"⟩
    else .ok content.pyStr
  | .object kvs =>
    if maxChars < kvs.length then
      .error ⟨.keyError, str "slice(None, " ++ intRepr maxChars ++ str ", None)"⟩
    else .ok content.pyStr
  | v => .error ⟨.typeError, str "object of type '" ++ v.typeName ++ str "' has no len()"⟩

/-- `_compact_policy_chunk` -/
def compactPolicyChunk (item : Json F) (maxChars : Int) : Except Exc Str := do
  let kvs ← item.asDict
  let content ← compactContent (dictGetD kvs "content" (.string [])) maxChars
  let superseded := if (dictGet kvs "is_superseded").truthy then str " [SUPERSEDED]" else []
  return str "[" ++ (dictGet kvs "doc_title").pyStr ++ str " - " ++
    ((dictGet kvs "section_heading").orElse (.string "general")).pyStr ++ superseded ++
    str "] " ++ content

/-- A non-empty list whose first element is a `dict` with both keys. -/
def isListOf (key key' : Str) : Json F → Bool
  | .array (.object kvs :: _) => dictHas kvs key && dictHas kvs key'
  | _ => false

/-- `_is_vehicle_list` -/
def isVehicleList (result : Json F) : Bool := isListOf "external_ref" "year" result

/-- `_is_policy_chunk_list` -/
def isPolicyChunkList (result : Json F) : Bool := isListOf "doc_slug" "content" result

/-- The elements of a list. -/
def elements : Json F → List (Json F)
  | .array xs => xs
  | _ => []

def compactToolResult (result : Json F) (maxChars : Int) : Except Exc Str :=
  match result with
  | .null => .ok "null"
  | .array [] => .ok "[] (zero results)"
  | result => do
    let body ←
      if isVehicleList result then
        (join "\n" ·) <$> (elements result).mapM compactVehicle
      else if isPolicyChunkList result then
        let perChunkBudget := max 100 (maxChars / max 1 (elements result).length)
        (join "\n" ·) <$> (elements result).mapM (compactPolicyChunk · perChunkBudget)
      else .ok (dumps result)
    return truncate body maxChars

/-- Where it returns, it returns a text bounded by `max_chars` and the marker. -/
theorem length_compactToolResult_le {result : Json F} {maxChars : Int} {s : Str} (h : 0 ≤ maxChars)
    (hs : compactToolResult result maxChars = .ok s) : s.length ≤ maxChars.toNat + 17 := by
  unfold compactToolResult at hs
  split at hs
  · obtain rfl := Except.ok.inj hs
    exact (show (str "null").length ≤ 17 by decide).trans (Nat.le_add_left _ _)
  · obtain rfl := Except.ok.inj hs
    exact (show (str "[] (zero results)").length ≤ 17 by decide).trans (Nat.le_add_left _ _)
  · obtain ⟨body, rfl⟩ : ∃ body, s = truncate body maxChars := by
      have hlines : ∀ {x : Except Exc Str}, x >>= (fun body => .ok (truncate body maxChars)) = .ok s →
          ∃ body, s = truncate body maxChars := by
        intro x hx
        cases x with
        | error e => cases hx
        | ok body => exact ⟨body, (Except.ok.inj hx).symm⟩
      simp only at hs
      split at hs
      · exact hlines hs
      · split at hs
        · exact hlines hs
        · exact ⟨_, (Except.ok.inj hs).symm⟩
    exact (length_truncate_le h).trans (Nat.add_le_add_left (by decide) _)

end Format

/-- `compact_error` -/
def compactError (errorText : Str) (maxChars : Int) : Str := truncate errorText maxChars

/-! ## Results of the five tools -/

section Total

variable {F : Type} [PyFloat F] [Unicode]

theorem compactVehicle_modelDump (r : VehicleSearchResult F) :
    ∃ s, compactVehicle r.modelDump = .ok s := by
  obtain ⟨kvs, hkvs, hprice, hsim⟩ : ∃ kvs, r.modelDump = .object kvs ∧
      dictGet kvs "price" = optFloat r.price ∧ dictGet kvs "similarity" = optFloat r.similarity :=
    ⟨_, rfl, rfl, rfl⟩
  rw [hkvs, compactVehicle]
  simp only [asDict, bind, Except.bind, hprice, hsim]
  cases r.price <;> cases r.similarity <;> exact ⟨_, rfl⟩

theorem compactPolicyChunk_modelDump (r : PolicyChunkResult F) (maxChars : Int) :
    ∃ s, compactPolicyChunk r.modelDump maxChars = .ok s := by
  obtain ⟨kvs, hkvs, hcontent⟩ : ∃ kvs, r.modelDump = .object kvs ∧
      dictGetD kvs "content" (.string []) = .string r.content := ⟨_, rfl, rfl⟩
  rw [hkvs, compactPolicyChunk]
  simp only [asDict, bind, Except.bind, hcontent, compactContent]
  exact ⟨_, rfl⟩

/-- A value that is no list of vehicles and no list of policy chunks is dumped. -/
theorem compactToolResult_dumps {v : Json F} (hv : isVehicleList v = false)
    (hp : isPolicyChunkList v = false) (maxChars : Int) :
    ∃ s, compactToolResult v maxChars = .ok s := by
  unfold compactToolResult
  split
  · exact ⟨_, rfl⟩
  · exact ⟨_, rfl⟩
  · rw [if_neg (by simp [hv]), if_neg (by simp [hp])]
    exact ⟨_, rfl⟩

theorem compactToolResult_elements {x : Json F} {xs : List (Json F)} {f : Json F → Except Exc Str}
    {maxChars : Int} (hf : ∀ y ∈ x :: xs, ∃ s, f y = .ok s)
    (h : compactToolResult (.array (x :: xs)) maxChars =
      ((join "\n" ·) <$> (x :: xs).mapM f) >>= fun body => .ok (truncate body maxChars)) :
    ∃ s, compactToolResult (.array (x :: xs)) maxChars = .ok s := by
  obtain ⟨ys, hys⟩ := mapM_isOk hf
  rw [h, hys]
  exact ⟨_, rfl⟩

omit [PyFloat F] [Unicode] in
/-- A `dict` without a key that its list of keys does not have. -/
theorem HasKeys.dictHas_false {keys : List Str} {kvs : List (Str × Json F)} {key : Str}
    (h : kvs.map Prod.fst = keys) (hk : key ∉ keys) : dictHas kvs key = false := by
  rw [dictHas, Option.isSome_eq_false_iff, Option.isNone_iff_eq_none, List.lookup_eq_none_iff]
  intro kv hkv
  rw [← h] at hk
  simp only [bne_iff_ne]
  rintro rfl
  exact hk (List.mem_map_of_mem hkv)

/-- What the five tools return can be compacted. -/
theorem compactToolResult_of_toolResult {name : Str} {v : Json F} (h : ToolResult name v)
    (maxChars : Int) : ∃ s, compactToolResult v maxChars = .ok s := by
  cases h with
  | searchListings rs =>
    cases rs with
    | nil => exact ⟨_, rfl⟩
    | cons r rs =>
      refine compactToolResult_elements (f := compactVehicle) (fun y hy => ?_) rfl
      rw [← List.map_cons] at hy
      obtain ⟨r', -, rfl⟩ := List.mem_map.mp hy
      exact compactVehicle_modelDump r'
  | searchPolicyDocs rs =>
    cases rs with
    | nil => exact ⟨_, rfl⟩
    | cons r rs =>
      refine compactToolResult_elements (f := (compactPolicyChunk · _)) (fun y hy => ?_) rfl
      rw [← List.map_cons] at hy
      obtain ⟨r', -, rfl⟩ := List.mem_map.mp hy
      exact compactPolicyChunk_modelDump r' _
  | noOrder => exact ⟨_, rfl⟩
  | getOrderStatus hk =>
    obtain ⟨kvs, rfl, -⟩ := hk
    exact compactToolResult_dumps rfl rfl maxChars
  | @listMyOrders vs hk =>
    cases vs with
    | nil => exact ⟨_, rfl⟩
    | cons v vs =>
      obtain ⟨kvs, rfl, hkeys⟩ := hk v (by simp)
      have hno : ∀ key : Str, key ∉ orderSummaryColumns → dictHas kvs key = false :=
        fun key hkey => HasKeys.dictHas_false hkeys hkey
      refine compactToolResult_dumps ?_ ?_ maxChars
      · rw [isVehicleList, isListOf, hno _ (by decide), Bool.false_and]
      · rw [isPolicyChunkList, isListOf, hno _ (by decide), Bool.false_and]
  | escalateToHuman id createdAt => exact compactToolResult_dumps rfl rfl maxChars

end Total

end DealershipAgent
