import DealershipAgent.Agents.Memoization
import DealershipAgent.Py.Json.Reorder

/-!
# The key of a decision

The key under which `run_tool_loop` keeps the result of a call is the text of the tool and the
arguments, with their keys sorted.

* `memoKey_identifies`: decisions have one key if and only if they ask for the same call, so that a
  result is found again for that call and for no other.
-/

namespace DealershipAgent

open Py Json

section MemoKey

variable {F : Type} [PyFloat F]

/-- The tool and the arguments of a decision. -/
def decidedCall (decision : List (Str × Json F)) : Json F × Json F :=
  (dictGet decision "tool", (dictGet decision "arguments").orElse (.object []))

/-- `cache_key` -/
def memoKey (decision : List (Str × Json F)) : Str :=
  cacheKey (decidedCall decision).1 (decidedCall decision).2

/-- The strings of the call are sequences of Unicode scalar values. -/
def ScalarCall (decision : List (Str × Json F)) : Prop :=
  Scalars (decidedCall decision).1 ∧ Scalars (decidedCall decision).2

/-- The same tool and the same arguments, up to the order of members. -/
def SameDecision (decision decision' : List (Str × Json F)) : Prop :=
  SameUpToOrder (decidedCall decision).1 (decidedCall decision').1 ∧
    SameUpToOrder (decidedCall decision).2 (decidedCall decision').2

variable {raw raw' : Str} {decision decision' : List (Str × Json F)}

theorem regular_dictGet_of_loads (hl : loads raw = some (.object decision)) {key : Str}
    (hs : Scalars (dictGet decision key)) : Regular (dictGet decision key) := by
  unfold dictGet dictGetD at hs ⊢
  cases hlookup : decision.lookup key with
  | none => exact trivial
  | some v =>
    rw [hlookup] at hs
    obtain ⟨l₁, l₂, hsplit, -⟩ := List.lookup_eq_some_iff.mp hlookup
    have hmem : (key, v) ∈ decision := by
      rw [hsplit]
      exact List.mem_append_right _ List.mem_cons_self
    exact regular_of_loads hl hmem hs

theorem regular_decidedCall (hl : loads raw = some (.object decision)) (hs : ScalarCall decision) :
    Regular (decidedCall decision).1 ∧ Regular (decidedCall decision).2 := by
  obtain ⟨htool, harguments⟩ := hs
  refine ⟨regular_dictGet_of_loads hl htool, ?_⟩
  unfold decidedCall orElse at harguments ⊢
  simp only at harguments ⊢
  split
  · next htruthy =>
    rw [if_pos htruthy] at harguments
    exact regular_dictGet_of_loads hl harguments
  · exact ⟨List.nodup_nil, trivial⟩

theorem memoKey_eq_iff [LawfulFloat F] (hl : loads raw = some (.object decision))
    (hl' : loads raw' = some (.object decision')) (hs : ScalarCall decision)
    (hs' : ScalarCall decision') :
    memoKey decision = memoKey decision' ↔ SameDecision decision decision' := by
  obtain ⟨ht, ha⟩ := regular_decidedCall hl hs
  obtain ⟨ht', ha'⟩ := regular_decidedCall hl' hs'
  unfold memoKey SameDecision
  rw [cacheKey_inj ht ha ht' ha', sortKeys_eq_iff ht ht', sortKeys_eq_iff ha ha']

/-- The result of a decision is kept under its key. -/
theorem recordResult_callCache [Unicode] (cfg : LoopConfig F) (st : LoopState F) (result : Json F) :
    (recordResult cfg st (decidedCall decision).1 (decidedCall decision).2 result).callCache =
      st.callCache ++ [(memoKey decision, result)] := by
  unfold recordResult memoKey
  simp only
  split
  · rfl
  · rfl

/-- For two decisions read of JSON texts the keys are equal if and only if the tools and the arguments
are, up to the order of members. After a call that was not made before, its result is found for the
decisions that ask for the same call; for the others the cache is as it was. -/
theorem memoKey_identifies [LawfulFloat F] [Unicode] (hl : loads raw = some (.object decision))
    (hl' : loads raw' = some (.object decision')) (hs : ScalarCall decision)
    (hs' : ScalarCall decision') :
    (memoKey decision = memoKey decision' ↔ SameDecision decision decision') ∧
      ∀ (cfg : LoopConfig F) (st : LoopState F) (result : Json F),
        st.callCache.lookup (memoKey decision) = none →
        (SameDecision decision decision' →
          (recordResult cfg st (decidedCall decision).1 (decidedCall decision).2
            result).callCache.lookup (memoKey decision') = some result) ∧
        (¬ SameDecision decision decision' →
          (recordResult cfg st (decidedCall decision).1 (decidedCall decision).2
            result).callCache.lookup (memoKey decision') =
              st.callCache.lookup (memoKey decision')) := by
  have hkey := memoKey_eq_iff hl hl' hs hs'
  refine ⟨hkey, fun cfg st result hnew => ⟨fun hsame => ?_, fun hother => ?_⟩⟩
  · rw [← hkey.mpr hsame, recordResult_callCache]
    exact (lookup_concat ..).trans (by rw [hnew, if_pos rfl]; rfl)
  · have hne : memoKey decision' ≠ memoKey decision := fun h => hother (hkey.mp h.symm)
    rw [recordResult_callCache]
    exact (lookup_concat ..).trans (by rw [if_neg hne, Option.or_none])

end MemoKey

/-! ## Two orders of the arguments -/

def toyotaDecision : List (Str × Json FloatLiteral) :=
  [("action", .string "call_tool"), ("tool", .string "search_listings"),
    ("arguments", .object [("make", .string "Toyota"), ("year", .int 2020)])]

def toyotaReordered : List (Str × Json FloatLiteral) :=
  [("action", .string "call_tool"), ("tool", .string "search_listings"),
    ("arguments", .object [("year", .int 2020), ("make", .string "Toyota")])]

theorem regular_toyota :
    Regular (.object toyotaDecision) ∧ Regular (.object toyotaReordered) :=
  ⟨⟨by decide, by decide, (by decide : NoSplitPair (str "call_tool")), by decide,
      (by decide : NoSplitPair (str "search_listings")), by decide,
      ⟨by decide, by decide, (by decide : NoSplitPair (str "Toyota")), by decide, trivial, trivial⟩,
      trivial⟩,
    ⟨by decide, by decide, (by decide : NoSplitPair (str "call_tool")), by decide,
      (by decide : NoSplitPair (str "search_listings")), by decide,
      ⟨by decide, by decide, trivial, by decide, (by decide : NoSplitPair (str "Toyota")), trivial⟩,
      trivial⟩⟩

/-- The order of the arguments does not change the key. -/
theorem toyota_one_key : memoKey toyotaDecision = memoKey toyotaReordered := by
  let _ := asciiUnicode
  obtain ⟨h, h'⟩ := regular_toyota
  have hname : ScalarText (str "search_listings") := by decide
  have hmake : ScalarText (str "make") := by decide
  have hyear : ScalarText (str "year") := by decide
  have htoyota : ScalarText (str "Toyota") := by decide
  refine (memoKey_identifies (loads_dumps h) (loads_dumps h')
    ⟨hname, hmake, htoyota, hyear, trivial, trivial⟩
    ⟨hname, hyear, trivial, hmake, htoyota, trivial⟩).1.mpr ⟨rfl, fun key => ?_, ?_⟩
  · exact (List.Perm.swap ..).mem_iff
  · exact ⟨⟨_, List.mem_cons_of_mem _ List.mem_cons_self, rfl⟩, ⟨_, List.mem_cons_self, rfl⟩, trivial⟩

end DealershipAgent
