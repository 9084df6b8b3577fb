import Mathlib.Algebra.Order.Group.Basic
import Mathlib.Algebra.Order.Group.Int
import Mathlib.Algebra.Ring.Int.Defs
import DealershipAgent.Data.EmbedPolicies
import DealershipAgent.Ranking.Nearest

/-!
# Search of the policy documents

`retrieval/policy_search.py`, with distances in any ordered group.

* `selectChunks`: the rows that the query of `search_policy_docs` returns.
* `searchPolicyDocs`: these candidates, sorted by `(is_superseded, -similarity)` and cut.
* `search_policy_docs_pool`: its order, its length, and when it is the ranking of the whole corpus.
-/

namespace DealershipAgent

open Py Ranking

/-- A `PolicyChunkResult` whose similarity is a number. -/
structure PolicyCandidate (R : Type) where
  docSlug : Str
  docTitle : Str
  sectionHeading : Option Str
  content : Str
  isSuperseded : Bool
  similarity : R
deriving DecidableEq

section Search

variable {V R : Type} [AddCommGroup R] [One R] [LinearOrder R]

/-- The columns of the query, for a row at this distance. -/
def PolicyChunkRow.candidate (row : PolicyChunkRow V) (distance : R) : PolicyCandidate R :=
  { docSlug := row.docSlug, docTitle := row.docTitle, sectionHeading := row.sectionHeading,
    content := row.content, isSuperseded := row.isSuperseded, similarity := 1 - distance }

/-- `CANDIDATE_POOL_MULTIPLIER` and `MIN_CANDIDATE_POOL`. -/
def poolSize (limit : Int) : Int := max (limit * 4) 20

/-- The rows of the model, the nearest first, up to the size of the pool. -/
def selectChunks (distance : V → V → R) (modelName : Str) (queryEmbedding : V) (poolSize : Int)
    (table : PolicyChunks V) : List (PolicyCandidate R) :=
  ((orderBy (fun row => distance row.embedding queryEmbedding)
      (table.rows.filter fun row => row.modelName = modelName)).take poolSize.toNat).map
    fun row => row.candidate (distance row.embedding queryEmbedding)

/-- `search_policy_docs` -/
def searchPolicyDocs (embedText : Str → V) (distance : V → V → R) (modelName : Str)
    (table : PolicyChunks V) (query : Str) (limit : Int) : List (PolicyCandidate R) :=
  sliceTo (orderBy (demote PolicyCandidate.isSuperseded fun c => -c.similarity)
    (selectChunks distance modelName (embedText query) (poolSize limit) table)) limit

/-- Every chunk of the model, as a candidate. -/
def policyCorpus (embedText : Str → V) (distance : V → V → R) (modelName : Str)
    (table : PolicyChunks V) (query : Str) : List (PolicyCandidate R) :=
  (table.rows.filter fun row => row.modelName = modelName).map
    fun row => row.candidate (distance row.embedding (embedText query))

/-- A chunk comes before another: it is the current one of the two, or the more similar one. -/
def RanksBefore (a b : PolicyCandidate R) : Prop :=
  (a.isSuperseded = false ∧ b.isSuperseded = true) ∨
    (a.isSuperseded = b.isSuperseded ∧ b.similarity < a.similarity)

variable [IsOrderedAddMonoid R] {embedText : Str → V} {distance : V → V → R} {modelName : Str}
  {table : PolicyChunks V} {query : Str} {limit : Int}

/-- The query returns the most similar candidates of the corpus. -/
theorem selectChunks_eq : selectChunks distance modelName (embedText query) (poolSize limit) table =
    (orderBy (fun c => -c.similarity) (policyCorpus embedText distance modelName table query)).take
      (poolSize limit).toNat := by
  unfold selectChunks policyCorpus
  rw [orderBy_map, ← List.map_take]
  congr 2
  unfold orderBy
  congr 1
  funext a b
  simp [PolicyChunkRow.candidate]

/-- For a limit of one or more and a corpus without ties: the result has as many chunks as the limit and
the corpus allow, current ones before superseded ones and each group by decreasing similarity; and it is
the start of the ranking of the whole corpus if the pool leaves the limit to current chunks. -/
theorem search_policy_docs_pool (embedText : Str → V) (distance : V → V → R) (modelName : Str)
    (table : PolicyChunks V) (query : Str) (hlimit : 1 ≤ limit)
    (hdistinct : ((policyCorpus embedText distance modelName table query).map (·.similarity)).Nodup) :
    (searchPolicyDocs embedText distance modelName table query limit).length =
        min limit.toNat (policyCorpus embedText distance modelName table query).length ∧
      (searchPolicyDocs embedText distance modelName table query limit).Pairwise RanksBefore ∧
      (((policyCorpus embedText distance modelName table query).countP PolicyCandidate.isSuperseded : Int) ≤
          poolSize limit - limit →
        searchPolicyDocs embedText distance modelName table query limit =
          (orderBy (demote PolicyCandidate.isSuperseded fun c => -c.similarity)
            (policyCorpus embedText distance modelName table query)).take limit.toNat) := by
  have hneg : ((policyCorpus embedText distance modelName table query).map
      fun c => -c.similarity).Nodup := by
    have := hdistinct.map (f := fun x => -x) neg_injective
    rwa [List.map_map] at this
  have hpool : limit.toNat ≤ (poolSize limit).toNat ∧ 0 ≤ poolSize limit := by
    unfold poolSize
    omega
  unfold searchPolicyDocs
  rw [selectChunks_eq, sliceTo, if_pos (by omega)]
  refine ⟨?_, ?_, fun hroom => ?_⟩
  · rw [List.length_take, length_orderBy, List.length_take, length_orderBy]
    omega
  · rw [orderBy_demote (List.Perm.refl _)
      ((orderBy_strict hneg).sublist (List.take_sublist _ _))]
    refine ((partition_strict ((orderBy_strict hneg).sublist (List.take_sublist _ _))).sublist
      (List.take_sublist _ _)).imp fun hab => ?_
    simpa only [RanksBefore, demote_lt, neg_lt_neg_iff] using hab
  · exact orderBy_demote_pool hneg (by omega)

end Search

/-- A table with a current and a nearer superseded chunk, at these distances from every query. -/
def returnsChunks : PolicyChunks Int where
  rows := [⟨1, "returns-2024", "Returns", none, 0, "Ten days.", true, 1, "m"⟩,
    ⟨2, "returns", "Returns", none, 0, "Seven days.", false, 2, "m"⟩]
  lastId := 2

theorem returnsChunks_ranked :
    (searchPolicyDocs (fun _ => 0) (fun e _ => e) "m" returnsChunks "returns" 1).map
      (·.isSuperseded) = [false] := by
  rw [(search_policy_docs_pool (fun _ => (0 : Int)) (fun e _ => e) "m" returnsChunks "returns"
    (by decide) (by decide)).2.2 (by decide)]
  decide

end DealershipAgent
