import Mathlib.Data.List.Dedup
import DealershipAgent.Data.ParseDocument
import DealershipAgent.Data.Transaction

/-!
# Ingestion of the policy documents

`load_chunks` and `store_chunks` of `data/scripts/embed_policies.py`, over the table `policy_chunks`.

* `storeChunks`: deletes the rows of the documents that have chunks, and inserts these.
* `storeChunks_rows`: the rows after a run that returns.
* `ingestion_regenerates_iff`: they are the chunks of the files exactly when every row that was there
  for the model belongs to a document with a chunk.
-/

namespace DealershipAgent

open Py

section Ingestion

variable {V : Type}

/-- A row of `policy_chunks`. -/
structure PolicyChunkRow (V : Type) where
  id : Nat
  docSlug : Str
  docTitle : Str
  sectionHeading : Option Str
  chunkIndex : Nat
  content : Str
  isSuperseded : Bool
  embedding : V
  modelName : Str

/-- The table, with the last id of its sequence. -/
structure PolicyChunks (V : Type) where
  rows : List (PolicyChunkRow V) := []
  lastId : Nat := 0

/-- The chunk that a row has stored. -/
def PolicyChunkRow.chunk (row : PolicyChunkRow V) : Chunk :=
  ⟨row.docSlug, row.docTitle, row.sectionHeading, row.chunkIndex, row.content, row.isSuperseded⟩

/-- `_embedding_text` -/
def chunkEmbeddingText (chunk : Chunk) : Str :=
  join "\n" (chunk.docTitle :: (match chunk.sectionHeading with
    | some heading => if heading = [] then [] else [heading]
    | none => []) ++ [chunk.content])

/-- `load_chunks`, for the names and the texts of the files in the directory. -/
def loadChunks (files : List (Str × Str)) : List Chunk :=
  ((files.filter fun file => (str ".md").isSuffixOf file.1).insertionSort fun file file' =>
    strLe file.1 file'.1).flatMap fun file => parseDocument file.1 file.2

/-- `sorted({chunk.doc_slug for chunk in chunks})` -/
def docSlugs (chunks : List Chunk) : List Str :=
  (chunks.map Chunk.docSlug).dedup.insertionSort fun s t => strLe s t

/-- `DELETE FROM policy_chunks WHERE doc_slug = :doc_slug AND model_name = :model_name` -/
def deleteDocument (modelName : Str) (table : PolicyChunks V) (docSlug : Str) : PolicyChunks V :=
  { table with rows := table.rows.filter fun row =>
      !(row.docSlug = docSlug && row.modelName = modelName) }

/-- `INSERT INTO policy_chunks`; `check` is what Postgres says of the values of a row. -/
def insertChunk (check : PolicyChunkRow V → Except Exc Unit) (modelName : Str)
    (table : PolicyChunks V) (x : Chunk × V) : Except Exc (PolicyChunks V) := do
  let row : PolicyChunkRow V :=
    { id := table.lastId + 1, docSlug := x.1.docSlug, docTitle := x.1.docTitle,
      sectionHeading := x.1.sectionHeading, chunkIndex := x.1.chunkIndex, content := x.1.content,
      isSuperseded := x.1.isSuperseded, embedding := x.2, modelName := modelName }
  check row
  return ⟨table.rows ++ [row], table.lastId + 1⟩

/-- `store_chunks`: its result, and the table after it. -/
def storeChunks (embedTexts : List Str → Except Exc (List V))
    (check : PolicyChunkRow V → Except Exc Unit) (chunks : List Chunk) (modelName : Str)
    (table : PolicyChunks V) : Except Exc Nat × PolicyChunks V :=
  if chunks = [] then (.ok 0, table)
  else match embedTexts (chunks.map chunkEmbeddingText) with
    | .error e => (.error e, table)
    | .ok vectors => transact (fun table => do
        let table := (docSlugs chunks).foldl (deleteDocument modelName) table
        let table ← (chunks.zip vectors).foldlM (insertChunk check modelName) table
        zipStrict chunks vectors
        return (chunks.length, table)) table

/-! ## The rows after a run -/

/-- The rows of the model, and those of the other models. -/
def PolicyChunks.ofModel (modelName : Str) (table : PolicyChunks V) : List (PolicyChunkRow V) :=
  table.rows.filter fun row => row.modelName = modelName

def PolicyChunks.ofOthers (modelName : Str) (table : PolicyChunks V) : List (PolicyChunkRow V) :=
  table.rows.filter fun row => row.modelName ≠ modelName

theorem mem_docSlugs {chunks : List Chunk} {docSlug : Str} :
    docSlug ∈ docSlugs chunks ↔ ∃ chunk ∈ chunks, chunk.docSlug = docSlug := by
  rw [docSlugs, List.mem_insertionSort, List.mem_dedup, List.mem_map]

theorem foldl_deleteDocument (modelName : Str) (slugs : List Str) (table : PolicyChunks V) :
    (slugs.foldl (deleteDocument modelName) table).rows =
      table.rows.filter fun row => !(row.docSlug ∈ slugs ∧ row.modelName = modelName) := by
  induction slugs generalizing table with
  | nil => simp
  | cons slug slugs ih =>
    rw [List.foldl_cons, ih, deleteDocument, List.filter_filter]
    refine List.filter_congr fun row _ => ?_
    by_cases hslug : row.docSlug = slug <;> by_cases hmodel : row.modelName = modelName <;>
      simp [hslug, hmodel]

theorem insertChunk_ok {check : PolicyChunkRow V → Except Exc Unit} {modelName : Str}
    {table table' : PolicyChunks V} {x : Chunk × V}
    (h : insertChunk check modelName table x = .ok table') :
    ∃ row : PolicyChunkRow V, table'.rows = table.rows ++ [row] ∧ row.chunk = x.1 ∧
      row.modelName = modelName := by
  unfold insertChunk at h
  simp only [bind, Except.bind, pure, Except.pure] at h
  split at h
  · cases h
  · cases h
    exact ⟨_, rfl, rfl, rfl⟩

/-- The inserted rows come after those that were there. -/
theorem foldlM_insertChunk {check : PolicyChunkRow V → Except Exc Unit} {modelName : Str}
    {xs : List (Chunk × V)} {table table' : PolicyChunks V}
    (h : xs.foldlM (insertChunk check modelName) table = .ok table') :
    ∃ rows : List (PolicyChunkRow V), table'.rows = table.rows ++ rows ∧
      rows.map PolicyChunkRow.chunk = xs.map Prod.fst ∧ ∀ row ∈ rows, row.modelName = modelName := by
  induction xs generalizing table with
  | nil =>
    cases h
    exact ⟨[], (List.append_nil _).symm, rfl, fun row hrow => by cases hrow⟩
  | cons x xs ih =>
    rw [List.foldlM_cons] at h
    cases hx : insertChunk check modelName table x with
    | error e => rw [hx] at h; cases h
    | ok t =>
      rw [hx] at h
      obtain ⟨rows, hrows, hchunks, hmodel⟩ := ih h
      obtain ⟨row, hrow, hchunk, hname⟩ := insertChunk_ok hx
      refine ⟨row :: rows, ?_, ?_, List.forall_mem_cons.mpr ⟨hname, hmodel⟩⟩
      · rw [hrows, hrow, List.append_assoc]
        rfl
      · rw [List.map_cons, List.map_cons, hchunk, hchunks]

variable {embedTexts : List Str → Except Exc (List V)} {check : PolicyChunkRow V → Except Exc Unit}
  {chunks : List Chunk} {modelName : Str} {table table' : PolicyChunks V} {n : Nat}

/-- After a run that returns: the rows of documents without chunks are still there, and the chunks come
after them. -/
theorem storeChunks_rows
    (h : storeChunks embedTexts check chunks modelName table = (.ok n, table')) :
    ∃ rows : List (PolicyChunkRow V), rows.map PolicyChunkRow.chunk = chunks ∧
      (∀ row ∈ rows, row.modelName = modelName) ∧
      table'.rows = (table.rows.filter fun row =>
        !(row.docSlug ∈ docSlugs chunks ∧ row.modelName = modelName)) ++ rows := by
  unfold storeChunks at h
  split at h
  · next hnil =>
    subst hnil
    cases h
    exact ⟨[], rfl, fun row hrow => (by cases hrow), by simp [docSlugs]⟩
  · split at h
    · cases h
    · next vectors hvectors =>
      have hbody := transact_ok.mp h
      simp only [bind, Except.bind, pure, Except.pure] at hbody
      cases hinsert : (chunks.zip vectors).foldlM (insertChunk check modelName)
          ((docSlugs chunks).foldl (deleteDocument modelName) table) with
      | error e => rw [hinsert] at hbody; cases hbody
      | ok t =>
        rw [hinsert] at hbody
        cases hzip : zipStrict chunks vectors with
        | error e => rw [hzip] at hbody; cases hbody
        | ok u =>
          rw [hzip] at hbody
          cases hbody
          obtain ⟨rows, hrows, hchunks, hmodel⟩ := foldlM_insertChunk hinsert
          rw [foldl_deleteDocument] at hrows
          refine ⟨rows, hchunks.trans ?_, hmodel, hrows⟩
          exact List.map_fst_zip (zipStrict_ok.mp hzip).le

/-- After a run that returns, the rows of the model are the chunks of the files, one row each, and those
of other models are as before, exactly when every row that the model had belongs to a document that
still has a chunk. -/
theorem ingestion_regenerates_iff {files : List (Str × Str)}
    (h : storeChunks embedTexts check (loadChunks files) modelName table = (.ok n, table')) :
    (((table'.ofModel modelName).map PolicyChunkRow.chunk).Perm (loadChunks files) ∧
      table'.ofOthers modelName = table.ofOthers modelName) ↔
    ∀ row ∈ table.rows, row.modelName = modelName →
      ∃ chunk ∈ loadChunks files, chunk.docSlug = row.docSlug := by
  obtain ⟨rows, hchunks, hmodel, hrows⟩ := storeChunks_rows h
  generalize loadChunks files = chunks at *
  have hothers : table'.ofOthers modelName = table.ofOthers modelName := by
    have hnone : rows.filter (fun row => row.modelName ≠ modelName) = [] :=
      List.filter_eq_nil_iff.mpr fun row hrow => by simp [hmodel row hrow]
    unfold PolicyChunks.ofOthers
    rw [hrows, List.filter_append, List.filter_filter, hnone, List.append_nil]
    refine List.filter_congr fun row _ => ?_
    by_cases hname : row.modelName = modelName <;> simp [hname]
  have hof : table'.ofModel modelName = ((table.ofModel modelName).filter fun row =>
      row.docSlug ∉ docSlugs chunks) ++ rows := by
    have hall : rows.filter (fun row => row.modelName = modelName) = rows :=
      List.filter_eq_self.mpr fun row hrow => by simp [hmodel row hrow]
    unfold PolicyChunks.ofModel
    rw [hrows, List.filter_append, List.filter_filter, List.filter_filter, hall]
    congr 1
    refine List.filter_congr fun row _ => ?_
    by_cases hname : row.modelName = modelName <;> simp [hname]
  rw [and_iff_left hothers, hof, List.map_append, hchunks]
  have hstale : ((table.ofModel modelName).filter fun row => row.docSlug ∉ docSlugs chunks) = [] ↔
      ∀ row ∈ table.rows, row.modelName = modelName →
        ∃ chunk ∈ chunks, chunk.docSlug = row.docSlug := by
    unfold PolicyChunks.ofModel
    simp only [List.filter_eq_nil_iff, List.mem_filter, decide_eq_true_eq, not_not, mem_docSlugs,
      and_imp]
  rw [← hstale]
  constructor
  · intro hperm
    have hlen := hperm.length_eq
    rw [List.length_append, List.length_map] at hlen
    exact List.length_eq_zero_iff.mp (by omega)
  · intro hnil
    rw [hnil]
    exact .refl _

end Ingestion

/-! ## A renamed document -/

/-- A run over a directory with one document. -/
def ingestReturns (table : PolicyChunks Unit) : Except Exc Nat × PolicyChunks Unit :=
  storeChunks (fun texts => .ok (texts.map fun _ => ())) (fun _ => .ok ())
    (loadChunks [("returns.md", "30 days.")]) "m" table

/-- The rows of a run before the document was renamed. -/
def renamedTable : PolicyChunks Unit where
  rows := [⟨1, "refunds", "refunds", none, 0, "10 days.", false, (), "m"⟩]
  lastId := 1

/-- Two old chunks of the document, and those that another model has of it and of one that is gone. -/
def changedTable : PolicyChunks Unit where
  rows := [⟨1, "returns", "returns", none, 0, "10 days.", false, (), "m"⟩,
    ⟨2, "returns", "returns", str "Fees", 1, "None.", false, (), "m"⟩,
    ⟨3, "returns", "returns", none, 0, "10 days.", false, (), "old"⟩,
    ⟨4, "refunds", "refunds", none, 0, "5 days.", false, (), "old"⟩]
  lastId := 4

theorem ingestReturns_ok :
    (ingestReturns changedTable).1 = .ok 1 ∧ (ingestReturns renamedTable).1 = .ok 1 := by
  constructor <;> rfl

theorem ingestReturns_stale : ∃ table',
    storeChunks (fun texts => .ok (texts.map fun _ => ())) (fun _ => .ok ())
      (loadChunks [("returns.md", "30 days.")]) "m" renamedTable = (.ok 1, table') ∧
    ¬ (((table'.ofModel "m").map PolicyChunkRow.chunk).Perm (loadChunks [("returns.md", "30 days.")]) ∧
      table'.ofOthers "m" = renamedTable.ofOthers "m") := by
  refine ⟨(ingestReturns renamedTable).2, Prod.ext ingestReturns_ok.2 rfl, fun h => ?_⟩
  exact absurd h.1.length_eq (by decide)

/-- The document has its one new chunk, and the other model its old ones. -/
theorem ingestReturns_fresh :
    (((ingestReturns changedTable).2.ofModel "m").map PolicyChunkRow.chunk).Perm
      (loadChunks [("returns.md", "30 days.")]) ∧
    (ingestReturns changedTable).2.ofOthers "m" = changedTable.ofOthers "m" := by
  refine (ingestion_regenerates_iff (Prod.ext ingestReturns_ok.1 rfl)).mpr ?_
  have hcurrent : ∀ row ∈ changedTable.rows, row.modelName = "m" →
      ∃ chunk ∈ loadChunks [("returns.md", "30 days.")], chunk.docSlug = row.docSlug := by decide
  exact hcurrent

end DealershipAgent
