import DealershipAgent.Interact.Shared
import DealershipAgent.Tools.Isolation
import DealershipAgent.Tools.StoreResults

/-!
# Tool calls side by side

Any number of tool calls, of any turns and customers, over one database: each with a connection of its
own, and statement by statement in every order.

* `Pool`, `PoolServes`: the database with its connections, and what it does with a request of one.
* `serve_beside`: a request is answered the same, and does the same, where the database has other
  escalations. `serve_rows`: what it does to the escalations of its connection.
* `Together`: what holds of the calls at any time. `Together.step`: a request of one of them keeps it, by
  `Alone.step` for the call that asks.
* `concurrent_calls`: each call has come to an end that it could have alone on the database that there
  was at first. What is new in the database is at most one escalation of each call, the one that the call
  has returned where it has returned one.
-/

namespace DealershipAgent

open Py Json Interact RowSecurity

/-! ## A database with other escalations -/

def Database.withEscalations (db : Database) (rows : List Escalation) : Database :=
  { db with escalations := rows }

namespace Server

def ToolStore.withEscalations (store : ToolStore) (rows : List Escalation) : ToolStore :=
  { store with world := { store.world with
      committed := store.world.committed.withEscalations rows } }

@[simp] theorem ToolStore.withEscalations_session (store : ToolStore) (rows : List Escalation) :
    (store.withEscalations rows).world.session = store.world.session := rfl

section Beside

variable {F : Type} {b : DbEngine F} {store : ToolStore} {r : DbRequest}
  {rows pending : List Escalation}

/-- Policies do not read escalations. -/
theorem visible_escalations (setting : Option Str) (db : Database) (rows : List Escalation) :
    ∃ rows', (secured b.pg).visible setting (db.withEscalations rows) =
      ((secured b.pg).visible setting db).map (·.withEscalations rows') := by
  change ∃ rows', (customerIdScope b.pg setting).bind _ = ((customerIdScope b.pg setting).bind _).map _
  cases customerIdScope b.pg setting with
  | error e => exact ⟨[], rfl⟩
  | ok scope => exact ⟨rows.filter (escalationsIsolation scope), rfl⟩

theorem seen_pending (hpending : store.tx.pending = pending.map .escalation) :
    seen (secured b.pg) store.world () =
      store.world.committed.withEscalations (store.world.committed.escalations ++ pending) := by
  unfold seen
  rw [show (store.world.session ()).current.pending = pending.map .escalation from hpending]
  exact foldl_insert_escalations _ _

/-- Where other escalations are committed, the connection sees these and its own. -/
theorem seen_beside (hpending : store.tx.pending = pending.map .escalation) (rows : List Escalation) :
    seen (secured b.pg) (store.withEscalations rows).world () =
      (seen (secured b.pg) store.world ()).withEscalations (rows ++ pending) := by
  rw [@seen_pending F b (store.withEscalations rows) pending hpending, seen_pending hpending]
  rfl

/-- A statement that does not read escalations. -/
theorem read_beside {α : Type} {fetch : Database → Except Exc α}
    (hfetch : ∀ db rows, fetch (db.withEscalations rows) = fetch db)
    (hpending : store.tx.pending = pending.map .escalation) (rows : List Escalation) :
    b.read (store.withEscalations rows) fetch =
      ((b.read store fetch).1, (b.read store fetch).2.withEscalations rows) := by
  obtain ⟨rows', hvisible⟩ := visible_escalations (b := b) (store.world.session ()).setting
    (seen (secured b.pg) store.world ()) (rows ++ pending)
  rw [← seen_beside hpending] at hvisible
  unfold DbEngine.read select
  rw [ToolStore.withEscalations_session, hvisible]
  by_cases haborted : (store.world.session ()).current.aborted = true
  · simp only [haborted, if_true]
    rfl
  · simp only [if_neg haborted]
    cases (secured b.pg).visible (store.world.session ()).setting
      (seen (secured b.pg) store.world ()) with
    | error e => rfl
    | ok db =>
      simp only [Except.map, Except.bind, hfetch]
      cases fetch db <;> rfl

theorem admits_escalation (setting : Option Str) (db db' : Database) (e : Escalation) :
    (secured b.pg).admits setting db (.escalation e) =
      (secured b.pg).admits setting db' (.escalation e) := rfl

theorem insert_beside (store : ToolStore) (rows : List Escalation) (e : Escalation)
    (accepted : Bool) :
    insert (secured b.pg) (store.withEscalations rows).world () (.escalation e) accepted =
      ({ (insert (secured b.pg) store.world () (.escalation e) accepted).1 with
          committed := (insert (secured b.pg) store.world () (.escalation e)
            accepted).1.committed.withEscalations rows },
        (insert (secured b.pg) store.world () (.escalation e) accepted).2) := by
  unfold RowSecurity.insert
  rw [ToolStore.withEscalations_session, admits_escalation _ _ (seen (secured b.pg) store.world ())]
  by_cases haborted : (store.world.session ()).current.aborted = true
  · simp only [haborted, if_true]
    rfl
  · simp only [if_neg haborted]
    cases (secured b.pg).admits (store.world.session ()).setting
      (seen (secured b.pg) store.world ()) (.escalation e) with
    | error e => rfl
    | ok admitted => cases admitted <;> cases accepted <;> rfl

/-- The next escalation, whose id is new to both. -/
theorem insertEscalation_beside (hpending : store.tx.pending = pending.map .escalation)
    (hfresh : ∀ e ∈ store.world.committed.escalations ++ (rows ++ pending),
      e.id ≤ store.lastEscalation) (params : Params) :
    b.insertEscalation (store.withEscalations rows) params =
      ((b.insertEscalation store params).1,
        (b.insertEscalation store params).2.withEscalations rows) := by
  unfold DbEngine.insertEscalation
  generalize hrow : escalationRow params (store.lastEscalation + 1) (b.now store.served) = row
  have hrow' : escalationRow params ((store.withEscalations rows).lastEscalation + 1)
      (b.now (store.withEscalations rows).served) = row := hrow
  have hid : row.id = store.lastEscalation + 1 := by rw [← hrow]; rfl
  have hnew : ∀ escalations : List Escalation, (∀ e ∈ escalations, e.id ≤ store.lastEscalation) →
      escalations.any (fun o => decide (o.id = row.id)) = false := by
    intro escalations hle
    rw [List.any_eq_false]
    intro e he
    have := hle e he
    simp only [decide_eq_true_eq]
    omega
  have hallows : allowsEscalation (seen (secured b.pg) (store.withEscalations rows).world ()) row =
      allowsEscalation (seen (secured b.pg) store.world ()) row := by
    unfold allowsEscalation
    rw [seen_beside hpending, seen_pending hpending]
    simp only [Database.withEscalations]
    rw [hnew (rows ++ pending) fun e he => hfresh e (List.mem_append_right _ he),
      hnew (store.world.committed.escalations ++ pending) fun e he => ?_]
    rcases List.mem_append.mp he with hold | hpend
    · exact hfresh e (List.mem_append_left _ hold)
    · exact hfresh e (List.mem_append_right _ (List.mem_append_right _ hpend))
  simp only [hrow', hallows, insert_beside]
  cases (insert (secured b.pg) store.world () (.escalation row)
    (allowsEscalation (seen (secured b.pg) store.world ()) row && b.accepts row)).2 <;> rfl

/-- The transaction ends: its escalations are committed to those that there are, or are no more. -/
theorem finish_escalations (hpending : store.tx.pending = pending.map .escalation) (commit : Bool)
    (after : Option Str) : ∃ added session, (∀ e ∈ added, e ∈ pending) ∧
      (session ()).current.pending = [] ∧
      ∀ rows, finish (secured b.pg) (store.withEscalations rows).world () commit after =
        ⟨store.world.committed.withEscalations (rows ++ added), session⟩ := by
  unfold finish
  simp only [ToolStore.withEscalations_session]
  cases htx : (store.world.session ()).tx with
  | none =>
    refine ⟨[], store.world.session, by simp, ?_, fun rows => ?_⟩
    · rw [Session.current, htx]
      rfl
    · rw [List.append_nil]
      rfl
  | some tx =>
    rw [ToolStore.tx, Session.current, htx] at hpending
    by_cases hcommit : (commit && !tx.aborted) = true
    · simp only [hcommit, if_true]
      refine ⟨pending, Function.update store.world.session () ⟨after, none⟩, fun e he => he, ?_,
        fun rows => ?_⟩
      · simp [Session.current]
      · rw [show tx.pending = pending.map .escalation from hpending]
        exact congrArg (World.mk · _)
          (foldl_insert_escalations (store.withEscalations rows).world.committed pending)
    · simp only [if_neg hcommit]
      refine ⟨[], Function.update store.world.session () ⟨after, none⟩, by simp, ?_, fun rows => ?_⟩
      · simp [Session.current]
      · rw [List.append_nil]
        rfl

theorem finish_beside (hpending : store.tx.pending = pending.map .escalation) (rows : List Escalation)
    (commit : Bool) (after : Option Str) : ∃ added,
      (finish (secured b.pg) store.world () commit after).committed.escalations =
        store.world.committed.escalations ++ added ∧
      finish (secured b.pg) (store.withEscalations rows).world () commit after =
        { finish (secured b.pg) store.world () commit after with
          committed := (finish (secured b.pg) store.world () commit after).committed.withEscalations
            (rows ++ added) } := by
  obtain ⟨added, session, -, -, hfinish⟩ := finish_escalations (b := b) hpending commit after
  have hown : finish (secured b.pg) store.world () commit after = _ :=
    hfinish store.world.committed.escalations
  refine ⟨added, ?_, ?_⟩
  · rw [hown]
    rfl
  · rw [hfinish, hown]
    rfl

/-- A statement. -/
theorem execute_beside (hpending : store.tx.pending = pending.map .escalation)
    (hfresh : ∀ e ∈ store.world.committed.escalations ++ (rows ++ pending),
      e.id ≤ store.lastEscalation) (statement : Statement) (params : Params) :
    b.execute (store.withEscalations rows) statement params =
      ((b.execute store statement params).1,
        (b.execute store statement params).2.withEscalations rows) := by
  cases statement with
  | selectOrder => exact read_beside (fun _ _ => rfl) hpending rows
  | selectOrders => exact read_beside (fun _ _ => rfl) hpending rows
  | insertEscalation => exact insertEscalation_beside hpending hfresh params
  | setConfig =>
    simp only [DbEngine.execute, enter, begin, ToolStore.withEscalations_session]
    cases (store.world.session ()).tx <;> rfl

/-- A request is answered the same, and does the same, where the database has other escalations. -/
theorem serve_beside (hpending : store.tx.pending = pending.map .escalation)
    (hfresh : ∀ e ∈ store.world.committed.escalations ++ (rows ++ pending),
      e.id ≤ store.lastEscalation) (r : DbRequest) : ∃ added,
      (b.serve store r).2.world.committed.escalations =
        store.world.committed.escalations ++ added ∧
      b.serve (store.withEscalations rows) r =
        ((b.serve store r).1, (b.serve store r).2.withEscalations (rows ++ added)) := by
  have hserved : (store.withEscalations rows).served = store.served := rfl
  by_cases hcommit : r = .commit
  · subst hcommit
    have hfinish := finish_beside (b := b) hpending rows
    unfold DbEngine.serve
    rw [hserved]
    cases b.fails store.served .commit with
    | some e =>
      obtain ⟨added, hadded, hworld⟩ := hfinish (b.landed store.served) (b.reset store.served).value
      refine ⟨added, hadded, ?_⟩
      simp only [DbEngine.refuse, hserved, hworld]
      rfl
    | none =>
      obtain ⟨added, hadded, hworld⟩ := hfinish true (b.reset store.served).value
      refine ⟨added, hadded, ?_⟩
      simp only [DbEngine.answer, hserved, hworld]
      rfl
  · refine ⟨[], by rw [serve_committed hcommit, List.append_nil], ?_⟩
    have hrollback : finish (secured b.pg) (store.withEscalations rows).world () false
        (b.reset store.served).value =
          { finish (secured b.pg) store.world () false (b.reset store.served).value with
            committed := (finish (secured b.pg) store.world () false
              (b.reset store.served).value).committed.withEscalations rows } := by
      obtain ⟨added, hadded, hworld⟩ := finish_beside (b := b) hpending rows false
        (b.reset store.served).value
      rw [finish_false] at hadded
      obtain rfl : added = [] := List.append_right_eq_self.mp hadded.symm
      rw [hworld, List.append_nil]
    rw [List.append_nil]
    unfold DbEngine.serve
    rw [hserved]
    cases b.fails store.served r with
    | some e =>
      cases r with
      | commit => exact absurd rfl hcommit
      | rollback =>
        simp only [DbEngine.refuse, hserved, hrollback]
        rfl
      | _ => rfl
    | none =>
      cases r with
      | commit => exact absurd rfl hcommit
      | rollback =>
        simp only [DbEngine.answer, hserved, hrollback]
        rfl
      | connect => rfl
      | execute statement params =>
        simp only [DbEngine.answer, DbEngine.send, execute_beside hpending hfresh]
        cases bindParams params <;> rfl

/-! ## The escalations of a connection -/

variable {c : Int} {sessionId : Str}

/-- What a request does: the escalations that it commits or leaves in the transaction were there before,
or there is one more of this customer and session, with the next id. -/
theorem serve_rows (hpending : store.tx.pending = pending.map .escalation)
    (hr : Foreign c sessionId r = false) : ∃ added pending',
      (b.serve store r).2.world.committed =
        store.world.committed.withEscalations (store.world.committed.escalations ++ added) ∧
      (b.serve store r).2.tx.pending = pending'.map .escalation ∧
      store.lastEscalation ≤ (b.serve store r).2.lastEscalation ∧
      ∀ e ∈ added ++ pending', e ∈ pending ∨ OwnEscalation c sessionId store.lastEscalation
        (b.serve store r).2.lastEscalation e := by
  have hsame : store.world.committed =
      store.world.committed.withEscalations (store.world.committed.escalations ++ []) := by
    rw [List.append_nil]
    rfl
  have hend : ∀ commit after, ∃ added pending',
      (finish (secured b.pg) store.world () commit after).committed =
        store.world.committed.withEscalations (store.world.committed.escalations ++ added) ∧
      ((finish (secured b.pg) store.world () commit after).session ()).current.pending =
        pending'.map .escalation ∧
      store.lastEscalation ≤ store.lastEscalation ∧
      ∀ e ∈ added ++ pending', e ∈ pending ∨
        OwnEscalation c sessionId store.lastEscalation store.lastEscalation e := by
    intro commit after
    obtain ⟨added, session, hadded, hnone, hfinish⟩ := finish_escalations (b := b) hpending commit after
    have hown : finish (secured b.pg) store.world () commit after = _ :=
      hfinish store.world.committed.escalations
    rw [hown]
    refine ⟨added, [], rfl, hnone, Int.le_refl _, fun e he => .inl (hadded e ?_)⟩
    rwa [List.append_nil] at he
  obtain ⟨store', hstep, hserve⟩ := serve_step b store r
  rw [hserve]
  cases hstep with
  | same => exact ⟨[], pending, hsame, hpending, Int.le_refl _, fun e he => .inl he⟩
  | statement aborted hle =>
    exact ⟨[], pending, hsame, (congrArg Tx.pending (tx_setTx store _)).trans hpending, hle,
      fun e he => .inl he⟩
  | entered htx =>
    refine ⟨[], [], hsame, ?_, Int.le_refl _, by simp⟩
    simp [ToolStore.tx, Session.current]
  | @inserted params row hrow hadmits =>
    refine ⟨[], pending ++ [row], hsame, ?_, Int.le_of_lt (Int.lt_succ _), fun e he => ?_⟩
    · refine (congrArg Tx.pending (tx_setTx store _)).trans ?_
      rw [hpending, List.map_append]
      rfl
    · change e ∈ pending ++ [row] at he
      rcases List.mem_append.mp he with hold | hnew
      · exact .inl hold
      · rw [List.mem_singleton.mp hnew, hrow]
        simp only [Foreign, Bool.or_eq_false_iff, decide_eq_false_iff_not, not_not] at hr
        refine .inr ⟨?_, ?_, Int.lt_succ _, Int.le_refl _⟩
        · simp [escalationRow, hr.1, SqlValue.integer]
        · simp [escalationRow, hr.2, SqlValue.text]
  | committed => exact hend _ _
  | rolledBack hr' => exact hend _ _

end Beside

/-! ## Calls on connections of one database -/

/-- The database with the connections of the calls `N`. -/
structure Pool (N : Type) where
  world : World N (Option Str) Database Row
  lastEscalation : Int := 0
  /-- How many requests there were. -/
  served : Nat := 0

/-- A tool call, and the identity of the server that it is made at. -/
structure ServerCall (F : Type) where
  identity : Option RequestIdentity
  name : Str
  arguments : Json F

section Pool

variable {N F : Type} [DecidableEq N]

/-- What there is for a connection. -/
def Pool.store (pool : Pool N) (n : N) : ToolStore where
  world := ⟨pool.world.committed, fun _ => pool.world.session n⟩
  lastEscalation := pool.lastEscalation
  served := pool.served

def Pool.put (pool : Pool N) (n : N) (store : ToolStore) : Pool N where
  world := ⟨store.world.committed, Function.update pool.world.session n (store.world.session ())⟩
  lastEscalation := store.lastEscalation
  served := store.served

/-- What the database does with a request on a connection. -/
inductive PoolServes (b : DbEngine F) :
    Service (Pool N) (N × DbRequest) (fun r => DbAnswer F r.2)
  | mk (pool : Pool N) (n : N) (r : DbRequest) :
      PoolServes b pool ⟨(n, r), (b.serve (pool.store n) r).1⟩ (pool.put n (b.serve (pool.store n) r).2)

/-! ### The escalations of the calls -/

/-- The escalations of a call among those of all. -/
def rowsOf (n : N) (done : List (N × Escalation)) : List Escalation :=
  (done.filter fun x => x.1 = n).map Prod.snd

theorem rowsOf_own (n : N) (done : List (N × Escalation)) (added : List Escalation) :
    rowsOf n (done ++ added.map (n, ·)) = rowsOf n done ++ added := by
  unfold rowsOf
  rw [List.filter_append, List.map_append, List.filter_map, List.map_map]
  simp [Function.comp_def]

theorem rowsOf_other {n m : N} (h : m ≠ n) (done : List (N × Escalation)) (added : List Escalation) :
    rowsOf m (done ++ added.map (n, ·)) = rowsOf m done := by
  unfold rowsOf
  rw [List.filter_append, List.map_append, List.filter_map, List.map_map]
  simp [Function.comp_def, h.symm]

theorem mem_rowsOf {n : N} {done : List (N × Escalation)} {e : Escalation} :
    e ∈ rowsOf n done ↔ (n, e) ∈ done := by
  simp [rowsOf]

theorem count_rowsOf (n : N) (done : List (N × Escalation)) :
    (done.map Prod.fst).count n = (rowsOf n done).length := by
  rw [rowsOf, List.length_map, List.count_eq_countP, List.countP_map, List.countP_eq_length_filter]
  rfl

end Pool

section Rows

variable {F : Type} {call : ServerCall F} {first last last' : Int} {e : Escalation} {r : DbRequest}

/-- The request is none of the call's own. -/
def strange (call : ServerCall F) (r : DbRequest) : Bool :=
  match scopedCustomer call.identity with
  | .ok c => Foreign c (sessionOf call.identity) r
  | .error _ => true

theorem strange_eq_false (h : strange call r = false) :
    ∃ c, scopedCustomer call.identity = .ok c ∧ Foreign c (sessionOf call.identity) r = false := by
  unfold strange at h
  split at h
  · exact ⟨_, ‹_›, h⟩
  · cases h

/-- The escalation is of the customer and the session of the call, with an id of the sequence. -/
def OwnRow (call : ServerCall F) (first last : Int) (e : Escalation) : Prop :=
  ∃ c, scopedCustomer call.identity = .ok c ∧
    OwnEscalation c (sessionOf call.identity) first last e

theorem OwnRow.mono (h : OwnRow call first last e) (hle : last ≤ last') :
    OwnRow call first last' e := by
  obtain ⟨c, hc, hown⟩ := h
  exact ⟨c, hc, hown.mono hle⟩

theorem OwnRow.le (h : OwnRow call first last e) : e.id ≤ last := by
  obtain ⟨c, hc, hown⟩ := h
  exact hown.last

end Rows

/-! ### What holds of the calls at any time -/

section Together

variable {N F : Type} [DecidableEq N] [PyFloat F] [Unicode]

/-- The calls that are under way, and the database. -/
abbrev ToolSystem (N F : Type) : Type :=
  System N (Pool N) (N × DbRequest) (fun r => DbAnswer F r.2) Exc (CallToolResult F)

/-- The call at its server. -/
def ServerCall.program (sa : SqlAlchemy) (mcp : FastMcp F) (call : ServerCall F) :
    DbProgram F (CallToolResult F) := callTool sa mcp call.identity call.name call.arguments

/-- The calls, each on its connection. -/
def together (sa : SqlAlchemy) (mcp : FastMcp F) (pool : Pool N) (calls : N → ServerCall F) :
    ToolSystem N F :=
  ⟨pool, fun n => ((calls n).program sa mcp).tag n⟩

/-- Where a call is and what its connection has, it has come to alone, from its first store on, with
these escalations of its own. -/
def Alone (b : DbEngine F) (program : DbProgram F (CallToolResult F)) (first : ToolStore)
    (p : DbProgram F (CallToolResult F)) (session : Session (Option Str) Row)
    (rows : List Escalation) : Prop :=
  ∃ store : ToolStore, Reaches TimePasses b.serve program first p store ∧
    store.world = ⟨first.world.committed.withEscalations (first.world.committed.escalations ++ rows),
      fun _ => session⟩

/-- The escalations `done` are committed, and those `pending` are in the transactions of the calls. -/
structure Together (b : DbEngine F) (sa : SqlAlchemy) (mcp : FastMcp F) (pool : Pool N)
    (calls : N → ServerCall F) (sys : ToolSystem N F)
    (done : List (N × Escalation)) (pending : N → List Escalation) : Prop where
  committed : sys.store.world.committed = pool.world.committed.withEscalations
    (pool.world.committed.escalations ++ done.map Prod.snd)
  le : pool.lastEscalation ≤ sys.store.lastEscalation
  staged : ∀ n, (sys.store.store n).tx.pending = (pending n).map .escalation
  own : ∀ n, ∀ e ∈ rowsOf n done ++ pending n,
    OwnRow (calls n) pool.lastEscalation sys.store.lastEscalation e
  apart : ∀ n m, n ≠ m → ∀ e ∈ rowsOf n done ++ pending n, ∀ e' ∈ rowsOf m done ++ pending m,
    e.id ≠ e'.id
  alone : ∀ n, ∃ p : DbProgram F (CallToolResult F), sys.client n = p.tag n ∧
    AtMost (strange (calls n)) 0 p ∧ Alone b ((calls n).program sa mcp) (pool.store n) p
      (sys.store.world.session n) (rowsOf n done)

omit [PyFloat F] [Unicode] in
/-- A request does on the connection what it does alone, and adds the same escalations. -/
theorem Alone.step {b : DbEngine F} {program : DbProgram F (CallToolResult F)} {first store : ToolStore}
    {r : DbRequest} {k : DbAnswer F r → DbProgram F (CallToolResult F)}
    {escalations rows pending : List Escalation}
    (h : Alone b program first (.ask r k) (store.world.session ()) rows)
    (hcommitted : store.world.committed = first.world.committed.withEscalations escalations)
    (hpending : store.tx.pending = pending.map .escalation)
    (hfresh : ∀ e ∈ store.world.committed.escalations ++
      ((first.world.committed.escalations ++ rows) ++ pending), e.id ≤ store.lastEscalation)
    {added : List Escalation} (hadded : (b.serve store r).2.world.committed =
      store.world.committed.withEscalations (store.world.committed.escalations ++ added)) :
    Alone b program first (k (b.serve store r).1) ((b.serve store r).2.world.session ())
      (rows ++ added) := by
  obtain ⟨alone, hreach, hworld⟩ := h
  obtain ⟨added', hadded', hbeside⟩ := serve_beside (b := b) hpending hfresh r
  have hsame : added' = added := by
    rw [hadded] at hadded'
    exact (List.append_cancel_left hadded').symm
  have hpasses : TimePasses alone
      (store.withEscalations (first.world.committed.escalations ++ rows)) := by
    unfold TimePasses
    rw [hworld, ToolStore.withEscalations, hcommitted]
    rfl
  have hnext := hreach.step hpasses
  rw [hbeside, hsame] at hnext
  refine ⟨_, hnext, ?_⟩
  rw [ToolStore.withEscalations, hadded, hcommitted, ← List.append_assoc]
  rfl

variable {b : DbEngine F} {sa : SqlAlchemy} {mcp : FastMcp F} {pool : Pool N} {calls : N → ServerCall F}
  {sys sys' : ToolSystem N F} {done : List (N × Escalation)} {pending : N → List Escalation}

theorem together_start (hidle : ∀ n, (pool.store n).Idle) :
    Together b sa mcp pool calls (together sa mcp pool calls) [] fun _ => [] where
  committed := by
    rw [List.map_nil, List.append_nil]
    rfl
  le := Int.le_refl _
  staged n := by
    have htx : ((pool.store n).world.session ()).tx = none := (hidle n).tx
    change ((pool.store n).world.session ()).current.pending = []
    rw [Session.current, htx]
    rfl
  own := by simp [rowsOf]
  apart := by simp [rowsOf]
  alone n := by
    refine ⟨(calls n).program sa mcp, rfl, callTool_asks fun c hc r hr => ?_, pool.store n, .start, ?_⟩
    · simpa [strange, hc] using hr
    · rw [rowsOf, List.filter_nil, List.map_nil, List.append_nil]
      rfl

/-- The ids of the first database and of the committed escalations are of the sequence. -/
theorem Together.fresh (h : Together b sa mcp pool calls sys done pending)
    (hfresh : ∀ e ∈ pool.world.committed.escalations, e.id ≤ pool.lastEscalation) {e : Escalation}
    (he : e ∈ pool.world.committed.escalations ∨ ∃ n, e ∈ rowsOf n done ++ pending n) :
    e.id ≤ sys.store.lastEscalation := by
  rcases he with hold | ⟨n, hnew⟩
  · exact (hfresh e hold).trans h.le
  · exact (h.own n e hnew).le

/-- A request of a call keeps it. -/
theorem Together.step {ev : Event (N × N × DbRequest) fun r => DbAnswer F r.2.2}
    (h : Together b sa mcp pool calls sys done pending)
    (hfresh : ∀ e ∈ pool.world.committed.escalations, e.id ≤ pool.lastEscalation)
    (hstep : SharedStep (PoolServes b) sys ev sys') :
    ∃ done' pending', Together b sa mcp pool calls sys' done' pending' := by
  obtain @⟨n, r, k, x, store, hask, hserve⟩ := hstep
  obtain ⟨p, hclient, hasks, halone⟩ := h.alone n
  rw [hask] at hclient
  cases p with
  | ret a => cases hclient
  | raise e => cases hclient
  | ask r k =>
    cases hclient
    cases hserve
    obtain ⟨hown, hrest⟩ := hasks.asked (b.serve (sys.store.store n) r).1
    obtain ⟨c, hc, hr⟩ := strange_eq_false hown
    obtain ⟨added, pending', hadded, hpending', hle, hrows⟩ :=
      serve_rows (b := b) (h.staged n) hr
    have hknown : ∀ e ∈ (sys.store.store n).world.committed.escalations ++
        ((pool.world.committed.escalations ++ rowsOf n done) ++ pending n),
        e.id ≤ sys.store.lastEscalation := by
      intro e he
      refine h.fresh hfresh ?_
      rw [show (sys.store.store n).world.committed.escalations =
        pool.world.committed.escalations ++ done.map Prod.snd from congrArg _ h.committed] at he
      simp only [List.mem_append, List.mem_map, Prod.exists, exists_eq_right] at he ⊢
      rcases he with (hold | ⟨m, hm⟩) | (hold | hmine) | hstaged
      · exact .inl hold
      · exact .inr ⟨m, .inl (mem_rowsOf.mpr hm)⟩
      · exact .inl hold
      · exact .inr ⟨n, .inl hmine⟩
      · exact .inr ⟨n, .inr hstaged⟩
    have hnext := halone.step h.committed (h.staged n) hknown hadded
    -- the escalations of a call are those it had, but for a new one of the call that has asked
    have hgrown : ∀ m, ∀ e ∈ rowsOf m (done ++ added.map (n, ·)) ++
        Function.update pending n pending' m, e ∈ rowsOf m done ++ pending m ∨
          m = n ∧ OwnEscalation c (sessionOf (calls n).identity) sys.store.lastEscalation
            (b.serve (sys.store.store n) r).2.lastEscalation e := by
      intro m e he
      by_cases hm : m = n
      · subst hm
        rw [rowsOf_own, Function.update_self, List.append_assoc, List.mem_append] at he
        rcases he with hold | hnew
        · exact .inl (List.mem_append_left _ hold)
        · exact (hrows e hnew).imp (List.mem_append_right _) fun h => ⟨rfl, h⟩
      · rw [rowsOf_other hm, Function.update_of_ne hm] at he
        exact .inl he
    have hold : ∀ m, ∀ e ∈ rowsOf m done ++ pending m, e.id ≤ sys.store.lastEscalation :=
      fun m e he => (h.own m e he).le
    refine ⟨done ++ added.map (n, ·), Function.update pending n pending', ?_⟩
    constructor
    case committed =>
      refine hadded.trans ?_
      rw [show (sys.store.store n).world.committed = sys.store.world.committed from rfl, h.committed,
        List.map_append, List.map_map]
      simp [Database.withEscalations, Function.comp_def]
    case le => exact h.le.trans hle
    case staged =>
      intro m
      by_cases hm : m = n
      · subst hm
        rw [Function.update_self, ← hpending']
        simp [ToolStore.tx, Pool.store, Pool.put]
      · rw [Function.update_of_ne hm, ← h.staged m]
        simp [ToolStore.tx, Pool.store, Pool.put, Function.update_of_ne hm]
    case own =>
      intro m e he
      rcases hgrown m e he with hwas | ⟨rfl, hnew⟩
      · exact (h.own m e hwas).mono hle
      · exact ⟨c, hc, hnew.customer, hnew.session, h.le.trans_lt hnew.first, hnew.last⟩
    case apart =>
      intro m m' hne e he e' he'
      rcases hgrown m e he with hwas | ⟨rfl, hnew⟩ <;>
        rcases hgrown m' e' he' with hwas' | ⟨rfl, hnew'⟩
      · exact h.apart m m' hne e hwas e' hwas'
      · exact ((hold m e hwas).trans_lt hnew'.first).ne
      · exact ((hold m' e' hwas').trans_lt hnew.first).ne'
      · exact absurd rfl hne
    case alone =>
      intro m
      by_cases hm : m = n
      · subst hm
        refine ⟨k (b.serve (sys.store.store m) r).1, by simp, hrest, ?_⟩
        rw [rowsOf_own]
        simpa [Pool.put] using hnext
      · obtain ⟨p, hp, hasks, halone⟩ := h.alone m
        refine ⟨p, by simpa [Function.update_of_ne hm] using hp, hasks, ?_⟩
        rw [rowsOf_other hm]
        simpa [Pool.put, Function.update_of_ne hm] using halone

/-- In every order of the requests. -/
theorem together_run {h : List (Event (N × N × DbRequest) fun r => DbAnswer F r.2.2)}
    (hidle : ∀ n, (pool.store n).Idle)
    (hfresh : ∀ e ∈ pool.world.committed.escalations, e.id ≤ pool.lastEscalation)
    (hrun : SharedRun (PoolServes b) (together sa mcp pool calls) h sys) :
    ∃ done pending, Together b sa mcp pool calls sys done pending := by
  refine hrun.always (I := fun sys => ∃ done pending, Together b sa mcp pool calls sys done pending)
    ⟨[], _, together_start hidle⟩ ?_
  rintro sys ev sys' ⟨done, pending, htogether⟩ hstep
  exact htogether.step hfresh hstep

/-! ## What the calls come to -/

section End

variable {call : ServerCall F} {p : DbProgram F (CallToolResult F)} {first : ToolStore}
  {session : Session (Option Str) Row} {rows staged : List Escalation}

omit [PyFloat F] [Unicode] in
/-- The requests of a call add to the committed escalations only. -/
theorem keeps_committed (hp : AtMost (strange call) 0 p) (escalations : List Escalation) :
    Keeps (fun _ => b.serve) (fun store =>
      (∃ staged : List Escalation, store.tx.pending = staged.map .escalation) ∧
        escalations <+: store.world.committed.escalations) p := by
  refine hp.keeps ?_
  rintro h store r hown ⟨⟨staged, hstaged⟩, hthere⟩
  obtain ⟨c, -, hr⟩ := strange_eq_false hown
  obtain ⟨added, staged', hadded, hstaged', -⟩ := serve_rows (b := b) hstaged hr
  refine ⟨⟨staged', hstaged'⟩, hthere.trans ?_⟩
  rw [hadded]
  exact List.prefix_append _ _

omit [PyFloat F] [Unicode] in
theorem CallEnd.at_most_one {identity : Option RequestIdentity} {name : Str} {arguments : Json F}
    {result : CallToolResult F} {db : Database}
    (h : CallEnd b first mcp identity name arguments result db) :
    db.escalations.length ≤ first.world.committed.escalations.length + 1 := by
  cases h <;> simp [Database.insert]

/-- A call that is on its way has committed at most one escalation. Where it has come to its end, it has
returned. -/
theorem Alone.comesTo (hidle : first.Idle)
    (h : Alone b (call.program sa mcp) first p session rows) (hp : AtMost (strange call) 0 p)
    (hstaged : session.current.pending = staged.map .escalation) :
    rows.length ≤ 1 ∧ (∀ e, p ≠ .raise e) ∧ ∀ result, p = .ret result →
      CallEnd b first mcp call.identity call.name call.arguments result
        (first.world.committed.withEscalations (first.world.committed.escalations ++ rows)) := by
  obtain ⟨store, hreach, hworld⟩ := h
  -- the rest of the call, without the others
  obtain ⟨result, hout, hend⟩ := callTool_serves hidle
    (hreach.serves (play_serves timePasses_refl b.serve [] store p))
  refine ⟨?_, ?_, ?_⟩
  · have htx : store.tx.pending = staged.map .escalation := by
      rw [ToolStore.tx, hworld]
      exact hstaged
    have hcommitted : store.world.committed.escalations =
        first.world.committed.escalations ++ rows := by
      rw [hworld]
      rfl
    obtain ⟨-, hthere⟩ := keeps_committed (b := b) hp store.world.committed.escalations [] store
      ⟨⟨staged, htx⟩, List.prefix_refl _⟩
    have hle := hthere.length_le.trans hend.at_most_one
    rw [hcommitted, List.length_append] at hle
    omega
  · rintro e rfl
    rw [play_raise] at hout
    cases hout
  · rintro result' rfl
    rw [play_ret] at hout hend
    obtain rfl := Except.ok.inj hout
    rw [show store.world.committed = first.world.committed.withEscalations
      (first.world.committed.escalations ++ rows) from congrArg World.committed hworld] at hend
    exact hend

end End

/-- Tool calls side by side, in any order of their requests. What they have committed is at most one
escalation of each, of its own customer and session and with an id of its own. A call that has come to its
end has returned what it could return alone, on the database that there was at first. -/
theorem concurrent_calls {h : List (Event (N × N × DbRequest) fun r => DbAnswer F r.2.2)}
    (hidle : ∀ n, (pool.store n).Idle)
    (hfresh : ∀ e ∈ pool.world.committed.escalations, e.id ≤ pool.lastEscalation)
    (hrun : SharedRun (PoolServes b) (together sa mcp pool calls) h sys) :
    ∃ done : List (N × Escalation),
      sys.store.world.committed = pool.world.committed.withEscalations
        (pool.world.committed.escalations ++ done.map Prod.snd) ∧
      (done.map Prod.fst).Nodup ∧ (done.map fun x => x.2.id).Nodup ∧
      (∀ x ∈ done, OwnRow (calls x.1) pool.lastEscalation sys.store.lastEscalation x.2) ∧
      ∀ n, (∀ e, sys.client n ≠ .raise e) ∧ ∀ result, sys.client n = .ret result →
        CallEnd b (pool.store n) mcp (calls n).identity (calls n).name (calls n).arguments result
          (pool.world.committed.withEscalations
            (pool.world.committed.escalations ++ rowsOf n done)) := by
  obtain ⟨done, pending, htogether⟩ := together_run hidle hfresh hrun
  have hends : ∀ n, (rowsOf n done).length ≤ 1 ∧ (∀ e, sys.client n ≠ .raise e) ∧
      ∀ result, sys.client n = .ret result →
        CallEnd b (pool.store n) mcp (calls n).identity (calls n).name (calls n).arguments result
          (pool.world.committed.withEscalations
            (pool.world.committed.escalations ++ rowsOf n done)) := by
    intro n
    obtain ⟨p, hclient, hasks, halone⟩ := htogether.alone n
    obtain ⟨hone, hraise, hret⟩ := halone.comesTo (hidle n) hasks (htogether.staged n)
    rw [hclient]
    refine ⟨hone, fun e he => ?_, fun result hresult => ?_⟩
    · cases p with
      | raise e' => exact hraise e' rfl
      | _ => cases he
    · cases p with
      | ret result' =>
        cases hresult
        exact hret _ rfl
      | _ => cases hresult
  have hcalls : (done.map Prod.fst).Nodup := List.nodup_iff_count_le_one.mpr fun n =>
    (count_rowsOf n done).trans_le (hends n).1
  have hrows : ∀ x ∈ done, x.2 ∈ rowsOf x.1 done ++ pending x.1 := fun x hx =>
    List.mem_append_left _ (mem_rowsOf.mpr hx)
  refine ⟨done, htogether.committed, hcalls, ?_, fun x hx => htogether.own _ _ (hrows x hx),
    fun n => (hends n).2⟩
  refine List.pairwise_map.mpr ((List.pairwise_map.mp hcalls).imp_of_mem ?_)
  intro x y hx hy hne
  exact htogether.apart _ _ hne _ (hrows x hx) _ (hrows y hy)

/-! ### Schedules -/

/-- It is the turn of a call: the database serves its next request. -/
def turnOf (b : DbEngine F) (sys : ToolSystem N F) (n : N) : ToolSystem N F :=
  match sys.client n with
  | .ask r k =>
    let (x, store) := b.serve (sys.store.store r.1) r.2
    ⟨sys.store.put r.1 store, Function.update sys.client n (k x)⟩
  | _ => sys

omit [PyFloat F] [Unicode] in
/-- Every schedule of the calls is a run. -/
theorem turns_run (b : DbEngine F) (schedule : List N) (sys : ToolSystem N F) :
    ∃ h, SharedRun (PoolServes b) sys h (schedule.foldl (turnOf b) sys) := by
  induction schedule generalizing sys with
  | nil => exact ⟨[], .start⟩
  | cons n schedule ih =>
    rw [List.foldl_cons]
    obtain ⟨h, hrest⟩ := ih (turnOf b sys n)
    revert hrest
    unfold turnOf
    split
    · exact fun hrest => ⟨_, (SharedRun.start.ask ‹_› (.mk _ _ _)).append hrest⟩
    · exact fun hrest => ⟨h, hrest⟩

end Together

/-- Two customers, each with a connection. -/
def handoffPool : Pool Bool where
  world := start (some []) {
    customers := [⟨7, "CUST-7", "ann@example.com", "Ann", none, 0⟩,
      ⟨8, "CUST-8", "bob@example.com", "Bob", none, 0⟩] }

/-- Each of them asks for a person. -/
def handoffCall (first : Bool) : ServerCall FloatText where
  identity := some ⟨"s-1", some (if first then 7 else 8)⟩
  name := "escalate_to_human"
  arguments := .object []

def handoffMcp : FastMcp FloatText :=
  { orderMcp with escalateArguments := fun _ => .ok ("a summary", "a reason") }

/-- Statement by statement in turn. -/
def handoffsInTurn : ToolSystem Bool FloatText :=
  [true, false, true, false, true, false, false, true].foldl (turnOf (shopEngine FloatText))
    (@together Bool FloatText _ asciiUnicode ⟨fun _ _ => [], fun _ _ => []⟩ handoffMcp handoffPool
      handoffCall)

/-- Both have their escalation, the second before the first. -/
theorem handoffsInTurn_end :
    handoffsInTurn.store.world.committed.escalations.map (fun e => (e.id, e.customerId)) =
      [(2, 8), (1, 7)] ∧
    (∀ n, ∃ result, handoffsInTurn.client n = .ret result) ∧
    ∃ done : List (Bool × Escalation),
      handoffsInTurn.store.world.committed =
        handoffPool.world.committed.withEscalations ([] ++ done.map Prod.snd) ∧
      (done.map Prod.fst).Nodup ∧ (done.map fun x => x.2.id).Nodup ∧
      (∀ x ∈ done, OwnRow (handoffCall x.1) 0 handoffsInTurn.store.lastEscalation x.2) ∧
      ∀ n, (∀ e, handoffsInTurn.client n ≠ .raise e) ∧
        ∀ result, handoffsInTurn.client n = .ret result →
          CallEnd (shopEngine FloatText) (handoffPool.store n) handoffMcp (handoffCall n).identity
            (handoffCall n).name (handoffCall n).arguments result
            (handoffPool.world.committed.withEscalations ([] ++ rowsOf n done)) := by
  obtain ⟨h, hrun⟩ := turns_run (shopEngine FloatText)
    [true, false, true, false, true, false, false, true] (@together Bool FloatText _ asciiUnicode
      ⟨fun _ _ => [], fun _ _ => []⟩ handoffMcp handoffPool handoffCall)
  refine ⟨rfl, fun n => ?_, ?_⟩
  · cases n with
    | true => exact ⟨_, rfl⟩
    | false => exact ⟨_, rfl⟩
  · exact @concurrent_calls Bool FloatText _ _ asciiUnicode (shopEngine FloatText) _ handoffMcp
      handoffPool handoffCall handoffsInTurn h (fun n => ⟨rfl, .inr rfl⟩) (by simp [handoffPool, start])
      hrun

end Server

end DealershipAgent
