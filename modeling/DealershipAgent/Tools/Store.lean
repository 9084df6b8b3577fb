import DealershipAgent.Interact.Stateful
import DealershipAgent.RowSecurity.Noninterference
import DealershipAgent.Tools.Server

/-!
# The tool server over its database

The requests of `Server`, served by the database of `Rls`: each tool call has a connection of the pool,
and any request may fail.

* `DbEngine.serve`: what the database does with a request, and the driver, which sends no text that
  Postgres cannot hold (`bindParams`). `serve_step`: one step for each.
* `callTool_asks`: the requests of a tool call are those of its own customer and session (`Foreign`).
* `callTool_noTx`: a tool call leaves no transaction open, whatever fails.
-/

namespace DealershipAgent.Server

open Py Json Interact RowSecurity

/-! ## The database -/

/-- The database, the connection of a tool call, and the sequence of the escalations' ids. -/
structure ToolStore where
  world : World Unit (Option Str) Database Row
  lastEscalation : Int := 0
  /-- How many requests there were. -/
  served : Nat := 0

/-- What Postgres and the driver add to it. -/
structure DbEngine (F : Type) where
  pg : Postgres
  /-- The time at a request. -/
  now : Nat → Timestamp
  /-- The requests that fail. -/
  fails : Nat → DbRequest → Option Exc
  /-- Whether a commit that fails has been done all the same. -/
  landed : Nat → Bool
  /-- What the setting reads as after the transaction that a request ends. -/
  reset : Nat → Reset
  /-- What else Postgres may have against an escalation. -/
  accepts : Escalation → Bool
  /-- The text of the driver's exception. -/
  driverText : Fault Exc → Str
  amount : Int → Json F
  timestamp : Timestamp → Json F

section Serve

variable {F : Type} (b : DbEngine F)

def DbEngine.date : Option Timestamp → Json F
  | some t => b.timestamp t
  | none => .null

/-- The row of an order in `get_order_status`. -/
def DbEngine.orderStatusRow (r : Order) : OrderStatusRow F where
  orderRef := .string r.orderRef
  status := .string r.status.value
  totalAmount := b.amount r.totalAmount
  createdAt := b.timestamp r.createdAt
  expectedDeliveryDate := b.date r.expectedDeliveryDate
  actualDeliveryDate := b.date r.actualDeliveryDate

/-- The row of an order with its vehicle in `list_my_orders`. -/
def DbEngine.orderRow (r : Order × Vehicle) : OrderRow F where
  orderRef := .string r.1.orderRef
  status := .string r.1.status.value
  createdAt := b.timestamp r.1.createdAt
  expectedDeliveryDate := b.date r.1.expectedDeliveryDate
  actualDeliveryDate := b.date r.1.actualDeliveryDate
  year := .int r.2.year
  make := .string r.2.make
  model := .string r.2.model

def param (params : Params) (name : Str) : SqlValue := (params.lookup name).getD .null

/-- A parameter that is a text or `NULL`. -/
def SqlValue.text : SqlValue → Option Str
  | .string s => some s
  | _ => none

def SqlValue.integer : SqlValue → Int
  | .int n => n
  | _ => 0

/-- A parameter on its way to Postgres. -/
def SqlValue.bind : SqlValue → Except Exc SqlValue
  | .string s => SqlValue.string <$> bindText s
  | value => .ok value

/-- The parameters, before anything is sent. -/
def bindParams (params : Params) : Except Exc (List SqlValue) := params.mapM fun param => param.2.bind

/-- The orders that the statement of `list_my_orders` chooses, without its limit. -/
def chosenOrders (statusFilter : Option Str) (db : Database) : List (Order × Vehicle) :=
  let joined := db.orders.flatMap fun o =>
    (db.vehicles.filter fun v => v.id = o.vehicleId).map fun v => (o, v)
  let chosen := joined.filter fun r =>
    statusFilter.all fun status => decide (r.1.status.value = status)
  chosen.mergeSort fun r r' => r'.1.createdAt ≤ r.1.createdAt

/-- The constraints of `escalations`: its key, its reference and its lengths. -/
def allowsEscalation (db : Database) (r : Escalation) : Bool :=
  !(db.escalations.any fun o => o.id = r.id) && (db.customers.any fun o => o.id = r.customerId) &&
    r.conversationId.length ≤ 64 && r.reason.length ≤ 128

/-- The row that the parameters of the insertion make. -/
def escalationRow (params : Params) (id : Int) (now : Timestamp) : Escalation where
  id := id
  customerId := (param params "customer_id").integer
  conversationId := (param params "conversation_id").text.getD []
  summary := (param params "summary").text.getD []
  reason := (param params "reason").text.getD []
  createdAt := now
  resolvedAt := none

/-- A statement that only reads, and what is fetched of what it sees. -/
def DbEngine.read {α : Type} (store : ToolStore) (fetch : Database → Except Exc α) :
    Except Str α × ToolStore :=
  let (world, out) := select (secured b.pg) store.world ()
  match out.bind fun db => (fetch db).mapError Fault.raised with
  | .ok a => (.ok a, { store with world := world })
  | .error fault => (.error (b.driverText fault), { store with world := world.fail () })

/-- The insertion of an escalation. The sequence goes on even when the row is refused. -/
def DbEngine.insertEscalation (store : ToolStore) (params : Params) :
    Except Str (Option (EscalationRow F)) × ToolStore :=
  let row := escalationRow params (store.lastEscalation + 1) (b.now store.served)
  let accepted := allowsEscalation (seen (secured b.pg) store.world ()) row && b.accepts row
  let (world, out) := insert (secured b.pg) store.world () (.escalation row) accepted
  let last := if (store.world.session ()).current.aborted then store.lastEscalation
    else store.lastEscalation + 1
  (match out with
    | .ok () => .ok (some ⟨.int row.id, b.timestamp row.createdAt⟩)
    | .error fault => .error (b.driverText fault),
  { store with world := world, lastEscalation := last })

/-- What the database does with a statement. -/
def DbEngine.execute (store : ToolStore) :
    (statement : Statement) → Params → Except Str (Fetched F statement) × ToolStore
  | .setConfig, params =>
    match enter (ε := Exc) store.world () (param params "customer_id").text with
    | .ok world => (.ok (), { store with world := world })
    | .error fault => (.error (b.driverText fault), store)
  | .selectOrder, params => b.read store fun db =>
    .ok (((db.orders.filter fun r => (param params "order_ref").text = some r.orderRef).map
      b.orderStatusRow).head?)
  | .selectOrders, params => b.read store fun db =>
    (b.pg.limit (param params "limit").integer).map fun n =>
      ((chosenOrders (param params "status_filter").text db).take n).map b.orderRow
  | .insertEscalation, params => b.insertEscalation store params

/-- A statement that is sent, if its parameters can be. -/
def DbEngine.send (store : ToolStore) (statement : Statement) (params : Params) :
    Except Str (Fetched F statement) × ToolStore :=
  match bindParams params with
  | .ok _ => b.execute store statement params
  | .error e => (.error (b.driverText (.raised e)), store)

/-- What it does with a request that does not fail. -/
def DbEngine.answer (store : ToolStore) : (r : DbRequest) → DbAnswer F r × ToolStore
  | .connect => (.ok (), store)
  | .execute statement params => b.send store statement params
  | .commit => (.ok (), { store with
      world := finish (secured b.pg) store.world () true (b.reset store.served).value })
  | .rollback => (.ok (), { store with
      world := finish (secured b.pg) store.world () false (b.reset store.served).value })

/-- What it does with one that fails: a statement aborts its transaction, which is rolled back where the
rollback itself fails, and perhaps where the commit does. -/
def DbEngine.refuse (store : ToolStore) (e : Exc) : (r : DbRequest) → DbAnswer F r × ToolStore
  | .connect => (.error e, store)
  | .execute _ _ => (.error e.text, { store with world := store.world.fail () })
  | .commit => (.error e, { store with
      world := finish (secured b.pg) store.world () (b.landed store.served)
        (b.reset store.served).value })
  | .rollback => (.error e, { store with
      world := finish (secured b.pg) store.world () false (b.reset store.served).value })

def DbEngine.serve (store : ToolStore) (r : DbRequest) : DbAnswer F r × ToolStore :=
  let (x, store') := match b.fails store.served r with
    | some e => b.refuse store e r
    | none => b.answer store r
  (x, { store' with served := store.served + 1 })

variable [PyFloat F] [Unicode]

/-- A tool call at the server, with its requests to the database. -/
def DbEngine.callTool (sa : SqlAlchemy) (mcp : FastMcp F) (identity : Option RequestIdentity)
    (store : ToolStore) (name : Str) (arguments : Json F) :
    Played ToolStore DbRequest (DbAnswer F) Exc (CallToolResult F) :=
  play (fun _ => b.serve) [] store (Server.callTool sa mcp identity name arguments)

end Serve

/-! ## What a request does -/

section Step

variable {F : Type} {b : DbEngine F} {store store' : ToolStore} {r : DbRequest}

/-- The transaction of the connection, or an empty one. -/
def ToolStore.tx (store : ToolStore) : Tx Row := (store.world.session ()).current

/-- What a request does to the store, apart from the count of requests. -/
inductive StoreStep (b : DbEngine F) (store : ToolStore) : DbRequest → ToolStore → Prop
  | same {r : DbRequest} : StoreStep b store r store
  /-- A statement that inserts nothing. -/
  | statement {statement : Statement} {params : Params} {last : Int} (aborted : Bool) :
      store.lastEscalation ≤ last → StoreStep b store (.execute statement params)
        { store with
          world := store.world.setTx () { pending := store.tx.pending, aborted := aborted }
          lastEscalation := last }
  | entered {params : Params} : (store.world.session ()).tx = none →
      StoreStep b store (.execute .setConfig params)
        { store with world := store.world.put () ⟨(param params "customer_id").text, some {}⟩ }
  | inserted {params : Params} {row : Escalation} :
      row = escalationRow params (store.lastEscalation + 1) (b.now store.served) →
      (secured b.pg).admits (store.world.session ()).setting (seen (secured b.pg) store.world ())
        (.escalation row) = .ok true →
      StoreStep b store (.execute .insertEscalation params)
        { store with
          world := store.world.setTx ()
            { pending := store.tx.pending ++ [.escalation row], aborted := false }
          lastEscalation := store.lastEscalation + 1 }
  | committed : StoreStep b store .commit
      { store with
        world := finish (secured b.pg) store.world () true (b.reset store.served).value }
  | rolledBack {r : DbRequest} : r = .commit ∨ r = .rollback → StoreStep b store r
      { store with
        world := finish (secured b.pg) store.world () false (b.reset store.served).value }

theorem read_step {α : Type} {statement : Statement} {params : Params}
    (fetch : Database → Except Exc α) :
    StoreStep b store (.execute statement params) (b.read store fetch).2 := by
  obtain ⟨aborted, hw⟩ := select_tx (secured b.pg) store.world ()
  unfold DbEngine.read
  simp only [hw]
  split
  · exact .statement aborted (Int.le_refl _)
  · have hfail : (store.world.setTx () { pending := store.tx.pending, aborted := aborted }).fail () =
        store.world.setTx () { pending := store.tx.pending, aborted := true } := by
      simp [World.fail, World.setTx, World.put, Session.current]
    exact hfail ▸ .statement true (Int.le_refl _)

theorem insertEscalation_step {params : Params} :
    StoreStep b store (.execute .insertEscalation params) (b.insertEscalation store params).2 := by
  unfold DbEngine.insertEscalation
  rcases insert_tx (secured b.pg) store.world ()
    (.escalation (escalationRow params (store.lastEscalation + 1) (b.now store.served)))
    (allowsEscalation (seen (secured b.pg) store.world ())
      (escalationRow params (store.lastEscalation + 1) (b.now store.served)) &&
        b.accepts (escalationRow params (store.lastEscalation + 1) (b.now store.served))) with
    ⟨-, -, hadmits, haborted, hw⟩ | ⟨-, aborted, hw⟩
  · simp only [hw, haborted]
    exact .inserted rfl hadmits
  · simp only [hw]
    refine .statement aborted ?_
    split <;> omega

variable (b store) in
/-- What cannot be sent changes nothing. -/
theorem send_cases (statement : Statement) (params : Params) :
    ((∃ values, bindParams params = .ok values) ∧
      b.send store statement params = b.execute store statement params) ∨
    ∃ e, bindParams params = .error e ∧
      b.send store statement params = (.error (b.driverText (.raised e)), store) := by
  unfold DbEngine.send
  cases bindParams params with
  | ok values => exact .inl ⟨⟨values, rfl⟩, rfl⟩
  | error e => exact .inr ⟨e, rfl, rfl⟩

theorem bindParams_storable {params : Params} {values : List SqlValue}
    (h : bindParams params = .ok values) {name s : Str} (hs : (name, .string s) ∈ params) :
    Storable s := by
  obtain ⟨value, -, hvalue⟩ := mapM_ok_mem h hs
  cases hbind : bindText s with
  | ok t => exact (bindText_eq_ok.mp hbind).1
  | error e =>
    rw [SqlValue.bind, hbind] at hvalue
    cases hvalue

variable (b store r) in
/-- One step for each request. -/
theorem serve_step : ∃ store', StoreStep b store r store' ∧
    (b.serve store r).2 = { store' with served := store.served + 1 } := by
  unfold DbEngine.serve
  cases b.fails store.served r with
  | some e =>
    refine ⟨_, ?_, rfl⟩
    cases r with
    | connect => exact .same
    | execute statement params => exact .statement true (Int.le_refl _)
    | rollback => exact .rolledBack (.inr rfl)
    | commit =>
      unfold DbEngine.refuse
      cases b.landed store.served with
      | true => exact .committed
      | false => exact .rolledBack (.inl rfl)
  | none =>
    refine ⟨_, ?_, rfl⟩
    cases r with
    | connect => exact .same
    | commit => exact .committed
    | rollback => exact .rolledBack (.inr rfl)
    | execute statement params =>
      rcases send_cases b store statement params with ⟨-, hsend⟩ | ⟨e, -, hsend⟩
      swap
      · simp only [DbEngine.answer, hsend]
        exact .same
      simp only [DbEngine.answer, hsend]
      cases statement with
      | selectOrder => exact read_step _
      | selectOrders => exact read_step _
      | insertEscalation => exact insertEscalation_step
      | setConfig =>
        rcases enter_tx (ε := Exc) store.world () (param params "customer_id").text with
          ⟨htx, hw⟩ | hw
        · simp only [DbEngine.execute, hw]
          exact .entered htx
        · simp only [DbEngine.execute, hw]
          exact .same

end Step

/-! ## The requests of a tool call -/

/-- The request is not one that a tool makes for this customer in this session. -/
def Foreign (customerId : Int) (sessionId : Str) : DbRequest → Bool
  | .execute .setConfig params => params ≠ ([("customer_id", .string (intRepr customerId))] : Params)
  | .execute .insertEscalation params =>
    param params "customer_id" ≠ .int customerId || param params "conversation_id" ≠ .string sessionId
  | _ => false

/-- The session of an identity. -/
def sessionOf (identity : Option RequestIdentity) : Str := (identity.map (·.sessionId)).getD []

section Asks

variable {F : Type} {α : Type} [Unicode] {sa : SqlAlchemy} {identity : Option RequestIdentity}
  {P : DbRequest → Bool}

/-- The requests that `P` marks are none of the customer's own. -/
def Spares (identity : Option RequestIdentity) (P : DbRequest → Bool) : Prop :=
  ∀ c, scopedCustomer identity = .ok c → ∀ r, Foreign c (sessionOf identity) r = false → P r = false

theorem execute_asks {statement : Statement} {params : Params}
    (h : P (.execute statement params) = false) :
    AtMost P 0 (execute (F := F) sa statement params) :=
  .skip h fun _ => .lift _

theorem scoped_asks {body : ScopedConnection → DbProgram F α} (hP : Spares identity P)
    (hbody : ∀ c, scopedCustomer identity = .ok c → AtMost P 0 (body ⟨c, sessionOf identity⟩)) :
    AtMost P 0 (customerScopedConnection sa identity body) := by
  unfold customerScopedConnection
  cases hc : scopedCustomer identity with
  | error e => exact .raise e
  | ok c =>
    have hconnect : AtMost P 0 (connect (F := F)) := .skip (hP c hc _ rfl) fun x => .lift (id x)
    have hcommit : AtMost P 0 (commit (F := F)) := .skip (hP c hc _ rfl) fun x => .lift (id x)
    have hrollback : AtMost P 0 (rollback (F := F)) := .skip (hP c hc _ rfl) fun x => .lift (id x)
    have hset : AtMost P 0 (execute (F := F) sa .setConfig
        [("customer_id", .string (intRepr c))]) := execute_asks (hP c hc _ (by simp [Foreign]))
    refine hconnect.bind_left fun _ => ((hset.bind_left fun _ => hbody c hc).attempt).bind_left
      fun out => ?_
    cases out with
    | ok a => exact hcommit.bind_left fun _ => .ret a
    | error e => exact hrollback.bind_left fun _ => .raise e

variable [PyFloat F] {mcp : FastMcp F} {name : Str} {arguments : Json F}

/-- What holds of a statement of the customer's own on a scoped connection, and goes through the formers
of programs, holds of a tool call. -/
theorem callTool_rule {C : ∀ {α : Type}, DbProgram F α → Prop}
    (hlift : ∀ {α : Type} (x : Except Exc α), C (.lift x))
    (hbind : ∀ {α β : Type} {p : DbProgram F α} {f : α → DbProgram F β},
      C p → (∀ a, C (f a)) → C (p >>= f))
    (hattempt : ∀ {α : Type} {p : DbProgram F α}, C p → C p.attempt)
    (hscoped : ∀ (statement : Statement) (params : ScopedConnection → Params),
      (∀ c, Foreign c (sessionOf identity) (.execute statement (params ⟨c, sessionOf identity⟩)) =
        false) →
      C (customerScopedConnection sa identity fun connection =>
        execute sa statement (params connection))) :
    C (callTool sa mcp identity name arguments) := by
  have hret : ∀ {α : Type} (a : α), C (.ret a) := fun a => hlift (.ok a)
  unfold callTool runTool
  by_cases hstatus : name = str "get_order_status"
  · rw [if_pos hstatus]
    refine hbind (hattempt (hbind (hlift _) fun orderRef => hbind (hbind ?_ fun row => hret _)
      fun result => hret _)) fun out => hret _
    exact hscoped .selectOrder (fun _ => [("order_ref", .string orderRef)]) fun c => rfl
  · rw [if_neg hstatus]
    by_cases hlist : name = str "list_my_orders"
    · rw [if_pos hlist]
      refine hbind (hattempt (hbind (hlift _) fun filter => hbind (hbind ?_ fun rows => hret _)
        fun result => hret _)) fun out => hret _
      exact hscoped .selectOrders (fun _ => _) fun c => rfl
    · rw [if_neg hlist]
      by_cases hescalate : name = str "escalate_to_human"
      · rw [if_pos hescalate]
        refine hbind (hattempt (hbind (hlift _) fun texts => hbind (hscoped .insertEscalation
          (fun connection => _) fun c => ?_) fun row => ?_)) fun out => hret _
        · have hname : (str "conversation_id" == str "customer_id") = false := by decide
          simp [Foreign, param, List.lookup_cons, hname]
        · cases row with
          | some row => exact hret _
          | none => exact hlift (.error _)
      · rw [if_neg hescalate]
        exact hret _

/-- The requests of a tool call are its customer's own. -/
theorem callTool_asks (hP : Spares identity P) :
    AtMost P 0 (callTool sa mcp identity name arguments) :=
  callTool_rule (C := fun p => AtMost P 0 p) .lift .bind_left .attempt fun _ _ hown =>
    scoped_asks hP fun c hc => execute_asks (hP c hc _ (hown c))

end Asks

/-! ## The connection of a tool call -/

/-- The connection has no transaction, and its setting names nobody. -/
structure ToolStore.Idle (store : ToolStore) : Prop where
  tx : (store.world.session ()).tx = none
  setting : Unscoped (store.world.session ()).setting

/-- The settings of a connection that serves this customer. -/
def ScopeOf (c : Int) (setting : Option Str) : Prop := Unscoped setting ∨ setting = some (intRepr c)

/-- The setting names nobody or the customer, and nobody outside of transactions. -/
structure Settled (c : Int) (store : ToolStore) : Prop where
  setting : ScopeOf c (store.world.session ()).setting
  blank : (store.world.session ()).tx = none → Unscoped (store.world.session ()).setting

section Connection

variable {F : Type} {b : DbEngine F} {store store' : ToolStore} {r : DbRequest} {c : Int}
  {sessionId : Str}

theorem ToolStore.Idle.settled (h : store.Idle) : Settled c store := ⟨.inl h.setting, fun _ => h.setting⟩

theorem reset_unscoped (reset : Reset) : Unscoped reset.value := by
  cases reset with
  | unset => exact .inl rfl
  | empty => exact .inr rfl

theorem finish_tx (w : World Unit (Option Str) Database Row) (commit : Bool) (after : Option Str) :
    ((finish (secured b.pg) w () commit after).session ()).tx = none := by
  unfold finish
  cases htx : (w.session ()).tx with
  | none => exact htx
  | some tx => simp

theorem Settled.finish (h : Settled c store) (commit : Bool) (reset : Reset) :
    Settled c { store with world := finish (secured b.pg) store.world () commit reset.value } := by
  unfold RowSecurity.finish
  cases htx : (store.world.session ()).tx with
  | none => exact h
  | some tx =>
    have hsetting := reset_unscoped reset
    refine ⟨.inl ?_, fun _ => ?_⟩
    · simpa using hsetting
    · simpa using hsetting

theorem Settled.step (h : Settled c store) (hr : Foreign c sessionId r = false)
    (hstep : StoreStep b store r store') : Settled c store' := by
  cases hstep with
  | same => exact h
  | statement aborted hle => exact ⟨by simpa [World.setTx] using h.setting, fun hn => by
      simp [World.setTx] at hn⟩
  | entered htx =>
    simp only [Foreign, decide_eq_false_iff_not, not_not] at hr
    subst hr
    exact ⟨.inr (by simp [param, SqlValue.text]), fun hn => by simp at hn⟩
  | inserted hrow hadmits => exact ⟨by simpa [World.setTx] using h.setting, fun hn => by
      simp [World.setTx] at hn⟩
  | committed => exact h.finish _ _
  | rolledBack hr' => exact h.finish _ _

theorem Settled.serve (h : Settled c store) (hr : Foreign c sessionId r = false) :
    Settled c (b.serve store r).2 := by
  obtain ⟨store', hstep, hserve⟩ := serve_step b store r
  rw [hserve]
  exact ⟨(h.step hr hstep).setting, (h.step hr hstep).blank⟩

/-- The end of a transaction, whether or not it succeeds. -/
theorem serve_ends (hr : r = .commit ∨ r = .rollback) :
    ((b.serve store r).2.world.session ()).tx = none := by
  unfold DbEngine.serve
  cases b.fails store.served r with
  | some e => rcases hr with rfl | rfl <;> exact finish_tx _ _ _
  | none => rcases hr with rfl | rfl <;> exact finish_tx _ _ _

/-- Without a transaction. -/
def NoTx (store : ToolStore) : Prop := (store.world.session ()).tx = none

variable [Unicode] {sa : SqlAlchemy} {identity : Option RequestIdentity} {α : Type}

/-- A function on a scoped connection ends its transaction, however it ends itself. -/
theorem scoped_noTx (body : ScopedConnection → DbProgram F α) :
    Keeps (fun _ => b.serve) NoTx (customerScopedConnection sa identity body) := by
  unfold customerScopedConnection
  refine (Keeps.lift _).bind fun customerId => Keeps.bind ?_ fun _ => ?_
  · refine .ask (fun h s hs => ?_) fun x => .lift (id x)
    unfold DbEngine.serve
    cases b.fails s.served .connect <;> exact hs
  · refine Keeps.attempt_bind fun out h s => ?_
    cases out with
    | ok a =>
      rw [play_bind]
      have hends : NoTx (play (fun _ => b.serve) h s (commit (F := F))).state := by
        unfold commit
        rw [play_ask, play_lift]
        exact serve_ends (.inl rfl)
      cases hout : (play (fun _ => b.serve) h s (commit (F := F))).out with
      | ok _ => simpa [hout] using hends
      | error _ => simpa [hout] using hends
    | error e =>
      rw [play_bind]
      have hends : NoTx (play (fun _ => b.serve) h s (rollback (F := F))).state := by
        unfold rollback
        rw [play_ask, play_lift]
        exact serve_ends (.inr rfl)
      cases hout : (play (fun _ => b.serve) h s (rollback (F := F))).out with
      | ok _ => simpa [hout] using hends
      | error _ => simpa [hout] using hends

/-- A tool call leaves no transaction open. -/
theorem callTool_noTx [PyFloat F] {mcp : FastMcp F} {name : Str} {arguments : Json F} :
    Keeps (fun _ => b.serve) NoTx (callTool sa mcp identity name arguments) :=
  callTool_rule (C := fun p => Keeps (fun _ => b.serve) NoTx p) .lift .bind .attempt
    fun _ _ _ => scoped_noTx _

end Connection

end DealershipAgent.Server
