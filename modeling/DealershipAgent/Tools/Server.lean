import DealershipAgent.Db.CustomerReads
import DealershipAgent.Interact.Count
import DealershipAgent.Py.Json.Dump

/-!
# The customer-scoped tools, call by call of the database

`tools/server.py`, `tools/scope.py` and `customer_scope` (`db/rls.py`), with each request that goes to
the database; any of them may fail.

* `callTool`: a tool call at the server, where an exception becomes an error result.
* `Creates`: whether the requests of a call have created an escalation record.
* `callTool_creates`: only `escalate_to_human` creates one, and it has done so when its result is no
  error.
-/

namespace DealershipAgent.Server

open Py Json Interact

/-! ## The database -/

/-- The statements of the tools. -/
inductive Statement where
  | setConfig
  | selectOrder
  | selectOrders
  | insertEscalation
deriving DecidableEq, Repr

def Statement.sql : Statement → Str
  | .setConfig => "SELECT set_config('app.customer_id', :customer_id, true)"
  | .selectOrder => text [
      "\n                SELECT order_ref, status, total_amount, created_at,",
      "\n                       expected_delivery_date, actual_delivery_date",
      "\n                FROM orders",
      "\n                WHERE order_ref = :order_ref",
      "\n                "]
  | .selectOrders => text [
      "\n                SELECT o.order_ref, o.status, o.created_at,",
      "\n                       o.expected_delivery_date, o.actual_delivery_date,",
      "\n                       v.year, v.make, v.model",
      "\n                FROM orders o",
      "\n                JOIN vehicles v ON v.id = o.vehicle_id",
      "\n                WHERE (CAST(:status_filter AS text) IS NULL",
      " OR o.status::text = :status_filter)",
      "\n                ORDER BY o.created_at DESC",
      "\n                LIMIT :limit",
      "\n                "]
  | .insertEscalation => text [
      "\n                INSERT INTO escalations (customer_id, conversation_id, summary, reason)",
      "\n                VALUES (:customer_id, :conversation_id, :summary, :reason)",
      "\n                RETURNING id, created_at",
      "\n                "]

/-- A bound parameter's value. -/
inductive SqlValue where
  | null
  | int (n : Int)
  | string (s : Str)
deriving DecidableEq, Repr

/-- Bound parameters, by their names. -/
abbrev Params : Type := List (Str × SqlValue)

section Rows

variable (F : Type)

/-- A row of `get_order_status`. -/
structure OrderStatusRow where
  orderRef : Json F
  status : Json F
  totalAmount : Json F
  createdAt : Json F
  expectedDeliveryDate : Json F
  actualDeliveryDate : Json F

/-- A row of `list_my_orders`. -/
structure OrderRow where
  orderRef : Json F
  status : Json F
  createdAt : Json F
  expectedDeliveryDate : Json F
  actualDeliveryDate : Json F
  year : Json F
  make : Json F
  model : Json F

/-- What the insertion of an escalation returns. -/
structure EscalationRow where
  id : Json F
  createdAt : Json F

/-- What is fetched of a statement's result. -/
abbrev Fetched : Statement → Type
  | .setConfig => Unit
  | .selectOrder => Option (OrderStatusRow F)
  | .selectOrders => List (OrderRow F)
  | .insertEscalation => Option (EscalationRow F)

/-- A request to the database. -/
inductive DbRequest where
  | connect
  | execute (statement : Statement) (params : Params)
  | commit
  | rollback

/-- Its answer. A statement that fails has the text of the driver's exception. -/
abbrev DbAnswer : DbRequest → Type
  | .connect => Except Exc Unit
  | .execute statement _ => Except Str (Fetched F statement)
  | .commit => Except Exc Unit
  | .rollback => Except Exc Unit

abbrev DbProgram (α : Type) : Type := Prog DbRequest (DbAnswer F) Exc α

abbrev DbTrace : Type := List (Event DbRequest (DbAnswer F))

end Rows

/-! ## SQLAlchemy and FastMCP -/

/-- What an SQLAlchemy exception says around the bound parameters of a failed statement, by the SQL and
the text of the driver's exception. -/
structure SqlAlchemy where
  lead : Str → Str → Str
  trail : Str → Str → Str

section SqlAlchemy

variable [Unicode]

def SqlValue.pyRepr : SqlValue → Str
  | .null => "None"
  | .int n => intRepr n
  | .string s => Py.reprStr s

/-- `_repr_base.trunc` of SQLAlchemy: at most 300 characters of a value. -/
def truncRepr (rep : Str) : Str :=
  if 300 < rep.length then
    rep.take 150 ++ str " ... (" ++ natRepr (rep.length - 300) ++
      str " characters truncated) ... " ++ rep.drop (rep.length - 150)
  else rep

def reprParam (param : Str × SqlValue) : Str :=
  Py.reprStr param.1 ++ str ": " ++ truncRepr param.2.pyRepr

def reprParams (params : Params) : Str :=
  str "\x7b" ++ join ", " (params.map reprParam) ++ str "\x7d"

/-- The exception of a failed statement. The engine does not hide the parameters. -/
def SqlAlchemy.statementError (sa : SqlAlchemy) (statement : Statement) (params : Params)
    (driver : Str) : Exc :=
  ⟨.other "DBAPIError", sa.lead statement.sql driver ++ str "[parameters: " ++ reprParams params ++
    str "]" ++ sa.trail statement.sql driver⟩

end SqlAlchemy

/-- What FastMCP does around a tool: it reads the arguments by the tool's signature, and makes a
result or an error result. -/
structure FastMcp (F : Type) where
  orderStatusArguments : Json F → Except Exc Str
  listOrdersArguments : Json F → Except Exc (Option Str × Int)
  escalateArguments : Json F → Except Exc (Str × Str)
  /-- What an error result says before the text of the exception. -/
  errorLead : Str → Str
  content : List (Str × Json F) → List (Option Str)
  /-- The tools on public data. -/
  publicTool : Str → Json F → CallToolResult F

/-! ## The tools -/

section Tools

variable {F : Type} [PyFloat F] [Unicode] {α : Type} (sa : SqlAlchemy) (mcp : FastMcp F)
  (identity : Option RequestIdentity)

omit [PyFloat F] [Unicode] in
def connect : DbProgram F Unit := .ask .connect .lift

omit [PyFloat F] [Unicode] in
def commit : DbProgram F Unit := .ask .commit .lift

omit [PyFloat F] [Unicode] in
def rollback : DbProgram F Unit := .ask .rollback .lift

def execute (statement : Statement) (params : Params) : DbProgram F (Fetched F statement) :=
  .ask (.execute statement params) fun x : Except Str (Fetched F statement) =>
    .lift (x.mapError (sa.statementError statement params))

/-- `customer_scope`: a transaction with the setting. It is rolled back when the body raises; a
rollback that fails raises in place of that. -/
def customerScope (customerId : Int) (body : DbProgram F α) : DbProgram F α := do
  let out ← (execute sa .setConfig [("customer_id", .string (intRepr customerId))] >>=
    fun _ => body).attempt
  match out with
  | .ok a =>
    commit
    return a
  | .error e =>
    rollback
    .raise e

structure ScopedConnection where
  customerId : Int
  sessionId : Str

def customerScopedConnection (body : ScopedConnection → DbProgram F α) : DbProgram F α := do
  let customerId ← .lift (scopedCustomer identity)
  connect
  customerScope sa customerId (body ⟨customerId, (identity.map (·.sessionId)).getD []⟩)

omit [PyFloat F] [Unicode] in
/-- `dict(row._mapping)` -/
def OrderStatusRow.mapping (row : OrderStatusRow F) : Json F :=
  .object [("order_ref", row.orderRef), ("status", row.status), ("total_amount", row.totalAmount),
    ("created_at", row.createdAt), ("expected_delivery_date", row.expectedDeliveryDate),
    ("actual_delivery_date", row.actualDeliveryDate)]

def getOrderStatus (orderRef : Str) : DbProgram F (Json F) := do
  let row ← customerScopedConnection sa identity fun _ =>
    execute sa .selectOrder [("order_ref", .string orderRef)]
  return match row with
  | some row => row.mapping
  | none => .null

/-- An entry of `list_my_orders`. -/
def OrderRow.summary (row : OrderRow F) : Json F :=
  .object [("order_ref", row.orderRef), ("status", row.status),
    ("vehicle_summary", .string (row.year.pyStr ++ str " " ++ row.make.pyStr ++ str " " ++
      row.model.pyStr)),
    ("created_at", row.createdAt), ("expected_delivery_date", row.expectedDeliveryDate),
    ("actual_delivery_date", row.actualDeliveryDate)]

def listMyOrders (statusFilter : Option Str) (limit : Int) : DbProgram F (Json F) := do
  let rows ← customerScopedConnection sa identity fun _ =>
    execute sa .selectOrders [("status_filter", (statusFilter.map SqlValue.string).getD .null),
      ("limit", .int limit)]
  return .array (rows.map OrderRow.summary)

def escalateToHuman (summary reason : Str) : DbProgram F (List (Str × Json F)) := do
  let row ← customerScopedConnection sa identity fun connection =>
    execute sa .insertEscalation [("customer_id", .int connection.customerId),
      ("conversation_id", .string connection.sessionId), ("summary", .string summary),
      ("reason", .string reason)]
  match row with
  | some row => return [("id", row.id), ("created_at", row.createdAt), ("status", .string "escalated")]
  | none => .raise ⟨.other "AssertionError", []⟩

/-! ## A call at the server -/

/-- The structured content of a result. FastMCP wraps what is no plain `dict`. -/
def runTool (name : Str) (arguments : Json F) : Option (DbProgram F (List (Str × Json F))) :=
  if name = str "get_order_status" then some do
    let orderRef ← .lift (mcp.orderStatusArguments arguments)
    let result ← getOrderStatus sa identity orderRef
    return [("result", result)]
  else if name = str "list_my_orders" then some do
    let (statusFilter, limit) ← .lift (mcp.listOrdersArguments arguments)
    let result ← listMyOrders sa identity statusFilter limit
    return [("result", result)]
  else if name = str "escalate_to_human" then some do
    let (summary, reason) ← .lift (mcp.escalateArguments arguments)
    escalateToHuman sa identity summary reason
  else none

omit [PyFloat F] [Unicode] in
/-- The result of a tool, or the error result of its exception. -/
def toolResult (name : Str) : Except Exc (List (Str × Json F)) → CallToolResult F
  | .ok structured => { content := mcp.content structured, structuredContent := some structured }
  | .error e => { isError := true, content := [some (mcp.errorLead name ++ e.text)] }

def callTool (name : Str) (arguments : Json F) : DbProgram F (CallToolResult F) :=
  match runTool sa mcp identity name arguments with
  | some tool => do
    let out ← tool.attempt
    return toolResult mcp name out
  | none => return mcp.publicTool name arguments

end Tools

/-! ## The runs -/

section Runs

variable {F : Type} {α : Type} {tr : DbTrace F}

theorem runs_connect {out : Except Exc Unit} :
    Runs (connect (F := F)) tr out ↔ tr = [⟨.connect, out⟩] := by
  rw [connect, runs_ask]
  simp

theorem runs_commit {out : Except Exc Unit} :
    Runs (commit (F := F)) tr out ↔ tr = [⟨.commit, out⟩] := by
  rw [commit, runs_ask]
  simp

theorem runs_rollback {out : Except Exc Unit} :
    Runs (rollback (F := F)) tr out ↔ tr = [⟨.rollback, out⟩] := by
  rw [rollback, runs_ask]
  simp

variable [Unicode] {sa : SqlAlchemy} {identity : Option RequestIdentity}

theorem runs_execute {statement : Statement} {params : Params}
    {out : Except Exc (Fetched F statement)} :
    Runs (execute sa statement params) tr out ↔ ∃ x : Except Str (Fetched F statement),
      tr = [⟨.execute statement params, x⟩] ∧
        out = x.mapError (sa.statementError statement params) :=
  runs_ask_lift

/-- The statements of a function on a connection of this customer. -/
def scopedStatements (sa : SqlAlchemy) (identity : Option RequestIdentity)
    (body : ScopedConnection → DbProgram F α) (customerId : Int) : DbProgram F α :=
  execute sa .setConfig [("customer_id", .string (intRepr customerId))] >>= fun _ =>
    body ⟨customerId, (identity.map (·.sessionId)).getD []⟩

/-- The runs of a function on a scoped connection. -/
inductive ScopedRun (sa : SqlAlchemy) (identity : Option RequestIdentity)
    (body : ScopedConnection → DbProgram F α) : DbTrace F → Except Exc α → Prop
  | refused {e : Exc} : scopedCustomer identity = .error e → ScopedRun sa identity body [] (.error e)
  | notConnected {customerId : Int} {e : Exc} : scopedCustomer identity = .ok customerId →
      ScopedRun sa identity body [⟨.connect, .error e⟩] (.error e)
  | returned {customerId : Int} {t : DbTrace F} {a : α} (x : Except Exc Unit) :
      scopedCustomer identity = .ok customerId →
      Runs (scopedStatements sa identity body customerId) t (.ok a) →
      ScopedRun sa identity body (⟨.connect, .ok ()⟩ :: (t ++ [⟨.commit, x⟩])) (x.map fun _ => a)
  | raised {customerId : Int} {t : DbTrace F} {e : Exc} (x : Except Exc Unit) :
      scopedCustomer identity = .ok customerId →
      Runs (scopedStatements sa identity body customerId) t (.error e) →
      ScopedRun sa identity body (⟨.connect, .ok ()⟩ :: (t ++ [⟨.rollback, x⟩]))
        (x.bind fun _ => .error e)

theorem runs_customerScopedConnection {body : ScopedConnection → DbProgram F α}
    {out : Except Exc α} (h : Runs (customerScopedConnection sa identity body) tr out) :
    ScopedRun sa identity body tr out := by
  unfold customerScopedConnection at h
  rcases runs_bind.mp h with ⟨customerId, t₁, t₂, rfl, h₁, h₂⟩ | ⟨e, h₁, rfl⟩
  · obtain ⟨rfl, hc⟩ := runs_lift.mp h₁
    rcases runs_bind.mp h₂ with ⟨⟨⟩, t₃, t₄, rfl, h₃, h₄⟩ | ⟨e, h₃, rfl⟩
    · obtain rfl := runs_connect.mp h₃
      rcases runs_bind.mp h₄ with ⟨o, t₅, t₆, rfl, h₅, h₆⟩ | ⟨e, h₅, -⟩
      · obtain ⟨o', hrun, ho⟩ := runs_attempt.mp h₅
        cases ho
        cases o with
        | ok a =>
          rcases runs_bind.mp h₆ with ⟨⟨⟩, t₇, t₈, rfl, h₇, h₈⟩ | ⟨e, h₇, rfl⟩
          · obtain rfl := runs_commit.mp h₇
            obtain ⟨rfl, rfl⟩ := runs_ret.mp h₈
            exact .returned (.ok ()) hc.symm hrun
          · obtain rfl := runs_commit.mp h₇
            exact .returned (.error e) hc.symm hrun
        | error e =>
          rcases runs_bind.mp h₆ with ⟨⟨⟩, t₇, t₈, rfl, h₇, h₈⟩ | ⟨e', h₇, rfl⟩
          · obtain rfl := runs_rollback.mp h₇
            obtain ⟨rfl, rfl⟩ := runs_raise.mp h₈
            exact .raised (.ok ()) hc.symm hrun
          · obtain rfl := runs_rollback.mp h₇
            exact .raised (.error e') hc.symm hrun
      · obtain ⟨o', -, ho⟩ := runs_attempt.mp h₅
        cases ho
    · obtain rfl := runs_connect.mp h₃
      exact .notConnected hc.symm
  · obtain ⟨rfl, he⟩ := runs_lift.mp h₁
    exact .refused he.symm

/-! ## Which calls create an escalation record -/

/-- The request is an insertion into `escalations`. -/
def isInsertion : DbRequest → Bool
  | .execute .insertEscalation _ => true
  | _ => false

omit [Unicode] in
/-- The event has inserted a row into `escalations`. -/
def Inserts : Event DbRequest (DbAnswer F) → Prop
  | ⟨.execute .insertEscalation _, .ok (some _)⟩ => True
  | _ => False

omit [Unicode] in
/-- Whether a record was created: its row was inserted and the transaction committed. Where the commit
itself fails, the database may have kept the row or not. -/
structure Creates (tr : DbTrace F) (created : Bool) : Prop where
  inserted : created = true → ∃ ev ∈ tr, Inserts ev
  committed : created = true → ∃ x : Except Exc Unit, ⟨.commit, x⟩ ∈ tr
  kept : (∃ ev ∈ tr, Inserts ev) → ⟨.commit, .ok ()⟩ ∈ tr → created = true

omit [Unicode] in
/-- Whatever the database has done, a record was created or not. -/
theorem Creates.exists (tr : DbTrace F) : ∃ created, Creates tr created := by
  by_cases h : (∃ ev ∈ tr, Inserts ev) ∧ ⟨.commit, .ok ()⟩ ∈ tr
  · exact ⟨true, fun _ => h.1, fun _ => ⟨_, h.2⟩, fun _ _ => rfl⟩
  · exact ⟨false, fun hf => (by cases hf), fun hf => (by cases hf),
      fun hi hc => absurd ⟨hi, hc⟩ h⟩

omit [Unicode] in
/-- Without an insertion nothing is created. -/
theorem Creates.eq_false {created : Bool} (h : Creates tr created)
    (hno : ∀ ev ∈ tr, isInsertion ev.req = false) : created = false := by
  by_contra hc
  obtain ⟨ev, hev, hi⟩ := h.inserted (by simpa using hc)
  have hreq := hno ev hev
  unfold Inserts at hi
  split at hi
  · cases hreq
  · exact hi

theorem execute_inserts {statement : Statement} (params : Params)
    (hs : statement ≠ .insertEscalation) :
    AtMost isInsertion 0 (execute (F := F) sa statement params) := by
  unfold execute
  refine .skip ?_ ?_
  · cases statement with
    | insertEscalation => exact absurd rfl hs
    | _ => rfl
  · intro x
    exact .lift _

/-- Around a body that does not insert an escalation there is no insertion. -/
theorem scoped_inserts {body : ScopedConnection → DbProgram F α}
    (hbody : ∀ connection, AtMost isInsertion 0 (body connection)) :
    AtMost isInsertion 0 (customerScopedConnection sa identity body) := by
  have hconnect : AtMost isInsertion 0 (connect (F := F)) := .skip rfl fun x => .lift (id x)
  have hcommit : AtMost isInsertion 0 (commit (F := F)) := .skip rfl fun x => .lift (id x)
  have hrollback : AtMost isInsertion 0 (rollback (F := F)) := .skip rfl fun x => .lift (id x)
  refine (AtMost.lift _).bind_left fun customerId => hconnect.bind_left fun _ => ?_
  refine (((execute_inserts _ (by simp)).bind_left fun _ => hbody _).attempt).bind_left fun out => ?_
  cases out with
  | ok a => exact hcommit.bind_left fun _ => .ret a
  | error e => exact hrollback.bind_left fun _ => .raise e

/-- A handoff that returns has inserted its row and committed it. -/
theorem escalateToHuman_returns {summary reason : Str} {structured : List (Str × Json F)}
    (h : Runs (escalateToHuman sa identity summary reason) tr (.ok structured)) :
    (∃ ev ∈ tr, Inserts ev) ∧ ⟨.commit, .ok ()⟩ ∈ tr ∧ ∃ row : EscalationRow F,
      structured = [(str "id", row.id), (str "created_at", row.createdAt),
        (str "status", .string "escalated")] := by
  unfold escalateToHuman at h
  obtain ⟨row, t₁, t₂, rfl, h₁, h₂⟩ := runs_bind_ok.mp h
  cases row with
  | none =>
    obtain ⟨-, ho⟩ := runs_raise.mp h₂
    cases ho
  | some row =>
    obtain ⟨rfl, ho⟩ := runs_ret.mp h₂
    cases ho
    generalize hout : (Except.ok (some row) : Except Exc (Option (EscalationRow F))) = out at h₁
    cases runs_customerScopedConnection h₁ with
    | refused he => cases hout
    | notConnected hc => cases hout
    | @returned customerId t a x hc hrun =>
      cases x with
      | error e => cases hout
      | ok y =>
        cases hout
        obtain ⟨a, t₃, t₄, rfl, -, h₄⟩ := runs_bind_ok.mp hrun
        obtain ⟨x, rfl, hx⟩ := runs_execute.mp h₄
        cases x with
        | error e => cases hx
        | ok y =>
          cases hx
          refine ⟨⟨_, List.mem_cons_of_mem _ (List.mem_append_left _ (List.mem_append_left _
            (List.mem_append_right _ List.mem_cons_self))), trivial⟩, ?_, row, rfl⟩
          cases y
          simp
    | raised x hc hrun => cases x <;> cases hout

section CallTool

variable [PyFloat F] {mcp : FastMcp F} {name : Str} {arguments : Json F} {created : Bool}
  {result : CallToolResult F}

/-- The other tools insert no escalation. -/
theorem callTool_inserts (hname : name ≠ str "escalate_to_human") :
    AtMost isInsertion 0 (callTool sa mcp identity name arguments) := by
  unfold callTool runTool
  rw [if_neg hname]
  by_cases ho : name = str "get_order_status"
  · rw [if_pos ho]
    refine (AtMost.attempt ?_).bind_left fun out => .ret _
    refine (AtMost.lift _).bind_left fun orderRef => AtMost.bind_left ?_ fun result => .ret _
    exact (scoped_inserts fun _ => execute_inserts _ (by simp)).bind_left fun row => .ret _
  · rw [if_neg ho]
    by_cases hl : name = str "list_my_orders"
    · rw [if_pos hl]
      refine (AtMost.attempt ?_).bind_left fun out => .ret _
      refine (AtMost.lift _).bind_left fun arguments => AtMost.bind_left ?_ fun result => .ret _
      exact (scoped_inserts fun _ => execute_inserts _ (by simp)).bind_left fun rows => .ret _
    · rw [if_neg hl]
      exact .ret _

/-- Only `escalate_to_human` creates a record, and it has done so when its result is no error. -/
theorem callTool_creates (h : Runs (callTool sa mcp identity name arguments) tr (.ok result))
    (hc : Creates tr created) :
    (name ≠ str "escalate_to_human" → created = false) ∧
    (name = str "escalate_to_human" → result.isError = false → created = true ∧
      ∃ row : EscalationRow F, result.structuredContent = some [(str "id", row.id),
        (str "created_at", row.createdAt), (str "status", .string "escalated")]) := by
  refine ⟨fun hname => hc.eq_false ((callTool_inserts hname).none h.begins), fun hname hok => ?_⟩
  unfold callTool runTool at h
  have h₁ : str "escalate_to_human" ≠ str "get_order_status" := by decide
  have h₂ : str "escalate_to_human" ≠ str "list_my_orders" := by decide
  rw [hname, if_neg h₁, if_neg h₂, if_pos rfl] at h
  obtain ⟨o, t₁, t₂, rfl, hrun, hret⟩ := runs_bind_ok.mp h
  obtain ⟨out, hrun, ho⟩ := runs_attempt.mp hrun
  cases ho
  obtain ⟨rfl, hr⟩ := runs_ret.mp hret
  cases hr
  rw [List.append_nil] at hc
  cases o with
  | error e => cases hok
  | ok structured =>
    obtain ⟨⟨summary, reason⟩, t₃, t₄, rfl, h₃, h₄⟩ := runs_bind_ok.mp hrun
    obtain ⟨rfl, -⟩ := runs_lift.mp h₃
    obtain ⟨hinserts, hcommit, row, hrow⟩ := escalateToHuman_returns h₄
    exact ⟨hc.kept hinserts hcommit, row, congrArg some hrow⟩

end CallTool

end Runs

end DealershipAgent.Server
