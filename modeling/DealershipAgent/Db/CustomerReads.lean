import DealershipAgent.Agents.State
import DealershipAgent.Db.Driver
import DealershipAgent.Db.Rls
import DealershipAgent.RowSecurity.Call

/-!
# What a customer reads

The functions that read a customer's rows: `load_conversation` (`api/conversations.py`),
`get_order_status` and `list_my_orders` (`tools/server.py`), each on a connection of the pool.

* `inScope_congr`: what a function reads in a customer's scope depends on that customer's rows and on
  the public tables only.
* `customer_isolation`: isolation over every use of the pooled connections.
-/

namespace DealershipAgent

open Py Interact RowSecurity

section Reads

variable {K : Type} [DecidableEq K] {α : Type}

/-- A connection of the pool for one call: what the other connections do before each statement, and
what the setting reads as after the call. -/
structure Checkout (K : Type) where
  connection : K
  others : Nat → List (Use K)
  reset : Reset

/-- `with engine.connect() as conn, customer_scope(conn, customer_id)` around `p`. -/
def inScope (pg : Postgres) (co : Checkout K) (w : World K (Option Str) Database Row)
    (customerId : Int) (p : Reader Database Exc α) :
    World K (Option Str) Database Row × Except (Fault Exc) α :=
  call (secured pg) co.connection (some (intRepr customerId))
    (fun i => (co.others i).map Use.action) co.reset.value w p

/-- What is committed when the call runs its `i`-th statement. -/
def committedAt (pg : Postgres) (co : Checkout K) (w : World K (Option Str) Database Row)
    (i : Nat) : Database :=
  (before (secured pg) co.connection (fun i => (co.others i).map Use.action) w (i + 1)).committed

/-! ## `load_conversation` -/

/-- The two statements: the conversation, and its messages in order. -/
def conversationRows (conversationRef : Str) :
    Reader Database Exc (Option (Int × List (Str × Str))) := do
  let conversationRef ← .lift ((bindText conversationRef).mapError Fault.raised)
  let db ← .call ()
  match (db.conversations.filter fun r => r.conversationRef = conversationRef).head? with
  | none => return none
  | some row =>
    let db ← .call ()
    let messageRows := (db.conversationMessages.filter fun r => r.conversationId = row.id).mergeSort
      fun r r' => r.id ≤ r'.id
    return some (row.id, messageRows.map fun r => (r.role, r.content))

/-- `Message(role=r.role, content=r.content)`. The text of pydantic's error is left out. -/
def rowMessage (r : Str × Str) : Except Exc Message :=
  if r.1 = str "system" then .ok ⟨.system, r.2⟩
  else if r.1 = str "user" then .ok ⟨.user, r.2⟩
  else if r.1 = str "assistant" then .ok ⟨.assistant, r.2⟩
  else .error ⟨.other "ValidationError", []⟩

/-- The id of a conversation and its messages; `none` if there is none for the customer. -/
def loadConversation (pg : Postgres) (co : Checkout K) (w : World K (Option Str) Database Row)
    (customerId : Int) (conversationRef : Str) :
    World K (Option Str) Database Row × Except (Fault Exc) (Option (Int × List Message)) :=
  let (w', out) := inScope pg co w customerId (conversationRows conversationRef)
  (w', out.bind fun
    | none => .ok none
    | some (conversationId, rows) =>
      match rows.mapM rowMessage with
      | .ok messages => .ok (some (conversationId, messages))
      | .error e => .error (.raised e))

/-! ## The tools -/

/-- The customer of `customer_scoped_connection`, which opens no connection without one. -/
def scopedCustomer (identity : Option RequestIdentity) : Except Exc Int :=
  match identity.bind RequestIdentity.customerId with
  | some customerId => .ok customerId
  | none => .error ⟨.permissionError, text [
      "No authenticated customer in the current request context - ",
      "refusing to open a customer-scoped database connection."]⟩

/-- `customer_scoped_connection` around `p`. -/
def customerScoped (pg : Postgres) (co : Checkout K) (w : World K (Option Str) Database Row)
    (identity : Option RequestIdentity) (p : Reader Database Exc α) :
    World K (Option Str) Database Row × Except (Fault Exc) α :=
  match scopedCustomer identity with
  | .ok customerId => inScope pg co w customerId p
  | .error e => (w, .error (.raised e))

/-- A row of `get_order_status`. -/
structure OrderState where
  orderRef : Str
  status : OrderStatus
  totalAmount : Int
  createdAt : Timestamp
  expectedDeliveryDate : Option Timestamp
  actualDeliveryDate : Option Timestamp
deriving DecidableEq, Repr

/-- What the statement of `get_order_status` selects. -/
def selectedOrder (orderRef : Str) (db : Database) : Option OrderState :=
  ((db.orders.filter fun r => r.orderRef = orderRef).map fun r =>
    { orderRef := r.orderRef, status := r.status, totalAmount := r.totalAmount,
      createdAt := r.createdAt, expectedDeliveryDate := r.expectedDeliveryDate,
      actualDeliveryDate := r.actualDeliveryDate }).head?

def orderState (orderRef : Str) : Reader Database Exc (Option OrderState) := do
  let orderRef ← .lift ((bindText orderRef).mapError Fault.raised)
  let db ← .call ()
  return selectedOrder orderRef db

theorem orderState_eq {orderRef : Str} (href : Storable orderRef) :
    orderState orderRef = .ask () fun db => .ret (selectedOrder orderRef db) := by
  rw [orderState, bindText_eq href]
  rfl

def getOrderStatus (pg : Postgres) (co : Checkout K) (w : World K (Option Str) Database Row)
    (identity : Option RequestIdentity) (orderRef : Str) :
    World K (Option Str) Database Row × Except (Fault Exc) (Option OrderState) :=
  customerScoped pg co w identity (orderState orderRef)

/-- An entry of `list_my_orders`. -/
structure OrderSummary where
  orderRef : Str
  status : OrderStatus
  vehicleSummary : Str
  createdAt : Timestamp
  expectedDeliveryDate : Option Timestamp
  actualDeliveryDate : Option Timestamp
deriving DecidableEq, Repr

def orderSummary (r : Order × Vehicle) : OrderSummary where
  orderRef := r.1.orderRef
  status := r.1.status
  vehicleSummary := intRepr r.2.year ++ str " " ++ r.2.make ++ str " " ++ r.2.model
  createdAt := r.1.createdAt
  expectedDeliveryDate := r.1.expectedDeliveryDate
  actualDeliveryDate := r.1.actualDeliveryDate

/-- What the statement of `list_my_orders` selects. Orders of one time stay in the table's order, where
SQL leaves theirs open. -/
def selectedOrders (pg : Postgres) (statusFilter : Option Str) (limit : Int) (db : Database) :
    Except Exc (List OrderSummary) :=
  let joined := db.orders.flatMap fun o =>
    (db.vehicles.filter fun v => v.id = o.vehicleId).map fun v => (o, v)
  let chosen := joined.filter fun r =>
    statusFilter.all fun status => decide (r.1.status.value = status)
  let sorted := chosen.mergeSort fun r r' => r'.1.createdAt ≤ r.1.createdAt
  (pg.limit limit).map fun n => (sorted.take n).map orderSummary

def orderSummaries (pg : Postgres) (statusFilter : Option Str) (limit : Int) :
    Reader Database Exc (List OrderSummary) := do
  let statusFilter ← .lift ((statusFilter.mapM bindText).mapError Fault.raised)
  let db ← .call ()
  .lift ((selectedOrders pg statusFilter limit db).mapError Fault.raised)

theorem orderSummaries_eq {pg : Postgres} {statusFilter : Option Str} {limit : Int}
    (hstatus : ∀ s ∈ statusFilter, Storable s) : orderSummaries pg statusFilter limit =
      .ask () fun db => .lift ((selectedOrders pg statusFilter limit db).mapError Fault.raised) := by
  cases statusFilter with
  | none => rfl
  | some s =>
    have hbind : Option.mapM bindText (some s) = .ok (some s) := by
      rw [Option.mapM_some, bindText_eq (hstatus s rfl)]
      rfl
    rw [orderSummaries, hbind]
    rfl

def listMyOrders (pg : Postgres) (co : Checkout K) (w : World K (Option Str) Database Row)
    (identity : Option RequestIdentity) (statusFilter : Option Str) (limit : Int) :
    World K (Option Str) Database Row × Except (Fault Exc) (List OrderSummary) :=
  customerScoped pg co w identity (orderSummaries pg statusFilter limit)

/-! ## Isolation -/

variable {pg : Postgres} {w w' : World K (Option Str) Database Row} {co co' : Checkout K} {c : Int}

/-- The databases that two calls see agree on the customer's rows and on the public tables. -/
def Agree (pg : Postgres) (c : Int) (co co' : Checkout K)
    (w w' : World K (Option Str) Database Row) : Prop :=
  ∀ i, (committedAt pg co w i).ownedBy c = (committedAt pg co' w' i).ownedBy c

/-- What a function reads in a customer's scope is a function of that customer's rows. -/
theorem inScope_congr (h : (w.session co.connection).tx = none)
    (h' : (w'.session co'.connection).tx = none) (hagree : Agree pg c co co' w w')
    (p : Reader Database Exc α) :
    (inScope pg co w c p).2 = (inScope pg co' w' c p).2 := by
  unfold inScope
  rw [call_eq h, call_eq h']
  congr 1
  funext i
  rw [visible_scope, visible_scope]
  have hi := hagree i
  unfold committedAt at hi
  rw [hi]

theorem customerScoped_congr (h : (w.session co.connection).tx = none)
    (h' : (w'.session co'.connection).tx = none) (hagree : Agree pg c co co' w w')
    (sessionId : Str) (p : Reader Database Exc α) :
    (customerScoped pg co w (some ⟨sessionId, some c⟩) p).2 =
      (customerScoped pg co' w' (some ⟨sessionId, some c⟩) p).2 :=
  inScope_congr h h' hagree p

theorem loadConversation_congr (h : (w.session co.connection).tx = none)
    (h' : (w'.session co'.connection).tx = none) (hagree : Agree pg c co co' w w') (ref : Str) :
    (loadConversation pg co w c ref).2 = (loadConversation pg co' w' c ref).2 := by
  unfold loadConversation
  simp only [inScope_congr h h' hagree]

/-- The connection is back in the pool. -/
def Pooled (uses : List (Use K)) (k : K) : Prop := placeOf k (uses.map Use.action) = .idle

theorem tx_pooled (pg : Postgres) (db : Database) {uses : List (Use K)} {k : K}
    (h : Pooled uses k) :
    ((afterUses pg db uses).session k).tx = none := by
  have hat := session_at pg db uses k
  rw [h] at hat
  exact hat.1

/-- After any uses of the pooled connections: a statement in a customer's scope sees the rows that the
customer owns and inserts none that it does not; a statement outside of scopes sees and inserts none;
and the functions that read for a customer give the same on databases that agree on its rows. -/
theorem customer_isolation (pg : Postgres) (db : Database) (uses : List (Use K)) (k : K) :
    (∀ c, InScope uses k c →
      (∀ rows, (select (secured pg) (afterUses pg db uses) k).2 = .ok rows →
        rows = (seen (secured pg) (afterUses pg db uses) k).ownedBy c) ∧
      (FitsInteger c → ((afterUses pg db uses).session k).current.aborted = false →
        (select (secured pg) (afterUses pg db uses) k).2 =
          .ok ((seen (secured pg) (afterUses pg db uses) k).ownedBy c)) ∧
      ∀ row accepted, (insert (secured pg) (afterUses pg db uses) k row accepted).2 = .ok () →
        Owns c (seen (secured pg) (insert (secured pg) (afterUses pg db uses) k row accepted).1 k)
          row) ∧
    (OutsideScopes uses k →
      (∀ rows, (select (secured pg) (afterUses pg db uses) k).2 = .ok rows →
        rows = (seen (secured pg) (afterUses pg db uses) k).publicOnly) ∧
      ∀ row accepted, (insert (secured pg) (afterUses pg db uses) k row accepted).2 ≠ .ok ()) ∧
    ∀ (db' : Database) (uses' : List (Use K)) (co co' : Checkout K) (c : Int),
      Pooled uses co.connection → Pooled uses' co'.connection →
      Agree pg c co co' (afterUses pg db uses) (afterUses pg db' uses') →
      (∀ ref, (loadConversation pg co (afterUses pg db uses) c ref).2 =
        (loadConversation pg co' (afterUses pg db' uses') c ref).2) ∧
      (∀ sessionId orderRef,
        (getOrderStatus pg co (afterUses pg db uses) (some ⟨sessionId, some c⟩) orderRef).2 =
          (getOrderStatus pg co' (afterUses pg db' uses') (some ⟨sessionId, some c⟩) orderRef).2) ∧
      ∀ sessionId statusFilter limit,
        (listMyOrders pg co (afterUses pg db uses) (some ⟨sessionId, some c⟩) statusFilter
          limit).2 =
        (listMyOrders pg co' (afterUses pg db' uses') (some ⟨sessionId, some c⟩) statusFilter
          limit).2 := by
  refine ⟨fun c h => ⟨?_, ?_, ?_⟩, fun h => ⟨?_, ?_⟩, fun db' uses' co co' c hp hp' hagree => ?_⟩
  · exact fun rows hs => select_scope h hs
  · exact select_scope_returns h
  · exact fun row accepted hs => insert_scope h hs
  · exact fun rows hs => select_outside h hs
  · exact fun row accepted => insert_outside h
  · have htx := tx_pooled pg db hp
    have htx' := tx_pooled pg db' hp'
    exact ⟨loadConversation_congr htx htx' hagree,
      fun sessionId orderRef => customerScoped_congr htx htx' hagree sessionId _,
      fun sessionId statusFilter limit => customerScoped_congr htx htx' hagree sessionId _⟩

end Reads

/-! ## Two customers on one connection -/

def integerOutOfRange (n : Int) : Exc :=
  ⟨.other "DataError", str "value \"" ++ intRepr n ++ str "\" is out of range for type integer"⟩

/-- A Postgres that reads ASCII numbers. -/
def asciiPostgres : Postgres where
  castInteger s :=
    match @pyInt asciiUnicode s with
    | some n => if FitsInteger n then .ok n else .error (integerOutOfRange n)
    | none => .error ⟨.other "DataError", str "invalid input syntax for type integer"⟩
  outOfRange := integerOutOfRange
  castInteger_repr n := by
    let _ := asciiUnicode
    simp only [pyInt_intRepr]
  limit n := if 0 ≤ n then .ok n.toNat
    else .error ⟨.other "DataError", "LIMIT must not be negative"⟩

def shopOrder (id customerId : Int) : Order :=
  { id := id, orderRef := str "ORD-" ++ intRepr id, customerId := customerId, vehicleId := 1,
    status := .pending, totalAmount := 1999900, createdAt := 0, expectedDeliveryDate := none,
    actualDeliveryDate := none }

/-- An order of customer 1 and one of customer 2, each with an entry of its history. -/
def shopDatabase : Database where
  orders := [shopOrder 10 1, shopOrder 20 2]
  orderStatusHistory := [⟨1, 10, none, .pending, 0, none⟩, ⟨2, 20, none, .pending, 0, none⟩]

/-- Customer 1's scope ends by an exception, a transaction runs without a scope, and customer 2's
scope is entered. -/
def shopUses : List (Use Unit) :=
  [.enterScope () 1, .select (), .leave () true .empty, .begin (), .select (),
    .leave () false .unset, .enterScope () 2]

theorem shop_isolated :
    (select (secured asciiPostgres) (afterUses asciiPostgres shopDatabase shopUses) ()).2 =
      .ok { orders := [shopOrder 20 2], orderStatusHistory := [⟨2, 20, none, .pending, 0, none⟩] } := by
  have hscope : InScope shopUses () 2 := by
    unfold InScope
    decide
  exact ((customer_isolation asciiPostgres shopDatabase shopUses ()).1 2 hscope).2.1 (by decide)
    (by decide)

end DealershipAgent
