import DealershipAgent.Tools.Store

/-!
# What a tool call comes to

A tool call on a connection that is back in the pool, over the database of `Store`.

* `TimePasses`: what may happen between two requests of the call.
* `scoped_serves`: one statement on a scoped connection. It is done in a transaction of the customer
  that is committed, or nothing has changed.
* `getOrderStatus_serves`, `listMyOrders_serves`: what these tools return is what the functions of
  `CustomerReads` read.
* `callTool_end`: a tool call returns what the customer reads, or the escalation that it has committed,
  or it fails.
-/

namespace DealershipAgent.Server

open Py Json Interact RowSecurity

/-- Between two requests of a call there may be requests of others: the sequence and the count of
requests go on. -/
def TimePasses (store store' : ToolStore) : Prop := store'.world = store.world

theorem timePasses_refl (store : ToolStore) : TimePasses store store := rfl

section Requests

variable {F : Type} {b : DbEngine F} {store : ToolStore}

/-! ## Requests that succeed -/

theorem serve_connect_ok (h : (b.serve store .connect).1 = .ok ()) :
    (b.serve store .connect).2.world = store.world := by
  unfold DbEngine.serve at h ⊢
  cases hf : b.fails store.served .connect with
  | some e =>
    rw [hf] at h
    cases h
  | none => rfl

theorem serve_execute_ok {statement : Statement} {params : Params} {a : Fetched F statement}
    (h : (b.serve store (.execute statement params)).1 = .ok a) :
    (∃ values, bindParams params = .ok values) ∧ (b.execute store statement params).1 = .ok a ∧
      (b.serve store (.execute statement params)).2 =
        { (b.execute store statement params).2 with served := store.served + 1 } := by
  unfold DbEngine.serve at h ⊢
  cases hf : b.fails store.served (.execute statement params) with
  | some e =>
    rw [hf] at h
    cases h
  | none =>
    rw [hf] at h
    simp only [DbEngine.answer] at h ⊢
    rcases send_cases b store statement params with ⟨hbind, hsend⟩ | ⟨e, -, hsend⟩
    · rw [hsend] at h ⊢
      exact ⟨hbind, h, rfl⟩
    · rw [hsend] at h
      cases h

variable (b store) in
/-- The transaction is committed, also where the commit fails after all; or it is rolled back. -/
theorem serve_commit : ∃ commit, (b.serve store .commit).2.world =
      finish (secured b.pg) store.world () commit (b.reset store.served).value ∧
    ((b.serve store .commit).1 = .ok () → commit = true) := by
  unfold DbEngine.serve
  cases b.fails store.served .commit with
  | some e => exact ⟨b.landed store.served, rfl, nofun⟩
  | none => exact ⟨true, rfl, fun _ => rfl⟩

/-! ## Requests that change nothing that is committed -/

theorem finish_false (w : World Unit (Option Str) Database Row) (after : Option Str) :
    (finish (secured b.pg) w () false after).committed = w.committed := by
  unfold finish
  cases (w.session ()).tx with
  | none => rfl
  | some tx => rfl

theorem serve_committed {r : DbRequest} (hr : r ≠ .commit) :
    (b.serve store r).2.world.committed = store.world.committed := by
  obtain ⟨store', hstep, hserve⟩ := serve_step b store r
  rw [hserve]
  cases hstep with
  | committed => exact absurd rfl hr
  | rolledBack h => exact finish_false _ _
  | _ => rfl

end Requests

/-! ## One statement on a scoped connection -/

section Scoped

variable {F : Type} {b : DbEngine F} {store store' : ToolStore} [Unicode] {sa : SqlAlchemy}
  {identity : Option RequestIdentity} {statement : Statement} {params : ScopedConnection → Params}

theorem serves_execute {store₁ : ToolStore} {given : Params} {out : Except Exc (Fetched F statement)} :
    Serves TimePasses b.serve (Server.execute sa statement given) store out store₁ ↔
      ∃ store₀, TimePasses store store₀ ∧
        out = (b.serve store₀ (.execute statement given)).1.mapError
          (sa.statementError statement given) ∧
        store₁ = (b.serve store₀ (.execute statement given)).2 := serves_ask_lift

/-- The store in a transaction of the customer. -/
def ToolStore.scope (store : ToolStore) (c : Int) : ToolStore :=
  { store with world := store.world.put () ⟨some (intRepr c), some {}⟩ }

omit [Unicode] in
/-- The first statement of a transaction of the customer, on an idle connection. -/
theorem setConfig_scope (hidle : store.Idle) (c : Int) :
    (b.execute store .setConfig [("customer_id", .string (intRepr c))]).2 = store.scope c := by
  have hparam : (param [("customer_id", .string (intRepr c))] "customer_id").text =
      some (intRepr c) := by simp [param, SqlValue.text]
  simp only [DbEngine.execute, hparam]
  rcases enter_tx (ε := Exc) store.world () (some (intRepr c)) with ⟨-, henter⟩ | henter
  · simp only [henter]
    rfl
  · unfold enter begin at henter
    rw [hidle.tx] at henter
    cases henter

/-- The two statements of the transaction commit nothing. Where they succeed, the second is in a
transaction of the customer. -/
theorem statements_serve (hidle : store.Idle) {c : Int} {given : Params} {store₁ : ToolStore}
    (hworld : TimePasses store store₁) {out : Except Exc (Fetched F statement)}
    (h : Serves TimePasses b.serve
      (Server.execute sa .setConfig [("customer_id", .string (intRepr c))] >>=
        fun _ => Server.execute sa statement given) store₁ out store') :
    store'.world.committed = store.world.committed ∧ ∀ a, out = .ok a → ∃ store₀,
      TimePasses store store₀ ∧ (∃ values, bindParams given = .ok values) ∧
        (b.execute (store₀.scope c) statement given).1 = .ok a ∧
        store'.world = (b.execute (store₀.scope c) statement given).2.world := by
  rcases serves_bind.mp h with ⟨⟨⟩, s₁, hset, hstatement⟩ | ⟨e, hset, rfl⟩
  · obtain ⟨s₀, hs₀, hsetOut, rfl⟩ := serves_execute.mp hset
    obtain ⟨s₂, hs₂, rfl, rfl⟩ := serves_execute.mp hstatement
    have hworld₀ : s₀.world = store.world := hs₀.trans hworld
    have hidle₀ : s₀.Idle := ⟨hworld₀ ▸ hidle.tx, hworld₀ ▸ hidle.setting⟩
    obtain ⟨-, -, hscope⟩ := serve_execute_ok (mapError_eq_ok.mp hsetOut.symm)
    rw [setConfig_scope hidle₀] at hscope
    have hs₂world : s₂.world = (s₀.scope c).world := hs₂.trans (by rw [hscope])
    refine ⟨?_, fun a ha => ?_⟩
    · rw [serve_committed (by simp), hs₂world, ← hworld₀]
      rfl
    · obtain ⟨hbind, hgives, hstore⟩ := serve_execute_ok (mapError_eq_ok.mp ha)
      have hs₂scope : s₂ = ToolStore.scope { s₂ with world := store.world } c := by
        have : s₂ = { s₂ with world := (s₀.scope c).world } := by rw [← hs₂world]
        rw [this]
        simp only [ToolStore.scope, hworld₀]
      refine ⟨{ s₂ with world := store.world }, rfl, hbind, hs₂scope ▸ hgives, ?_⟩
      rw [hstore, ← hs₂scope]
  · obtain ⟨s₀, hs₀, -, rfl⟩ := serves_execute.mp hset
    refine ⟨?_, nofun⟩
    rw [serve_committed (by simp), hs₀, hworld]

variable (b sa identity statement params store) in
/-- What a statement on a scoped connection comes to: its result, and the database after it. -/
inductive ScopedEnd : Except Exc (Fetched F statement) → World Unit (Option Str) Database Row → Prop
  /-- It was done in a transaction of the customer, which is committed. -/
  | committed {out : Except Exc (Fetched F statement)} {c : Int} {store₀ : ToolStore}
      {a : Fetched F statement} {world : World Unit (Option Str) Database Row}
      (after : Option Str) : scopedCustomer identity = .ok c → TimePasses store store₀ →
      (∃ values, bindParams (params ⟨c, sessionOf identity⟩) = .ok values) →
      (b.execute (store₀.scope c) statement (params ⟨c, sessionOf identity⟩)).1 = .ok a →
      (∀ a', out = .ok a' → a' = a) →
      world = finish (secured b.pg) (b.execute (store₀.scope c) statement
        (params ⟨c, sessionOf identity⟩)).2.world () true after →
      ScopedEnd out world
  /-- It raised, and nothing has changed. -/
  | undone {e : Exc} {world : World Unit (Option Str) Database Row} :
      world.committed = store.world.committed → ScopedEnd (.error e) world

theorem scoped_serves (hidle : store.Idle) {out : Except Exc (Fetched F statement)}
    (h : Serves TimePasses b.serve (customerScopedConnection sa identity fun connection =>
      Server.execute sa statement (params connection)) store out store') :
    ScopedEnd b store identity statement params out store'.world := by
  unfold customerScopedConnection customerScope at h
  rcases serves_bind.mp h with ⟨c, s₀, hc, h₁⟩ | ⟨e, hrefused, rfl⟩
  · obtain ⟨hcustomer, rfl⟩ := serves_lift.mp hc
    rcases serves_bind.mp h₁ with ⟨⟨⟩, s₁, hconnect, h₂⟩ | ⟨e, hconnect, rfl⟩
    · obtain ⟨s₀, hs₀, hconnected, rfl⟩ := serves_ask_lift.mp hconnect
      have hworld : TimePasses s₀ (b.serve s₀ .connect).2 := serve_connect_ok hconnected.symm
      rcases serves_bind.mp h₂ with ⟨o, s₂, hbody, h₃⟩ | ⟨e, hbody, -⟩
      · obtain ⟨o, hstatements, hout⟩ := serves_attempt.mp hbody
        obtain rfl := Except.ok.inj hout
        obtain ⟨hcommitted, hgives⟩ := statements_serve hidle (hworld.trans hs₀) hstatements
        cases o with
        | ok a =>
          obtain ⟨store₀, hstore₀, hbind, hgives, hworld₂⟩ := hgives a rfl
          rcases serves_bind.mp h₃ with ⟨⟨⟩, s₃, hcommit, hret⟩ | ⟨e, hcommit, rfl⟩
          · obtain ⟨s₄, hs₄, hcommitOk, rfl⟩ := serves_ask_lift.mp hcommit
            obtain ⟨rfl, rfl⟩ := serves_ret.mp hret
            obtain ⟨commit, hend, hok⟩ := serve_commit b s₄
            obtain rfl := hok hcommitOk.symm
            rw [hs₄, hworld₂] at hend
            exact .committed _ hcustomer.symm hstore₀ hbind hgives
              (fun a' ha => (Except.ok.inj ha).symm) hend
          · obtain ⟨s₄, hs₄, -, rfl⟩ := serves_ask_lift.mp hcommit
            obtain ⟨commit, hend, -⟩ := serve_commit b s₄
            rw [hs₄, hworld₂] at hend
            cases commit with
            | true => exact .committed _ hcustomer.symm hstore₀ hbind hgives nofun hend
            | false => exact .undone (by rw [hend, finish_false, ← hworld₂, hcommitted])
        | error e =>
          rcases serves_bind.mp h₃ with ⟨⟨⟩, s₃, hrollback, hraise⟩ | ⟨e', hrollback, rfl⟩
          · obtain ⟨s₄, hs₄, -, rfl⟩ := serves_ask_lift.mp hrollback
            obtain ⟨rfl, rfl⟩ := serves_raise.mp hraise
            exact .undone (by rw [serve_committed (by simp), hs₄, hcommitted])
          · obtain ⟨s₄, hs₄, -, rfl⟩ := serves_ask_lift.mp hrollback
            exact .undone (by rw [serve_committed (by simp), hs₄, hcommitted])
      · obtain ⟨o, -, ⟨⟩⟩ := serves_attempt.mp hbody
    · obtain ⟨s₀, hs₀, -, rfl⟩ := serves_ask_lift.mp hconnect
      exact .undone (by rw [serve_committed (by simp), hs₀])
  · obtain ⟨-, rfl⟩ := serves_lift.mp hrefused
    exact .undone rfl

end Scoped

/-! ## The statements in a scope -/

section Statements

variable {F : Type} {b : DbEngine F} {store : ToolStore} {c : Int}

theorem seen_scope : seen (secured b.pg) (store.scope c).world () = store.world.committed := by
  simp [seen, ToolStore.scope, Session.current, World.put]

/-- What a statement reads of the customer's rows; its transaction has nothing to commit. -/
theorem read_scope {α : Type} {fetch : Database → Except Exc α} {a : α}
    (h : (b.read (store.scope c) fetch).1 = .ok a) :
    FitsInteger c ∧ fetch (store.world.committed.ownedBy c) = .ok a ∧ ∀ after,
      (finish (secured b.pg) (b.read (store.scope c) fetch).2.world () true after).committed =
        store.world.committed := by
  have hsession : (store.scope c).world.session () = ⟨some (intRepr c), some {}⟩ :=
    put_session_self _ _ _
  have hselect : (select (secured b.pg) (store.scope c).world ()).2 = _ :=
    select_eq (by rw [hsession]; rfl)
  rw [hsession, seen_scope, visible_scope] at hselect
  obtain ⟨aborted, hw⟩ := select_tx (secured b.pg) (store.scope c).world ()
  unfold DbEngine.read at h ⊢
  simp only [hselect, hw] at h ⊢
  by_cases hc : FitsInteger c
  · rw [if_pos hc] at h ⊢
    cases hfetch : fetch (store.world.committed.ownedBy c) with
    | ok a' =>
      simp only [Except.mapError, Except.bind, hfetch] at h ⊢
      cases h
      refine ⟨hc, rfl, fun after => ?_⟩
      cases aborted <;> simp [finish, World.setTx, ToolStore.scope, World.put, Session.current]
    | error e =>
      simp only [Except.mapError, Except.bind, hfetch] at h
      cases h
  · rw [if_neg hc] at h
    cases h

/-- The insertion of an escalation: what it returns is of the row that is committed. -/
theorem insertEscalation_scope {params : Params} {row : Option (EscalationRow F)}
    (h : (b.insertEscalation (store.scope c) params).1 = .ok row) : ∃ e,
    row = some ⟨.int e.id, b.timestamp e.createdAt⟩ ∧ ∀ after,
      (finish (secured b.pg) (b.insertEscalation (store.scope c) params).2.world () true
        after).committed = store.world.committed.insert (.escalation e) := by
  simp only [DbEngine.insertEscalation] at h ⊢
  generalize hrow : escalationRow params _ _ = e at h ⊢
  generalize (allowsEscalation (seen (secured b.pg) (store.scope c).world ()) e &&
    b.accepts e) = accepted at h ⊢
  rcases insert_tx (secured b.pg) (store.scope c).world () (.escalation e) accepted with
    ⟨hout, -, -, -, hw⟩ | ⟨⟨fault, hout⟩, -⟩
  · simp only [hout, hw] at h ⊢
    refine ⟨e, (Except.ok.inj h).symm, fun after => ?_⟩
    simp [finish, World.setTx, ToolStore.scope, World.put, Session.current, secured]
  · simp only [hout] at h
    cases h

end Statements

/-! ## The tools -/

section Tools

variable {F : Type} [PyFloat F] [Unicode] {b : DbEngine F} {store store' : ToolStore}
  {sa : SqlAlchemy} {mcp : FastMcp F} {identity : Option RequestIdentity}

/-- The order of `get_order_status` as JSON. -/
def DbEngine.orderJson (b : DbEngine F) (r : OrderState) : Json F :=
  .object [("order_ref", .string r.orderRef), ("status", .string r.status.value),
    ("total_amount", b.amount r.totalAmount), ("created_at", b.timestamp r.createdAt),
    ("expected_delivery_date", b.date r.expectedDeliveryDate),
    ("actual_delivery_date", b.date r.actualDeliveryDate)]

/-- An entry of `list_my_orders` as JSON. -/
def DbEngine.summaryJson (b : DbEngine F) (r : OrderSummary) : Json F :=
  .object [("order_ref", .string r.orderRef), ("status", .string r.status.value),
    ("vehicle_summary", .string r.vehicleSummary), ("created_at", b.timestamp r.createdAt),
    ("expected_delivery_date", b.date r.expectedDeliveryDate),
    ("actual_delivery_date", b.date r.actualDeliveryDate)]

/-- A connection that nobody disturbs. -/
def undisturbed (reset : Reset) : Checkout Unit := ⟨(), fun _ => [], reset⟩

omit [PyFloat F] [Unicode] in
/-- What a function of one statement reads on an idle connection. -/
theorem customerScoped_ask {α : Type} (hidle : store.Idle) {c : Int}
    (hc : scopedCustomer identity = .ok c) (hfits : FitsInteger c) (reset : Reset)
    (f : Database → Reader Database Exc α) {a : α}
    (hf : ∀ views i, answers views i (f (store.world.committed.ownedBy c)) = .ok a) :
    (customerScoped b.pg (undisturbed reset) store.world identity (.ask () f)).2 = .ok a := by
  unfold customerScoped inScope
  rw [hc]
  change (call _ _ _ _ _ _ _).2 = _
  rw [call_eq hidle.tx]
  have hview : (secured b.pg).visible (some (intRepr c)) store.world.committed =
      .ok (store.world.committed.ownedBy c) := by rw [visible_scope, if_pos hfits]
  have hbefore : ∀ i, before (secured b.pg) () (fun _ => []) store.world i = store.world := before_nil
  simp only [answers, undisturbed, List.map_nil, hbefore, hview, hf]

omit [PyFloat F] in
/-- A function of one statement that reads changes nothing, and returns what it reads of the customer's
rows. -/
theorem scoped_read (hidle : store.Idle) {statement : Statement} {given : Params}
    {fetch : Database → Except Exc (Fetched F statement)} {out : Except Exc (Fetched F statement)}
    (hread : ∀ s, b.execute s statement given = b.read s fetch)
    (h : Serves TimePasses b.serve (customerScopedConnection sa identity fun _ =>
      Server.execute sa statement given) store out store') :
    store'.world.committed = store.world.committed ∧ ∀ a, out = .ok a →
      (∃ values, bindParams given = .ok values) ∧ ∃ c,
        scopedCustomer identity = .ok c ∧ FitsInteger c ∧
          fetch (store.world.committed.ownedBy c) = .ok a := by
  rcases scoped_serves hidle h with ⟨after, hc, hstore, hbind, hgives, hout, hworld⟩ | hundone
  · rw [hread] at hgives hworld
    obtain ⟨hfits, hfetch, hcommitted⟩ := read_scope hgives
    rw [hstore] at hfetch hcommitted
    exact ⟨hworld ▸ hcommitted after, fun a ha => ⟨hbind, _, hc, hfits, hout a ha ▸ hfetch⟩⟩
  · exact ⟨hundone, nofun⟩

omit [PyFloat F] in
theorem getOrderStatus_serves (hidle : store.Idle) {orderRef : Str} {out : Except Exc (Json F)}
    (h : Serves TimePasses b.serve (Server.getOrderStatus sa identity orderRef) store out store') :
    store'.world.committed = store.world.committed ∧ ∀ result, out = .ok result → ∃ r,
      (∀ reset, (DealershipAgent.getOrderStatus b.pg (undisturbed reset) store.world identity
        orderRef).2 = .ok r) ∧ result = (r.map b.orderJson).getD .null := by
  rcases serves_bind.mp h with ⟨row, s₁, hscoped, hret⟩ | ⟨e, hscoped, rfl⟩
  · obtain ⟨rfl, rfl⟩ := serves_ret.mp hret
    obtain ⟨hcommitted, hrow⟩ := scoped_read hidle (fun s => rfl) hscoped
    refine ⟨hcommitted, fun result hresult => ?_⟩
    obtain ⟨⟨values, hbind⟩, c, hc, hfits, hfetch⟩ := hrow row rfl
    have href : Storable orderRef := bindParams_storable hbind List.mem_cons_self
    refine ⟨selectedOrder orderRef (store.world.committed.ownedBy c), fun reset => ?_, ?_⟩
    · rw [DealershipAgent.getOrderStatus, orderState_eq href]
      exact customerScoped_ask hidle hc hfits reset _ fun views i => rfl
    obtain rfl := Except.ok.inj hresult
    obtain rfl := Except.ok.inj hfetch
    have hparam : ∀ r : Order, (param [("order_ref", .string orderRef)] "order_ref").text =
        some r.orderRef ↔ r.orderRef = orderRef := by
      simp [param, SqlValue.text, eq_comm]
    simp only [hparam, selectedOrder, List.head?_map]
    cases (List.filter (fun r : Order => decide (r.orderRef = orderRef))
      (store.world.committed.ownedBy c).orders).head? <;> rfl
  · exact ⟨(scoped_read hidle (fun s => rfl) hscoped).1, fun result hresult => by cases hresult⟩

theorem listMyOrders_serves (hidle : store.Idle) {statusFilter : Option Str} {limit : Int}
    {out : Except Exc (Json F)}
    (h : Serves TimePasses b.serve (Server.listMyOrders sa identity statusFilter limit) store out store') :
    store'.world.committed = store.world.committed ∧ ∀ result, out = .ok result → ∃ rows,
      (∀ reset, (DealershipAgent.listMyOrders b.pg (undisturbed reset) store.world identity
        statusFilter limit).2 = .ok rows) ∧ result = .array (rows.map b.summaryJson) := by
  rcases serves_bind.mp h with ⟨rows, s₁, hscoped, hret⟩ | ⟨e, hscoped, rfl⟩
  · obtain ⟨rfl, rfl⟩ := serves_ret.mp hret
    obtain ⟨hcommitted, hrows⟩ := scoped_read hidle (fun s => rfl) hscoped
    refine ⟨hcommitted, fun result hresult => ?_⟩
    obtain ⟨⟨values, hbind⟩, c, hc, hfits, hfetch⟩ := hrows rows rfl
    have hstatus : ∀ s ∈ statusFilter, Storable s := by
      rintro s rfl
      exact bindParams_storable hbind List.mem_cons_self
    obtain rfl := Except.ok.inj hresult
    have hfilter : (param [("status_filter", (statusFilter.map SqlValue.string).getD .null),
        ("limit", .int limit)] "status_filter").text = statusFilter := by
      cases statusFilter <;> simp [param, SqlValue.text]
    have hlimit : (param [("status_filter", (statusFilter.map SqlValue.string).getD .null),
        ("limit", .int limit)] "limit").integer = limit := by
      have hname : (str "limit" == str "status_filter") = false := by decide
      simp [param, SqlValue.integer, List.lookup_cons, hname]
    rw [hfilter, hlimit] at hfetch
    cases hl : b.pg.limit limit with
    | error e =>
      rw [hl] at hfetch
      cases hfetch
    | ok n =>
      rw [hl] at hfetch
      obtain rfl := Except.ok.inj hfetch
      refine ⟨((chosenOrders statusFilter (store.world.committed.ownedBy c)).take n).map orderSummary,
        fun reset => ?_, ?_⟩
      · rw [DealershipAgent.listMyOrders, orderSummaries_eq hstatus]
        refine customerScoped_ask hidle hc hfits reset _ fun views i => ?_
        simp only [selectedOrders, hl]
        rfl
      · simp only [List.map_map]
        rfl
  · exact ⟨(scoped_read hidle (fun s => rfl) hscoped).1, fun result hresult => by cases hresult⟩

/-- What `escalate_to_human` returns of the escalation. -/
def DbEngine.acknowledgement (b : DbEngine F) (e : Escalation) : List (Str × Json F) :=
  [("id", .int e.id), ("created_at", b.timestamp e.createdAt), ("status", .string "escalated")]

omit [PyFloat F] in
/-- A handoff that returns has committed the escalation that it returns. One that raises has committed
nothing, unless its commit failed after it was done. -/
theorem escalateToHuman_serves (hidle : store.Idle) {summary reason : Str}
    {out : Except Exc (List (Str × Json F))}
    (h : Serves TimePasses b.serve (escalateToHuman sa identity summary reason) store out store') :
    ((∃ e, out = .error e) ∧ store'.world.committed = store.world.committed) ∨
    ∃ e, store'.world.committed = store.world.committed.insert (.escalation e) ∧
      ∀ result, out = .ok result → result = b.acknowledgement e := by
  rcases serves_bind.mp h with ⟨row, s₁, hscoped, hrow⟩ | ⟨e, hscoped, rfl⟩
  · rcases scoped_serves hidle hscoped with ⟨after, hc, hstore, -, hgives, hout, hworld⟩ | _
    obtain ⟨e, rfl, hcommitted⟩ := insertEscalation_scope hgives
    rw [hstore] at hcommitted
    obtain rfl := hout row rfl
    obtain ⟨rfl, rfl⟩ := serves_ret.mp hrow
    exact .inr ⟨e, hworld ▸ hcommitted after, fun result hresult => (Except.ok.inj hresult).symm⟩
  · rcases scoped_serves hidle hscoped with ⟨after, hc, hstore, -, hgives, hout, hworld⟩ | hundone
    · obtain ⟨e, rfl, hcommitted⟩ := insertEscalation_scope hgives
      rw [hstore] at hcommitted
      exact .inr ⟨e, hworld ▸ hcommitted after, nofun⟩
    · exact .inl ⟨⟨e, rfl⟩, hundone⟩

/-! ## Tool calls -/

/-- The content of a tool's result that FastMCP wraps. -/
def wrapped (result : Json F) : List (Str × Json F) := [("result", result)]

variable (b mcp identity store) in
/-- What a tool call comes to: its result, and the database after it. -/
inductive CallEnd (name : Str) (arguments : Json F) : CallToolResult F → Database → Prop
  | failed (e : Exc) :
      CallEnd name arguments (toolResult mcp name (.error e)) store.world.committed
  | status {orderRef : Str} {r : Option OrderState} : name = str "get_order_status" →
      mcp.orderStatusArguments arguments = .ok orderRef →
      (∀ reset, (DealershipAgent.getOrderStatus b.pg (undisturbed reset) store.world identity
        orderRef).2 = .ok r) →
      CallEnd name arguments (toolResult mcp name (.ok (wrapped ((r.map b.orderJson).getD .null))))
        store.world.committed
  | orders {statusFilter : Option Str} {limit : Int} {rows : List OrderSummary} :
      name = str "list_my_orders" →
      mcp.listOrdersArguments arguments = .ok (statusFilter, limit) →
      (∀ reset, (DealershipAgent.listMyOrders b.pg (undisturbed reset) store.world identity
        statusFilter limit).2 = .ok rows) →
      CallEnd name arguments (toolResult mcp name (.ok (wrapped (.array (rows.map b.summaryJson)))))
        store.world.committed
  | escalated (e : Escalation) : name = str "escalate_to_human" →
      CallEnd name arguments (toolResult mcp name (.ok (b.acknowledgement e)))
        (store.world.committed.insert (.escalation e))
  /-- The commit failed after it was done. -/
  | unacknowledged (e : Escalation) (error : Exc) : name = str "escalate_to_human" →
      CallEnd name arguments (toolResult mcp name (.error error))
        (store.world.committed.insert (.escalation e))
  | publicTool : name ≠ str "get_order_status" → name ≠ str "list_my_orders" →
      name ≠ str "escalate_to_human" →
      CallEnd name arguments (mcp.publicTool name arguments) store.world.committed

omit [PyFloat F] [Unicode] in
/-- A tool that raises has an error result. -/
theorem serves_tool {name : Str} {tool : DbProgram F (List (Str × Json F))}
    {out : Except Exc (CallToolResult F)}
    (h : Serves TimePasses b.serve (tool.attempt >>= fun out => .ret (toolResult mcp name out)) store out store') :
    ∃ o, Serves TimePasses b.serve tool store o store' ∧ out = .ok (toolResult mcp name o) := by
  rcases serves_bind.mp h with ⟨o, s₁, htool, hret⟩ | ⟨e, htool, -⟩
  · obtain ⟨o', hserves, ho⟩ := serves_attempt.mp htool
    obtain rfl := Except.ok.inj ho
    obtain ⟨rfl, rfl⟩ := serves_ret.mp hret
    exact ⟨o, hserves, rfl⟩
  · obtain ⟨o, -, ⟨⟩⟩ := serves_attempt.mp htool

omit [PyFloat F] [Unicode] in
/-- A tool that reads its arguments first. -/
theorem serves_arguments {α β : Type} {parsed : Except Exc α} {f : α → DbProgram F β}
    {out : Except Exc β} (h : Serves TimePasses b.serve (.lift parsed >>= f) store out store') :
    (∃ a, parsed = .ok a ∧ Serves TimePasses b.serve (f a) store out store') ∨
      (∃ e, out = .error e) ∧ store' = store := by
  rcases serves_bind.mp h with ⟨a, s₁, hparsed, hf⟩ | ⟨e, hparsed, rfl⟩
  · obtain ⟨hok, rfl⟩ := serves_lift.mp hparsed
    exact .inl ⟨a, hok.symm, hf⟩
  · obtain ⟨-, rfl⟩ := serves_lift.mp hparsed
    exact .inr ⟨⟨e, rfl⟩, rfl⟩

omit [PyFloat F] [Unicode] in
theorem serves_wrapped {p : DbProgram F (Json F)} {out : Except Exc (List (Str × Json F))}
    (h : Serves TimePasses b.serve (p >>= fun result => .ret (wrapped result)) store out store') :
    ∃ o, Serves TimePasses b.serve p store o store' ∧ out = o.map wrapped := by
  rcases serves_bind.mp h with ⟨result, s₁, hp, hret⟩ | ⟨e, hp, rfl⟩
  · obtain ⟨rfl, rfl⟩ := serves_ret.mp hret
    exact ⟨_, hp, rfl⟩
  · exact ⟨_, hp, rfl⟩

theorem callTool_serves (hidle : store.Idle) {name : Str} {arguments : Json F}
    {out : Except Exc (CallToolResult F)}
    (h : Serves TimePasses b.serve (Server.callTool sa mcp identity name arguments) store out store') :
    ∃ result, out = .ok result ∧
      CallEnd b store mcp identity name arguments result store'.world.committed := by
  unfold Server.callTool runTool at h
  by_cases hstatus : name = str "get_order_status"
  · rw [if_pos hstatus] at h
    obtain ⟨o, htool, rfl⟩ := serves_tool h
    refine ⟨_, rfl, ?_⟩
    rcases serves_arguments htool with ⟨orderRef, hparsed, hrest⟩ | ⟨⟨e, rfl⟩, rfl⟩
    · obtain ⟨o', hserves, rfl⟩ := serves_wrapped hrest
      obtain ⟨hsame, hresult⟩ := getOrderStatus_serves hidle hserves
      rw [hsame]
      cases o' with
      | error e => exact .failed e
      | ok result =>
        obtain ⟨r, hr, rfl⟩ := hresult result rfl
        exact .status hstatus hparsed hr
    · exact .failed e
  · rw [if_neg hstatus] at h
    by_cases hlist : name = str "list_my_orders"
    · rw [if_pos hlist] at h
      obtain ⟨o, htool, rfl⟩ := serves_tool h
      refine ⟨_, rfl, ?_⟩
      rcases serves_arguments htool with ⟨⟨statusFilter, limit⟩, hparsed, hrest⟩ | ⟨⟨e, rfl⟩, rfl⟩
      · obtain ⟨o', hserves, rfl⟩ := serves_wrapped hrest
        obtain ⟨hsame, hresult⟩ := listMyOrders_serves hidle hserves
        rw [hsame]
        cases o' with
        | error e => exact .failed e
        | ok result =>
          obtain ⟨rows, hrows, rfl⟩ := hresult result rfl
          exact .orders hlist hparsed hrows
      · exact .failed e
    · rw [if_neg hlist] at h
      by_cases hescalate : name = str "escalate_to_human"
      · rw [if_pos hescalate] at h
        obtain ⟨o, htool, rfl⟩ := serves_tool h
        refine ⟨_, rfl, ?_⟩
        rcases serves_arguments htool with ⟨⟨summary, reason⟩, -, hrest⟩ | ⟨⟨e, rfl⟩, rfl⟩
        · rcases escalateToHuman_serves hidle hrest with ⟨⟨e, rfl⟩, hsame⟩ | ⟨e, hnew, hresult⟩
          · rw [hsame]
            exact .failed e
          · rw [hnew]
            cases o with
            | ok result =>
              rw [hresult result rfl]
              exact .escalated e hescalate
            | error error => exact .unacknowledged e error hescalate
        · exact .failed e
      · rw [if_neg hescalate] at h
        obtain ⟨rfl, rfl⟩ := serves_ret.mp h
        exact ⟨_, rfl, .publicTool hstatus hlist hescalate⟩

/-- A tool call returns what the customer reads, or the escalation that it has committed, or it fails;
the database is as before but for a committed escalation. -/
theorem callTool_end (hidle : store.Idle) (name : Str) (arguments : Json F) :
    ∃ result, (b.callTool sa mcp identity store name arguments).out = .ok result ∧
      CallEnd b store mcp identity name arguments result
        (b.callTool sa mcp identity store name arguments).state.world.committed :=
  callTool_serves hidle (play_serves timePasses_refl b.serve [] store
    (Server.callTool sa mcp identity name arguments))

end Tools

/-! ## A database where nothing fails -/

def shopEngine (F : Type) : DbEngine F where
  pg := asciiPostgres
  now n := n
  fails _ _ := none
  landed _ := false
  reset _ := .empty
  accepts _ := true
  driverText _ := []
  amount := .int
  timestamp t := .int t

/-- Customer 7 with an order, and the orders of others. -/
def shopStore (others : List Order) : ToolStore where
  world := start (some []) {
    customers := [⟨7, "CUST-7", "ann@example.com", "Ann", none, 0⟩]
    orders := shopOrder 70 7 :: others }

theorem shopStore_idle (others : List Order) : (shopStore others).Idle := ⟨rfl, .inr rfl⟩

/-- On the arguments `order_ref="ORD-70"`. -/
def orderMcp : FastMcp FloatText where
  orderStatusArguments _ := .ok "ORD-70"
  listOrdersArguments _ := .error ⟨.other "ToolError", []⟩
  escalateArguments _ := .error ⟨.other "ToolError", []⟩
  errorLead name := str "Error executing tool " ++ name ++ str ": "
  content structured := [some (dumps (.object structured))]
  publicTool _ _ := {}

/-- Customer 7 asks for an order. -/
def orderCall : Played ToolStore DbRequest (DbAnswer FloatText) Exc (CallToolResult FloatText) :=
  @DbEngine.callTool FloatText (shopEngine FloatText) _ asciiUnicode ⟨fun _ _ => [], fun _ _ => []⟩
    orderMcp (some ⟨"s-1", some 7⟩) (shopStore [shopOrder 10 1]) "get_order_status"
    (.object [("order_ref", .string "ORD-70")])

theorem orderCall_end : ∃ result, orderCall.out = .ok result ∧
    CallEnd (shopEngine FloatText) (shopStore [shopOrder 10 1]) orderMcp (some ⟨"s-1", some 7⟩)
      "get_order_status" (.object [("order_ref", .string "ORD-70")]) result
      orderCall.state.world.committed := by
  unfold orderCall
  exact @callTool_end FloatText _ asciiUnicode (shopEngine FloatText) (shopStore [shopOrder 10 1])
    ⟨fun _ _ => [], fun _ _ => []⟩ orderMcp (some ⟨"s-1", some 7⟩) (shopStore_idle _) "get_order_status"
    (.object [("order_ref", .string "ORD-70")])

end DealershipAgent.Server
