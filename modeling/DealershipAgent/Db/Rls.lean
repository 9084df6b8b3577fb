import DealershipAgent.Db.Models
import DealershipAgent.Py.Exc
import DealershipAgent.RowSecurity.Session

/-!
# Row-Level Security

The policies of the migrations, and `customer_scope` (`db/rls.py`) over them.

* `isolation`: the policy of each table, under a value of `CUSTOMER_ID_SCOPE`. `isolation_iff`: under a
  customer it holds of the rows that the customer owns (`Owns`); `isolation_none`: else of none.
* `secured`: the database under the setting `app.customer_id`.
* `Use`: what the application does with a pooled connection. `select_scope`, `insert_scope`,
  `select_outside`, `insert_outside`: what a statement does inside and outside of a customer's scope,
  after any uses of any connections.
-/

namespace DealershipAgent

open Py RowSecurity

/-- A column of type `integer` can hold the number. -/
def FitsInteger (n : Int) : Prop := -2147483648 ≤ n ∧ n < 2147483648

instance : DecidablePred FitsInteger := fun _ => inferInstanceAs (Decidable (_ ∧ _))

/-- What the policies and the queries use of Postgres. -/
structure Postgres where
  /-- `s::integer` -/
  castInteger : Str → Except Exc Int
  outOfRange : Int → Exc
  castInteger_repr : ∀ n : Int, castInteger (intRepr n) =
    if FitsInteger n then .ok n else .error (outOfRange n)
  /-- The number of rows that `LIMIT` leaves; not every `int` is one. -/
  limit : Int → Except Exc Nat

/-! ## The policies -/

section Policies

/-- `NULLIF(s, t)` -/
def nullIf (s : Option Str) (t : Str) : Option Str := if s = some t then none else s

/-- `CUSTOMER_ID_SCOPE`, when `current_setting` reads as `setting`. -/
def customerIdScope (pg : Postgres) (setting : Option Str) : Except Exc (Option Int) :=
  match nullIf setting [] with
  | none => .ok none
  | some s => (pg.castInteger s).map some

/-- `column = scope` is true, not false and not `NULL`. -/
def equalsScope (scope : Option Int) (column : Int) : Bool :=
  (scope.map fun c => decide (column = c)) = some true

def customersIsolation (scope : Option Int) (r : Customer) : Bool := equalsScope scope r.id

def ordersIsolation (scope : Option Int) (r : Order) : Bool := equalsScope scope r.customerId

def testDriveBookingsIsolation (scope : Option Int) (r : TestDriveBooking) : Bool :=
  equalsScope scope r.customerId

def escalationsIsolation (scope : Option Int) (r : Escalation) : Bool :=
  equalsScope scope r.customerId

def conversationsIsolation (scope : Option Int) (r : Conversation) : Bool :=
  equalsScope scope r.customerId

/-- `key IN (SELECT id FROM parents WHERE customer_id = scope)`; the policy of the parent table filters
the subquery. -/
def throughParent {P : Type} (scope : Option Int) (policy : P → Bool) (id customerId : P → Int)
    (parents : List P) (key : Int) : Bool :=
  (((parents.filter policy).filter fun p => equalsScope scope (customerId p)).map id).contains key

def orderStatusHistoryIsolation (scope : Option Int) (db : Database) (r : OrderStatusHistory) :
    Bool :=
  throughParent scope (ordersIsolation scope) Order.id Order.customerId db.orders r.orderId

def conversationMessagesIsolation (scope : Option Int) (db : Database) (r : ConversationMessage) :
    Bool :=
  throughParent scope (conversationsIsolation scope) Conversation.id Conversation.customerId
    db.conversations r.conversationId

/-- The policy of a row's table, the same for `USING` and `WITH CHECK`. -/
def isolation (scope : Option Int) (db : Database) : Row → Bool
  | .customer r => customersIsolation scope r
  | .order r => ordersIsolation scope r
  | .orderStatusHistory r => orderStatusHistoryIsolation scope db r
  | .testDriveBooking r => testDriveBookingsIsolation scope r
  | .escalation r => escalationsIsolation scope r
  | .conversation r => conversationsIsolation scope r
  | .conversationMessage r => conversationMessagesIsolation scope db r

end Policies

/-- The database with the rows of the secured tables that pass `p`. -/
def Database.restrict (db : Database) (p : Row → Bool) : Database where
  customers := db.customers.filter fun r => p (.customer r)
  orders := db.orders.filter fun r => p (.order r)
  orderStatusHistory := db.orderStatusHistory.filter fun r => p (.orderStatusHistory r)
  testDriveBookings := db.testDriveBookings.filter fun r => p (.testDriveBooking r)
  escalations := db.escalations.filter fun r => p (.escalation r)
  conversations := db.conversations.filter fun r => p (.conversation r)
  conversationMessages := db.conversationMessages.filter fun r => p (.conversationMessage r)
  vehicles := db.vehicles

/-- The database under the setting `app.customer_id`. -/
def secured (pg : Postgres) : Secured (Option Str) Database Row Exc where
  insert := Database.insert
  visible setting db := do
    let scope ← customerIdScope pg setting
    return db.restrict (isolation scope db)
  admits setting db row := do
    let scope ← customerIdScope pg setting
    return isolation scope db row

/-! ## Ownership -/

/-- The customer owns the row: by the row's own key, or through its order or conversation. -/
def Owns (c : Int) (db : Database) : Row → Prop
  | .customer r => r.id = c
  | .order r => r.customerId = c
  | .orderStatusHistory r => ∃ o ∈ db.orders, o.id = r.orderId ∧ o.customerId = c
  | .testDriveBooking r => r.customerId = c
  | .escalation r => r.customerId = c
  | .conversation r => r.customerId = c
  | .conversationMessage r => ∃ o ∈ db.conversations, o.id = r.conversationId ∧ o.customerId = c

instance (c : Int) (db : Database) : DecidablePred (Owns c db)
  | .customer r => inferInstanceAs (Decidable (r.id = c))
  | .order r => inferInstanceAs (Decidable (r.customerId = c))
  | .orderStatusHistory _ => inferInstanceAs (Decidable (∃ o ∈ db.orders, _))
  | .testDriveBooking r => inferInstanceAs (Decidable (r.customerId = c))
  | .escalation r => inferInstanceAs (Decidable (r.customerId = c))
  | .conversation r => inferInstanceAs (Decidable (r.customerId = c))
  | .conversationMessage _ => inferInstanceAs (Decidable (∃ o ∈ db.conversations, _))

/-- The customer's rows, and the public tables. -/
def Database.ownedBy (db : Database) (c : Int) : Database := db.restrict fun r => Owns c db r

/-- The public tables alone. -/
def Database.publicOnly (db : Database) : Database := db.restrict fun _ => false

section Ownership

variable {pg : Postgres} {c : Int} {db : Database}

@[simp] theorem equalsScope_some (column : Int) : equalsScope (some c) column = decide (column = c) := by
  simp [equalsScope]

theorem equalsScope_iff (column : Int) : equalsScope (some c) column = true ↔ column = c := by
  simp

@[simp] theorem equalsScope_none (column : Int) : equalsScope none column = false := by
  simp [equalsScope]

/-- A row whose parent is the customer's. -/
theorem throughParent_some {P : Type} {policy : P → Bool} {id customerId : P → Int}
    {parents : List P} {key : Int} (h : ∀ p, policy p = equalsScope (some c) (customerId p)) :
    throughParent (some c) policy id customerId parents key = true ↔
      ∃ p ∈ parents, id p = key ∧ customerId p = c := by
  simp only [throughParent, List.contains_iff_mem, List.mem_map, List.mem_filter, h,
    equalsScope_some, decide_eq_true_eq]
  constructor
  · rintro ⟨p, ⟨⟨hp, hc⟩, -⟩, hk⟩
    exact ⟨p, hp, hk, hc⟩
  · rintro ⟨p, hp, hk, hc⟩
    exact ⟨p, ⟨⟨hp, hc⟩, hc⟩, hk⟩

theorem throughParent_none {P : Type} {policy : P → Bool} {id customerId : P → Int}
    {parents : List P} {key : Int} :
    throughParent none policy id customerId parents key = false := by
  simp [throughParent]

/-- In a customer's scope the policies hold of the rows that the customer owns. -/
theorem isolation_iff (c : Int) (db : Database) (r : Row) : isolation (some c) db r = decide (Owns c db r) := by
  rw [Bool.eq_iff_iff, decide_eq_true_iff]
  cases r with
  | orderStatusHistory r => exact throughParent_some fun _ => rfl
  | conversationMessage r => exact throughParent_some fun _ => rfl
  | _ => exact equalsScope_iff _

/-- Without a customer the policies hold of no row. -/
theorem isolation_none (db : Database) (r : Row) : isolation none db r = false := by
  cases r with
  | orderStatusHistory r => exact throughParent_none
  | conversationMessage r => exact throughParent_none
  | customer r => exact equalsScope_none r.id
  | order r => exact equalsScope_none r.customerId
  | testDriveBooking r => exact equalsScope_none r.customerId
  | escalation r => exact equalsScope_none r.customerId
  | conversation r => exact equalsScope_none r.customerId

theorem intRepr_ne_empty (n : Int) : intRepr n ≠ [] := by
  unfold intRepr
  by_cases h : n < 0
  · simp [h]
  · rw [if_neg h]
    exact natRepr_ne_nil _

theorem customerIdScope_repr :
    customerIdScope pg (some (intRepr c)) =
      if FitsInteger c then .ok (some c) else .error (pg.outOfRange c) := by
  have hne : nullIf (some (intRepr c)) [] = some (intRepr c) :=
    if_neg fun h => intRepr_ne_empty c (Option.some.inj h)
  unfold customerIdScope
  rw [hne]
  simp only [pg.castInteger_repr]
  by_cases hc : FitsInteger c
  · simp only [hc, if_true]
    rfl
  · simp only [hc, if_false]
    rfl

/-- What the setting reads as outside of scopes. -/
def Unscoped (setting : Option Str) : Prop := setting = none ∨ setting = some []

theorem customerIdScope_unscoped {setting : Option Str} (h : Unscoped setting) :
    customerIdScope pg setting = .ok none := by
  rcases h with rfl | rfl <;> rfl

/-- What a customer's scope shows. -/
theorem visible_scope :
    (secured pg).visible (some (intRepr c)) db =
      if FitsInteger c then .ok (db.ownedBy c) else .error (pg.outOfRange c) := by
  change (customerIdScope pg _).bind _ = _
  rw [customerIdScope_repr]
  by_cases hc : FitsInteger c
  · simp only [hc, if_true]
    change Except.ok (db.restrict (isolation (some c) db)) = _
    rw [funext (isolation_iff c db)]
    rfl
  · simp only [hc, if_false]
    rfl

theorem visible_unscoped {setting : Option Str} (h : Unscoped setting) :
    (secured pg).visible setting db = .ok db.publicOnly := by
  change (customerIdScope pg _).bind _ = _
  rw [customerIdScope_unscoped h]
  change Except.ok (db.restrict (isolation none db)) = _
  rw [funext (isolation_none db)]
  rfl

/-- What a customer's scope admits. -/
theorem admits_eq {r : Row} : (secured pg).admits (some (intRepr c)) db r =
    if FitsInteger c then .ok (decide (Owns c db r)) else .error (pg.outOfRange c) := by
  change (customerIdScope pg _).bind _ = _
  rw [customerIdScope_repr]
  by_cases hc : FitsInteger c
  · simp only [hc, if_true]
    change Except.ok (isolation (some c) db r) = _
    rw [isolation_iff]
  · simp only [hc, if_false]
    rfl

theorem admits_scope {r : Row} (h : (secured pg).admits (some (intRepr c)) db r = .ok true) :
    FitsInteger c ∧ Owns c db r := by
  rw [admits_eq] at h
  by_cases hc : FitsInteger c
  · rw [if_pos hc] at h
    exact ⟨hc, of_decide_eq_true (Except.ok.inj h)⟩
  · rw [if_neg hc] at h
    cases h

theorem admits_unscoped {setting : Option Str} {r : Row} (h : Unscoped setting) :
    (secured pg).admits setting db r = .ok false := by
  change (customerIdScope pg _).bind _ = _
  rw [customerIdScope_unscoped h]
  change Except.ok (isolation none db r) = _
  rw [isolation_none]

/-- A row stays owned when rows are inserted. -/
theorem Owns.insert {r : Row} (h : Owns c db r) (r' : Row) : Owns c (db.insert r') r := by
  cases r with
  | orderStatusHistory r =>
    obtain ⟨o, ho, hown⟩ := h
    exact ⟨o, by cases r' <;> simp [Database.insert, ho], hown⟩
  | conversationMessage r =>
    obtain ⟨o, ho, hown⟩ := h
    exact ⟨o, by cases r' <;> simp [Database.insert, ho], hown⟩
  | _ => exact h

end Ownership

/-! ## `customer_scope` on pooled connections -/

/-- What the setting reads as after a transaction. -/
inductive Reset where
  | unset
  | empty
deriving DecidableEq, Repr

def Reset.value : Reset → Option Str
  | unset => none
  | empty => some []

/-- What the application does with the pooled connections `K`. -/
inductive Use (K : Type) where
  /-- `customer_scope(connection, customer_id)` is entered. -/
  | enterScope (k : K) (customerId : Int)
  /-- A transaction without a scope. -/
  | begin (k : K)
  | select (k : K)
  | insert (k : K) (row : Row) (accepted : Bool)
  /-- The scope or the transaction is left, normally or by an exception. -/
  | leave (k : K) (exception : Bool) (reset : Reset)

/-- The use as an action on the connection. `customer_scope` sets `str(customer_id)`. -/
def Use.action {K : Type} : Use K → Action K (Option Str) Row
  | enterScope k customerId => .enter k (some (intRepr customerId))
  | begin k => .begin k
  | select k => .select k
  | insert k row accepted => .insert k row accepted
  | leave k exception reset => .finish k (!exception) reset.value

section Scopes

variable {K : Type} [DecidableEq K]

/-- The world after some uses of connections that were fresh. -/
def afterUses (pg : Postgres) (db : Database) (uses : List (Use K)) :
    World K (Option Str) Database Row :=
  run (secured pg) (start none db) (uses.map Use.action)

/-- The connection is in a scope of the customer. -/
def InScope (uses : List (Use K)) (k : K) (customerId : Int) : Prop :=
  placeOf k (uses.map Use.action) = .scope (some (intRepr customerId))

/-- The connection is in no customer's scope. -/
def OutsideScopes (uses : List (Use K)) (k : K) : Prop :=
  ∀ customerId, ¬ InScope uses k customerId

variable {pg : Postgres} {db : Database} {uses : List (Use K)} {k : K} {c : Int}

/-- Scopes are entered for customers only. -/
theorem placeOf_uses (uses : List (Use K)) (k : K) :
    placeOf k (uses.map Use.action) = .idle ∨ placeOf k (uses.map Use.action) = .plain ∨
      ∃ c, InScope uses k c := by
  have hfold : ∀ (uses : List (Use K)) (p : Place (Option Str)),
      (p = .idle ∨ p = .plain ∨ ∃ c, p = .scope (some (intRepr c))) →
      (uses.map Use.action).foldl (Place.after k) p = .idle ∨
        (uses.map Use.action).foldl (Place.after k) p = .plain ∨
        ∃ c, (uses.map Use.action).foldl (Place.after k) p = .scope (some (intRepr c)) := by
    intro uses
    induction uses with
    | nil => exact fun p h => h
    | cons u uses ih =>
      intro p h
      refine ih _ ?_
      unfold Place.after
      by_cases hk : u.action.on = k
      · rw [if_pos hk]
        rcases h with rfl | rfl | ⟨c, rfl⟩ <;> cases u <;>
          simp [Use.action, Place.afterOwn]
      · rw [if_neg hk]
        exact h
  exact hfold uses .idle (.inl rfl)

omit [DecidableEq K] in
theorem uses_blank (uses : List (Use K)) :
    ∀ a ∈ uses.map Use.action, a.Blanks Unscoped := by
  intro a ha
  obtain ⟨u, -, rfl⟩ := List.mem_map.mp ha
  cases u with
  | leave k exception reset =>
    cases reset with
    | unset => exact .inl rfl
    | empty => exact .inr rfl
  | _ => trivial

/-- Every session is as its place has it. -/
theorem session_at (pg : Postgres) (db : Database) (uses : List (Use K)) (k : K) :
    ((afterUses pg db uses).session k).At Unscoped (placeOf k (uses.map Use.action)) :=
  run_at (.inl rfl) (uses_blank uses) k

/-- In a customer's scope the setting names the customer. -/
theorem setting_scope (h : InScope uses k c) :
    ((afterUses pg db uses).session k).setting = some (intRepr c) := by
  have hat := session_at pg db uses k
  rw [h] at hat
  exact hat.2

/-- Outside of scopes the setting names nobody. -/
theorem setting_outside (h : OutsideScopes uses k) :
    Unscoped ((afterUses pg db uses).session k).setting := by
  have hat := session_at pg db uses k
  rcases placeOf_uses uses k with hp | hp | ⟨c, hp⟩
  · rw [hp] at hat
    exact hat.2
  · rw [hp] at hat
    exact hat.2
  · exact absurd hp (h c)

/-- A statement in a customer's scope sees what the customer owns. -/
theorem select_scope {rows : Database} (h : InScope uses k c)
    (hs : (select (secured pg) (afterUses pg db uses) k).2 = .ok rows) :
    rows = (seen (secured pg) (afterUses pg db uses) k).ownedBy c := by
  have hv := select_ok hs
  rw [setting_scope h, visible_scope] at hv
  by_cases hc : FitsInteger c
  · rw [if_pos hc] at hv
    exact (Except.ok.inj hv).symm
  · rw [if_neg hc] at hv
    cases hv

/-- It does return unless an earlier statement has failed, for a customer whose id a row can have. -/
theorem select_scope_returns (h : InScope uses k c) (hc : FitsInteger c)
    (ha : ((afterUses pg db uses).session k).current.aborted = false) :
    (select (secured pg) (afterUses pg db uses) k).2 =
      .ok ((seen (secured pg) (afterUses pg db uses) k).ownedBy c) := by
  rw [select_eq ha, setting_scope h, visible_scope, if_pos hc]
  rfl

/-- What a statement inserts in a customer's scope, the customer owns. -/
theorem insert_scope {row : Row} {accepted : Bool} (h : InScope uses k c)
    (hs : (insert (secured pg) (afterUses pg db uses) k row accepted).2 = .ok ()) :
    Owns c (seen (secured pg) (insert (secured pg) (afterUses pg db uses) k row accepted).1 k)
      row := by
  obtain ⟨hadmits, hseen⟩ := insert_ok hs
  rw [setting_scope h] at hadmits
  rw [hseen]
  exact (admits_scope hadmits).2.insert row

/-- A statement outside of scopes sees the public tables only. -/
theorem select_outside {rows : Database} (h : OutsideScopes uses k)
    (hs : (select (secured pg) (afterUses pg db uses) k).2 = .ok rows) :
    rows = (seen (secured pg) (afterUses pg db uses) k).publicOnly := by
  have hv := select_ok hs
  rw [visible_unscoped (setting_outside h)] at hv
  exact (Except.ok.inj hv).symm

/-- A statement outside of scopes inserts nothing. -/
theorem insert_outside {row : Row} {accepted : Bool} (h : OutsideScopes uses k) :
    (insert (secured pg) (afterUses pg db uses) k row accepted).2 ≠ .ok () := by
  intro hs
  obtain ⟨hadmits, -⟩ := insert_ok hs
  rw [admits_unscoped (setting_outside h)] at hadmits
  cases hadmits

end Scopes

end DealershipAgent
