import DealershipAgent.RowSecurity.Noninterference
import DealershipAgent.Tools.Store

/-!
# What a tool call adds, and what it cannot tell apart

* `Grown.serve`: what a request of a customer adds to the database is escalations of that customer and
  session.
* `serve_alike`: databases with the same rows of a customer, whatever else is in them, answer the
  requests of the customer alike, and stay so.
-/

namespace DealershipAgent.Server

open Py Json Interact RowSecurity

/-! ## Escalations under row security -/

section Escalations

variable {pg : Postgres} {c : Int} {db db' : Database} {e : Escalation}

theorem ownedBy_insert_escalation : (db.insert (.escalation e)).ownedBy c =
    { db.ownedBy c with
      escalations := (db.ownedBy c).escalations ++ if e.customerId = c then [e] else [] } := by
  have hrows : ((db.escalations ++ [e]).filter fun r => decide (Owns c db (.escalation r))) =
      (db.escalations.filter fun r => decide (Owns c db (.escalation r))) ++
        if e.customerId = c then [e] else [] := by
    by_cases he : e.customerId = c <;> simp [Owns, he]
  exact congrArg (fun rows => { db.ownedBy c with escalations := rows }) hrows

/-- Databases with the same rows of the customer show the customer's connection the same. -/
theorem sameUnder_of_ownedBy (h : db.ownedBy c = db'.ownedBy c) :
    SameUnder (secured pg) (ScopeOf c) db db' := by
  rintro setting (hu | rfl)
  · have howned := congrArg Database.vehicles h
    have hv : db.vehicles = db'.vehicles := howned
    rw [visible_unscoped hu, visible_unscoped hu]
    simp [Database.publicOnly, Database.restrict, hv]
  · rw [visible_scope, visible_scope, h]

theorem escalation_inert : Inert (secured pg) (ScopeOf c) (.escalation e) where
  visible {d d'} h := by
    rintro setting (hu | rfl)
    · have hd := h setting (.inl hu)
      rw [visible_unscoped hu, visible_unscoped hu] at hd ⊢
      have hpublic := congrArg Database.vehicles (Except.ok.inj hd)
      have hv : d.vehicles = d'.vehicles := hpublic
      simp [Database.publicOnly, Database.restrict, secured, Database.insert, hv]
    · have hd := h (some (intRepr c)) (.inr rfl)
      rw [visible_scope, visible_scope] at hd ⊢
      by_cases hc : FitsInteger c
      · rw [if_pos hc, if_pos hc] at hd ⊢
        have hd := Except.ok.inj hd
        refine congrArg Except.ok ?_
        calc (d.insert (.escalation e)).ownedBy c = _ := ownedBy_insert_escalation
          _ = _ := by rw [hd]
          _ = (d'.insert (.escalation e)).ownedBy c := ownedBy_insert_escalation.symm
      · rw [if_neg hc, if_neg hc]
  admits {d d' setting} hs _ := by
    rcases hs with hu | rfl
    · rw [admits_unscoped hu, admits_unscoped hu]
    · rw [admits_eq, admits_eq]
      rfl

end Escalations

/-! ## What a tool call adds -/

/-- An escalation of this customer and session, with an id of the sequence after `first`. -/
structure OwnEscalation (c : Int) (sessionId : Str) (first last : Int) (e : Escalation) : Prop where
  customer : e.customerId = c
  session : e.conversationId = sessionId
  first : first < e.id
  last : e.id ≤ last

/-- The store has the database `db` and new escalations of this customer and session: those `done` are
committed, and those `pending` are in the transaction. -/
structure Grown (c : Int) (sessionId : Str) (db : Database) (first : Int)
    (done pending : List Escalation) (store : ToolStore) : Prop where
  fresh : ∀ e ∈ db.escalations, e.id ≤ first
  le : first ≤ store.lastEscalation
  committed : store.world.committed = { db with escalations := db.escalations ++ done }
  staged : store.tx.pending = pending.map .escalation
  own : ∀ e ∈ done ++ pending, OwnEscalation c sessionId first store.lastEscalation e
  sorted : (done ++ pending).Pairwise fun e e' => e.id < e'.id

theorem foldl_insert_escalations (db : Database) (rows : List Escalation) :
    (rows.map Row.escalation).foldl Database.insert db =
      { db with escalations := db.escalations ++ rows } := by
  induction rows generalizing db with
  | nil => simp
  | cons row rows ih =>
    rw [List.map_cons, List.foldl_cons, ih]
    simp [Database.insert]

section Grown

variable {F : Type} {b : DbEngine F} {store store' : ToolStore} {r : DbRequest} {c : Int}
  {sessionId : Str} {db : Database} {first : Int} {done pending : List Escalation}

@[simp] theorem tx_setTx (store : ToolStore) (tx : Tx Row) :
    ToolStore.tx { store with world := store.world.setTx () tx } = tx := by
  simp [ToolStore.tx, World.setTx, Session.current]

theorem OwnEscalation.mono {first last last' : Int} {e : Escalation}
    (h : OwnEscalation c sessionId first last e) (hle : last ≤ last') :
    OwnEscalation c sessionId first last' e :=
  ⟨h.customer, h.session, h.first, h.last.trans hle⟩

/-- The transaction ends: its escalations are committed, or are no more. -/
theorem Grown.finish {commit : Bool} {after : Option Str}
    (h : Grown c sessionId db first done pending store) : ∃ done',
      Grown c sessionId db first done' []
        { store with world := finish (secured b.pg) store.world () commit after } := by
  have hpending := h.staged
  unfold RowSecurity.finish
  cases htx : (store.world.session ()).tx with
  | none =>
    refine ⟨done, ?_⟩
    rw [ToolStore.tx, Session.current, htx] at hpending
    obtain rfl : pending = [] := List.map_eq_nil_iff.mp hpending.symm
    exact h
  | some tx =>
    rw [ToolStore.tx, Session.current, htx] at hpending
    have hnone : ∀ world : World Unit (Option Str) Database Row,
        (world.session ()).tx = none → (world.session ()).current.pending = [] := by
      intro world hw
      rw [Session.current, hw]
      rfl
    by_cases hcommit : (commit && !tx.aborted) = true
    · refine ⟨done ++ pending, h.fresh, h.le, ?_, hnone _ (by simp), ?_, ?_⟩
      · simp only [hcommit, if_true]
        rw [show tx.pending = pending.map .escalation from hpending, h.committed]
        refine (foldl_insert_escalations _ pending).trans ?_
        rw [List.append_assoc]
      · rw [List.append_nil]
        exact h.own
      · rw [List.append_nil]
        exact h.sorted
    · refine ⟨done, h.fresh, h.le, ?_, hnone _ (by simp), fun e he => ?_, ?_⟩
      · simp only [if_neg hcommit]
        exact h.committed
      · rw [List.append_nil] at he
        exact h.own e (List.mem_append_left _ he)
      · rw [List.append_nil]
        exact h.sorted.sublist (List.sublist_append_left _ _)

/-- A request of the customer keeps what is committed. -/
theorem Grown.step (h : Grown c sessionId db first done pending store)
    (hr : Foreign c sessionId r = false) (hstep : StoreStep b store r store') :
    ∃ done' pending', Grown c sessionId db first done' pending' store' := by
  cases hstep with
  | same => exact ⟨done, pending, h⟩
  | statement aborted hle =>
    refine ⟨done, pending, h.fresh, h.le.trans hle, h.committed, ?_,
      fun e he => (h.own e he).mono hle, h.sorted⟩
    exact (congrArg Tx.pending (tx_setTx store _)).trans h.staged
  | entered htx =>
    refine ⟨done, [], h.fresh, h.le, h.committed, ?_, fun e he => ?_, ?_⟩
    · simp [ToolStore.tx, Session.current]
    · rw [List.append_nil] at he
      exact h.own e (List.mem_append_left _ he)
    · rw [List.append_nil]
      exact h.sorted.sublist (List.sublist_append_left _ _)
  | @inserted params row hrow hadmits =>
    have hown : OwnEscalation c sessionId first (store.lastEscalation + 1) row := by
      simp only [Foreign, Bool.or_eq_false_iff, decide_eq_false_iff_not, not_not] at hr
      subst hrow
      refine ⟨?_, ?_, ?_, Int.le_refl _⟩
      · simp [escalationRow, hr.1, SqlValue.integer]
      · simp [escalationRow, hr.2, SqlValue.text]
      · have := h.le
        simp only [escalationRow]
        omega
    have hid : row.id = store.lastEscalation + 1 := by rw [hrow]; rfl
    refine ⟨done, pending ++ [row], h.fresh, ?_, h.committed, ?_, ?_, ?_⟩
    · have := h.le
      change first ≤ store.lastEscalation + 1
      omega
    · refine (congrArg Tx.pending (tx_setTx store _)).trans ?_
      rw [h.staged, List.map_append]
      rfl
    · intro e he
      rw [← List.append_assoc] at he
      rcases List.mem_append.mp he with hold | hnew
      · exact (h.own e hold).mono (by change _ ≤ store.lastEscalation + 1; omega)
      · rw [List.mem_singleton.mp hnew]
        exact hown
    · rw [← List.append_assoc]
      refine List.pairwise_append.mpr ⟨h.sorted, List.pairwise_singleton _ _, fun e he e' he' => ?_⟩
      rw [List.mem_singleton.mp he', hid]
      have := (h.own e he).last
      omega
  | committed =>
    obtain ⟨done', hgrown⟩ := h.finish (b := b)
    exact ⟨done', [], hgrown⟩
  | rolledBack hr' =>
    obtain ⟨done', hgrown⟩ := h.finish (b := b)
    exact ⟨done', [], hgrown⟩

theorem Grown.serve (h : Grown c sessionId db first done pending store)
    (hr : Foreign c sessionId r = false) : ∃ done' pending',
      Grown c sessionId db first done' pending' (b.serve store r).2 := by
  obtain ⟨store', hstep, hserve⟩ := serve_step b store r
  obtain ⟨done', pending', hgrown⟩ := h.step hr hstep
  rw [hserve]
  exact ⟨done', pending', hgrown.fresh, hgrown.le, hgrown.committed, hgrown.staged,
    hgrown.own, hgrown.sorted⟩

end Grown

/-! ## What a customer cannot tell apart -/

/-- To the customer's connection the stores are the same. -/
structure StoreAlike (pg : Postgres) (c : Int) (store store' : ToolStore) : Prop where
  world : Alike (secured pg) (ScopeOf c) () store.world store'.world
  owned : store.world.committed.ownedBy c = store'.world.committed.ownedBy c
  last : store'.lastEscalation = store.lastEscalation
  served : store'.served = store.served

section Same

variable {F : Type} {b : DbEngine F} {store store' : ToolStore} {r : DbRequest} {c : Int}
  {sessionId : Str} {db db' : Database} {first : Int}
  {done done' pending pending' : List Escalation}

theorem ownedBy_insertAll (h : db.ownedBy c = db'.ownedBy c) (rows : List Escalation) :
    ((rows.map Row.escalation).foldl Database.insert db).ownedBy c =
      ((rows.map Row.escalation).foldl Database.insert db').ownedBy c := by
  induction rows generalizing db db' with
  | nil => exact h
  | cons row rows ih =>
    refine ih ?_
    rw [ownedBy_insert_escalation, ownedBy_insert_escalation, h]

/-- An end of the transaction. -/
theorem StoreAlike.finish (h : StoreAlike b.pg c store store')
    (hgrown : Grown c sessionId db first done pending store) (commit : Bool) (reset : Reset) :
    StoreAlike b.pg c
      { store with world := finish (secured b.pg) store.world () commit reset.value }
      { store' with world := finish (secured b.pg) store'.world () commit reset.value } := by
  refine ⟨h.world.finish (.inl (reset_unscoped reset)) commit, ?_, h.last, h.served⟩
  have hsession := h.world.session
  have hstaged := hgrown.staged
  unfold RowSecurity.finish
  rw [hsession]
  cases htx : (store.world.session ()).tx with
  | none => exact h.owned
  | some tx =>
    rw [ToolStore.tx, Session.current, htx] at hstaged
    by_cases hcommit : (commit && !tx.aborted) = true
    · simp only [hcommit, if_true]
      rw [show tx.pending = pending.map .escalation from hstaged]
      exact ownedBy_insertAll h.owned pending
    · simp only [if_neg hcommit]
      exact h.owned

/-- The constraints of the next escalation: its id is new. -/
theorem Grown.allows (h : Grown c sessionId db first done pending store) {row : Escalation}
    (hid : row.id = store.lastEscalation + 1) :
    allowsEscalation (seen (secured b.pg) store.world ()) row =
      ((store.world.committed.customers.any fun o => o.id = row.customerId) &&
        row.conversationId.length ≤ 64 && row.reason.length ≤ 128) := by
  have hseen : seen (secured b.pg) store.world () =
      { store.world.committed with
        escalations := store.world.committed.escalations ++ pending } := by
    unfold seen
    rw [show (store.world.session ()).current.pending = pending.map .escalation from h.staged]
    exact foldl_insert_escalations _ _
  have hnew : (store.world.committed.escalations ++ pending).any (fun o => decide (o.id = row.id)) =
      false := by
    rw [h.committed, List.any_eq_false]
    intro e he
    rw [hid]
    have hle : e.id ≤ store.lastEscalation := by
      rw [List.append_assoc] at he
      rcases List.mem_append.mp he with hold | hnew
      · exact (h.fresh e hold).trans h.le
      · exact (h.own e hnew).last
    simp only [decide_eq_true_eq]
    omega
  unfold allowsEscalation
  simp only [hseen, hnew]
  rfl

/-- Whether a customer exists is the customer's own to know. -/
theorem any_customer (db : Database) (c : Int) :
    (db.customers.any fun o => o.id = c) = (db.ownedBy c).customers.any fun _ => true := by
  have howned : (db.ownedBy c).customers = db.customers.filter fun o => decide (o.id = c) := rfl
  rw [howned, List.any_filter]
  simp

theorem read_alike {α : Type} (fetch : Database → Except Exc α) (h : StoreAlike b.pg c store store') :
    (b.read store fetch).1 = (b.read store' fetch).1 ∧
      StoreAlike b.pg c (b.read store fetch).2 (b.read store' fetch).2 := by
  obtain ⟨hout, hworld⟩ := h.world.select
  obtain ⟨aborted, hw⟩ := select_tx (secured b.pg) store.world ()
  obtain ⟨aborted', hw'⟩ := select_tx (secured b.pg) store'.world ()
  have howned : ((select (secured b.pg) store.world ()).1.committed).ownedBy c =
      ((select (secured b.pg) store'.world ()).1.committed).ownedBy c := by
    rw [hw, hw']
    exact h.owned
  unfold DbEngine.read
  simp only [← hout]
  split
  · exact ⟨rfl, hworld, howned, h.last, h.served⟩
  · exact ⟨rfl, hworld.fail, howned, h.last, h.served⟩

theorem insertEscalation_alike (h : StoreAlike b.pg c store store')
    (hgrown : Grown c sessionId db first done pending store)
    (hgrown' : Grown c sessionId db' first done' pending' store') (params : Params) :
    (b.insertEscalation store params).1 = (b.insertEscalation store' params).1 ∧
      StoreAlike b.pg c (b.insertEscalation store params).2 (b.insertEscalation store' params).2 := by
  unfold DbEngine.insertEscalation
  rw [h.last, h.served]
  generalize hrow : escalationRow params (store.lastEscalation + 1) (b.now store.served) = row
  have hid : row.id = store.lastEscalation + 1 := by rw [← hrow]; rfl
  have hid' : row.id = store'.lastEscalation + 1 := by rw [hid, h.last]
  have haccepted : (secured b.pg).admits (store.world.session ()).setting
      (seen (secured b.pg) store.world ()) (.escalation row) = .ok true →
      (allowsEscalation (seen (secured b.pg) store.world ()) row && b.accepts row) =
        (allowsEscalation (seen (secured b.pg) store'.world ()) row && b.accepts row) := by
    intro hadmits
    rw [hgrown.allows hid, hgrown'.allows hid']
    rcases h.world.setting with hu | hs
    · rw [admits_unscoped hu] at hadmits
      cases hadmits
    · rw [hs] at hadmits
      rw [(admits_scope hadmits).2, any_customer, any_customer, h.owned]
  obtain ⟨hout, hworld⟩ := h.world.insert escalation_inert haccepted
  have howned : ∀ accepted accepted' : Bool,
      ((insert (secured b.pg) store.world () (.escalation row) accepted).1.committed).ownedBy c =
        ((insert (secured b.pg) store'.world () (.escalation row) accepted').1.committed).ownedBy c := by
    intro accepted accepted'
    obtain ⟨tx, hw⟩ := insert_world (secured b.pg) store.world () (.escalation row) accepted
    obtain ⟨tx', hw'⟩ := insert_world (secured b.pg) store'.world () (.escalation row) accepted'
    rw [hw, hw']
    exact h.owned
  simp only [← hout, h.world.session]
  exact ⟨trivial, hworld, howned _ _, rfl, rfl⟩

theorem refuse_alike (h : StoreAlike b.pg c store store')
    (hgrown : Grown c sessionId db first done pending store) (e : Exc) :
    (b.refuse store e r).1 = (b.refuse store' e r).1 ∧
      StoreAlike b.pg c (b.refuse store e r).2 (b.refuse store' e r).2 := by
  obtain ⟨world', last', served'⟩ := store'
  obtain rfl : served' = store.served := h.served
  cases r with
  | connect => exact ⟨rfl, h⟩
  | execute statement params => exact ⟨rfl, h.world.fail, h.owned, h.last, h.served⟩
  | commit => exact ⟨rfl, h.finish hgrown _ _⟩
  | rollback => exact ⟨rfl, h.finish hgrown _ _⟩

theorem answer_alike (h : StoreAlike b.pg c store store')
    (hgrown : Grown c sessionId db first done pending store)
    (hgrown' : Grown c sessionId db' first done' pending' store') (hr : Foreign c sessionId r = false) :
    (b.answer store r).1 = (b.answer store' r).1 ∧
      StoreAlike b.pg c (b.answer store r).2 (b.answer store' r).2 := by
  obtain ⟨world', last', served'⟩ := store'
  obtain rfl : served' = store.served := h.served
  cases r with
  | connect => exact ⟨rfl, h⟩
  | commit => exact ⟨rfl, h.finish hgrown _ _⟩
  | rollback => exact ⟨rfl, h.finish hgrown _ _⟩
  | execute statement params =>
    simp only [DbEngine.answer, DbEngine.send]
    cases bindParams params with
    | error e => exact ⟨rfl, h⟩
    | ok values =>
    cases statement with
    | selectOrder => exact read_alike _ h
    | selectOrders => exact read_alike _ h
    | insertEscalation => exact insertEscalation_alike h hgrown hgrown' params
    | setConfig =>
      simp only [Foreign, decide_eq_false_iff_not, not_not] at hr
      have hscope : ScopeOf c (param params "customer_id").text := by
        subst hr
        exact .inr (by simp [param, SqlValue.text])
      simp only [DbEngine.execute]
      rcases h.world.enter (ε := Exc) hscope with ⟨w, w', hw, hw', halike⟩ | ⟨e, hw, hw'⟩
      · simp only [hw, hw']
        have howned : w.committed.ownedBy c = w'.committed.ownedBy c := by
          rcases enter_tx (ε := Exc) store.world () (param params "customer_id").text with
            ⟨-, henter⟩ | henter <;> rw [henter] at hw <;> cases hw
          rcases enter_tx (ε := Exc) world' () (param params "customer_id").text with
            ⟨-, henter'⟩ | henter' <;> rw [henter'] at hw' <;> cases hw'
          exact h.owned
        exact ⟨trivial, halike, howned, h.last, h.served⟩
      · simp only [hw, hw']
        exact ⟨trivial, h⟩

/-- A request of the customer is answered alike. -/
theorem serve_alike (h : StoreAlike b.pg c store store')
    (hgrown : Grown c sessionId db first done pending store)
    (hgrown' : Grown c sessionId db' first done' pending' store') (hr : Foreign c sessionId r = false) :
    (b.serve store r).1 = (b.serve store' r).1 ∧
      StoreAlike b.pg c (b.serve store r).2 (b.serve store' r).2 := by
  unfold DbEngine.serve
  rw [h.served]
  cases b.fails store.served r with
  | some e =>
    obtain ⟨hans, hs⟩ := refuse_alike (r := r) h hgrown e
    exact ⟨hans, hs.world, hs.owned, hs.last, rfl⟩
  | none =>
    obtain ⟨hans, hs⟩ := answer_alike h hgrown hgrown' hr
    exact ⟨hans, hs.world, hs.owned, hs.last, rfl⟩

/-- Alike stores that have grown from the databases `db` and `db'`. -/
structure AlikeFrom (pg : Postgres) (c : Int) (sessionId : Str) (db db' : Database) (first : Int)
    (store store' : ToolStore) : Prop where
  alike : StoreAlike pg c store store'
  grown : ∃ done pending, Grown c sessionId db first done pending store
  grown' : ∃ done pending, Grown c sessionId db' first done pending store'

theorem AlikeFrom.serve (h : AlikeFrom b.pg c sessionId db db' first store store')
    (hr : Foreign c sessionId r = false) :
    (b.serve store r).1 = (b.serve store' r).1 ∧
      AlikeFrom b.pg c sessionId db db' first (b.serve store r).2 (b.serve store' r).2 := by
  obtain ⟨halike, ⟨rows, pending, hgrown⟩, rows', pending', hgrown'⟩ := h
  obtain ⟨hans, halike'⟩ := serve_alike halike hgrown hgrown' hr
  obtain ⟨_, _, hnext⟩ := hgrown.serve (b := b) hr
  obtain ⟨_, _, hnext'⟩ := hgrown'.serve (b := b) hr
  exact ⟨hans, halike', ⟨_, _, hnext⟩, _, _, hnext'⟩

end Same

end DealershipAgent.Server
