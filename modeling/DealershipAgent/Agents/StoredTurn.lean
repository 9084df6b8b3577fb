import DealershipAgent.Agents.Escalation
import DealershipAgent.Agents.LeastPrivilege
import DealershipAgent.Tools.Identity
import DealershipAgent.Tools.Isolation
import DealershipAgent.Tools.StoreResults

/-!
# Turns over the database

A turn of the supervisor whose tool calls go to a tool server of its own, and from there to the database.
The LLM may answer by all that has happened in the turn so far.

* `playTurn`: the run of a turn over a store.
* `turn_noninterference`: on databases with the same rows of the customer it asks, is answered and ends
  the same, whatever else is in them and whatever fails.
* `turn_ledger`: what it leaves in the database is what was there, and event by event the escalations
  that its tool calls were told of, of its own customer and of the session that the tool server reads.
-/

namespace DealershipAgent

open Py Json Interact RowSecurity Server

/-! ## The run of a turn -/

/-- What is not the tool server's: the completions, and the calls that do not reach the server. -/
structure Outside (F : Type) where
  complete : TurnTrace F → Node → List Message → Str → Except Exc Str
  lost : TurnTrace F → Option Exc

section Play

variable {F : Type} [PyFloat F] [Unicode]

/-- The tool server over its database, and what is outside of it. -/
structure Deployment (F : Type) where
  backend : DbEngine F
  sqlAlchemy : SqlAlchemy
  mcp : FastMcp F
  outside : Outside F

/-- A request of a turn; `identity` is the tool server's. -/
def Deployment.env (d : Deployment F) (identity : Option RequestIdentity) :
    StateEnv ToolStore (Node × Request F) fun r => Answer r.2
  | h, store, (n, .complete messages model) => (d.outside.complete h n messages model, store)
  | h, store, (_, .callTool name arguments) =>
    match d.outside.lost h with
    | some e => (.error e, store)
    | none =>
      let called := d.backend.callTool d.sqlAlchemy d.mcp identity store name arguments
      (called.out, called.state)

def Deployment.playTurn (d : Deployment F) (served : Option RequestIdentity) (runner : Runner F)
    (sched : Nat → Nat → Nat → Bool) (identity : RequestIdentity) (messages : List Message)
    (store : ToolStore) :
    Played ToolStore (Node × Request F) (fun r => Answer r.2) Raised (List Node × GraphState F) :=
  play (d.env served) [] store (runTurn runner sched identity messages)

end Play

/-! ## What the customer cannot tell apart -/

/-- The ids of the escalations come from the sequence. -/
def Fresh (store : ToolStore) : Prop :=
  ∀ e ∈ store.world.committed.escalations, e.id ≤ store.lastEscalation

/-- Between two requests of a turn, the stores differ in the rows of other customers only. -/
structure SameToCustomer (c : Int) (store store' : ToolStore) : Prop where
  owned : store.world.committed.ownedBy c = store'.world.committed.ownedBy c
  session : store'.world.session () = store.world.session ()
  last : store'.lastEscalation = store.lastEscalation
  served : store'.served = store.served
  idle : store.Idle
  fresh : Fresh store
  fresh' : Fresh store'

section Calls

variable {c : Int} {store store' : ToolStore}

theorem Fresh.grown (h : Fresh store) (hidle : store.Idle) (sessionId : Str) :
    Grown c sessionId store.world.committed store.lastEscalation [] [] store where
  fresh := h
  le := Int.le_refl _
  committed := by rw [List.append_nil]
  staged := by
    rw [ToolStore.tx, Session.current, hidle.tx]
    rfl
  own e he := by cases he
  sorted := .nil

theorem fresh_of_grown {sessionId : Str} {db : Database} {first : Int} {done : List Escalation}
    (h : Grown c sessionId db first done [] store) : Fresh store := by
  intro e he
  rw [h.committed] at he
  rcases List.mem_append.mp he with hold | hnew
  · exact (h.fresh e hold).trans h.le
  · exact (h.own e (by simpa using hnew)).last

variable {identity : RequestIdentity}

theorem spares_foreign (hc : identity.customerId = some c) :
    Spares (some identity) (Foreign c identity.sessionId) := by
  intro c' hc' r hr
  unfold scopedCustomer at hc'
  rw [Option.bind_some, hc] at hc'
  cases hc'
  exact hr

variable {F : Type} [PyFloat F] [Unicode] {b : DbEngine F} {sa : SqlAlchemy} {mcp : FastMcp F}
  {name : Str} {arguments : Json F}

variable (b sa mcp name arguments) in
/-- A tool call adds escalations of its customer and session, and ends its transaction. -/
theorem callTool_adds {db : Database} {first : Int} {done : List Escalation}
    (hc : identity.customerId = some c)
    (h : Grown c identity.sessionId db first done [] store) (hidle : store.Idle) :
    (∃ rows, Grown c identity.sessionId db first rows []
      (b.callTool sa mcp (some identity) store name arguments).state) ∧
    (b.callTool sa mcp (some identity) store name arguments).state.Idle := by
  have hkeeps : Keeps (fun _ => b.serve)
      (fun s => Settled c s ∧ ∃ rows pending, Grown c identity.sessionId db first rows pending s)
      (Server.callTool sa mcp (some identity) name arguments) :=
    (callTool_asks (spares_foreign hc)).keeps fun h s r hr hs => by
      obtain ⟨hsettled, rows, pending, hgrown⟩ := hs
      exact ⟨hsettled.serve hr, hgrown.serve hr⟩
  obtain ⟨hsettled, rows, pending, hgrown⟩ := hkeeps [] store ⟨hidle.settled, done, [], h⟩
  have hnone : NoTx (b.callTool sa mcp (some identity) store name arguments).state :=
    callTool_noTx [] store hidle.tx
  have hpending : pending = [] := by
    have hstaged := hgrown.staged
    rw [ToolStore.tx, Session.current] at hstaged
    unfold NoTx DbEngine.callTool at hnone
    rw [hnone] at hstaged
    exact List.map_eq_nil_iff.mp hstaged.symm
  subst hpending
  exact ⟨⟨rows, hgrown⟩, hnone, hsettled.blank hnone⟩

variable (b sa mcp name arguments) in
/-- A tool call gives the same on stores that are the same to its customer, and leaves them so. -/
theorem callTool_alike (hc : identity.customerId = some c) (h : SameToCustomer c store store') :
    (b.callTool sa mcp (some identity) store name arguments).out =
      (b.callTool sa mcp (some identity) store' name arguments).out ∧
    StoreAlike b.pg c (b.callTool sa mcp (some identity) store name arguments).state
      (b.callTool sa mcp (some identity) store' name arguments).state := by
  have hidle' : store'.Idle := ⟨by rw [h.session, h.idle.tx], by rw [h.session]; exact h.idle.setting⟩
  have halike : StoreAlike b.pg c store store' := by
    refine ⟨⟨sameUnder_of_ownedBy h.owned, h.session, .inl h.idle.setting, fun r hr => ?_⟩, h.owned,
      h.last, h.served⟩
    rw [Session.current, h.idle.tx] at hr
    cases hr
  have hgrown' : Grown c identity.sessionId store'.world.committed store.lastEscalation [] [] store' :=
    h.last ▸ h.fresh'.grown hidle' _
  have hserve : ∀ (h : List (Event DbRequest (DbAnswer F))) (s s' : ToolStore) (r : DbRequest),
      Foreign c identity.sessionId r = false →
      AlikeFrom b.pg c identity.sessionId store.world.committed store'.world.committed
        store.lastEscalation s s' → (b.serve s r).1 = (b.serve s' r).1 ∧
      AlikeFrom b.pg c identity.sessionId store.world.committed store'.world.committed
        store.lastEscalation (b.serve s r).2 (b.serve s' r).2 :=
    fun _ _ _ _ hr hs => hs.serve hr
  obtain ⟨-, hout, hstate⟩ := play_alike (h := []) hserve (callTool_asks (spares_foreign hc))
    ⟨halike, ⟨_, _, h.fresh.grown h.idle _⟩, _, _, hgrown'⟩
  exact ⟨hout, hstate.alike⟩

theorem SameToCustomer.callTool (hc : identity.customerId = some c)
    (h : SameToCustomer c store store') :
    (b.callTool sa mcp (some identity) store name arguments).out =
      (b.callTool sa mcp (some identity) store' name arguments).out ∧
    SameToCustomer c (b.callTool sa mcp (some identity) store name arguments).state
      (b.callTool sa mcp (some identity) store' name arguments).state := by
  have hidle' : store'.Idle := ⟨by rw [h.session, h.idle.tx], by rw [h.session]; exact h.idle.setting⟩
  obtain ⟨hout, halike⟩ := callTool_alike b sa mcp name arguments hc h
  obtain ⟨⟨rows, hgrown⟩, hidle⟩ :=
    callTool_adds b sa mcp name arguments hc (h.fresh.grown h.idle _) h.idle
  obtain ⟨⟨rows', hgrown'⟩, -⟩ :=
    callTool_adds b sa mcp name arguments hc (h.fresh'.grown hidle' _) hidle'
  exact ⟨hout, halike.owned, halike.world.session, halike.last, halike.served, hidle, fresh_of_grown hgrown,
    fresh_of_grown hgrown'⟩

end Calls

/-! ## The escalations of a turn -/

section Ledger

variable {F : Type} [PyFloat F] [Unicode] {d : Deployment F} {identity : RequestIdentity} {c : Int}
  {store s : ToolStore} {rows : List Escalation}

/-- The answer is that of a handoff that has succeeded. -/
def Acknowledges : Event (Node × Request F) (fun r => Answer r.2) → Prop
  | ⟨(_, .callTool name _), .ok result⟩ => name = str "escalate_to_human" ∧ result.isError = false
  | _ => False

variable (d) in
/-- What an event has left in the database. -/
inductive Filed : Event (Node × Request F) (fun r => Answer r.2) → List Escalation → Prop
  | acknowledged (n : Node) (arguments : Json F) (e : Escalation) :
      Filed ⟨(n, .callTool (str "escalate_to_human") arguments),
        .ok (toolResult d.mcp (str "escalate_to_human") (.ok (d.backend.acknowledgement e)))⟩ [e]
  /-- The commit failed after it was done. -/
  | unacknowledged (n : Node) (arguments : Json F) (e : Escalation) (error : Exc) :
      Filed ⟨(n, .callTool (str "escalate_to_human") arguments),
        .ok (toolResult d.mcp (str "escalate_to_human") (.error error))⟩ [e]
  | nothing {ev : Event (Node × Request F) (fun r => Answer r.2)} : ¬ Acknowledges ev → Filed ev []

/-- Between two requests of a turn: the escalations that it has added. -/
structure Ledger (c : Int) (sessionId : Str) (store : ToolStore) (rows : List Escalation)
    (s : ToolStore) : Prop where
  grown : Grown c sessionId store.world.committed store.lastEscalation rows [] s
  idle : s.Idle

omit [Unicode] in
/-- What is new in the database is the new escalations. -/
theorem grown_inj {sessionId : Str} {db : Database} {first : Int} {rows' : List Escalation}
    {s' : ToolStore} {new : List Escalation} (h : Grown c sessionId db first rows [] s)
    (h' : Grown c sessionId db first rows' [] s')
    (hnew : s'.world.committed =
      { s.world.committed with escalations := s.world.committed.escalations ++ new }) :
    rows' = rows ++ new := by
  rw [h'.committed, h.committed] at hnew
  have hescalations := congrArg Database.escalations hnew
  simpa using hescalations

/-- One request: what it leaves in the database. -/
theorem env_files (h : TurnTrace F) (hc : identity.customerId = some c)
    (hledger : Ledger c identity.sessionId store rows s) (r : Node × Request F) :
    ∃ new, Filed d ⟨r, (d.env (some identity) h s r).1⟩ new ∧
      Ledger c identity.sessionId store (rows ++ new) (d.env (some identity) h s r).2 := by
  obtain ⟨n, r⟩ := r
  cases r with
  | complete messages model =>
    exact ⟨[], .nothing (by simp [Acknowledges]), by simpa [Deployment.env] using hledger⟩
  | callTool name arguments =>
    simp only [Deployment.env]
    cases d.outside.lost h with
    | some e => exact ⟨[], .nothing (by simp [Acknowledges]), by simpa using hledger⟩
    | none =>
      obtain ⟨⟨rows', hgrown⟩, hidle⟩ :=
        callTool_adds d.backend d.sqlAlchemy d.mcp name arguments hc hledger.grown hledger.idle
      obtain ⟨result, hout, hend⟩ := callTool_serves hledger.idle (play_serves timePasses_refl d.backend.serve [] s
        (Server.callTool d.sqlAlchemy d.mcp (some identity) name arguments))
      unfold DbEngine.callTool at hgrown hidle ⊢
      generalize play (fun _ => d.backend.serve) [] s
        (Server.callTool d.sqlAlchemy d.mcp (some identity) name arguments) = called at *
      obtain ⟨trace, out, s'⟩ := called
      simp only at hgrown hidle hout hend ⊢
      subst hout
      have hledger' : ∀ new : List Escalation, s'.world.committed =
          { s.world.committed with escalations := s.world.committed.escalations ++ new } →
          Ledger c identity.sessionId store (rows ++ new) s' := fun new hnew =>
        grown_inj hledger.grown hgrown hnew ▸ ⟨hgrown, hidle⟩
      have hsame : s'.world.committed = s.world.committed →
          Ledger c identity.sessionId store (rows ++ []) s' := fun hdb =>
        hledger' [] (by rw [hdb, List.append_nil])
      generalize hdb : s'.world.committed = db at hend hledger' hsame
      cases hend with
      | failed e => exact ⟨[], .nothing (by simp [Acknowledges, toolResult]), hsame rfl⟩
      | status hname =>
        exact ⟨[], .nothing fun hack => absurd (hname.symm.trans hack.1) (by decide), hsame rfl⟩
      | orders hname =>
        exact ⟨[], .nothing fun hack => absurd (hname.symm.trans hack.1) (by decide), hsame rfl⟩
      | escalated e hname =>
        subst hname
        exact ⟨[e], .acknowledged n arguments e, hledger' [e] rfl⟩
      | unacknowledged e error hname =>
        subst hname
        exact ⟨[e], .unacknowledged n arguments e error, hledger' [e] rfl⟩
      | publicTool _ _ hname => exact ⟨[], .nothing fun hack => hname hack.1, hsame rfl⟩

end Ledger

/-! ## Turns -/

section Turn

variable {F : Type} [PyFloat F] [Unicode] {d : Deployment F} {runner : Runner F}
  {sched : Nat → Nat → Nat → Bool} {identity : RequestIdentity} {messages : List Message} {c : Int}
  {store store' : ToolStore} {served : Option RequestIdentity}
  {getDefaultEnvironment : Environ → EnvDict} {parent : Environ}

/-- Noninterference: a turn of a customer asks the same, is answered the same and ends the same on
databases with the same rows of the customer, and leaves them so. -/
theorem turn_noninterference (hd : Inherited getDefaultEnvironment) (hs : identity.sessionId ≠ [])
    (hc : identity.customerId = some c)
    (hserved : identityInChild getDefaultEnvironment parent identity = .ok served)
    (h : SameToCustomer c store store') :
    (d.playTurn served runner sched identity messages store).trace =
      (d.playTurn served runner sched identity messages store').trace ∧
    (d.playTurn served runner sched identity messages store).out =
      (d.playTurn served runner sched identity messages store').out ∧
    SameToCustomer c (d.playTurn served runner sched identity messages store).state
      (d.playTurn served runner sched identity messages store').state := by
  obtain ⟨session, rfl, -⟩ := identityInChild_served hd hs hc hserved
  refine play_alike (fun h s s' r _ hs => ?_) .never h
  obtain ⟨n, r⟩ := r
  cases r with
  | complete messages model => exact ⟨rfl, hs⟩
  | callTool name arguments =>
    simp only [Deployment.env]
    cases d.outside.lost h with
    | some e => exact ⟨rfl, hs⟩
    | none => exact hs.callTool rfl

/-- What each event of a turn has left in the database is there after it, of the turn's own customer and
of the session that the tool server reads (the turn's own, if that passes the environment), and nothing
else has changed; no transaction is left open. -/
theorem turn_ledger (hd : Inherited getDefaultEnvironment) (hs : identity.sessionId ≠ [])
    (hc : identity.customerId = some c)
    (hserved : identityInChild getDefaultEnvironment parent identity = .ok served)
    (hfresh : Fresh store) (hidle : store.Idle) :
    ∃ session : Str, served = some ⟨session, some c⟩ ∧
      (Passes identity.sessionId → session = identity.sessionId) ∧
      (∃ filed : List (List Escalation),
        List.Forall₂ (Filed d) (d.playTurn served runner sched identity messages store).trace filed ∧
        (d.playTurn served runner sched identity messages store).state.world.committed =
          { store.world.committed with
            escalations := store.world.committed.escalations ++ filed.flatten } ∧
        (∀ e ∈ filed.flatten, e.customerId = c ∧ e.conversationId = session ∧
          store.lastEscalation < e.id) ∧
        filed.flatten.Pairwise fun e e' => e.id < e'.id) ∧
      (d.playTurn served runner sched identity messages store).state.Idle := by
  obtain ⟨session, rfl, hpass⟩ := identityInChild_served hd hs hc hserved
  have hkeep : ∀ (h : TurnTrace F) (s : ToolStore) (r : Node × Request F),
      (∃ filed, List.Forall₂ (Filed d) h filed ∧ Ledger c session store filed.flatten s) →
      ∃ filed, List.Forall₂ (Filed d)
          (h ++ [⟨r, (d.env (some ⟨session, some c⟩) h s r).1⟩]) filed ∧
        Ledger c session store filed.flatten (d.env (some ⟨session, some c⟩) h s r).2 := by
    rintro h s r ⟨filed, hfiled, hledger⟩
    obtain ⟨rows, hrows, hnext⟩ := @env_files _ _ _ d ⟨session, some c⟩ _ _ _ _ h rfl hledger r
    refine ⟨filed ++ [rows], List.rel_append hfiled (.cons hrows .nil), ?_⟩
    rwa [List.flatten_append, List.flatten_singleton]
  obtain ⟨filed, hfiled, hgrown, hidle'⟩ := play_history hkeep (runTurn runner sched identity messages)
    (h := []) (s := store) ⟨[], .nil, hfresh.grown hidle _, hidle⟩
  have hown := hgrown.own
  have hsorted := hgrown.sorted
  rw [List.append_nil] at hown hsorted
  exact ⟨session, rfl, hpass, ⟨filed, hfiled, hgrown.committed, fun e he => ⟨(hown e he).customer,
    (hown e he).session, (hown e he).first⟩, hsorted⟩, hidle'⟩

end Turn

/-! ## A handoff over a database -/

/-- The router hands the customer over. -/
def handoffDeployment : Deployment FloatLiteral where
  backend := shopEngine FloatLiteral
  sqlAlchemy := deskSqlAlchemy
  mcp := deskMcp FloatLiteral
  outside := {
    complete _ n _ _ := .ok (if n = .router then
      "\x7b\"routes\": [\"escalate\"], \"escalate_reason\": \"a complaint\"\x7d" else "Done.")
    lost _ := none }

def handoffPlay (others : List Order) :
    Played ToolStore (Node × Request FloatLiteral) (fun r => Answer r.2) Raised
      (List Node × GraphState FloatLiteral) :=
  @Deployment.playTurn _ _ asciiUnicode handoffDeployment (some ⟨"s-1", some 7⟩) deskRunner
    (fun _ _ _ => true) ⟨"s-1", some 7⟩ [⟨.user, "Help"⟩] (shopStore others)

theorem shopStore_fresh (others : List Order) : Fresh (shopStore others) := nofun

theorem served_customer7 : @identityInChild asciiUnicode posixDefaultEnvironment []
    ⟨"s-1", some 7⟩ = .ok (some ⟨"s-1", some 7⟩) := by
  let _ := asciiUnicode
  refine identityInChild_authenticated posixDefaultEnvironment_inherited (by decide)
    (passes_of_ascii (by decide)) (fun c hc => ?_) rfl
  cases hc
  decide

theorem handoffPlay_noninterference :
    (handoffPlay []).trace = (handoffPlay [shopOrder 10 1]).trace ∧
    (handoffPlay []).out = (handoffPlay [shopOrder 10 1]).out ∧
    SameToCustomer 7 (handoffPlay []).state (handoffPlay [shopOrder 10 1]).state := by
  unfold handoffPlay
  exact @turn_noninterference _ _ asciiUnicode handoffDeployment deskRunner (fun _ _ _ => true)
    ⟨"s-1", some 7⟩ [⟨.user, "Help"⟩] 7 (shopStore []) (shopStore [shopOrder 10 1])
    (some ⟨"s-1", some 7⟩) _ []
    posixDefaultEnvironment_inherited (by decide) rfl served_customer7
    ⟨rfl, rfl, rfl, rfl, shopStore_idle _, shopStore_fresh _, shopStore_fresh _⟩

theorem handoffPlay_ledger :
    ∃ session : Str, (some ⟨"s-1", some 7⟩ : Option RequestIdentity) = some ⟨session, some 7⟩ ∧
      (Passes "s-1" → session = "s-1") ∧
      (∃ filed : List (List Escalation),
        List.Forall₂ (Filed handoffDeployment) (handoffPlay []).trace filed ∧
        (handoffPlay []).state.world.committed =
          { (shopStore []).world.committed with
            escalations := (shopStore []).world.committed.escalations ++ filed.flatten } ∧
        (∀ e ∈ filed.flatten, e.customerId = 7 ∧ e.conversationId = session ∧
          (shopStore []).lastEscalation < e.id) ∧
        filed.flatten.Pairwise fun e e' => e.id < e'.id) ∧
      (handoffPlay []).state.Idle := by
  unfold handoffPlay
  exact @turn_ledger FloatLiteral _ asciiUnicode handoffDeployment deskRunner (fun _ _ _ => true)
    ⟨"s-1", some 7⟩ [⟨.user, "Help"⟩] 7 (shopStore []) (some ⟨"s-1", some 7⟩) _ []
    posixDefaultEnvironment_inherited (by decide) rfl served_customer7 (shopStore_fresh _)
    (shopStore_idle _)

end DealershipAgent
