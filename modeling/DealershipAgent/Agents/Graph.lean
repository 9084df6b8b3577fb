import DealershipAgent.Agents.Nodes
import DealershipAgent.Interact.Graph

/-!
# The supervisor graph

`agents/graph.py` and `agents/runner.py`: the nodes with their edges, and a turn.

* `buildSupervisorGraph`: the graph.
* `runTurn`: a turn, with the nodes that it visits.
-/

namespace DealershipAgent

open Py Json Interact

/-- The nodes of the graph. -/
inductive Node where
  | intake
  | router
  | salesAgent
  | accountAgent
  | merge
  | escalate
  | clarify
  | synthesis
  | verifyClaims
deriving DecidableEq, Repr

section Edges

variable {F : Type}

/-- `_route_after_intake` -/
def routeAfterIntake (st : GraphState F) : Node :=
  if st.routes = [.clarify] then .clarify else .router

/-- `_routes_after_router` -/
def routesAfterRouter (st : GraphState F) : List Node :=
  if .clarify ∈ st.routes then [.clarify]
  else if .escalate ∈ st.routes then [.escalate]
  else
    let destinations := (if .sales ∈ st.routes then [Node.salesAgent] else []) ++
      if .account ∈ st.routes then [Node.accountAgent] else []
    if destinations.isEmpty then [.clarify] else destinations

/-- `_route_after_merge` -/
def routeAfterMerge (st : GraphState F) : Node :=
  if anyResultNeedsEscalation st then .escalate else .synthesis

/-- The edges; no successor stands for `END`. -/
def nextNodes (node : Node) (st : GraphState F) : List Node :=
  match node with
  | .intake => [routeAfterIntake st]
  | .router => routesAfterRouter st
  | .salesAgent => [.merge]
  | .accountAgent => [.merge]
  | .merge => [routeAfterMerge st]
  | .escalate => [.synthesis]
  | .clarify => []
  | .synthesis => [.verifyClaims]
  | .verifyClaims => []

/-- How many supersteps a node and what follows it can take. -/
def Node.rank : Node → Nat
  | .intake => 7
  | .router => 6
  | .salesAgent => 5
  | .accountAgent => 5
  | .merge => 4
  | .escalate => 3
  | .synthesis => 2
  | .clarify => 1
  | .verifyClaims => 1

/-- The edges go down. -/
theorem rank_nextNodes (m : Node) (st : GraphState F) :
    ∀ m' ∈ nextNodes m st, m'.rank < m.rank := by
  intro m' hm'
  cases m with
  | intake =>
    obtain rfl := List.mem_singleton.mp hm'
    unfold routeAfterIntake
    by_cases h : st.routes = [.clarify] <;> simp [h, Node.rank]
  | router =>
    have hall : ∀ m ∈ routesAfterRouter st, m.rank ≤ 5 := by
      intro m hm
      unfold routesAfterRouter at hm
      by_cases hc : Route.clarify ∈ st.routes <;> by_cases he : Route.escalate ∈ st.routes <;>
        by_cases hs : Route.sales ∈ st.routes <;> by_cases ha : Route.account ∈ st.routes <;>
        simp [hs, ha, hc, he] at hm <;> rcases hm with rfl | rfl <;> decide
    have := hall m' hm'
    change m'.rank < 6
    omega
  | merge =>
    obtain rfl := List.mem_singleton.mp hm'
    unfold routeAfterMerge
    by_cases h : anyResultNeedsEscalation st = true <;> simp [h, Node.rank]
  | clarify => cases hm'
  | verifyClaims => cases hm'
  | _ =>
    obtain rfl := List.mem_singleton.mp hm'
    decide

end Edges

section Turn

variable {F : Type} [PyFloat F] [Unicode]

/-- What a turn runs with. LangGraph's limit of supersteps is one that the longest path fits in. -/
structure Runner (F : Type) where
  settings : Settings
  /-- The tools that the session lists. -/
  registered : List (RegisteredTool F)
  recursionLimit : Nat := 25
  longestPath : 7 ≤ recursionLimit := by decide

/-- A program of the graph, with the asking node in each request. -/
abbrev TurnProgram (F α : Type) : Type :=
  Prog (Node × Request F) (fun r => Answer r.2) Raised α

/-- The events of a turn. -/
abbrev TurnTrace (F : Type) : Type := List (Event (Node × Request F) fun r => Answer r.2)

/-- `build_supervisor_graph` -/
def buildSupervisorGraph (settings : Settings) (salesAgent accountAgent : SubAgent F) :
    Graph Node (GraphState F) (StateUpdate F) (Request F) Answer Raised where
  node
    | .intake, st => intakeNode st
    | .router, st => routerNode settings st
    | .salesAgent, st => salesAgentNode settings salesAgent st
    | .accountAgent, st => accountAgentNode settings accountAgent st
    | .merge, st => mergeNode st
    | .escalate, st => escalateNode accountAgent st
    | .clarify, st => clarifyNode st
    | .synthesis, st => synthesisNode settings st
    | .verifyClaims, st => verifyClaimsNode settings st
  next := nextNodes
  apply := GraphState.apply

omit [PyFloat F] [Unicode] in
/-- `GraphRecursionError` -/
def recursionError (limit : Nat) : Raised :=
  .code ⟨.other "GraphRecursionError", str "Recursion limit of " ++ intRepr limit ++
    str " reached without hitting a stop condition."⟩

omit [PyFloat F] [Unicode] in
/-- `initial_state` -/
def initialState (identity : RequestIdentity) (messages : List Message) : GraphState F :=
  { messages := messages, identity := identity }

/-- A turn: the nodes that it visits and the last state. -/
def runTurn (runner : Runner F) (sched : Nat → Nat → Nat → Bool) (identity : RequestIdentity)
    (messages : List Message) : TurnProgram F (List Node × GraphState F) := do
  let salesAgent ← .lift ((buildSalesAgent runner.registered).mapError Raised.code)
  let accountAgent ← .lift ((buildAccountAgent runner.registered).mapError Raised.code)
  (buildSupervisorGraph runner.settings salesAgent accountAgent).run sched
    (recursionError runner.recursionLimit) runner.recursionLimit [.intake]
    (initialState identity messages)

/-- A turn with its sub-agents built. -/
theorem runTurn_eq {runner : Runner F} {salesAgent accountAgent : SubAgent F}
    (hs : buildSalesAgent runner.registered = .ok salesAgent)
    (ha : buildAccountAgent runner.registered = .ok accountAgent)
    (sched : Nat → Nat → Nat → Bool) (identity : RequestIdentity) (messages : List Message) :
    runTurn runner sched identity messages =
      (buildSupervisorGraph runner.settings salesAgent accountAgent).run sched
        (recursionError runner.recursionLimit) runner.recursionLimit [.intake]
        (initialState identity messages) := by
  unfold runTurn
  rw [hs, ha]
  rfl

end Turn

end DealershipAgent
