import DealershipAgent.Agents.Escalation
import DealershipAgent.Agents.HonestDegradation
import DealershipAgent.Agents.LeastPrivilege

/-!
# What the verifier is told about escalations

* `created_elsewhere`: only the account agent and the escalate node create escalation records.
* `TurnAt.escalation`: what a turn has in its state of the escalate node's own call.
* `evidence_faithful_iff`: the evidence says that the turn has escalated exactly when a record was
  created, unless the account agent's loop has created the only one.
-/

namespace DealershipAgent

open Py Json Interact

section Evidence

variable {F : Type} [PyFloat F] [Unicode] {settings : Settings}
  {salesAgent accountAgent : SubAgent F} {st₀ st : GraphState F} {sa : Server.SqlAlchemy}
  {mcp : Server.FastMcp F}

/-- Events that call another tool create nothing. -/
theorem Records.eq_false {tr : Trace F} {created : Bool} (h : Records sa mcp tr created)
    (hno : ∀ ev ∈ tr, ∀ name arguments, ev.req = .callTool name arguments →
      name ≠ str "escalate_to_human") : created = false := by
  obtain ⟨flags, hflags, rfl⟩ := h
  induction hflags with
  | nil => rfl
  | @cons ev flag tr flags hserved _ ih =>
    have hflag := hserved.eq_false (hno ev List.mem_cons_self)
    have hrest := ih fun ev' hev' => hno ev' (List.mem_cons_of_mem ev hev')
    rw [List.any_cons, hrest, hflag]
    rfl

/-- A served call creates a record or not. -/
theorem records_exists {tr : Trace F} (h : ∀ ev ∈ tr, ∃ flag, Served sa mcp ev flag) :
    ∃ created, Records sa mcp tr created := by
  induction tr with
  | nil => exact ⟨false, [], .nil, rfl⟩
  | cons ev tr ih =>
    obtain ⟨flag, hflag⟩ := h ev List.mem_cons_self
    obtain ⟨-, flags, hflags, -⟩ := ih fun ev' hev' => h ev' (List.mem_cons_of_mem ev hev')
    exact ⟨_, flag :: flags, .cons hflag hflags, rfl⟩

theorem records_none {tr : Trace F} (h : ∀ ev ∈ tr, Served sa mcp ev false) :
    Records sa mcp tr false := by
  refine ⟨List.replicate tr.length false, ?_, by simp⟩
  induction tr with
  | nil => exact .nil
  | cons ev tr ih =>
    exact .cons (h ev List.mem_cons_self) (ih fun ev' hev' => h ev' (List.mem_cons_of_mem ev hev'))

/-- An event that has created a record, whatever else there is. -/
theorem Records.eq_true {tr : Trace F} {created : Bool} (h : Records sa mcp tr created)
    {ev : Event (Request F) Answer} (hev : ev ∈ tr)
    (hone : ∀ flag, Served sa mcp ev flag → flag = true) : created = true := by
  obtain ⟨flags, hflags, rfl⟩ := h
  induction hflags with
  | nil => cases hev
  | @cons ev' flag tr flags hserved _ ih =>
    rw [List.any_cons]
    rcases List.mem_cons.mp hev with rfl | hev
    · rw [hone flag hserved]
      rfl
    · rw [ih hev, Bool.or_true]

omit [PyFloat F] [Unicode] in
/-- The event is a handoff that has succeeded. -/
def isHandoff : Event (Request F) Answer → Bool
  | ⟨.callTool name _, .ok result⟩ => name == str "escalate_to_human" && !result.isError
  | _ => false

/-- Such a handoff has created a record. -/
theorem Served.handoff {ev : Event (Request F) Answer} {created : Bool}
    (h : Served sa mcp ev created) (hev : isHandoff ev = true) : created = true := by
  obtain ⟨r, x⟩ := ev
  cases r with
  | complete messages model => cases hev
  | callTool name arguments =>
    rcases x with e | result
    · cases hev
    · have hboth : (name == str "escalate_to_human" && !result.isError) = true := hev
      rw [Bool.and_eq_true, beq_iff_eq, Bool.not_eq_true'] at hboth
      obtain ⟨rfl, hok⟩ := hboth
      exact (h.escalated hok).1

/-- The nodes that may create records. -/
theorem created_elsewhere {n : Nat} {c : TurnConfig F} {node : Node} {created : Bool}
    (hsales : salesAgent.allowedTools = salesAgentTools)
    (haccount : accountAgent.allowedTools = accountAgentTools)
    (hr : (buildSupervisorGraph settings salesAgent accountAgent).Reach ⟨[.intake], [], st₀, []⟩ n c)
    (h : Records sa mcp (Graph.traceOf node c.tr) created)
    (ha : node ≠ .accountAgent) (he : node ≠ .escalate) : created = false := by
  have hcount := hr.countP_le (node_strays hsales haccount)
  have hstray : ∀ ev ∈ c.tr, isStray ev.req = false := by
    have hzero : c.tr.countP (fun ev => isStray ev.req) = 0 := by simpa using hcount
    intro ev hev
    simpa using List.countP_eq_zero.mp hzero ev hev
  refine h.eq_false fun ev hev name arguments hreq => ?_
  obtain ⟨ev', hev', rfl⟩ := List.mem_map.mp hev
  obtain ⟨hmem, hnode⟩ := List.mem_filter.mp hev'
  have hno := hstray ev' hmem
  obtain ⟨⟨node', r⟩, x⟩ := ev'
  obtain rfl : node' = node := by simpa using hnode
  obtain rfl : r = .callTool name arguments := hreq
  rintro rfl
  cases node' with
  | accountAgent => exact ha rfl
  | escalate => exact he rfl
  | salesAgent =>
    have hforeign : str "escalate_to_human" ∉ salesAgentTools := by decide
    exact absurd hno (by simp [isStray, Node.tools, hforeign])
  | _ => exact absurd hno (by simp [isStray, Node.tools])

theorem routerNode_escalateResult {u : StateUpdate F} {t : Trace F}
    (h : Runs (routerNode settings st) t (.ok u)) :
    (st.apply u).escalateResult = st.escalateResult := by
  rcases routerNode_update h with rfl | ⟨decision, routes, content, rfl⟩ <;> rfl

/-- Before the escalate node the state has no escalation, and that node has asked nothing. -/
theorem TurnAt.no_escalation {path : List Node} {tr : TurnTrace F}
    (h : TurnAt settings salesAgent accountAgent st₀ ⟨[.merge], path, st, tr⟩)
    (h₀ : st₀.escalateResult = .null) :
    st.escalateResult = .null ∧ Graph.traceOf .escalate tr = [] := by
  obtain ⟨u, t, agents, tr', hrouter, -, hg, -, rfl⟩ := h.at_merge
  have hnull := (routerNode_escalateResult hrouter).trans h₀
  rw [Graph.traceOf_append, Graph.traceOf_tag, if_neg (by simp), List.nil_append]
  cases hg with
  | sales hrun =>
    obtain ⟨query, r, -, rfl, -⟩ := runs_salesAgentNode hrun
    exact ⟨hnull, by rw [Graph.traceOf_tag, if_neg (by simp)]⟩
  | account hrun =>
    obtain ⟨query, r, -, rfl, -⟩ := runs_accountAgentNode hrun
    exact ⟨hnull, by rw [Graph.traceOf_tag, if_neg (by simp)]⟩
  | both hrun hrun' hi =>
    obtain ⟨query, r, -, rfl, -⟩ := runs_salesAgentNode hrun
    obtain ⟨query', r', -, rfl, -⟩ := runs_accountAgentNode hrun'
    exact ⟨hnull, Graph.traceOf_interleave_ne (by simp) (by simp) hi⟩

/-- What a turn at `verify_claims` has of the escalate node: nothing if it was not visited, else what
its run has left. -/
theorem TurnAt.escalation {path : List Node} {tr : TurnTrace F}
    (h : TurnAt settings salesAgent accountAgent st₀ ⟨[.verifyClaims], path, st, tr⟩)
    (h₀ : st₀.escalateResult = .null) :
    (st.escalateResult = .null ∧ Graph.traceOf .escalate tr = []) ∨
    ∃ st' u, Runs (escalateNode accountAgent st') (Graph.traceOf .escalate tr) (.ok u) ∧
      u.escalateResult = some st.escalateResult := by
  obtain ⟨path₁, st₁, tr₁, u₁, t₁, rfl, rfl, rfl, hdraft, h₁⟩ := h.from_synthesis
  obtain ⟨degraded, reasons, response, -, -, rfl⟩ := runs_synthesisNode hdraft
  rw [Graph.traceOf_append, Graph.traceOf_tag, if_neg (by simp), List.append_nil]
  rcases h₁.at_synthesis with ⟨path₂, st₂, tr₂, u₂, t₂, rfl, rfl, rfl, hescalate, h₂⟩ |
    ⟨path₂, rfl, -, h₂⟩
  · have hbefore : Graph.traceOf .escalate tr₂ = [] := by
      rcases h₂.at_escalate with ⟨u₀, t₀, -, -, -, rfl⟩ | ⟨path₃, -, -, h₃⟩
      · rw [Graph.traceOf_tag, if_neg (by simp)]
      · exact (h₃.no_escalation h₀).2
    obtain ⟨v, rfl⟩ := escalateNode_update hescalate
    refine .inr ⟨st₂, { escalateResult := some v }, ?_, rfl⟩
    rw [Graph.traceOf_append, hbefore, Graph.traceOf_tag, if_pos rfl]
    exact hescalate
  · exact .inl (h₂.no_escalation h₀)

/-- A turn that ends with `verify_claims` has reached it. -/
theorem reach_verifyClaims {n : Nat} {path : List Node} {fin : GraphState F} {tr : TurnTrace F}
    (h₀ : st₀.routes ≠ [.clarify])
    (h : (buildSupervisorGraph settings salesAgent accountAgent).Reach ⟨[.intake], [], st₀, []⟩ n
      ⟨[], path, fin, tr⟩) (hlast : path.getLast? = some .verifyClaims) :
    ∃ n' path' st tr' u t, (buildSupervisorGraph settings salesAgent accountAgent).Reach
        ⟨[.intake], [], st₀, []⟩ n' ⟨[.verifyClaims], path', st, tr'⟩ ∧
      Runs (verifyClaimsNode settings st) t (.ok u) ∧ fin = st.apply u ∧
      tr = tr' ++ t.map (Event.tag .verifyClaims) := by
  cases h with
  | @step n c _ hr hs =>
    have hshape := (turnAt_reach h₀ hr).active_cases
    obtain ⟨active, path', st, tr'⟩ := c
    obtain ⟨hne, hpath⟩ := hs.path
    obtain rfl : path = path' ++ active := hpath
    obtain rfl : active = [.verifyClaims] := by
      rw [List.getLast?_append_of_ne_nil _ hne] at hlast
      rcases hshape with rfl | rfl | rfl | rfl | rfl | rfl | rfl | rfl | rfl | rfl | rfl <;>
        simp at hlast ⊢
    obtain ⟨u, t, hrun, hc⟩ := hs.single
    cases hc
    exact ⟨n, path', st, tr', u, t, hr, hrun, rfl, rfl⟩

omit [PyFloat F] [Unicode] in
/-- The evidence says that the turn has escalated. -/
def SaysEscalated (evidence : Json F) : Prop :=
  ∃ result, evidence.HasMember "escalation_result" result ∧
    result.HasMember "status" (.string "escalated")

omit [Unicode] in
theorem saysEscalated_iff {evidence : Json F} (h : buildEvidenceSummary st = .ok evidence) :
    SaysEscalated evidence ↔ st.escalateResult.HasMember "status" (.string "escalated") := by
  have hmember : evidence.HasMember "escalation_result" st.escalateResult := by
    unfold buildEvidenceSummary at h
    cases hsnippets : extractRetrievedPolicySnippets
        ((st.salesResult.map (·.toolCalls)).getD []) with
    | error e => rw [hsnippets] at h; cases h
    | ok snippets =>
      rw [hsnippets] at h
      cases h
      exact ⟨_, rfl, rfl⟩
  constructor
  · rintro ⟨result, hresult, hstatus⟩
    rwa [hmember.unique hresult]
  · exact fun hstatus => ⟨_, hmember, hstatus⟩

/-- The escalate node's result says "escalated" exactly when it has created a record. -/
theorem escalateNode_says {tr : Trace F} {u : StateUpdate F} {result : Json F} {created : Bool}
    (haccount : accountAgent.allowedTools = accountAgentTools)
    (h : Runs (escalateNode accountAgent st) tr (.ok u)) (hc : Records sa mcp tr created)
    (hu : u.escalateResult = some result) :
    result.HasMember "status" (.string "escalated") ↔ created = true := by
  generalize hout : (Except.ok u : Except Raised _) = out at h
  cases (escalationRun_iff haccount).mp h with
  | skipped _ =>
    cases hout
    cases hu
    obtain rfl := records_nil hc
    obtain ⟨u, result, hout, hresult, hiff, -⟩ := notCreated_degrades st
    cases hout
    cases hresult
    exact hiff
  | asked x _ =>
    rcases x with e | r
    · cases hout
    · cases hok : r.isError with
      | true =>
        obtain ⟨e, he⟩ := escalationOutcome_error hok
        rw [he] at hout
        cases hout
      | false =>
        rw [escalationOutcome_ok hok] at hout
        cases hout
        cases hu
        obtain ⟨hcreated, hstatus⟩ := (records_singleton hc).escalated hok
        exact iff_of_true hstatus hcreated

/-- The nodes of a turn that the server has served, with whether they have created records. -/
theorem records_nodes {tr : TurnTrace F} (h : ∀ ev ∈ tr, ∃ flag, Served sa mcp ev.untag flag) :
    ∃ created : Node → Bool, ∀ node, Records sa mcp (Graph.traceOf node tr) (created node) := by
  have hexists : ∀ node, ∃ created, Records sa mcp (Graph.traceOf node tr) created := by
    intro node
    refine records_exists fun ev hev => ?_
    obtain ⟨ev', hev', rfl⟩ := List.mem_map.mp hev
    exact h ev' (List.mem_filter.mp hev').1
  choose created hcreated using hexists
  exact ⟨created, hcreated⟩

/-- A turn that ends with `verify_claims` has had its evidence there. -/
theorem turn_evidence {runner : Runner F} {sched : Nat → Nat → Nat → Bool}
    {identity : RequestIdentity} {messages : List Message} {tr : TurnTrace F} {path : List Node}
    {fin : GraphState F} (h : Runs (runTurn runner sched identity messages) tr (.ok (path, fin)))
    (hlast : path.getLast? = some .verifyClaims) :
    ∃ salesAgent accountAgent n path' st tr' u t evidence,
      buildSalesAgent runner.registered = .ok salesAgent ∧
      buildAccountAgent runner.registered = .ok accountAgent ∧
      (buildSupervisorGraph runner.settings salesAgent accountAgent).Reach
        ⟨[.intake], [], initialState identity messages, []⟩ n ⟨[.verifyClaims], path', st, tr'⟩ ∧
      Runs (verifyClaimsNode runner.settings st) t (.ok u) ∧ fin = st.apply u ∧
      tr = tr' ++ t.map (Event.tag .verifyClaims) ∧ buildEvidenceSummary st = .ok evidence := by
  obtain ⟨salesAgent, accountAgent, n, hs, ha, hr⟩ := turn_reaches h
  obtain ⟨n', path', st, tr', u, t, hr', hverify, hfin, htr⟩ :=
    reach_verifyClaims (by simp [initialState]) hr hlast
  obtain ⟨draft, evidence, outcome, -, hevidence, -⟩ := runs_verifyClaimsNode hverify
  exact ⟨salesAgent, accountAgent, n', path', st, tr', u, t, evidence, hs, ha, hr', hverify, hfin, htr,
    hevidence⟩

/-- In a turn at `verify_claims` the evidence says that it has escalated if and only if a node has
created a record, exactly when the account agent has created none but with the escalate node. -/
theorem evidence_faithful_iff {runner : Runner F} {identity : RequestIdentity}
    {messages : List Message} {n : Nat} {path : List Node} {tr : TurnTrace F} {evidence : Json F}
    {created : Node → Bool} (hs : buildSalesAgent runner.registered = .ok salesAgent)
    (ha : buildAccountAgent runner.registered = .ok accountAgent)
    (hr : (buildSupervisorGraph runner.settings salesAgent accountAgent).Reach
      ⟨[.intake], [], initialState identity messages, []⟩ n ⟨[.verifyClaims], path, st, tr⟩)
    (hc : ∀ node, Records sa mcp (Graph.traceOf node tr) (created node))
    (hevidence : buildEvidenceSummary st = .ok evidence) :
    (SaysEscalated evidence ↔ ∃ node, created node = true) ↔
      (created .accountAgent = true → created .escalate = true) := by
  have hsales := buildSubAgent_allowedTools hs
  have haccount := buildSubAgent_allowedTools ha
  have hturn := turnAt_reach (by simp [initialState]) hr
  have hsays : SaysEscalated evidence ↔ created .escalate = true := by
    rw [saysEscalated_iff hevidence]
    rcases hturn.escalation rfl with ⟨hnull, hnone⟩ | ⟨st', u, hrun, hu⟩
    · have hcreated := hc .escalate
      rw [hnone] at hcreated
      rw [hnull, records_nil hcreated]
      refine iff_of_false ?_ (by simp)
      rintro ⟨kvs, hkvs, -⟩
      cases hkvs
    · exact escalateNode_says haccount hrun (hc .escalate) hu
  have hcreated : (∃ node, created node = true) ↔
      created .accountAgent = true ∨ created .escalate = true := by
    constructor
    · rintro ⟨node, hnode⟩
      by_contra hno
      rw [not_or] at hno
      have hfalse := created_elsewhere hsales haccount hr (hc node)
        (fun h => hno.1 (h ▸ hnode)) (fun h => hno.2 (h ▸ hnode))
      rw [hfalse] at hnode
      cases hnode
    · rintro (h | h)
      · exact ⟨_, h⟩
      · exact ⟨_, h⟩
  rw [ hsays, hcreated]
  exact iff_comm.trans or_iff_right_iff_imp

end Evidence

/-! ## A handoff by the account agent -/

/-- A call at the server of customer 7. -/
def deskCall (name : Str) (arguments : Json FloatLiteral) :
    Server.DbTrace FloatLiteral × Except Exc (CallToolResult FloatLiteral) :=
  exec (acceptingDb FloatLiteral) [] (@Server.callTool FloatLiteral _ asciiUnicode deskSqlAlchemy
    (deskMcp FloatLiteral) (some ⟨"s-1", some 7⟩) name arguments)

/-- The account agent hands over, and then answers. -/
def handoffAnswers : Env (Node × Request FloatLiteral) (fun r => Answer r.2) := fun history r =>
  match r with
  | (.router, .complete _ _) => .ok "\x7b\"routes\": [\"account\"]\x7d"
  | (_, .complete _ _) => .ok (if history.length = 1 then text [
      "\x7b\"action\": \"call_tool\", \"tool\": \"escalate_to_human\", ",
      "\"arguments\": \x7b\"summary\": \"Help\", \"reason\": \"asked\"\x7d\x7d"] else "Done.")
  | (_, .callTool name arguments) => (deskCall name arguments).2

def handoffTurn : TurnTrace FloatLiteral × Except Raised (List Node × GraphState FloatLiteral) :=
  exec handoffAnswers [] (@runTurn FloatLiteral _ asciiUnicode deskRunner (fun _ _ _ => true)
    ⟨"s-1", some 7⟩ [⟨.user, "Hi"⟩])

/-- The turn returns through these nodes, with a handoff of the account agent, and without an
escalation in its state. -/
def handsOff (turn : TurnTrace FloatLiteral × Except Raised (List Node × GraphState FloatLiteral)) :
    Bool :=
  match turn with
  | (tr, .ok (path, fin)) =>
    path == [.intake, .router, .accountAgent, .merge, .synthesis, .verifyClaims] &&
      (Graph.traceOf .accountAgent tr).any isHandoff &&
      match fin.escalateResult with
      | .null => true
      | _ => false
  | _ => false

def handoffReply : Str := text [
  "\x7b\"action\": \"call_tool\", \"tool\": \"escalate_to_human\", ",
  "\"arguments\": \x7b\"summary\": \"Help\", \"reason\": \"asked\"\x7d\x7d"]

def handoffArguments : Json FloatLiteral :=
  .object [("summary", .string "Help"), ("reason", .string "asked")]

/-- What the server answers. -/
def handoffResult : CallToolResult FloatLiteral :=
  ((deskCall "escalate_to_human" handoffArguments).2.toOption).getD ⟨true, [], none⟩

theorem deskCall_handoff :
    (deskCall "escalate_to_human" handoffArguments).2 = .ok handoffResult ∧
    handoffResult.isError = false := by
  have hok : ((deskCall "escalate_to_human" handoffArguments).2.toOption).isSome = true ∧
      handoffResult.isError = false := by
    decide
  refine ⟨?_, hok.2⟩
  unfold handoffResult
  cases hout : (deskCall "escalate_to_human" handoffArguments).2 with
  | error e => rw [hout] at hok; cases hok.1
  | ok result => rfl

/-- What `json.loads` makes of the replies. -/
theorem loads_handoff :
    loads (F := FloatLiteral) "\x7b\"routes\": [\"account\"]\x7d" =
      some (.object [("routes", .array [.string "account"])]) ∧
    loads (F := FloatLiteral) handoffReply =
      some (.object [("action", .string "call_tool"), ("tool", .string "escalate_to_human"),
        ("arguments", handoffArguments)]) ∧
    loads (F := FloatLiteral) "Done." = none := by
  decide +kernel

theorem readable_handoff : Readable FloatLiteral "\x7b\"routes\": [\"account\"]\x7d" ∧
    Readable FloatLiteral handoffReply ∧ Readable FloatLiteral "Done." :=
  ⟨readable_of_length_le (by decide) (by decide),
    readable_of_length_le (by decide) (by decide),
    readable_of_length_le (by decide) (by decide)⟩

/-- The state of the turn after the router. -/
def handoffRouted : GraphState FloatLiteral :=
  (initialState ⟨"s-1", some 7⟩ [⟨.user, "Hi"⟩]).apply (@routerUpdate _ _ asciiUnicode
    [("routes", .array [.string "account"])] (some [.account]) "Hi")

/-- The account loop at its start, and after the handoff. -/
def handoffLoop : LoopState FloatLiteral where
  messages := [⟨.system, accountAgentSystemPrompt ++ str "\n\n" ++
    loopInstructions (toolDescriptions deskAccount)⟩,
    ⟨.user, @accountQuery FloatLiteral _ asciiUnicode "Hi" handoffRouted.orderRef⟩]

def handoffCalled : LoopState FloatLiteral :=
  @recordResult _ _ asciiUnicode ⟨"small", deskAccount, 800, 4000⟩
    (handoffLoop.append .assistant handoffReply) (.string "escalate_to_human") handoffArguments
    handoffResult.value

theorem handoffLoop_short : ¬ (4000 : Int) ≤ estimateMessagesTokens handoffLoop.messages ∧
    ¬ (4000 : Int) ≤ estimateMessagesTokens handoffCalled.messages := by
  have hsystem := estimateTokens_system_le length_agentPrompts_le.2
    (show (toolDescriptions deskAccount).length ≤ 1000 by decide)
  have hquery : estimateMessagesTokens (handoffLoop.messages.drop 1) ≤ 1000 := by
    decide
  have hcalled : estimateMessagesTokens (handoffCalled.messages.drop 1) ≤ 1000 := by
    decide +kernel
  have hstart : handoffLoop.messages = ⟨.system, accountAgentSystemPrompt ++ str "\n\n" ++
      loopInstructions (toolDescriptions deskAccount)⟩ :: handoffLoop.messages.drop 1 := rfl
  have hnext : handoffCalled.messages = ⟨.system, accountAgentSystemPrompt ++ str "\n\n" ++
      loopInstructions (toolDescriptions deskAccount)⟩ :: handoffCalled.messages.drop 1 := by
    obtain ⟨message, hmessage⟩ := @recordResult_messages _ _ asciiUnicode
      ⟨"small", deskAccount, 800, 4000⟩ (handoffLoop.append .assistant handoffReply)
      (.string "escalate_to_human") handoffArguments handoffResult.value
    rw [handoffCalled, hmessage]
    rfl
  have hadd : ∀ {a b : Nat}, a ≤ 1000 → b ≤ 1000 → ¬ (4000 : Int) ≤ ((a + b : Nat) : Int) := by
    omega
  rw [hstart, hnext, estimateMessagesTokens_cons, estimateMessagesTokens_cons]
  exact ⟨hadd hsystem hquery, hadd hsystem hcalled⟩

/-- The requests of the account loop, with their answers. -/
def handoffTrace : Trace FloatLiteral :=
  [⟨.complete handoffLoop.messages "small", .ok handoffReply⟩,
    ⟨.callTool "escalate_to_human" handoffArguments, .ok handoffResult⟩,
    ⟨.complete handoffCalled.messages "small", .ok "Done."⟩]

/-- The result of the account loop. -/
def handoffLoopResult : ToolLoopResult FloatLiteral :=
  { finalAnswer := .string "Done.", toolCalls := handoffCalled.toolCalls }

theorem handoffLoop_runs : Runs (@accountAgentNode _ _ asciiUnicode deskRunner.settings deskAccount
    handoffRouted) handoffTrace (.ok { accountResult := some handoffLoopResult }) := by
  let _ := asciiUnicode
  obtain ⟨-, hhandoff, hno⟩ := loads_handoff
  have hcallRun : CallRun ⟨"small", deskAccount, 800, 4000⟩
      (handoffLoop.append .assistant handoffReply) (.string "escalate_to_human") handoffArguments
      [⟨.callTool "escalate_to_human" handoffArguments, .ok handoffResult⟩] (.ok handoffCalled) :=
    .result handoffResult.value List.lookup_nil (callTool_runs (by decide +kernel) deskCall_handoff.2)
  have hdecision : dictGet [("action", .string "call_tool"), ("tool", .string "escalate_to_human"),
        ("arguments", handoffArguments)] (str "tool") = .string "escalate_to_human" ∧
      (dictGet [("action", .string "call_tool"), ("tool", .string "escalate_to_human"),
        ("arguments", handoffArguments)] (str "arguments")).orElse (.object []) =
          handoffArguments := by
    decide +kernel
  have hcall : IterationRun ⟨"small", deskAccount, 800, 4000⟩ handoffLoop
      [⟨.complete handoffLoop.messages "small", .ok handoffReply⟩,
        ⟨.callTool "escalate_to_human" handoffArguments, .ok handoffResult⟩]
      (.ok (.inl handoffCalled)) := by
    rw [← hdecision.1, ← hdecision.2] at hcallRun
    exact @IterationRun.callTool _ _ _ _ _ handoffReply _ _ (.ok handoffCalled) handoffLoop_short.1
      readable_handoff.2.1 hhandoff (by decide) (by decide) hcallRun
  have hanswer : IterationRun ⟨"small", deskAccount, 800, 4000⟩ handoffCalled
      [⟨.complete handoffCalled.messages "small", .ok "Done."⟩] (.ok (.inr handoffLoopResult)) :=
    .unparseable _ handoffLoop_short.2 readable_handoff.2.2 hno
  exact runs_bind_ok.mpr ⟨"Hi", [], _, rfl, runs_code_ok.mpr ⟨rfl, rfl⟩,
    runs_bind_ok.mpr ⟨_, _, [], rfl, hcall.runs.loop_next hanswer.runs.loop_exit, .ret _⟩⟩

/-- The turn up to `merge`, and from there on. -/
def handoffHistory : TurnTrace FloatLiteral :=
  ⟨(.router, .complete [⟨.system, routerSystemPrompt⟩, ⟨.user, "Hi"⟩]
    deskRunner.settings.modelClassifier), .ok "\x7b\"routes\": [\"account\"]\x7d"⟩ ::
  handoffTrace.map (Event.tag .accountAgent)

def handoffRest : TurnTrace FloatLiteral × Except Raised (List Node × GraphState FloatLiteral) :=
  exec handoffAnswers handoffHistory ((@buildSupervisorGraph _ _ asciiUnicode deskRunner.settings
    deskSales deskAccount).run (fun _ _ _ => true) (recursionError deskRunner.recursionLimit) 22
      [.merge] (handoffRouted.apply { accountResult := some handoffLoopResult }))

theorem handoffTurn_eq : handoffTurn = (handoffHistory ++ handoffRest.1,
    handoffRest.2.map fun x => (.intake :: .router :: .accountAgent :: x.1, x.2)) := by
  let _ := asciiUnicode
  have hs : buildSalesAgent deskRunner.registered = .ok deskSales :=
    buildSubAgent_registered deskRunner_missing.1
  have ha : buildAccountAgent deskRunner.registered = .ok deskAccount :=
    buildSubAgent_registered deskRunner_missing.2
  have hdecision : routerDecision (str "\x7b\"routes\": [\"account\"]\x7d") [⟨.user, "Hi"⟩] =
      .ok (routerUpdate (F := FloatLiteral) [("routes", .array [.string "account"])]
        (some [.account]) "Hi") := by
    refine routerDecision_eq_ok.mpr ⟨_, _, _, readable_handoff.1, ?_, rfl, rfl, rfl⟩
    rw [loads_handoff.1]
    rfl
  have hroutes : (routesAfterRouter handoffRouted).dedup = [.accountAgent] := by
    decide
  refine exec_runTurn_agent hs ha (rfl : deskRunner.recursionLimit = 22 + 1 + 2) (by decide)
    rfl hdecision hroutes (.inr rfl) handoffLoop_runs ⟨?_, ?_, ?_, trivial⟩ rfl
  · simp only [handoffAnswers, Event.tag, List.length_singleton, if_true]
    rfl
  · exact deskCall_handoff.1.symm
  · simp only [handoffAnswers, Event.tag, List.length_append, List.length_singleton]
    rfl

theorem handoffTurn_handsOff : handsOff handoffTurn = true := by
  rw [handoffTurn_eq]
  decide

/-- The server has served a call. -/
theorem deskCall_served (name : Str) (arguments : Json FloatLiteral) : ∃ flag,
    @Served FloatLiteral _ asciiUnicode deskSqlAlchemy (deskMcp FloatLiteral)
      ⟨.callTool name arguments, (deskCall name arguments).2⟩ flag := by
  let _ := asciiUnicode
  obtain ⟨created, hcreated⟩ := Server.Creates.exists (deskCall name arguments).1
  have hrun : Runs (Server.callTool deskSqlAlchemy (deskMcp FloatLiteral) (some ⟨"s-1", some 7⟩) name
    arguments) (deskCall name arguments).1 (deskCall name arguments).2 := exec_runs _ _ _
  cases hout : (deskCall name arguments).2 with
  | error e => exact ⟨false, .raised (by simp)⟩
  | ok result =>
    rw [hout] at hrun
    exact ⟨created, .result hrun hcreated⟩

theorem handoffTurn_served : ∀ ev ∈ handoffTurn.1, ∃ flag,
    @Served FloatLiteral _ asciiUnicode deskSqlAlchemy (deskMcp FloatLiteral) ev.untag flag := by
  let _ := asciiUnicode
  refine exec_forall (fun history r => ?_) _ _
  obtain ⟨node, r⟩ := r
  cases r with
  | complete messages model => exact ⟨false, .completion⟩
  | callTool name arguments =>
    have hanswer : handoffAnswers history (node, .callTool name arguments) =
        (deskCall name arguments).2 := by
      cases node <;> rfl
    rw [hanswer]
    exact deskCall_served name arguments

/-- The account agent has created a record that the evidence does not have. -/
theorem handoffTurn_unfaithful : ∃ (salesAgent accountAgent : SubAgent FloatLiteral) (n : Nat)
    (path : List Node) (st : GraphState FloatLiteral) (tr : TurnTrace FloatLiteral)
    (created : Node → Bool) (evidence : Json FloatLiteral),
    (@buildSupervisorGraph FloatLiteral _ asciiUnicode deskRunner.settings salesAgent
      accountAgent).Reach ⟨[.intake], [], initialState ⟨"s-1", some 7⟩ [⟨.user, "Hi"⟩], []⟩ n
        ⟨[.verifyClaims], path, st, tr⟩ ∧
    (∀ node, @Records FloatLiteral _ asciiUnicode deskSqlAlchemy (deskMcp FloatLiteral)
      (Graph.traceOf node tr) (created node)) ∧
    buildEvidenceSummary st = .ok evidence ∧
    ¬ (SaysEscalated evidence ↔ ∃ node, created node = true) := by
  let _ := asciiUnicode
  have hturn := handoffTurn_handsOff
  have hserved := handoffTurn_served
  have hrun : Runs (runTurn deskRunner (fun _ _ _ => true) ⟨"s-1", some 7⟩ [⟨.user, "Hi"⟩])
      handoffTurn.1 handoffTurn.2 := exec_runs _ _ _
  generalize handoffTurn = turn at hturn hserved hrun
  obtain ⟨tr, out⟩ := turn
  cases out with
  | error e => cases hturn
  | ok x =>
    obtain ⟨path, fin⟩ := x
    obtain ⟨hpath, hhandoff, hnull⟩ : path = [.intake, .router, .accountAgent, .merge, .synthesis,
        .verifyClaims] ∧ (Graph.traceOf .accountAgent tr).any isHandoff = true ∧
        fin.escalateResult = .null := by
      unfold handsOff at hturn
      simp only [Bool.and_eq_true, beq_iff_eq] at hturn
      refine ⟨hturn.1.1, hturn.1.2, ?_⟩
      cases hresult : fin.escalateResult with
      | null => rfl
      | _ => rw [hresult] at hturn; exact absurd hturn.2 (by simp)
    obtain ⟨salesAgent, accountAgent, n, path', st, tr', u, t, evidence, -, -, hr, hverify, rfl, rfl,
      hevidence⟩ := turn_evidence hrun (by rw [hpath]; rfl)
    obtain ⟨created, hcreated⟩ := records_nodes fun ev hev => hserved ev (List.mem_append_left _ hev)
    refine ⟨salesAgent, accountAgent, n, path', st, tr', created, evidence, hr, hcreated, hevidence, ?_⟩
    rw [verifyClaimsNode_escalateResult hverify] at hnull
    rw [Graph.traceOf_append, Graph.traceOf_tag, if_neg (by simp), List.append_nil] at hhandoff
    obtain ⟨ev, hev, hone⟩ := List.any_eq_true.mp hhandoff
    have haccount : created .accountAgent = true :=
      (hcreated .accountAgent).eq_true hev fun flag hflag => hflag.handoff hone
    rw [saysEscalated_iff hevidence, hnull]
    intro hiff
    obtain ⟨kvs, hkvs, -⟩ := hiff.mpr ⟨_, haccount⟩
    cases hkvs

/-! ## Escalations of the router -/

/-- The router escalates for customer 7. -/
def deskEscalation : TurnTrace FloatLiteral × Except Raised (List Node × GraphState FloatLiteral) :=
  exec (fun _ r => match r with
    | (node, .complete _ _) => escalateReplies node
    | (_, .callTool name arguments) => (deskCall name arguments).2) []
    (@runTurn FloatLiteral _ asciiUnicode deskRunner (fun _ _ _ => true) ⟨"s-1", some 7⟩
      [⟨.user, "Help!"⟩])

/-- It ends so, with a handoff of the escalate node before `verify_claims`. -/
theorem deskEscalation_ends :
    deskEscalation.2.map (fun x => x.1) =
      .ok [.intake, .router, .escalate, .synthesis, .verifyClaims] ∧
    (Graph.traceOf .escalate deskEscalation.1).any isHandoff = true := by
  decide +kernel

theorem deskEscalation_served : ∀ ev ∈ deskEscalation.1, ∃ flag,
    @Served FloatLiteral _ asciiUnicode deskSqlAlchemy (deskMcp FloatLiteral) ev.untag flag := by
  let _ := asciiUnicode
  refine exec_forall (fun history r => ?_) _ _
  obtain ⟨node, r⟩ := r
  cases r with
  | complete messages model => exact ⟨false, .completion⟩
  | callTool name arguments => exact deskCall_served name arguments

/-- Nothing in a turn without a customer creates a record. -/
theorem shopTurn_served : ∀ ev ∈ (shopTurn "Help!" escalateReplies).1,
    @Served FloatText _ asciiUnicode deskSqlAlchemy (deskMcp FloatText) ev.untag false := by
  let _ := asciiUnicode
  refine exec_forall (fun history r => ?_) _ _
  obtain ⟨node, r⟩ := r
  cases r with
  | complete messages model => exact .completion
  | callTool name arguments => exact .raised (by simp)

/-- The turn of customer 7 creates a record and the evidence says so, the one without a customer creates
none and the evidence says so. -/
theorem router_escalations_faithful :
    (∃ (salesAgent accountAgent : SubAgent FloatLiteral) (n : Nat) (path : List Node)
      (st : GraphState FloatLiteral) (tr : TurnTrace FloatLiteral) (evidence : Json FloatLiteral),
      (@buildSupervisorGraph FloatLiteral _ asciiUnicode deskRunner.settings salesAgent
        accountAgent).Reach ⟨[.intake], [], initialState ⟨"s-1", some 7⟩ [⟨.user, "Help!"⟩], []⟩ n
          ⟨[.verifyClaims], path, st, tr⟩ ∧
      @Records FloatLiteral _ asciiUnicode deskSqlAlchemy (deskMcp FloatLiteral)
        (Graph.traceOf .escalate tr) true ∧
      buildEvidenceSummary st = .ok evidence ∧ SaysEscalated evidence) ∧
    ∃ (salesAgent accountAgent : SubAgent FloatText) (n : Nat) (path : List Node)
      (st : GraphState FloatText) (tr : TurnTrace FloatText) (evidence : Json FloatText),
      (@buildSupervisorGraph FloatText _ asciiUnicode shopRunner.settings salesAgent
        accountAgent).Reach ⟨[.intake], [], initialState ⟨"s-1", none⟩ [⟨.user, "Help!"⟩], []⟩ n
          ⟨[.verifyClaims], path, st, tr⟩ ∧
      buildEvidenceSummary st = .ok evidence ∧ ¬ SaysEscalated evidence := by
  let _ := asciiUnicode
  constructor
  · have hends := deskEscalation_ends
    have hserved := deskEscalation_served
    have hrun : Runs (runTurn deskRunner (fun _ _ _ => true) ⟨"s-1", some 7⟩ [⟨.user, "Help!"⟩])
        deskEscalation.1 deskEscalation.2 := exec_runs _ _ _
    generalize deskEscalation = turn at hends hserved hrun
    obtain ⟨tr, out⟩ := turn
    cases out with
    | error e => cases hends.1
    | ok x =>
      obtain ⟨path, fin⟩ := x
      obtain ⟨hpath, hhandoff⟩ := hends
      obtain rfl : path = [.intake, .router, .escalate, .synthesis, .verifyClaims] :=
        Except.ok.inj hpath
      obtain ⟨salesAgent, accountAgent, n, path', st, tr', u, t, evidence, hs, ha, hr, -, -, rfl,
        hevidence⟩ := turn_evidence hrun rfl
      obtain ⟨created, hcreated⟩ :=
        records_nodes fun ev hev => hserved ev (List.mem_append_left _ hev)
      rw [Graph.traceOf_append, Graph.traceOf_tag, if_neg (by simp), List.append_nil] at hhandoff
      obtain ⟨ev, hev, hone⟩ := List.any_eq_true.mp hhandoff
      have hescalate : created .escalate = true :=
        (hcreated .escalate).eq_true hev fun flag hflag => hflag.handoff hone
      have hfaithful := (evidence_faithful_iff hs ha hr hcreated hevidence).mpr fun _ => hescalate
      exact ⟨salesAgent, accountAgent, n, path', st, tr', evidence, hr,
        hescalate ▸ hcreated .escalate, hevidence, hfaithful.mpr ⟨_, hescalate⟩⟩
  · have hpath := shopTurn_escalate
    have hrun := shopTurn_runs "Help!" escalateReplies
    have hserved := shopTurn_served
    generalize shopTurn "Help!" escalateReplies = turn at hpath hrun hserved
    obtain ⟨tr, out⟩ := turn
    cases out with
    | error e => cases hpath
    | ok x =>
      obtain ⟨path, fin⟩ := x
      obtain rfl : path = [.intake, .router, .escalate, .synthesis, .verifyClaims] :=
        Except.ok.inj hpath
      obtain ⟨salesAgent, accountAgent, n, path', st, tr', u, t, evidence, hs, ha, hr, -, -, rfl,
        hevidence⟩ := turn_evidence hrun rfl
      have hnone : ∀ node, Records deskSqlAlchemy (deskMcp FloatText) (Graph.traceOf node tr') false := by
        intro node
        refine records_none fun ev hev => ?_
        obtain ⟨ev', hev', rfl⟩ := List.mem_map.mp hev
        exact hserved ev' (List.mem_append_left _ (List.mem_filter.mp hev').1)
      have hfaithful := (evidence_faithful_iff hs ha hr hnone hevidence).mpr fun h => by cases h
      refine ⟨salesAgent, accountAgent, n, path', st, tr', evidence, hr, hevidence, fun hsays => ?_⟩
      obtain ⟨node, hnode⟩ := hfaithful.mp hsays
      cases hnode

end DealershipAgent
