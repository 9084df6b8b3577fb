import DealershipAgent.Agents.ToolLoopSpec
import DealershipAgent.Agents.TurnShape
import DealershipAgent.Py.Json.Text

/-!
# Least privilege

* `cacheKey_tool`: the cache key of a call has the name of the tool in it.
* `runToolLoop_refusals`: a loop records each request for a tool that is not the agent's own as one
  failed call.
* `least_privilege`: that, and the tools that the nodes of a turn call.
-/

namespace DealershipAgent

open Py Json Interact

/-- The tools that a node may call. -/
def Node.tools : Node → List Str
  | .salesAgent => salesAgentTools
  | .accountAgent => accountAgentTools
  | .escalate => accountAgentTools
  | _ => []

section Refusals

variable {F : Type} [PyFloat F] [Unicode]

omit [PyFloat F] [Unicode] in
/-- The name is that of one of the agent's tools. -/
def SubAgent.allows (agent : SubAgent F) : Json F → Bool
  | .string name => agent.allowedTools.contains name
  | _ => false

/-- The request for a tool that is not the agent's own, if the completion decides on one: what it asks
for, with which arguments. -/
def refusal (agent : SubAgent F) : Event (Request F) Answer → Option (Json F × Json F)
  | ⟨.complete _ _, .ok raw⟩ =>
    match loads (F := F) raw with
    | some (.object decision) =>
      if (dictGet decision "action").eqStr "call_tool" && !agent.allows (dictGet decision "tool") then
        some (dictGet decision "tool", (dictGet decision "arguments").orElse (.object []))
      else none
    | _ => none
  | _ => none

omit [PyFloat F] [Unicode] in
/-- The recorded calls of tools that are not the agent's own, and whether they have an error. -/
def refusedCalls (agent : SubAgent F) (calls : List (ToolCall F)) : List (Json F × Json F × Bool) :=
  (calls.filter fun call => !agent.allows call.tool).map fun call =>
    (call.tool, call.arguments, call.hasError)

/-- The requests for such tools, each as a call with an error. -/
def refusals (agent : SubAgent F) (tr : Trace F) : List (Json F × Json F × Bool) :=
  (tr.filterMap (refusal agent)).map fun x => (x.1, x.2, true)

/-! ## The cache key -/

/-- What follows the arguments in a key. -/
def keyEnd (toolName : Json F) : Str :=
  str ", \"tool\": " ++ (dumpsWith true toolName ++ str "\x7d")

omit [Unicode] in
/-- The arguments come first in a key. -/
theorem cacheKey_eq (toolName arguments : Json F) :
    cacheKey toolName arguments =
      str "\x7b\"arguments\": " ++ (dumpsWith true arguments ++ keyEnd toolName) := by
  have hsort : sortMembers [(str "tool", dumpsWith true toolName),
      (str "arguments", dumpsWith true arguments)] =
        [(str "arguments", dumpsWith true arguments), (str "tool", dumpsWith true toolName)] := rfl
  have harguments : dumpString (str "arguments") = str "\"arguments\"" := by decide
  have htool : dumpString (str "tool") = str "\"tool\"" := by decide
  unfold cacheKey keyEnd
  rw [dumpsWith]
  simp only [dumpMembers, if_true, hsort, List.map_cons, List.map_nil, harguments, htool, join,
    List.intercalate]
  simp [str]

omit [Unicode] in
/-- Calls with one key are calls of one tool. -/
theorem cacheKey_tool [LawfulFloat F] {toolName arguments arguments' : Json F} {name : Str}
    (hname : PlainString name)
    (h : cacheKey toolName arguments = cacheKey (.string name) arguments') :
    toolName = .string name := by
  have hnot : ∀ v : Json F, HeadNot continuesNumber (keyEnd v) :=
    fun v => .cons (c := chr ',') (by decide) _
  rw [cacheKey_eq, cacheKey_eq] at h
  obtain ⟨-, hend⟩ := (dumpsWith_text true arguments).cancel (dumpsWith_text true arguments')
    (hnot _) (hnot _) (List.append_cancel_left h)
  have htool := List.append_cancel_left hend
  exact dumpsWith_eq_dumpString true hname (List.append_cancel_right htool)

/-! ## The loop -/

variable {cfg : LoopConfig F} {st st' : LoopState F} {tr : Trace F} {agent : SubAgent F}

/-- What is in the cache are calls of the agent's own tools. -/
def LoopState.CachesOwn (agent : SubAgent F) (st : LoopState F) : Prop :=
  ∀ kv ∈ st.callCache, ∃ name ∈ agent.allowedTools, ∃ arguments : Json F,
    kv.1 = cacheKey (.string name) arguments

omit [PyFloat F] [Unicode] in
theorem refusedCalls_append (calls calls' : List (ToolCall F)) :
    refusedCalls agent (calls ++ calls') = refusedCalls agent calls ++ refusedCalls agent calls' := by
  unfold refusedCalls
  rw [List.filter_append, List.map_append]

omit [PyFloat F] [Unicode] in
/-- A call of one of the agent's own tools is no refused one. -/
theorem refusedCalls_allowed {call : ToolCall F} (h : agent.allows call.tool = true) :
    refusedCalls agent [call] = [] := by
  simp [refusedCalls, h]

omit [PyFloat F] [Unicode] in
theorem refusedCalls_refused {call : ToolCall F} (h : agent.allows call.tool = false) :
    refusedCalls agent [call] = [(call.tool, call.arguments, call.hasError)] := by
  simp [refusedCalls, h]

omit [Unicode] in
theorem refusals_append (tr tr' : Trace F) :
    refusals agent (tr ++ tr') = refusals agent tr ++ refusals agent tr' := by
  unfold refusals
  rw [List.filterMap_append, List.map_append]

/-- A tool call of the agent that returns is one of its own tools. -/
theorem callTool_allows {toolName arguments result : Json F}
    (h : Runs (agent.callTool toolName arguments) tr (.ok result)) :
    ∃ name ∈ agent.allowedTools, toolName = .string name := by
  rcases runs_callTool h with ⟨e, -, ho⟩ | ⟨name, rfl, hname, -⟩
  · cases ho
  · exact ⟨name, hname, rfl⟩

omit [PyFloat F] [Unicode] in
theorem allows_of_mem {name : Str} (h : name ∈ agent.allowedTools) :
    agent.allows (.string name) = true :=
  List.contains_iff_mem.mpr h

/-- A decision to call a tool adds one entry with an error if the tool is not the agent's own, and
none for such a tool if it is. -/
theorem callRun_refusedCalls [LawfulFloat F] {toolName arguments : Json F}
    (hplain : ∀ name ∈ cfg.agent.allowedTools, PlainString name)
    (h : CallRun cfg st toolName arguments tr (.ok st')) (hs : st.CachesOwn cfg.agent) :
    st'.CachesOwn cfg.agent ∧ refusedCalls cfg.agent st'.toolCalls =
      refusedCalls cfg.agent st.toolCalls ++
        if cfg.agent.allows toolName then [] else [(toolName, arguments, true)] := by
  generalize hout : (Except.ok st' : Except Raised _) = out at h
  cases h with
  | repeated result hl =>
    obtain ⟨l₁, l₂, hcache, -⟩ := List.lookup_eq_some_iff.mp hl
    obtain ⟨name, hname, arguments', hkey⟩ :=
      hs (cacheKey toolName arguments, result) (by rw [hcache]; simp)
    obtain rfl := cacheKey_tool (hplain name hname) hkey
    have hst := mapError_eq_ok.mp hout.symm
    unfold repeatCall at hst
    cases hc : compactToolResult result cfg.maxObservationChars with
    | error e => rw [hc] at hst; cases hst
    | ok s =>
      rw [hc] at hst
      cases hst
      refine ⟨hs, ?_⟩
      rw [if_pos (allows_of_mem hname)]
      exact (refusedCalls_append _ _).trans (by rw [refusedCalls_allowed (allows_of_mem hname)])
  | failed e hl hrun =>
    cases hout
    refine ⟨hs, (refusedCalls_append _ _).trans ?_⟩
    by_cases ha : cfg.agent.allows toolName = true
    · rw [refusedCalls_allowed ha, if_pos ha]
    · rw [refusedCalls_refused (by simpa using ha), if_neg ha]
      rfl
  | result result hl hrun =>
    obtain ⟨name, hname, rfl⟩ := callTool_allows hrun
    cases hout
    have hown : ∀ kv ∈ st.callCache ++ [(cacheKey (.string name) arguments, result)],
        ∃ name ∈ cfg.agent.allowedTools, ∃ arguments : Json F,
          kv.1 = cacheKey (.string name) arguments := by
      intro kv hkv
      rcases List.mem_append.mp hkv with hkv | hkv
      · exact hs kv hkv
      · rw [List.mem_singleton.mp hkv]
        exact ⟨name, hname, arguments, rfl⟩
    have hallowed := allows_of_mem hname
    rw [if_pos hallowed, List.append_nil]
    unfold recordResult
    cases compactToolResult result cfg.maxObservationChars with
    | error e =>
      refine ⟨hown, (refusedCalls_append _ _).trans ?_⟩
      rw [refusedCalls_allowed hallowed, List.append_nil]
      exact (refusedCalls_append _ _).trans (by rw [refusedCalls_allowed hallowed, List.append_nil])
    | ok s =>
      refine ⟨hown, (refusedCalls_append _ _).trans ?_⟩
      rw [refusedCalls_allowed hallowed, List.append_nil]

/-- A tool call is no completion. -/
theorem callRun_refusals {toolName arguments : Json F} {out : Except Raised (LoopState F)}
    (h : CallRun cfg st toolName arguments tr out) : refusals agent tr = [] := by
  have hcall : ∀ {tr : Trace F} {o}, Runs (cfg.agent.callTool toolName arguments) tr o →
      refusals agent tr = [] := by
    intro tr o hrun
    rcases runs_callTool hrun with ⟨e, rfl, -⟩ | ⟨name, -, -, x, rfl, -⟩ <;> rfl
  cases h with
  | repeated result hl => rfl
  | failed e hl hrun => exact hcall hrun
  | result result hl hrun => exact hcall hrun

/-- An iteration that goes on records the tool that it was refused. -/
theorem iteration_next_refusedCalls [LawfulFloat F]
    (hplain : ∀ name ∈ cfg.agent.allowedTools, PlainString name)
    (h : IterationRun cfg st tr (.ok (.inl st'))) (hs : st.CachesOwn cfg.agent) :
    st'.CachesOwn cfg.agent ∧ refusedCalls cfg.agent st'.toolCalls =
      refusedCalls cfg.agent st.toolCalls ++ refusals cfg.agent tr := by
  generalize ho : (Except.ok (Sum.inl st') : Except Raised _) = out at h
  cases h with
  | @callTool raw decision t o hb hread hl hf hc hcall =>
    cases o with
    | error e => cases ho
    | ok st'' =>
      cases ho
      obtain ⟨hown, hrefused⟩ := callRun_refusedCalls hplain hcall hs
      refine ⟨hown, hrefused.trans (congrArg _ ?_)⟩
      have hrest : refusals cfg.agent t = [] := callRun_refusals hcall
      have hsplit : refusals cfg.agent ([⟨.complete st.messages cfg.model, .ok raw⟩] ++ t) = _ :=
        refusals_append _ t
      rw [List.singleton_append] at hsplit
      rw [hsplit, hrest, List.append_nil]
      by_cases ha : cfg.agent.allows (dictGet decision "tool") = true
      · rw [if_pos ha]
        simp [refusals, refusal, hl, ha]
      · rw [if_neg ha]
        have ha' : cfg.agent.allows (dictGet decision "tool") = false := by simpa using ha
        simp [refusals, refusal, hl, hc, ha']
  | _ => cases ho

/-- An iteration that ends the loop was refused nothing. -/
theorem iteration_exit_refusals {r : ToolLoopResult F}
    (h : IterationRun cfg st tr (.ok (.inr r))) : refusals agent tr = [] := by
  generalize ho : (Except.ok (Sum.inr r) : Except Raised _) = out at h
  cases h with
  | budget hb => rfl
  | llmFailed e hb => rfl
  | unparseable raw hb hread hl => simp [refusals, refusal, hl]
  | overLimit raw e hb hlimit => cases ho
  | notObject raw v e hb hread hl hv => cases ho
  | final raw decision hb hread hl hfinal =>
    have hcall : (dictGet decision "action").eqStr "call_tool" = false := by
      rw [Json.eqStr_eq_true.mp hfinal]
      rfl
    simp [refusals, refusal, hl, hcall]
  | unknownAction raw decision hb hread hl hf hc => simp [refusals, refusal, hl, hc]
  | @callTool raw decision t o hb hread hl hf hc hcall => cases o <;> cases ho

/-- A loop that returns has recorded each request that it was refused, once and with an error. -/
theorem runToolLoop_refusals [LawfulFloat F] {settings : Settings} {model : Str}
    {systemPrompt userQuery : Str} {maxIterations : Int}
    {maxObservationChars tokenBudget : Option Int} {r : ToolLoopResult F}
    (hplain : ∀ name ∈ agent.allowedTools, PlainString name)
    (h : Runs (runToolLoop settings model agent systemPrompt userQuery maxIterations
      maxObservationChars tokenBudget) tr (.ok r)) :
    refusedCalls agent r.toolCalls = refusals agent tr := by
  refine runs_loop_from (I := LoopState.CachesOwn agent) (Q := fun _ => True)
    (P := fun st tr out => ∀ r : ToolLoopResult F, out = .ok r →
      refusedCalls agent r.toolCalls = refusedCalls agent st.toolCalls ++ refusals agent tr)
    (fun st _ r hr => ?_) (fun st tr r _ _ hrun r' hr => ?_) (fun st tr e _ _ _ r hr => ?_)
    (fun st tr st' hs _ hrun => ?_) (fun kv hkv => (by cases hkv)) (fun _ _ => trivial) h r rfl
  · cases hr
    exact (List.append_nil _).symm
  · cases hr
    rw [iteration_exit_toolCalls (runs_iteration hrun),
      iteration_exit_refusals (runs_iteration hrun), List.append_nil]
  · cases hr
  · obtain ⟨hown, hrefused⟩ := iteration_next_refusedCalls hplain (runs_iteration hrun) hs
    refine ⟨hown, fun tr' out hP r hr => ?_⟩
    rw [hP r hr, hrefused, refusals_append, List.append_assoc]

/-! ## The turn -/

variable {settings : Settings} {salesAgent accountAgent : SubAgent F} {st₀ : GraphState F}

/-- A result of the agent has the requests that it was refused in these events, once each and with an
error. -/
def RecordsRefusals (agent : SubAgent F) (result : Option (ToolLoopResult F)) (tr : Trace F) : Prop :=
  ∀ r, result = some r → refusedCalls agent r.toolCalls = refusals agent tr

/-- The calls in the results of the sub-agents that are not of their own tools are the requests that
they were refused. -/
theorem FromAgents.refusedCalls_eq [LawfulFloat F] {st : GraphState F} {tr : TurnTrace F}
    (hsales : ∀ name ∈ salesAgent.allowedTools, PlainString name)
    (haccount : ∀ name ∈ accountAgent.allowedTools, PlainString name)
    (h₀ : st₀.salesResult = none ∧ st₀.accountResult = none)
    (h : FromAgents settings salesAgent accountAgent st₀ st tr) :
    (st.salesResult.toList.flatMap fun r => refusedCalls salesAgent r.toolCalls) =
        refusals salesAgent (Graph.traceOf .salesAgent tr) ∧
      (st.accountResult.toList.flatMap fun r => refusedCalls accountAgent r.toolCalls) =
        refusals accountAgent (Graph.traceOf .accountAgent tr) := by
  have hone : ∀ (agent : SubAgent F) (r : ToolLoopResult F),
      ((some r).toList.flatMap fun r => refusedCalls agent r.toolCalls) =
        refusedCalls agent r.toolCalls := fun agent r => List.append_nil _
  cases h with
  | before hst hasked =>
    rw [hst.1, hst.2, h₀.1, h₀.2, hasked .salesAgent (by simp), hasked .accountAgent (by simp)]
    exact ⟨rfl, rfl⟩
  | @ran st₁ st₂ agents tr₂ h₁ hg hst hasked =>
    rw [hst.1, hst.2, hasked .salesAgent (by simp), hasked .accountAgent (by simp)]
    have hno : st₁.salesResult = none ∧ st₁.accountResult = none :=
      ⟨h₁.1.trans h₀.1, h₁.2.trans h₀.2⟩
    cases hg with
    | sales hrun =>
      obtain ⟨query, r, -, rfl, hloop⟩ := runs_salesAgentNode hrun
      rw [Graph.traceOf_tag, if_pos rfl, Graph.traceOf_tag, if_neg (by simp)]
      refine ⟨(hone _ r).trans (runToolLoop_refusals hsales hloop), ?_⟩
      rw [show (st₁.apply { salesResult := some r }).accountResult = none from hno.2]
      rfl
    | account hrun =>
      obtain ⟨query, r, -, rfl, hloop⟩ := runs_accountAgentNode hrun
      rw [Graph.traceOf_tag Node.accountAgent, if_pos rfl, Graph.traceOf_tag, if_neg (by simp)]
      refine ⟨?_, (hone _ r).trans (runToolLoop_refusals haccount hloop)⟩
      rw [show (st₁.apply { accountResult := some r }).salesResult = none from hno.1]
      rfl
    | both hrun hrun' hi =>
      obtain ⟨query, r, -, rfl, hloop⟩ := runs_salesAgentNode hrun
      obtain ⟨query', r', -, rfl, hloop'⟩ := runs_accountAgentNode hrun'
      obtain ⟨hs, ha⟩ := Graph.traceOf_interleave (by simp) hi
      rw [hs, ha]
      exact ⟨(hone _ r).trans (runToolLoop_refusals hsales hloop),
        (hone _ r').trans (runToolLoop_refusals haccount hloop')⟩

/-- The results of the sub-agents have the requests that they were refused. -/
theorem FromAgents.recordsRefusals [LawfulFloat F] {st : GraphState F} {tr : TurnTrace F}
    (hsales : ∀ name ∈ salesAgent.allowedTools, PlainString name)
    (haccount : ∀ name ∈ accountAgent.allowedTools, PlainString name)
    (h₀ : st₀.salesResult = none ∧ st₀.accountResult = none)
    (h : FromAgents settings salesAgent accountAgent st₀ st tr) :
    RecordsRefusals salesAgent st.salesResult (Graph.traceOf .salesAgent tr) ∧
      RecordsRefusals accountAgent st.accountResult (Graph.traceOf .accountAgent tr) := by
  obtain ⟨hs, ha⟩ := h.refusedCalls_eq hsales haccount h₀
  refine ⟨fun r hr => ?_, fun r hr => ?_⟩
  · rw [hr] at hs
    exact (List.append_nil _).symm.trans hs
  · rw [hr] at ha
    exact (List.append_nil _).symm.trans ha

omit [PyFloat F] [Unicode] in
/-- A tool call of a node that may not make it. -/
def isStray : Node × Request F → Bool
  | (_, .complete _ _) => false
  | (node, .callTool name _) => !node.tools.contains name

/-- No node makes such a call. -/
theorem node_strays (hsales : salesAgent.allowedTools = salesAgentTools)
    (haccount : accountAgent.allowedTools = accountAgentTools) (node : Node) (st : GraphState F) :
    AtMost (fun r => isStray (node, r)) 0
      ((buildSupervisorGraph settings salesAgent accountAgent).node node st) := by
  have hnone : AtMost (fun r => isStray (node, r)) (node.bound 0 0)
      ((buildSupervisorGraph settings salesAgent accountAgent).node node st) := node_atMost node st
    (atMost_complete fun _ _ => rfl)
    (fun hnode => atMost_callTool fun name hname arguments => ?_)
    fun hnode => atMost_callTool fun name hname arguments => ?_
  · have hbound : node.bound 0 0 = 0 := by cases node <;> rfl
    rwa [hbound] at hnone
  · subst hnode
    rw [hsales] at hname
    simpa [isStray, Node.tools] using hname
  · rw [haccount] at hname
    rcases hnode with rfl | rfl <;> simpa [isStray, Node.tools] using hname

omit [PyFloat F] [Unicode] in
theorem plainString_tools : ∀ name ∈ salesAgentTools ++ accountAgentTools, PlainString name := by
  have hall : ∀ name ∈ salesAgentTools ++ accountAgentTools,
      (name.all fun c => dumpChar c = [c]) = true := by
    simp only [salesAgentTools, accountAgentTools, List.map_cons, List.map_nil, List.cons_append,
      List.nil_append, List.forall_mem_cons]
    decide
  intro name hname c hc
  simpa using List.all_eq_true.mp (hall name hname) c hc

/-- In every run of a turn, whether or not it goes on, the sub-agents and the escalate node call their
own tools only and the other nodes none; and a loop records each request for another tool as one entry
with an error, in the order of the requests, and has no other entry for such a tool. -/
theorem least_privilege [LawfulFloat F] (runner : Runner F) (identity : RequestIdentity)
    (messages : List Message) (hs : buildSalesAgent runner.registered = .ok salesAgent)
    (ha : buildAccountAgent runner.registered = .ok accountAgent) :
    (∀ sched tr, Begins (runTurn runner sched identity messages) tr →
      ∀ ev ∈ tr, ∀ name arguments, ev.req.2 = .callTool name arguments → name ∈ ev.req.1.tools) ∧
    ∀ n c, (buildSupervisorGraph runner.settings salesAgent accountAgent).Reach
        ⟨[.intake], [], initialState identity messages, []⟩ n c →
      RecordsRefusals salesAgent c.st.salesResult (Graph.traceOf .salesAgent c.tr) ∧
        RecordsRefusals accountAgent c.st.accountResult (Graph.traceOf .accountAgent c.tr) := by
  have hsales := buildSubAgent_allowedTools hs
  have haccount := buildSubAgent_allowedTools ha
  refine ⟨fun sched tr htr ev hev name arguments hreq => ?_, fun n c hr => ?_⟩
  · rw [runTurn_eq hs ha] at htr
    have hno := (AtMost.run (P := isStray) (node_strays hsales haccount) sched _ _ _ _).none htr ev hev
    obtain ⟨⟨node, r⟩, x⟩ := ev
    obtain rfl : r = .callTool name arguments := hreq
    simpa [isStray] using hno
  · have hplain := plainString_tools
    refine (turnAt_reach (by simp [initialState]) hr).fromAgents.recordsRefusals ?_ ?_ ⟨rfl, rfl⟩
    · rw [hsales]
      exact fun name hname => hplain name (List.mem_append_left _ hname)
    · rw [haccount]
      exact fun name hname => hplain name (List.mem_append_right _ hname)

end Refusals

/-! ## A turn with a request for another agent's tool -/

def deskRunner : Runner FloatLiteral where
  settings := { modelClassifier := "small", modelSynthesis := "large" }
  registered := (salesAgentTools ++ accountAgentTools).map fun name => ⟨name, none, []⟩
  longestPath := shopRunner.longestPath

/-- The LLM asks for a tool of the account agent in the sales loop, and then answers. -/
def strayAnswers : Env (Node × Request FloatLiteral) (fun r => Answer r.2) := fun history r =>
  match r with
  | (.router, .complete _ _) => .ok "\x7b\"routes\": [\"sales\"]\x7d"
  | (_, .complete _ _) => .ok (if history.length = 1 then
      "\x7b\"action\": \"call_tool\", \"tool\": \"list_my_orders\"\x7d" else "No.")
  | (_, .callTool _ _) => .error ⟨.runtimeError, []⟩

def strayTurn : TurnTrace FloatLiteral × Except Raised (List Node × GraphState FloatLiteral) :=
  exec strayAnswers [] (@runTurn FloatLiteral _ asciiUnicode deskRunner (fun _ _ _ => true)
    ⟨"s-1", none⟩ [⟨.user, "Hi"⟩])

/-- The requests that the sales loop is refused. -/
def strayRefusals : Except Exc (List (Json FloatLiteral × Json FloatLiteral × Bool)) :=
  (@buildSalesAgent FloatLiteral asciiUnicode _ deskRunner.registered).map fun salesAgent =>
    refusals salesAgent (Graph.traceOf .salesAgent strayTurn.1)

theorem deskRunner_missing : missingTools deskRunner.registered salesAgentTools = [] ∧
    missingTools deskRunner.registered accountAgentTools = [] := by
  decide

/-- The sub-agents of the turn, as they are built. -/
def deskSales : SubAgent FloatLiteral :=
  ⟨"sales_agent", salesAgentTools, salesAgentTools.filterMap (bindTool deskRunner.registered),
    mem_bindTool deskRunner_missing.1⟩

def deskAccount : SubAgent FloatLiteral :=
  ⟨"account_agent", accountAgentTools, accountAgentTools.filterMap (bindTool deskRunner.registered),
    mem_bindTool deskRunner_missing.2⟩

def strayReply : Str := "\x7b\"action\": \"call_tool\", \"tool\": \"list_my_orders\"\x7d"

/-- What `json.loads` makes of the replies. -/
theorem loads_stray :
    loads (F := FloatLiteral) "\x7b\"routes\": [\"sales\"]\x7d" =
      some (.object [("routes", .array [.string "sales"])]) ∧
    loads (F := FloatLiteral) strayReply =
      some (.object [("action", .string "call_tool"), ("tool", .string "list_my_orders")]) ∧
    loads (F := FloatLiteral) "No." = none := by
  decide +kernel

theorem readable_stray : Readable FloatLiteral "\x7b\"routes\": [\"sales\"]\x7d" ∧
    Readable FloatLiteral strayReply ∧ Readable FloatLiteral "No." :=
  ⟨readable_of_length_le (by decide) (by decide),
    readable_of_length_le (by decide) (by decide),
    readable_of_length_le (by decide) (by decide)⟩

/-- The state of the turn after the router. -/
def strayRouted : GraphState FloatLiteral :=
  (initialState ⟨"s-1", none⟩ [⟨.user, "Hi"⟩]).apply (@routerUpdate _ _ asciiUnicode
    [("routes", .array [.string "sales"])] (some [.sales]) "Hi")

/-- The same state for any identity. -/
def deskRouted (identity : RequestIdentity) : GraphState FloatLiteral :=
  (initialState identity [⟨.user, "Hi"⟩]).apply (@routerUpdate _ _ asciiUnicode
    [("routes", .array [.string "sales"])] (some [.sales]) "Hi")

/-- The sales loop at its start, and after the refused call. -/
def strayLoop : LoopState FloatLiteral where
  messages := [⟨.system, salesAgentSystemPrompt ++ str "\n\n" ++
    loopInstructions (toolDescriptions deskSales)⟩,
    ⟨.user, salesQuery (F := FloatLiteral) "Hi" strayRouted.priceFilters⟩]

def strayCalled : LoopState FloatLiteral :=
  recordError ⟨"small", deskSales, 800, 4000⟩ (strayLoop.append .assistant strayReply)
    (.string "list_my_orders") (.object [])
    (@notBound _ _ asciiUnicode deskSales (.string "list_my_orders"))

/-- The system message of the sales loop leaves room for others. -/
theorem deskMessages_short {messages : List Message} (h : estimateMessagesTokens messages ≤ 1000) :
    ¬ (4000 : Int) ≤ estimateMessagesTokens (⟨.system, salesAgentSystemPrompt ++ str "\n\n" ++
      loopInstructions (toolDescriptions deskSales)⟩ :: messages) := by
  have hsystem := estimateTokens_system_le length_agentPrompts_le.1
    (show (toolDescriptions deskSales).length ≤ 1000 by decide)
  have hadd : ∀ {a b : Nat}, a ≤ 1000 → b ≤ 1000 → ¬ (4000 : Int) ≤ ((a + b : Nat) : Int) := by
    omega
  rw [estimateMessagesTokens_cons]
  exact hadd hsystem h

/-- The sales loop when its first decision is refused and its second reply is no JSON. -/
theorem refusedLoop_runs {reply : Str} {decision : List (Str × Json FloatLiteral)}
    {toolName : Json FloatLiteral} {e : Exc} {called : LoopState FloatLiteral}
    (identity : RequestIdentity) (hread : Readable FloatLiteral reply)
    (hreply : loads reply = some (.object decision))
    (haction : dictGet decision "action" = .string "call_tool")
    (htool : dictGet decision "tool" = toolName)
    (harguments : (dictGet decision "arguments").orElse (.object []) = .object [])
    (hrefused : Runs (@SubAgent.callTool _ _ asciiUnicode deskSales toolName (.object [])) []
      (.error (.code e)))
    (hcalled : recordError ⟨"small", deskSales, 800, 4000⟩ (strayLoop.append .assistant reply)
      toolName (.object []) e = called)
    (hshort : estimateMessagesTokens (called.messages.drop 1) ≤ 1000) :
    Runs (@salesAgentNode _ _ asciiUnicode deskRunner.settings deskSales (deskRouted identity))
      [⟨.complete strayLoop.messages "small", .ok reply⟩,
        ⟨.complete called.messages "small", .ok "No."⟩]
      (.ok { salesResult := some { finalAnswer := .string "No.", toolCalls := called.toolCalls } }) := by
  let _ := asciiUnicode
  have hstart : strayLoop.messages = ⟨.system, salesAgentSystemPrompt ++ str "\n\n" ++
      loopInstructions (toolDescriptions deskSales)⟩ :: strayLoop.messages.drop 1 := rfl
  have hnext : called.messages = ⟨.system, salesAgentSystemPrompt ++ str "\n\n" ++
      loopInstructions (toolDescriptions deskSales)⟩ :: called.messages.drop 1 := by
    rw [← hcalled]
    rfl
  have hfirstShort : ¬ (4000 : Int) ≤ estimateMessagesTokens strayLoop.messages := by
    rw [hstart]
    exact deskMessages_short (by decide)
  have hnextShort : ¬ (4000 : Int) ≤ estimateMessagesTokens called.messages := by
    rw [hnext]
    exact deskMessages_short hshort
  have hcall : CallRun ⟨"small", deskSales, 800, 4000⟩ (strayLoop.append .assistant reply)
      (dictGet decision "tool") ((dictGet decision "arguments").orElse (.object [])) []
      (.ok called) := by
    rw [htool, harguments, ← hcalled]
    exact .failed (.code e) List.lookup_nil hrefused
  have hfirst : IterationRun ⟨"small", deskSales, 800, 4000⟩ strayLoop
      [⟨.complete strayLoop.messages "small", .ok reply⟩] (.ok (.inl called)) :=
    @IterationRun.callTool _ _ _ _ _ reply _ [] (.ok called) hfirstShort hread hreply
      (by rw [haction]; rfl) (by rw [haction]; rfl) hcall
  have hanswer : IterationRun ⟨"small", deskSales, 800, 4000⟩ called
      [⟨.complete called.messages "small", .ok "No."⟩]
      (.ok (.inr { finalAnswer := .string "No.", toolCalls := called.toolCalls })) :=
    .unparseable _ hnextShort readable_stray.2.2 loads_stray.2.2
  exact runs_bind_ok.mpr ⟨"Hi", [], _, rfl, runs_code_ok.mpr ⟨rfl, rfl⟩,
    runs_bind_ok.mpr ⟨_, _, [], rfl, hfirst.runs.loop_next hanswer.runs.loop_exit, .ret _⟩⟩

/-- The requests of the sales loop, with their answers. -/
def strayTrace : Trace FloatLiteral :=
  [⟨.complete strayLoop.messages "small", .ok strayReply⟩,
    ⟨.complete strayCalled.messages "small", .ok "No."⟩]

/-- The result of the sales loop. -/
def strayResult : ToolLoopResult FloatLiteral :=
  { finalAnswer := .string "No.", toolCalls := strayCalled.toolCalls }

theorem strayLoop_runs : Runs (@salesAgentNode _ _ asciiUnicode deskRunner.settings deskSales
    strayRouted) strayTrace (.ok { salesResult := some strayResult }) := by
  have hrefused : Runs (@SubAgent.callTool _ _ asciiUnicode deskSales (.string "list_my_orders")
      (.object [])) [] (.error (.code (@notBound _ _ asciiUnicode deskSales
        (.string "list_my_orders")))) := by
    unfold SubAgent.callTool
    simp only
    rw [if_neg (by decide +kernel)]
    exact .raise _
  exact refusedLoop_runs ⟨"s-1", none⟩ readable_stray.2.1 loads_stray.2.1 rfl rfl rfl hrefused
    (rfl : _ = strayCalled) (by decide +kernel)

/-- A turn of these agents that goes to the sales loop, up to `merge`. -/
theorem deskTurn_eq {env : Env (Node × Request FloatLiteral) (fun r => Answer r.2)}
    {identity : RequestIdentity} {t : Trace FloatLiteral} {r : ToolLoopResult FloatLiteral}
    {history : TurnTrace FloatLiteral}
    {rest : TurnTrace FloatLiteral × Except Raised (List Node × GraphState FloatLiteral)}
    (hrouter : env [] (.router, .complete [⟨.system, routerSystemPrompt⟩, ⟨.user, "Hi"⟩]
      deskRunner.settings.modelClassifier) = .ok "\x7b\"routes\": [\"sales\"]\x7d")
    (hloop : Runs (@salesAgentNode _ _ asciiUnicode deskRunner.settings deskSales
      (deskRouted identity)) t
      (.ok { salesResult := some r }))
    (hhistory : ⟨(.router, .complete [⟨.system, routerSystemPrompt⟩, ⟨.user, "Hi"⟩]
      deskRunner.settings.modelClassifier), .ok "\x7b\"routes\": [\"sales\"]\x7d"⟩ ::
        t.map (Event.tag .salesAgent) = history)
    (hanswers : Answers env [⟨(.router, .complete [⟨.system, routerSystemPrompt⟩, ⟨.user, "Hi"⟩]
      deskRunner.settings.modelClassifier), .ok "\x7b\"routes\": [\"sales\"]\x7d"⟩]
        (t.map (Event.tag .salesAgent)))
    (hrest : exec env history ((@buildSupervisorGraph _ _ asciiUnicode deskRunner.settings deskSales
      deskAccount).run (fun _ _ _ => true) (recursionError deskRunner.recursionLimit) 22 [.merge]
        ((deskRouted identity).apply { salesResult := some r })) = rest) :
    exec env [] (@runTurn FloatLiteral _ asciiUnicode deskRunner (fun _ _ _ => true)
      identity [⟨.user, "Hi"⟩]) = (history ++ rest.1,
        rest.2.map fun x => (.intake :: .router :: .salesAgent :: x.1, x.2)) := by
  let _ := asciiUnicode
  have hs : buildSalesAgent deskRunner.registered = .ok deskSales :=
    buildSubAgent_registered deskRunner_missing.1
  have ha : buildAccountAgent deskRunner.registered = .ok deskAccount :=
    buildSubAgent_registered deskRunner_missing.2
  have hdecision : routerDecision (str "\x7b\"routes\": [\"sales\"]\x7d") [⟨.user, "Hi"⟩] =
      .ok (routerUpdate (F := FloatLiteral) [("routes", .array [.string "sales"])] (some [.sales])
        "Hi") := by
    refine routerDecision_eq_ok.mpr ⟨_, _, _, readable_stray.1, ?_, rfl, rfl, rfl⟩
    rw [loads_stray.1]
    rfl
  have hroutes : (routesAfterRouter (deskRouted identity)).dedup = [.salesAgent] := by
    have hone : (routesAfterRouter strayRouted).dedup = [.salesAgent] := by decide +kernel
    exact hone
  subst hhistory hrest
  exact exec_runTurn_agent hs ha (rfl : deskRunner.recursionLimit = 22 + 1 + 2) (by decide +kernel)
    hrouter hdecision hroutes (.inl rfl) hloop hanswers rfl

/-- The turn up to `merge`, and from there on. -/
def strayHistory : TurnTrace FloatLiteral :=
  ⟨(.router, .complete [⟨.system, routerSystemPrompt⟩, ⟨.user, "Hi"⟩]
    deskRunner.settings.modelClassifier), .ok "\x7b\"routes\": [\"sales\"]\x7d"⟩ ::
  strayTrace.map (Event.tag .salesAgent)

def strayRest : TurnTrace FloatLiteral × Except Raised (List Node × GraphState FloatLiteral) :=
  exec strayAnswers strayHistory ((@buildSupervisorGraph _ _ asciiUnicode deskRunner.settings deskSales
    deskAccount).run (fun _ _ _ => true) (recursionError deskRunner.recursionLimit) 22 [.merge]
      (strayRouted.apply { salesResult := some strayResult }))

theorem strayTurn_eq : strayTurn = (strayHistory ++ strayRest.1,
    strayRest.2.map fun x => (.intake :: .router :: .salesAgent :: x.1, x.2)) := by
  refine deskTurn_eq rfl strayLoop_runs rfl ⟨?_, ?_, trivial⟩ rfl
  · simp only [strayAnswers, Event.tag, List.length_singleton, if_true]
    rfl
  · simp only [strayAnswers, Event.tag, List.length_append, List.length_singleton]
    rfl

theorem strayTurn_ends : strayTurn.2.map (fun x => x.2.salesResult.isSome) = .ok true ∧
    strayRefusals.map (·.map fun x => x.1.eqStr "list_my_orders") = .ok [true] := by
  rw [strayRefusals, strayTurn_eq]
  decide +kernel

/-- The turn has one request for a tool of another agent, and one entry with an error for it. -/
theorem strayTurn_refused : ∃ (salesAgent : SubAgent FloatLiteral) (path : List Node)
    (fin : GraphState FloatLiteral) (r : ToolLoopResult FloatLiteral) (arguments : Json FloatLiteral),
    strayTurn.2 = .ok (path, fin) ∧ fin.salesResult = some r ∧
      salesAgent.allowedTools = salesAgentTools ∧
      refusedCalls salesAgent r.toolCalls = [(.string "list_my_orders", arguments, true)] := by
  let _ := asciiUnicode
  obtain ⟨hresult, hrefusals⟩ := strayTurn_ends
  have hrun : Runs (runTurn deskRunner (fun _ _ _ => true) ⟨"s-1", none⟩ [⟨.user, "Hi"⟩])
      strayTurn.1 strayTurn.2 := exec_runs _ _ _
  unfold strayRefusals at hrefusals
  generalize strayTurn = turn at hresult hrefusals hrun
  obtain ⟨tr, out⟩ := turn
  cases out with
  | error e => cases hresult
  | ok x =>
    obtain ⟨path, fin⟩ := x
    obtain ⟨r, hr⟩ := Option.isSome_iff_exists.mp (Except.ok.inj hresult)
    obtain ⟨salesAgent, accountAgent, n, hs, ha, hreach⟩ := turn_reaches hrun
    have hrecords := ((least_privilege deskRunner _ _ hs ha).2 n _ hreach).1 r hr
    rw [hs] at hrefusals
    have hone : (refusals salesAgent (Graph.traceOf .salesAgent tr)).map
        (fun x => x.1.eqStr "list_my_orders") = [true] := Except.ok.inj hrefusals
    obtain ⟨x, hx, htool⟩ := List.map_eq_singleton_iff.mp hone
    obtain ⟨y, -, rfl⟩ := List.map_eq_singleton_iff.mp hx
    refine ⟨salesAgent, path, fin, r, y.2, rfl, hr, buildSubAgent_allowedTools hs, ?_⟩
    rw [hrecords, hx, ← Json.eqStr_eq_true.mp htool]

end DealershipAgent
