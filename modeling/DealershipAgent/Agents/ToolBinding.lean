import DealershipAgent.Agents.State
import DealershipAgent.Py.Json.Dump

/-!
# Tools bound to a sub-agent

`agents/tool_binding.py`. A `SubAgent` cannot be built with other tools than its allow-list, and
`SubAgent.callTool` checks each call again.
-/

namespace DealershipAgent

open Py Json Interact

/-- `SALES_AGENT_TOOLS` -/
def salesAgentTools : List Str := ["search_listings", "search_policy_docs"].map str

/-- `ACCOUNT_AGENT_TOOLS` -/
def accountAgentTools : List Str :=
  ["get_order_status", "list_my_orders", "escalate_to_human"].map str

structure ToolSpec (F : Type) where
  name : Str
  description : Str
  inputSchema : List (Str × Json F)

/-- A sub-agent. `bound` is what `__post_init__` checks. -/
structure SubAgent (F : Type) where
  name : Str
  allowedTools : List Str
  toolSpecs : List (ToolSpec F)
  bound : ∀ tool, tool ∈ toolSpecs.map ToolSpec.name ↔ tool ∈ allowedTools

section Build

variable {F : Type}

/-- A tool of the session's list. -/
structure RegisteredTool (F : Type) where
  name : Str
  description : Option Str
  inputSchema : List (Str × Json F)

/-- The last tool of that name: `registered_by_name`. -/
def registeredByName (registered : List (RegisteredTool F)) (toolName : Str) :
    Option (RegisteredTool F) :=
  registered.reverse.find? fun tool => tool.name = toolName

def bindTool (registered : List (RegisteredTool F)) (toolName : Str) : Option (ToolSpec F) :=
  (registeredByName registered toolName).map fun tool =>
    { name := toolName, description := tool.description.getD [], inputSchema := tool.inputSchema }

def missingTools (registered : List (RegisteredTool F)) (allowedTools : List Str) : List Str :=
  allowedTools.filter fun toolName => (registeredByName registered toolName).isNone

theorem mem_bindTool {registered : List (RegisteredTool F)} {allowedTools : List Str}
    (h : missingTools registered allowedTools = []) (tool : Str) :
    tool ∈ (allowedTools.filterMap (bindTool registered)).map ToolSpec.name ↔
      tool ∈ allowedTools := by
  simp only [List.mem_map, List.mem_filterMap, bindTool, Option.map_eq_some_iff]
  constructor
  · rintro ⟨spec, ⟨name, hname, found, -, rfl⟩, rfl⟩
    exact hname
  · intro ht
    have hf := List.filter_eq_nil_iff.mp h tool ht
    obtain ⟨found, hfound⟩ := Option.ne_none_iff_exists'.mp (by simpa using hf)
    exact ⟨_, ⟨tool, ht, found, hfound, rfl⟩, rfl⟩

/-- `build_sub_agent`, given what `session.list_tools()` returns. The order of the allow-list stands
for the iteration order of the `frozenset`. -/
def buildSubAgent (name : Str) (allowedTools : List Str) (registered : List (RegisteredTool F))
    [Unicode] [PyFloat F] : Except Exc (SubAgent F) :=
  if h : missingTools registered allowedTools = [] then
    .ok { name := name, allowedTools := allowedTools,
          toolSpecs := allowedTools.filterMap (bindTool registered), bound := mem_bindTool h }
  else
    let missing := (missingTools registered allowedTools).insertionSort fun a b => strLe a b
    .error ⟨.runtimeError, name ++ str ": tools not registered on the MCP server: " ++
      (Json.array (missing.map Json.string) : Json F).pyRepr⟩

def buildSalesAgent [Unicode] [PyFloat F] (registered : List (RegisteredTool F)) :
    Except Exc (SubAgent F) :=
  buildSubAgent "sales_agent" salesAgentTools registered

def buildAccountAgent [Unicode] [PyFloat F] (registered : List (RegisteredTool F)) :
    Except Exc (SubAgent F) :=
  buildSubAgent "account_agent" accountAgentTools registered

/-- A sub-agent is built exactly when all its tools are registered, and has its name and tools. -/
theorem buildSubAgent_eq_ok [Unicode] [PyFloat F] {name : Str} {allowedTools : List Str}
    {registered : List (RegisteredTool F)} :
    (∃ agent, buildSubAgent name allowedTools registered = .ok agent ∧ agent.name = name ∧
      agent.allowedTools = allowedTools) ↔
      ∀ toolName ∈ allowedTools, ∃ tool ∈ registered, tool.name = toolName := by
  have hm : missingTools registered allowedTools = [] ↔
      ∀ toolName ∈ allowedTools, ∃ tool ∈ registered, tool.name = toolName := by
    simp [missingTools, registeredByName]
  rw [← hm]
  unfold buildSubAgent
  split
  · next h => exact ⟨fun _ => h, fun _ => ⟨_, rfl, rfl, rfl⟩⟩
  · next h => exact ⟨fun ⟨agent, ho, _⟩ => (by cases ho), fun h' => absurd h' h⟩

/-- The sub-agent that is built when all its tools are registered. -/
theorem buildSubAgent_registered [Unicode] [PyFloat F] {name : Str} {allowedTools : List Str}
    {registered : List (RegisteredTool F)} (h : missingTools registered allowedTools = []) :
    buildSubAgent name allowedTools registered = .ok ⟨name, allowedTools,
      allowedTools.filterMap (bindTool registered), mem_bindTool h⟩ :=
  dif_pos h

theorem buildSubAgent_allowedTools [Unicode] [PyFloat F] {name : Str} {allowedTools : List Str}
    {registered : List (RegisteredTool F)} {agent : SubAgent F}
    (h : buildSubAgent name allowedTools registered = .ok agent) :
    agent.allowedTools = allowedTools := by
  unfold buildSubAgent at h
  split at h
  · cases h
    rfl
  · cases h

end Build

section CallTool

variable {F : Type} [PyFloat F] [Unicode]

omit [PyFloat F] [Unicode] in
/-- The `TypeError` of a value that a `frozenset` cannot look up. -/
def unhashable (v : Json F) : Exc :=
  ⟨.typeError, str "unhashable type: '" ++ v.typeName ++ str "'"⟩

/-- `f"{self.name} is not bound to tool {tool_name!r} (allowed: {sorted(self.allowed_tools)})"` -/
def notBound (agent : SubAgent F) (toolName : Json F) : Exc :=
  let allowed := agent.allowedTools.insertionSort fun a b => strLe a b
  ⟨.permissionError, agent.name ++ str " is not bound to tool " ++ toolName.pyRepr ++
    str " (allowed: " ++ (Json.array (allowed.map Json.string) : Json F).pyRepr ++ str ")"⟩

omit [PyFloat F] [Unicode] in
/-- The text of an error result. -/
def CallToolResult.errorMessage (result : CallToolResult F) : Str :=
  match result.content with
  | some text :: _ => text
  | _ => "tool call failed"

omit [PyFloat F] [Unicode] in
/-- The value of a result: what its structured content wraps, or that content itself. -/
def CallToolResult.value (result : CallToolResult F) : Json F :=
  match result.structuredContent with
  | some kvs => if dictHas kvs "result" then dictGet kvs "result" else .object kvs
  | none => .null

omit [PyFloat F] [Unicode] in
/-- What `call_tool` makes of a result of the session. -/
def CallToolResult.unwrap (toolName : Str) (result : CallToolResult F) : Except Exc (Json F) :=
  if result.isError then
    .error ⟨.runtimeError, toolName ++ str " failed: " ++ result.errorMessage⟩
  else .ok result.value

def SubAgent.callTool (agent : SubAgent F) (toolName arguments : Json F) : Program F (Json F) :=
  match toolName with
  | .array _ | .object _ => code (.error (unhashable toolName))
  | .string name =>
    if agent.allowedTools.contains name then do
      let result ← sessionCallTool name arguments
      code (result.unwrap name)
    else code (.error (notBound agent toolName))
  | _ => code (.error (notBound agent toolName))

/-- A run of a tool call: it is refused without a request, or the session is asked for a tool of the
allow-list. -/
theorem runs_callTool {agent : SubAgent F} {toolName arguments : Json F} {tr : Trace F}
    {out : Except Raised (Json F)} (h : Runs (agent.callTool toolName arguments) tr out) :
    (∃ e, tr = [] ∧ out = .error (.code e)) ∨
    ∃ name, toolName = .string name ∧ name ∈ agent.allowedTools ∧
      ∃ x : Except Exc (CallToolResult F), tr = [⟨.callTool name arguments, x⟩] ∧
        ((∃ e, x = .error e ∧ out = .error (.tool e)) ∨
          ∃ result, x = .ok result ∧ out = (result.unwrap name).mapError Raised.code) := by
  unfold SubAgent.callTool at h
  split at h
  · exact .inl ⟨_, runs_code.mp h⟩
  · exact .inl ⟨_, runs_code.mp h⟩
  · next name =>
    split at h
    · next hallowed =>
      refine .inr ⟨name, rfl, List.contains_iff_mem.mp hallowed, ?_⟩
      rcases runs_bind.mp h with ⟨result, tr₁, tr₂, rfl, h₁, h₂⟩ | ⟨e, h₁, rfl⟩
      · obtain ⟨x, rfl, hx⟩ := runs_sessionCallTool.mp h₁
        obtain ⟨rfl, rfl⟩ := runs_code.mp h₂
        cases x with
        | error e => cases hx
        | ok result' => cases hx; exact ⟨_, rfl, .inr ⟨_, rfl, rfl⟩⟩
      · obtain ⟨x, rfl, hx⟩ := runs_sessionCallTool.mp h₁
        cases x with
        | error e => cases hx; exact ⟨_, rfl, .inl ⟨_, rfl, rfl⟩⟩
        | ok result => cases hx
    · exact .inl ⟨_, runs_code.mp h⟩
  · exact .inl ⟨_, runs_code.mp h⟩

/-- A call of a bound tool whose result is no error. -/
theorem callTool_runs {agent : SubAgent F} {name : Str} {arguments : Json F}
    {result : CallToolResult F} (hname : name ∈ agent.allowedTools) (hok : result.isError = false) :
    Runs (agent.callTool (.string name) arguments) [⟨.callTool name arguments, .ok result⟩]
      (.ok result.value) := by
  have hunwrap : result.unwrap name = .ok result.value := if_neg (by simp [hok])
  unfold SubAgent.callTool
  simp only
  rw [if_pos (List.contains_iff_mem.mpr hname)]
  exact runs_bind_ok.mpr ⟨result, [_], [], rfl, runs_sessionCallTool.mpr ⟨.ok result, rfl, rfl⟩,
    runs_code_ok.mpr ⟨rfl, hunwrap⟩⟩

end CallTool

end DealershipAgent
