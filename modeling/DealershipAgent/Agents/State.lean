import DealershipAgent.Interact.Prog
import DealershipAgent.Py.Json.Value
import DealershipAgent.Tools.Identity

/-!
# Messages, requests and the supervisor graph's state

* `Request`, `Answer`: what a turn asks of the world: a completion of the LLM provider, a call of the
  tool session. Either may fail instead.
* `Raised`: an exception that goes through the program, with where it came from.
* `ToolLoopResult`, `GraphState`: `agents/state.py`. A field that the graph fills from untrusted JSON is
  a `Json` value, whatever its declared type.
-/

namespace DealershipAgent

open Py Interact

inductive Role where
  | system
  | user
  | assistant
deriving DecidableEq, Repr

structure Message where
  role : Role
  content : Str
deriving DecidableEq, Repr

/-- The settings that a turn reads (`config.py`). -/
structure Settings where
  modelClassifier : Str
  modelSynthesis : Str
  loopObservationMaxChars : Int := 800
  loopTokenBudget : Int := 4000

/-! ## The world of a turn -/

/-- A result of `ClientSession.call_tool`. -/
structure CallToolResult (F : Type) where
  isError : Bool := false
  /-- The content blocks; a block that is no text is `none`. -/
  content : List (Option Str) := []
  structuredContent : Option (List (Str × Json F)) := none

inductive Request (F : Type) where
  /-- `llm.complete(messages, model=model)` -/
  | complete (messages : List Message) (model : Str)
  /-- `session.call_tool(name, arguments)` -/
  | callTool (name : Str) (arguments : Json F)

/-- A completion text or a tool result, or the exception raised instead. -/
abbrev Answer {F : Type} : Request F → Type
  | .complete _ _ => Except Exc Str
  | .callTool _ _ => Except Exc (CallToolResult F)

/-- An exception and where it was raised: by the provider, by the session or by the code itself. -/
inductive Raised where
  | provider (exc : Exc)
  | tool (exc : Exc)
  | code (exc : Exc)
deriving DecidableEq, Repr

def Raised.exc : Raised → Exc
  | provider e => e
  | tool e => e
  | code e => e

abbrev Program (F α : Type) : Type := Prog (Request F) Answer Raised α

/-- A run's events. -/
abbrev Trace (F : Type) : Type := List (Event (Request F) Answer)

/-- `llm.complete(messages, model=model)`. -/
def complete {F : Type} (messages : List Message) (model : Str) : Program F Str :=
  .ask (.complete messages model) fun x : Except Exc Str => .lift (x.mapError Raised.provider)

/-- `session.call_tool(name, arguments)`. -/
def sessionCallTool {F : Type} (name : Str) (arguments : Json F) :
    Program F (CallToolResult F) :=
  .ask (.callTool name arguments) fun x : Except Exc (CallToolResult F) =>
    .lift (x.mapError Raised.tool)

/-- A step of the code that may raise. -/
def code {F α : Type} (x : Except Exc α) : Program F α := .lift (x.mapError Raised.code)

section Runs

variable {F α : Type} {tr : Trace F}

theorem runs_complete {messages : List Message} {model : Str} {out : Except Raised Str} :
    Runs (complete (F := F) messages model) tr out ↔ ∃ x : Except Exc Str,
      tr = [⟨.complete messages model, x⟩] ∧ out = x.mapError Raised.provider :=
  runs_ask_lift

theorem runs_sessionCallTool {name : Str} {arguments : Json F}
    {out : Except Raised (CallToolResult F)} :
    Runs (sessionCallTool name arguments) tr out ↔ ∃ x : Except Exc (CallToolResult F),
      tr = [⟨.callTool name arguments, x⟩] ∧ out = x.mapError Raised.tool :=
  runs_ask_lift

theorem mapError_eq_ok {ε ε' β : Type} {f : ε → ε'} {x : Except ε β} {a : β} :
    x.mapError f = .ok a ↔ x = .ok a := by
  cases x <;> simp [Except.mapError]

/-- A completion that returns. -/
theorem runs_complete_ok {messages : List Message} {model raw : Str} :
    Runs (complete (F := F) messages model) tr (.ok raw) ↔
      tr = [⟨.complete messages model, .ok raw⟩] := by
  rw [runs_complete]
  constructor
  · rintro ⟨x, rfl, hx⟩
    rw [mapError_eq_ok.mp hx.symm]
  · rintro rfl
    exact ⟨.ok raw, rfl, rfl⟩

@[simp] theorem runs_code {x : Except Exc α} {out : Except Raised α} :
    Runs (code (F := F) x) tr out ↔ tr = [] ∧ out = x.mapError Raised.code := by
  rw [code, runs_lift]

/-- A step of the code that returns. -/
theorem runs_code_ok {x : Except Exc α} {a : α} :
    Runs (code (F := F) x) tr (.ok a) ↔ tr = [] ∧ x = .ok a := by
  rw [runs_code, eq_comm (a := Except.ok a), mapError_eq_ok]

/-- A program that goes on after a completion, or after its exception. -/
theorem runs_asked {messages : List Message} {model : Str} {x : Except Exc Str}
    {k : Except Raised Str → Program F α} {out : Except Raised α}
    (h : Runs (k (x.mapError Raised.provider)) tr out) :
    Runs ((complete messages model).attempt >>= k) (⟨.complete messages model, x⟩ :: tr) out :=
  runs_bind.mpr (.inl ⟨_, [_], tr, rfl, runs_attempt.mpr ⟨_, runs_complete.mpr ⟨x, rfl, rfl⟩, rfl⟩,
    h⟩)

/-- A program that goes on after a step of the code. -/
theorem runs_coded {x : Except Exc β} {b : β} {k : β → Program F α} {out : Except Raised α}
    (hx : x = .ok b) (h : Runs (k b) tr out) : Runs (code x >>= k) tr out :=
  runs_bind.mpr (.inl ⟨b, [], tr, rfl, runs_code_ok.mpr ⟨rfl, hx⟩, h⟩)

end Runs

/-- `P` of the text, where the event is a completion that returned one. -/
def OnReply {F : Type} (P : Str → Prop) : Event (Request F) Answer → Prop
  | ⟨.complete _ _, .ok raw⟩ => P raw
  | ⟨.complete _ _, .error _⟩ => True
  | ⟨.callTool _ _, _⟩ => True

/-! ## Tool loop results -/

/-- What became of a tool call. -/
inductive CallOutcome (F : Type) where
  | result (value : Json F)
  /-- A repeated call, answered with the earlier result. -/
  | cached (value : Json F)
  | error (text : Str)

/-- An entry of `tool_calls`. -/
structure ToolCall (F : Type) where
  tool : Json F
  arguments : Json F
  outcome : CallOutcome F

structure ToolLoopResult (F : Type) where
  /-- `null` when there is none. -/
  finalAnswer : Json F
  toolCalls : List (ToolCall F)
  hitCap : Bool := false
  llmCallFailed : Bool := false
  hitBudgetGuard : Bool := false

/-- The result of a call that has one. -/
def ToolCall.returned {F : Type} (call : ToolCall F) : Option (Json F) :=
  match call.outcome with
  | .result v => some v
  | .cached v => some v
  | .error _ => none

/-- `call.get("result")`. -/
def ToolCall.resultOrNone {F : Type} (call : ToolCall F) : Json F := call.returned.getD .null

/-- `"error" in call`. -/
def ToolCall.hasError {F : Type} (call : ToolCall F) : Bool :=
  match call.outcome with
  | .error _ => true
  | _ => false

def CallOutcome.members {F : Type} : CallOutcome F → List (Str × Json F)
  | .result v => [("result", v)]
  | .cached v => [("result", v), ("cached", .bool true)]
  | .error text => [("error", .string text)]

/-- The entry as the `dict` that it is. -/
def ToolCall.toJson {F : Type} (call : ToolCall F) : Json F :=
  .object (("tool", call.tool) :: ("arguments", call.arguments) :: call.outcome.members)

def ToolLoopResult.toJson {F : Type} (r : ToolLoopResult F) : Json F :=
  .object [("final_answer", r.finalAnswer), ("tool_calls", .array (r.toolCalls.map ToolCall.toJson)),
    ("hit_cap", .bool r.hitCap), ("llm_call_failed", .bool r.llmCallFailed),
    ("hit_budget_guard", .bool r.hitBudgetGuard)]

/-! ## The state of the graph -/

/-- `VALID_ROUTES` -/
inductive Route where
  | sales
  | account
  | clarify
  | escalate
deriving DecidableEq, Repr

/-- `PriceFilters`: one bound or the other. -/
inductive PriceFilters where
  | priceMax
  | priceMin
deriving DecidableEq, Repr

/-- `GraphState`. An absent field reads as `None`. -/
structure GraphState (F : Type) where
  messages : List Message
  identity : RequestIdentity
  routes : List Route := []
  orderRef : Json F := .null
  priceFilters : Option PriceFilters := none
  clarifyQuestion : Json F := .null
  escalateSummary : Json F := .null
  escalateReason : Json F := .null
  salesResult : Option (ToolLoopResult F) := none
  accountResult : Option (ToolLoopResult F) := none
  escalateResult : Json F := .null
  finalResponse : Json F := .null
  degraded : Bool := false
  degradationReasons : List Str := []

/-- A node's update: the fields that it sets. -/
structure StateUpdate (F : Type) where
  routes : Option (List Route) := none
  orderRef : Option (Json F) := none
  priceFilters : Option (Option PriceFilters) := none
  clarifyQuestion : Option (Json F) := none
  escalateSummary : Option (Json F) := none
  escalateReason : Option (Json F) := none
  salesResult : Option (ToolLoopResult F) := none
  accountResult : Option (ToolLoopResult F) := none
  escalateResult : Option (Json F) := none
  finalResponse : Option (Json F) := none
  degraded : Option Bool := none
  degradationReasons : Option (List Str) := none

/-- The state with an update over it. -/
def GraphState.apply {F : Type} (st : GraphState F) (u : StateUpdate F) : GraphState F where
  messages := st.messages
  identity := st.identity
  routes := u.routes.getD st.routes
  orderRef := u.orderRef.getD st.orderRef
  priceFilters := u.priceFilters.getD st.priceFilters
  clarifyQuestion := u.clarifyQuestion.getD st.clarifyQuestion
  escalateSummary := u.escalateSummary.getD st.escalateSummary
  escalateReason := u.escalateReason.getD st.escalateReason
  salesResult := u.salesResult.or st.salesResult
  accountResult := u.accountResult.or st.accountResult
  escalateResult := u.escalateResult.getD st.escalateResult
  finalResponse := u.finalResponse.getD st.finalResponse
  degraded := u.degraded.getD st.degraded
  degradationReasons := u.degradationReasons.getD st.degradationReasons

end DealershipAgent
